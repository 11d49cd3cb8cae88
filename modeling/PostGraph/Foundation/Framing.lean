import PostGraph.Foundation.Text

/-! # Lines of a byte stream

A line ends at its first LF. A stream splits in one way into lines within a
limit, followed by what stopped the splitting: the end of the stream, an
unterminated tail, or something longer than the limit.
-/

namespace Foundation.Framing

/-- One line with its LF, the only one in it. -/
def IsLine (line : Bytes) : Prop := ∃ body, lf ∉ body ∧ line = body ++ [lf]

/-- What stands behind the last line that was split off. -/
inductive Ending where
  | clean
  | unterminated
  | overlong
  deriving DecidableEq, Repr

/-- The stream is the given lines, each within the limit, and then ends so. -/
inductive Framed (limit : Nat) : Bytes → List Bytes → Ending → Prop
  | clean : Framed limit [] [] .clean
  | unterminated {tail : Bytes} (hne : tail ≠ []) (hopen : lf ∉ tail)
      (hlength : tail.length ≤ limit) : Framed limit tail [] .unterminated
  | overlongTail {tail : Bytes} (hopen : lf ∉ tail) (hlength : limit < tail.length) :
      Framed limit tail [] .overlong
  | overlongLine {line : Bytes} (rest : Bytes) (hline : IsLine line)
      (hlength : limit < line.length) : Framed limit (line ++ rest) [] .overlong
  | line {line rest : Bytes} {lines : List Bytes} {ending : Ending} (hline : IsLine line)
      (hlength : line.length ≤ limit) (hrest : Framed limit rest lines ending) :
      Framed limit (line ++ rest) (line :: lines) ending

/-- A stream with an LF starts with a line. -/
theorem exists_line_of_mem {stream : Bytes} (hmem : lf ∈ stream) :
    ∃ line rest, IsLine line ∧ stream = line ++ rest := by
  obtain ⟨body, rest, hstream, hbody⟩ := List.eq_append_cons_of_mem hmem
  exact ⟨body ++ [lf], rest, ⟨body, hbody, rfl⟩, by simp [hstream]⟩

/-- A CR in front of its LF does not matter. -/
theorem isLine_append {body ending : Bytes} (hbody : lf ∉ body)
    (hending : ending = [cr, lf] ∨ ending = [lf]) : IsLine (body ++ ending) := by
  rcases hending with rfl | rfl
  · refine ⟨body ++ [cr], ?_, by rw [List.append_assoc, List.singleton_append]⟩
    rw [List.mem_append, not_or]
    exact ⟨hbody, by decide⟩
  · exact ⟨body, hbody, rfl⟩

theorem IsLine.length_pos {line : Bytes} (hline : IsLine line) : 0 < line.length := by
  obtain ⟨body, _, rfl⟩ := hline
  simp

/-- Every stream is framed in some way. -/
theorem Framed.exists (limit : Nat) (stream : Bytes) :
    ∃ lines ending, Framed limit stream lines ending := by
  by_cases hmem : lf ∈ stream
  · obtain ⟨line, rest, hline, hstream⟩ := exists_line_of_mem hmem
    have hshorter : rest.length < stream.length := by
      rw [hstream, List.length_append]
      have := hline.length_pos
      omega
    obtain ⟨lines, ending, hrest⟩ := Framed.exists limit rest
    rw [hstream]
    by_cases hlength : line.length ≤ limit
    · exact ⟨line :: lines, ending, .line hline hlength hrest⟩
    · exact ⟨[], .overlong, .overlongLine rest hline (by omega)⟩
  · by_cases hlength : limit < stream.length
    · exact ⟨[], .overlong, .overlongTail hmem hlength⟩
    · by_cases hne : stream = []
      · exact ⟨[], .clean, hne ▸ .clean⟩
      · exact ⟨[], .unterminated, .unterminated hne hmem (by omega)⟩
termination_by stream.length

end Foundation.Framing
