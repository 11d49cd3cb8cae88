import Mathlib.Data.List.Basic
import Mathlib.Data.List.Induction

/-! # Histories

A history lists what happened, oldest first. Three kinds of statements about it
recur: each entry is justified by what precedes it, some entry still stands
because nothing after it revoked it, and the last entry on a matter decides it.
-/

namespace Foundation.History

variable {α : Type}

/-- Each entry of the history is justified by the entries before it. -/
def Justified (justifies : List α → α → Prop) (history : List α) : Prop :=
  ∀ before entry after, history = before ++ entry :: after → justifies before entry

variable {justifies : List α → α → Prop} {history : List α}

theorem Justified.nil : Justified justifies ([] : List α) := by
  intro before entry after h
  simp at h

theorem Justified.concat (h : Justified justifies history) {entry : α}
    (hentry : justifies history entry) : Justified justifies (history ++ [entry]) := by
  intro before entry' after heq
  rcases after.eq_nil_or_concat with rfl | ⟨after, last, rfl⟩
  · obtain ⟨rfl, hlast⟩ := List.append_inj' heq rfl
    cases hlast
    exact hentry
  · rw [List.concat_eq_append, ← List.cons_append, ← List.append_assoc] at heq
    exact h before entry' after (List.append_inj' heq rfl).1

theorem justified_concat_iff {entry : α} : Justified justifies (history ++ [entry]) ↔
    Justified justifies history ∧ justifies history entry := by
  constructor
  · intro h
    refine ⟨fun before other after heq => ?_, h history entry [] rfl⟩
    exact h before other (after ++ [entry]) (by simp [heq])
  · rintro ⟨hhistory, hentry⟩
    exact hhistory.concat hentry

theorem justified_cons_iff {entry : α} : Justified justifies (entry :: history) ↔
    justifies [] entry ∧ Justified (fun before => justifies (entry :: before)) history := by
  constructor
  · intro h
    refine ⟨h [] entry history rfl, ?_⟩
    rintro before other after rfl
    exact h (entry :: before) other after rfl
  · rintro ⟨hentry, hhistory⟩ before other after heq
    cases before with
    | nil =>
        cases heq
        exact hentry
    | cons first before =>
        cases heq
        exact hhistory before other after rfl

theorem justified_iff_getElem : Justified justifies history ↔
    ∀ i : Fin history.length, justifies (history.take i) history[i] := by
  constructor
  · intro h i
    exact h _ _ _ ((List.take_append_drop i history).symm.trans
      (congrArg (history.take i ++ ·) (List.drop_eq_getElem_cons i.isLt)))
  · rintro h before entry after rfl
    simpa using h ⟨before.length, by simp⟩

instance [∀ before entry, Decidable (justifies before entry)] :
    Decidable (Justified justifies history) :=
  decidable_of_iff' _ justified_iff_getElem

/-- Some entry was valid where it stands, and no later one revokes it. -/
def Stands (valid : List α → α → Prop) (revokes : α → Prop) (history : List α) : Prop :=
  ∃ before entry after, history = before ++ entry :: after ∧ valid before entry ∧
    ∀ later ∈ after, ¬ revokes later

variable {valid : List α → α → Prop} {revokes : α → Prop}

theorem Stands.concat {entry : α} (hvalid : valid history entry) :
    Stands valid revokes (history ++ [entry]) :=
  ⟨history, entry, [], rfl, hvalid, by simp⟩

theorem Stands.append (h : Stands valid revokes history) {entries : List α}
    (hentries : ∀ entry ∈ entries, ¬ revokes entry) :
    Stands valid revokes (history ++ entries) := by
  obtain ⟨before, entry, after, rfl, hvalid, hafter⟩ := h
  refine ⟨before, entry, after ++ entries, by simp, hvalid, fun later hlater => ?_⟩
  rcases List.mem_append.mp hlater with hlater | hlater
  · exact hafter later hlater
  · exact hentries later hlater

/-- The last entry is valid itself, or spares what stood before it. -/
theorem stands_concat_iff {entry : α} : Stands valid revokes (history ++ [entry]) ↔
    valid history entry ∨ ¬ revokes entry ∧ Stands valid revokes history := by
  constructor
  · rintro ⟨before, other, after, heq, hvalid, hafter⟩
    rcases after.eq_nil_or_concat with rfl | ⟨after, last, rfl⟩
    · obtain ⟨rfl, hlast⟩ := List.append_inj' heq rfl
      cases hlast
      exact .inl hvalid
    · rw [List.concat_eq_append, ← List.cons_append, ← List.append_assoc] at heq
      obtain ⟨rfl, hlast⟩ := List.append_inj' heq rfl
      cases hlast
      rw [List.concat_eq_append, List.forall_mem_append, List.forall_mem_singleton] at hafter
      exact .inr ⟨hafter.2, before, other, after, rfl, hvalid, hafter.1⟩
  · rintro (hvalid | ⟨hspared, hstands⟩)
    · exact .concat hvalid
    · exact hstands.append (List.forall_mem_singleton.mpr hspared)

theorem not_stands_nil : ¬ Stands valid revokes ([] : List α) := by
  rintro ⟨before, entry, after, heq, -⟩
  simp at heq

/-- A property that an entry establishes after what precedes it, revokes or leaves alone
has the last word of the history, or that of the start. -/
theorem foldl_iff_stands {σ : Type} {step : σ → α → σ} {holds : σ → Prop} {start : σ}
    (hstep : ∀ history entry, holds (step (history.foldl step start) entry) ↔
      valid history entry ∨ ¬ revokes entry ∧ holds (history.foldl step start))
    (history : List α) : holds (history.foldl step start) ↔
      Stands valid revokes history ∨ (∀ entry ∈ history, ¬ revokes entry) ∧ holds start := by
  induction history using List.reverseRecOn with
  | nil =>
      constructor
      · intro h
        exact .inr ⟨nofun, h⟩
      · rintro (hstands | ⟨-, h⟩)
        · exact absurd hstands not_stands_nil
        · exact h
  | append_singleton history entry ih =>
      rw [List.foldl_concat, hstep, ih, stands_concat_iff, List.forall_mem_append,
        List.forall_mem_singleton]
      tauto

/-! ## The last word -/

variable {β : Type} {word : α → Option β} {start : β}

/-- What the last entry says that says anything, or else what was said at the start. -/
def lastWord (word : α → Option β) (start : β) (history : List α) : β :=
  (history.filterMap word).getLast?.getD start

theorem lastWord_concat (history : List α) (entry : α) :
    lastWord word start (history ++ [entry]) =
      (word entry).getD (lastWord word start history) := by
  unfold lastWord
  rw [List.filterMap_append]
  cases hentry : word entry with
  | none =>
      rw [List.filterMap_cons_none hentry, List.filterMap_nil, List.append_nil, Option.getD_none]
  | some said =>
      rw [List.filterMap_cons_some hentry, List.filterMap_nil, List.getLast?_concat,
        Option.getD_some, Option.getD_some]

end Foundation.History
