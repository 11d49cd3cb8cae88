import Mathlib.Data.List.Sort

/-! # Selection by sorting

The first element of a sorted list with a property stands before all others
with it.
-/

namespace Foundation.Selection

variable {α β : Type} {r : α → α → Prop} [DecidableRel r] {p : α → Bool} {l : List α} {a : α}

theorem findSome?_ite (p : α → Bool) (f : α → β) (l : List α) :
    (l.findSome? fun a => if p a then some (f a) else none) = (l.find? p).map f := by
  induction l with
  | nil => rfl
  | cons a rest ih =>
      rw [List.findSome?_cons, List.find?_cons]
      cases p a with
      | true => rfl
      | false => exact ih

/-- What is selected is a member, and none with the property has to stand before it. -/
theorem find?_insertionSort [Std.Total r] [IsTrans α r]
    (h : (l.insertionSort r).find? p = some a) : a ∈ l ∧ p a = true ∧
      ∀ b ∈ l, p b = true → r a b := by
  have hsorted := List.pairwise_insertionSort r l
  obtain ⟨ha, before, after, hsplit, hbefore⟩ := List.find?_eq_some_iff_append.mp h
  have hmem : ∀ b, b ∈ l ↔ b ∈ before ++ a :: after := by
    intro b
    rw [← hsplit, List.mem_insertionSort]
  refine ⟨(hmem a).mpr (by simp), ha, ?_⟩
  intro b hb hpb
  rw [hsplit, List.pairwise_append, List.pairwise_cons] at hsorted
  rw [hmem, List.mem_append, List.mem_cons] at hb
  rcases hb with hb | rfl | hb
  · have hnot := hbefore b hb
    rw [hpb] at hnot
    cases hnot
  · exact (Std.Total.total b b).elim id id
  · exact hsorted.2.1.1 b hb

theorem find?_insertionSort_eq_none (h : (l.insertionSort r).find? p = none) :
    ∀ b ∈ l, p b = false := by
  intro b hb
  rw [List.find?_eq_none] at h
  simpa using h b ((List.mem_insertionSort r).mpr hb)

end Foundation.Selection
