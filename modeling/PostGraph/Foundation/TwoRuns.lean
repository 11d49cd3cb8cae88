import PostGraph.Foundation.Program

/-! # Two runs

Two runs of programs agree if they return the same value or fail with the same
error, in related states. A machine answers inputs and may fail; two of its
states are indistinguishable if the same inputs get the same answers from both.
-/

namespace Foundation

variable {ε σ α β : Type}

/-- Both programs return the same value in states that go on, or fail with the
same error in states that end. -/
def Agree (live ended : σ → σ → Prop) (first second : EStateM ε σ α) (s t : σ) : Prop :=
  match first s, second t with
  | .ok a s', .ok b t' => a = b ∧ live s' t'
  | .error e s', .error f t' => e = f ∧ ended s' t'
  | _, _ => False

namespace Agree

variable {live ended : σ → σ → Prop} {first second : EStateM ε σ α} {s t : σ}

theorem pure {a : α} (h : live s t) :
    Agree live ended (Pure.pure a : EStateM ε σ α) (Pure.pure a) s t := ⟨rfl, h⟩

theorem throw {e : ε} (h : ended s t) :
    Agree live ended (throw e : EStateM ε σ α) (throw e) s t := ⟨rfl, h⟩

theorem bind {next next' : α → EStateM ε σ β} (h : Agree live ended first second s t)
    (hnext : ∀ a s' t', live s' t' → Agree live ended (next a) (next' a) s' t') :
    Agree live ended (first >>= next) (second >>= next') s t := by
  unfold Agree at h
  unfold Agree
  rw [bind_apply, bind_apply]
  split at h
  next a s' b t' hs ht =>
    obtain ⟨rfl, hlive⟩ := h
    rw [hs, ht]
    exact hnext a s' t' hlive
  next e s' f t' hs ht =>
    rw [hs, ht]
    exact h
  next => exact h.elim

theorem get_bind {next next' : σ → EStateM ε σ α} (h : Agree live ended (next s) (next' t) s t) :
    Agree live ended (get >>= next) (get >>= next') s t := h

theorem modify {f f' : σ → σ} (h : live (f s) (f' t)) :
    Agree live ended (modify f : EStateM ε σ PUnit) (modify f') s t := ⟨rfl, h⟩

end Agree

/-! ## Agreement up to a telling state -/

/-- The programs agree, unless the first one ends in a state that tells. -/
def AgreeUnless (tells : σ → Prop) (live ended : σ → σ → Prop) (first second : EStateM ε σ α)
    (s t : σ) : Prop :=
  Agree live ended first second s t ∨ Sat first s (fun _ => tells) fun _ => tells

/-- Programs after each other, of which no second one takes back what the first tells. -/
theorem AgreeUnless.bind {tells : σ → Prop} {live ended : σ → σ → Prop}
    {first second : EStateM ε σ α} {next next' : α → EStateM ε σ β} {s t : σ}
    (h : AgreeUnless tells live ended first second s t)
    (hnext : ∀ a s' t', live s' t' → AgreeUnless tells live ended (next a) (next' a) s' t')
    (hkeeps : ∀ a s', tells s' → Sat (next a) s' (fun _ => tells) fun _ => tells) :
    AgreeUnless tells live ended (first >>= next) (second >>= next') s t := by
  rcases h with hagree | htold
  · unfold Agree at hagree
    unfold AgreeUnless Agree Sat
    rw [bind_apply, bind_apply]
    split at hagree
    next a s' b t' hs ht =>
      obtain ⟨rfl, hlive⟩ := hagree
      rw [hs, ht]
      exact hnext a s' t' hlive
    next e s' e' t' hs ht =>
      rw [hs, ht]
      exact .inl hagree
    next => exact hagree.elim
  · exact .inr (htold.bind hkeeps)

/-- The programs return the same, fail in the same way, or the first one tells. -/
theorem AgreeUnless.cases {tells : σ → Prop} {live ended : σ → σ → Prop}
    {first second : EStateM ε σ α} {s t : σ} (h : AgreeUnless tells live ended first second s t) :
    (∃ a s' t', first s = .ok a s' ∧ second t = .ok a t' ∧ live s' t') ∨
      (∃ e s' t', first s = .error e s' ∧ second t = .error e t' ∧ ended s' t') ∨
      Sat first s (fun _ => tells) fun _ => tells := by
  rcases h with hagree | htold
  · unfold Agree at hagree
    split at hagree
    next a s' b t' hs ht =>
      obtain ⟨rfl, hlive⟩ := hagree
      exact .inl ⟨a, s', t', hs, ht, hlive⟩
    next e s' e' t' hs ht =>
      obtain ⟨rfl, hended⟩ := hagree
      exact .inr (.inl ⟨e, s', t', hs, ht, hended⟩)
    next => exact hagree.elim
  · exact .inr (.inr htold)

/-! ## Images of states -/

section Mirrors

variable {τ : Type} {f : σ → τ}

/-- From the image of a state, the second program does the image of what the first one
does from the state. -/
def Mirrors (f : σ → τ) (program : EStateM ε σ α) (image : EStateM ε τ α) (s : σ) : Prop :=
  image (f s) = match program s with
    | .ok a t => .ok a (f t)
    | .error e t => .error e (f t)

namespace Mirrors

variable {program : EStateM ε σ α} {image : EStateM ε τ α} {s : σ}

theorem pure (a : α) : Mirrors f (Pure.pure a : EStateM ε σ α) (Pure.pure a) s := rfl

theorem throw (e : ε) : Mirrors f (throw e : EStateM ε σ α) (throw e) s := rfl

theorem bind {next : α → EStateM ε σ β} {next' : α → EStateM ε τ β}
    (h : Mirrors f program image s) (hnext : ∀ a t, Mirrors f (next a) (next' a) t) :
    Mirrors f (program >>= next) (image >>= next') s := by
  unfold Mirrors at h ⊢
  rw [bind_apply, bind_apply, h]
  cases program s with
  | ok a t => exact hnext a t
  | error e t => rfl

theorem get_bind {next : σ → EStateM ε σ α} {next' : τ → EStateM ε τ α}
    (h : Mirrors f (next s) (next' (f s)) s) :
    Mirrors f (get >>= next) (get >>= next') s := h

end Mirrors

end Mirrors

namespace Flow

variable {ρ : Type}

/-- The result, once the loop has stopped. -/
def result : Flow σ ρ → Option ρ
  | running _ => none
  | stopped _ result => some result

/-- The same loop in images of its states. -/
def map {τ : Type} (f : σ → τ) : Flow σ ρ → Flow τ ρ
  | running s => running (f s)
  | stopped s result => stopped (f s) result

@[simp] theorem map_state {τ : Type} (f : σ → τ) (flow : Flow σ ρ) :
    (flow.map f).state = f flow.state := by
  cases flow <;> rfl

/-- Both loops still run, or both have stopped with the same result. -/
def Agree (live ended : σ → σ → Prop) : Flow σ ρ → Flow σ ρ → Prop
  | running s, running t => live s t
  | stopped s result, stopped t result' => result = result' ∧ ended s t
  | _, _ => False

variable {live ended : σ → σ → Prop}

theorem step_agree {body : σ → Flow σ ρ}
    (hbody : ∀ s t, live s t → Agree live ended (body s) (body t)) {first second : Flow σ ρ}
    (h : Agree live ended first second) :
    Agree live ended (step body first) (step body second) := by
  cases first with
  | running s =>
      cases second with
      | running t => exact hbody s t h
      | stopped t result => exact h.elim
  | stopped s result =>
      cases second with
      | running t => exact h.elim
      | stopped t result' => exact h

/-- If one execution of the body keeps two loops in agreement, they agree after
every number of iterations. -/
theorem iterate_agree {body : σ → Flow σ ρ}
    (hbody : ∀ s t, live s t → Agree live ended (body s) (body t)) {first second : Flow σ ρ}
    (h : Agree live ended first second) (count : Nat) :
    Agree live ended (iterate body count first) (iterate body count second) := by
  induction count with
  | zero => exact h
  | succ count ih => exact step_agree hbody ih

theorem Agree.result_eq {first second : Flow σ ρ} (h : Agree live ended first second) :
    first.result = second.result := by
  cases first with
  | running s =>
      cases second with
      | running t => rfl
      | stopped t result => exact h.elim
  | stopped s result =>
      cases second with
      | running t => exact h.elim
      | stopped t result' => exact congrArg some h.1

theorem Agree.state {both : σ → σ → Prop} {first second : Flow σ ρ}
    (h : Agree live ended first second) (hlive : ∀ s t, live s t → both s t)
    (hended : ∀ s t, ended s t → both s t) : both first.state second.state := by
  cases first with
  | running s =>
      cases second with
      | running t => exact hlive s t h
      | stopped t result => exact h.elim
  | stopped s result =>
      cases second with
      | running t => exact h.elim
      | stopped t result' => exact hended s t h.2

end Flow

/-! ## Machines -/

section Machine

variable {I E S : Type} {O : I → Type} {step : (i : I) → S → Except E (O i × S)}

/-- What an input gets after other inputs, if those succeed. -/
def outcome (step : (i : I) → S → Except E (O i × S)) : List I → (i : I) → S → Except E (O i)
  | [], i, s => (step i s).map Prod.fst
  | first :: rest, i, s =>
      match step first s with
      | .ok (_, t) => outcome step rest i t
      | .error e => .error e

/-- No sequence of inputs tells the two states apart. -/
def Indistinguishable (step : (i : I) → S → Except E (O i × S)) (s t : S) : Prop :=
  ∀ inputs i, outcome step inputs i s = outcome step inputs i t

/-- A machine that never fails. -/
def total (step : (i : I) → S → O i × S) (i : I) (s : S) : Except Empty (O i × S) := .ok (step i s)

/-- What one input does in two states: the same answer or the same failure. -/
def Matching (both : S → S → Prop) {i : I} : Except E (O i × S) → Except E (O i × S) → Prop
  | .ok (a, s), .ok (b, t) => a = b ∧ both s t
  | .error e, .error f => e = f
  | _, _ => False

namespace Indistinguishable

theorem refl (s : S) : Indistinguishable step s s := fun _ _ => rfl

/-- States stay indistinguishable. -/
theorem matching {s t : S} (h : Indistinguishable step s t) (i : I) :
    Matching (Indistinguishable step) (step i s) (step i t) := by
  -- no further inputs compare the answers, one more input compares what follows
  have hfirst := h [] i
  have hrest : ∀ inputs j, outcome step (i :: inputs) j s = outcome step (i :: inputs) j t :=
    fun inputs j => h (i :: inputs) j
  simp only [outcome] at hfirst hrest
  cases hs : step i s with
  | error e =>
      cases ht : step i t with
      | error f =>
          rw [hs, ht] at hfirst
          exact Except.error.inj hfirst
      | ok answer =>
          rw [hs, ht] at hfirst
          cases hfirst
  | ok answer =>
      cases ht : step i t with
      | error f =>
          rw [hs, ht] at hfirst
          cases hfirst
      | ok answer' =>
          rw [hs, ht] at hfirst hrest
          exact ⟨Except.ok.inj hfirst, hrest⟩

/-- States in a relation that every input preserves are indistinguishable. -/
theorem of_preserved (both : S → S → Prop)
    (hboth : ∀ s t, both s t → ∀ i, Matching both (step i s) (step i t)) {s t : S} (h : both s t) :
    Indistinguishable step s t := by
  intro inputs
  -- the first input leads to states in the relation again
  induction inputs generalizing s t with
  | nil =>
      intro i
      have hmatching := hboth s t h i
      simp only [outcome]
      cases hs : step i s <;> cases ht : step i t <;> rw [hs, ht] at hmatching
      · exact congrArg Except.error hmatching
      · exact hmatching.elim
      · exact hmatching.elim
      · exact congrArg Except.ok hmatching.1
  | cons first rest ih =>
      intro i
      have hmatching := hboth s t h first
      simp only [outcome]
      cases hs : step first s <;> cases ht : step first t <;> rw [hs, ht] at hmatching
      · exact congrArg Except.error hmatching
      · exact hmatching.elim
      · exact hmatching.elim
      · exact ih hmatching.2 i

/-- A machine that never fails keeps answering the same. -/
theorem total_eq {step : (i : I) → S → O i × S} {s t : S} (h : Indistinguishable (total step) s t)
    (i : I) : (step i s).1 = (step i t).1 ∧
      Indistinguishable (total step) (step i s).2 (step i t).2 := h.matching i

end Indistinguishable

end Machine

end Foundation
