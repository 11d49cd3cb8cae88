import Mathlib.Tactic.Basic

/-! # Programs with state and errors

A program updates a state and either returns a value or fails; a failure keeps
the state reached. Postconditions describe both outcomes. A loop repeats its
body until the body stops.
-/

namespace Foundation

variable {ε σ α β : Type}

/-- From `s` the program returns a value with `ok`, or fails with `err`. -/
def Sat (program : EStateM ε σ α) (s : σ) (ok : α → σ → Prop) (err : ε → σ → Prop) : Prop :=
  match program s with
  | .ok a t => ok a t
  | .error e t => err e t

namespace Sat

variable {program : EStateM ε σ α} {next : α → EStateM ε σ β} {s : σ}
variable {ok ok' : α → σ → Prop} {err err' : ε → σ → Prop} {okNext : β → σ → Prop}

theorem pure {a : α} (h : ok a s) : Sat (Pure.pure a) s ok err := h

theorem throw {e : ε} (h : err e s) : Sat (throw e : EStateM ε σ α) s ok err := h

theorem mono (h : Sat program s ok err) (hok : ∀ a t, ok a t → ok' a t)
    (herr : ∀ e t, err e t → err' e t) : Sat program s ok' err' := by
  unfold Sat at h ⊢
  split at h
  · exact hok _ _ h
  · exact herr _ _ h

theorem and {okAlso : α → σ → Prop} {errAlso : ε → σ → Prop} (h : Sat program s ok err)
    (halso : Sat program s okAlso errAlso) :
    Sat program s (fun a t => ok a t ∧ okAlso a t) (fun e t => err e t ∧ errAlso e t) := by
  unfold Sat at h halso ⊢
  split at h
  next heq =>
    rw [heq] at halso
    exact ⟨h, halso⟩
  next heq =>
    rw [heq] at halso
    exact ⟨h, halso⟩

/-- Sequencing: each value the first program may return is a start of the
second one. -/
theorem bind (h : Sat program s ok err) (hnext : ∀ a t, ok a t → Sat (next a) t okNext err) :
    Sat (program >>= next) s okNext err := by
  unfold Sat at h
  change match EStateM.bind program next s with
    | .ok b t => okNext b t
    | .error e t => err e t
  unfold EStateM.bind
  split at h
  next a t heq => rw [heq]; exact hnext a t h
  next e t heq => rw [heq]; exact h

theorem get_bind {next : σ → EStateM ε σ β} {okNext : β → σ → Prop}
    (h : Sat (next s) s okNext err) : Sat (get >>= next) s okNext err := h

theorem modify_bind {f : σ → σ} {next : PUnit → EStateM ε σ β} {okNext : β → σ → Prop}
    (h : Sat (next ()) (f s) okNext err) : Sat (modify f >>= next) s okNext err := h

theorem of_eq {other : EStateM ε σ α} (heq : program s = other s) (h : Sat other s ok err) :
    Sat program s ok err := by
  unfold Sat at h ⊢
  rwa [heq]

theorem of_ok {a : α} {t : σ} (h : Sat program s ok err) (heq : program s = .ok a t) : ok a t := by
  unfold Sat at h
  rwa [heq] at h

theorem of_error {e : ε} {t : σ} (h : Sat program s ok err) (heq : program s = .error e t) :
    err e t := by
  unfold Sat at h
  rwa [heq] at h

end Sat

/-! ## Running programs -/

@[simp] theorem bind_apply (program : EStateM ε σ α) (next : α → EStateM ε σ β) (s : σ) :
    (program >>= next) s = match program s with
      | .ok a t => next a t
      | .error e t => .error e t := rfl

/-- A sequence that returns has returned from both of its programs. -/
theorem bind_eq_ok {program : EStateM ε σ α} {next : α → EStateM ε σ β} {s t : σ} {b : β}
    (h : (program >>= next) s = .ok b t) :
    ∃ a middle, program s = .ok a middle ∧ next a middle = .ok b t := by
  rw [bind_apply] at h
  split at h
  next a middle heq => exact ⟨a, middle, heq, h⟩
  next => cases h

@[simp] theorem map_apply (f : α → β) (program : EStateM ε σ α) (s : σ) :
    (f <$> program) s = match program s with
      | .ok a t => .ok (f a) t
      | .error e t => .error e t := rfl

@[simp] theorem pure_apply (a : α) (s : σ) : (pure a : EStateM ε σ α) s = .ok a s := rfl

@[simp] theorem throw_apply (e : ε) (s : σ) : (throw e : EStateM ε σ α) s = .error e s := rfl

@[simp] theorem get_apply (s : σ) : (get : EStateM ε σ σ) s = .ok s s := rfl

@[simp] theorem modify_apply (f : σ → σ) (s : σ) :
    (modify f : EStateM ε σ PUnit) s = .ok () (f s) := rfl

/-! ## Loops -/

/-- A loop that still runs, or has stopped with a result. -/
inductive Flow (σ ρ : Type) where
  | running (s : σ)
  | stopped (s : σ) (result : ρ)

namespace Flow

variable {ρ : Type}

/-- The state of the loop, also after it has stopped. -/
def state : Flow σ ρ → σ
  | running s => s
  | stopped s _ => s

/-- Execute the body once more, unless the loop has stopped. -/
def step (body : σ → Flow σ ρ) : Flow σ ρ → Flow σ ρ
  | running s => body s
  | stopped s result => stopped s result

/-- Execute the body at most the given number of times. -/
def iterate (body : σ → Flow σ ρ) : Nat → Flow σ ρ → Flow σ ρ
  | 0, flow => flow
  | count + 1, flow => step body (iterate body count flow)

/-- Each state satisfies the invariant of running loops, or that of stopped ones. -/
def Holds (running' : σ → Prop) (stopped' : σ → Prop) : Flow σ ρ → Prop
  | running s => running' s
  | stopped s _ => stopped' s

/-- As `Holds`, with what the loop has stopped with. -/
def HoldsWith (running' : σ → Prop) (stopped' : σ → ρ → Prop) : Flow σ ρ → Prop
  | running s => running' s
  | stopped s result => stopped' s result

theorem step_holds {body : σ → Flow σ ρ} {live ended : σ → Prop}
    (hbody : ∀ s, live s → (body s).Holds live ended) {flow : Flow σ ρ}
    (hflow : flow.Holds live ended) : (step body flow).Holds live ended := by
  cases flow with
  | running s => exact hbody s hflow
  | stopped s result => exact hflow

instance {live ended : σ → Prop} [DecidablePred live] [DecidablePred ended] (flow : Flow σ ρ) :
    Decidable (flow.Holds live ended) :=
  match flow with
  | running s => inferInstanceAs (Decidable (live s))
  | stopped s _ => inferInstanceAs (Decidable (ended s))

/-- What the body preserves, in the states where a run meets it, holds after
every number of iterations. -/
theorem iterate_holds_along {body : σ → Flow σ ρ} {live ended meets : σ → Prop}
    (hbody : ∀ s, live s → meets s → (body s).Holds live ended) {flow : Flow σ ρ}
    (hflow : flow.Holds live ended) (count : Nat)
    (hmeets : ∀ earlier < count, (iterate body earlier flow).Holds meets fun _ => True) :
    (iterate body count flow).Holds live ended := by
  induction count with
  | zero => exact hflow
  | succ count ih =>
      have hlast := hmeets count (Nat.lt_succ_self count)
      have hholds := ih fun earlier hearlier => hmeets earlier (Nat.lt_succ_of_lt hearlier)
      rw [iterate]
      cases hrun : iterate body count flow with
      | running s =>
          rw [hrun] at hlast hholds
          exact hbody s hholds hlast
      | stopped s result =>
          rw [hrun] at hholds
          exact hholds

/-- What the body preserves holds after every number of iterations. -/
theorem iterate_holds {body : σ → Flow σ ρ} {live ended : σ → Prop}
    (hbody : ∀ s, live s → (body s).Holds live ended) {flow : Flow σ ρ}
    (hflow : flow.Holds live ended) (count : Nat) : (iterate body count flow).Holds live ended := by
  induction count with
  | zero => exact hflow
  | succ count ih => exact step_holds hbody ih

theorem Holds.mono {live live' ended ended' : σ → Prop} {flow : Flow σ ρ}
    (h : flow.Holds live ended) (hlive : ∀ s, live s → live' s) (hended : ∀ s, ended s → ended' s) :
    flow.Holds live' ended' := by
  cases flow with
  | running s => exact hlive s h
  | stopped s result => exact hended s h

theorem HoldsWith.mono {live live' : σ → Prop} {ended ended' : σ → ρ → Prop} {flow : Flow σ ρ}
    (h : flow.HoldsWith live ended) (hlive : ∀ s, live s → live' s)
    (hended : ∀ s result, ended s result → ended' s result) : flow.HoldsWith live' ended' := by
  cases flow with
  | running s => exact hlive s h
  | stopped s result => exact hended s result h

theorem eq_running {flow : Flow σ ρ} (h : flow.Holds (fun _ => True) fun _ => False) :
    flow = running flow.state := by
  cases flow with
  | running s => rfl
  | stopped s result => exact h.elim

theorem iterate_stopped (body : σ → Flow σ ρ) (count : Nat) (s : σ) (result : ρ) :
    iterate body count (stopped s result) = stopped s result := by
  induction count with
  | zero => rfl
  | succ count ih => rw [iterate, ih, step]

theorem iterate_add (body : σ → Flow σ ρ) (first second : Nat) (flow : Flow σ ρ) :
    iterate body (first + second) flow = iterate body second (iterate body first flow) := by
  induction second with
  | zero => rfl
  | succ second ih => rw [Nat.add_succ, iterate, ih, iterate]

/-- The first execution of the body, and then the others. -/
theorem iterate_succ (body : σ → Flow σ ρ) (count : Nat) (s : σ) :
    iterate body (count + 1) (running s) = iterate body count (body s) := by
  rw [Nat.add_comm, iterate_add]
  rfl

end Flow

end Foundation
