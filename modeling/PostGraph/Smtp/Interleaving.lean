import PostGraph.Smtp.Server

/-! # Interleaved tasks

A turn touches the session of its own task only, whose callbacks get nothing that tasks
share; that changes at their first and last callbacks. So each task is what its own turns
make of it, and any interleaving leads where a serial run leads, in which every session
reads all its lines as soon as it is accepted.
-/

namespace PostGraph.Smtp

open Foundation

variable {π H Shared Clock Network : Type}

namespace Happening

/-- How many streams are accepted. -/
def accepted : List (Happening π Clock Network) → Nat
  | [] => 0
  | accept _ _ _ _ :: rest => accepted rest + 1
  | turn _ :: rest => accepted rest
  | leave _ _ :: rest => accepted rest

/-- How many turns a task has before it leaves. -/
def turnsOf (i : Nat) : List (Happening π Clock Network) → Nat
  | [] => 0
  | accept _ _ _ _ :: rest => turnsOf i rest
  | turn j :: rest => if j = i then turnsOf i rest + 1 else turnsOf i rest
  | leave j _ :: rest => if j = i then 0 else turnsOf i rest

def leaves (i : Nat) : List (Happening π Clock Network) → Bool
  | [] => false
  | accept _ _ _ _ :: rest => leaves i rest
  | turn _ :: rest => leaves i rest
  | leave j _ :: rest => j = i || leaves i rest

/-- The callbacks in their order, with the turns of each task right after its first
callback. The first task is the given one. -/
def serialise : Nat → List (Happening π Clock Network) → List (Happening π Clock Network)
  | _, [] => []
  | next, accept peer stream clock network :: rest =>
      accept peer stream clock network ::
        (List.replicate (turnsOf next rest) (turn next) ++ serialise (next + 1) rest)
  | next, turn _ :: rest => serialise next rest
  | next, leave i clock :: rest => leave i clock :: serialise next rest

end Happening

/-! ## One task -/

theorem World.update_shared (world : World π H Shared) (i : Nat)
    (change : Served π H → Shared → Served π H × Shared) :
    (world.update i change).shared =
      (world.tasks[i]?.elim world.shared fun served => (change served world.shared).2) := by
  unfold update
  cases world.tasks[i]? <;> rfl

theorem World.update_shared_eq (world : World π H Shared) (i : Nat)
    {change : Served π H → Shared → Served π H × Shared}
    (h : ∀ served shared, (change served shared).2 = shared) :
    (world.update i change).shared = world.shared := by
  rw [update_shared]
  cases world.tasks[i]? with
  | none => rfl
  | some served => exact h served world.shared

theorem World.update_getElem? (world : World π H Shared) (i j : Nat)
    (change : Served π H → Shared → Served π H × Shared) :
    (world.update i change).tasks[j]? =
      if i = j then world.tasks[j]?.map fun served => (change served world.shared).1
      else world.tasks[j]? := by
  unfold update
  by_cases heq : i = j
  · subst heq
    rw [if_pos rfl]
    cases hserved : world.tasks[i]? with
    | none => exact hserved
    | some served => exact List.getElem?_set_self (List.getElem?_eq_some_iff.mp hserved).1
  · rw [if_neg heq]
    cases world.tasks[i]? with
    | none => rfl
    | some served => exact List.getElem?_set_ne heq

theorem World.update_length (world : World π H Shared) (i : Nat)
    (change : Served π H → Shared → Served π H × Shared) :
    (world.update i change).tasks.length = world.tasks.length := by
  unfold update
  cases world.tasks[i]? with
  | none => rfl
  | some served => exact List.length_set

variable [Transport π] [Handler H] [Base64]

/-- The task after the given number of turns. -/
def Task.turns (count : Nat) : Task π H → Task π H
  | refused config => refused config
  | serving flow => serving (flow.iterate Session.iteration count)

@[simp] theorem Task.turns_zero (task : Task π H) : task.turns 0 = task := by
  cases task <;> rfl

theorem Task.turns_succ (count : Nat) (task : Task π H) :
    task.turns (count + 1) = task.turn.turns count := by
  cases task with
  | refused config => rfl
  | serving flow =>
      rw [turns, Nat.add_comm, Flow.iterate_add]
      rfl

/-- What turns preserve holds after any number of them. -/
theorem Task.turns_holds {live : Dialogue H → Prop} {ended : SessionConfig H → List Event → Prop}
    {idle : SessionConfig H → Prop} (hinvariant : Dialogue.Invariant live ended)
    {task : Task π H} (h : task.Holds live ended idle) (count : Nat) :
    (task.turns count).Holds live ended idle := by
  cases task with
  | refused config => exact h
  | serving flow =>
      exact Flow.iterate_holds (fun _ => Session.iteration_holds hinvariant) h count

/-- What the happenings make of a task. -/
def Served.follow (i : Nat) (happenings : List (Happening π Clock Network))
    (served : Served π H) : Served π H :=
  if served.closed then served
  else { served with
    task := served.task.turns (Happening.turnsOf i happenings)
    closed := Happening.leaves i happenings }

theorem Served.follow_turn (i : Nat) (rest : List (Happening π Clock Network))
    (served : Served π H) :
    served.follow i (.turn i :: rest) = served.turn.follow i rest := by
  unfold follow turn
  cases hclosed : served.closed with
  | true => simp [hclosed]
  | false => simp [Happening.turnsOf, Happening.leaves, Task.turns_succ]

theorem Served.follow_leave [PeerHandler H Shared Clock Network] (i : Nat) (clock : Clock)
    (rest : List (Happening π Clock Network)) (served : Served π H) (shared : Shared) :
    served.follow i (.leave i clock :: rest) =
      (Server.leave served clock shared).1.follow i rest := by
  unfold follow Server.leave
  cases hclosed : served.closed with
  | true => simp [hclosed]
  | false => simp [Happening.turnsOf, Happening.leaves]

/-- What is not about a task leaves it as it is. -/
theorem Served.follow_other (i : Nat) {happening : Happening π Clock Network}
    (rest : List (Happening π Clock Network)) (served : Served π H)
    (hturn : happening ≠ .turn i) (hleave : ∀ clock, happening ≠ .leave i clock) :
    served.follow i (happening :: rest) = served.follow i rest := by
  unfold follow
  cases happening with
  | accept peer stream clock network => rfl
  | turn j =>
      have hne : j ≠ i := fun heq => hturn (by rw [heq])
      simp [Happening.turnsOf, Happening.leaves, hne]
  | leave j clock =>
      have hne : j ≠ i := fun heq => hleave clock (by rw [heq])
      simp [Happening.turnsOf, Happening.leaves, hne]

variable [PeerHandler H Shared Clock Network]

/-- A task goes its own way, whatever the others do. -/
theorem World.foldl_step_getElem? (config : Config H) (world : World π H Shared)
    (happenings : List (Happening π Clock Network)) {i : Nat} {served : Served π H}
    (h : world.tasks[i]? = some served) :
    (happenings.foldl (World.step config) world).tasks[i]? = some (served.follow i happenings) := by
  induction happenings generalizing world served with
  | nil =>
      rw [List.foldl_nil, h, Served.follow]
      cases hclosed : served.closed with
      | true => rfl
      | false => simp [Happening.turnsOf, Happening.leaves, ← hclosed]
  | cons happening rest ih =>
      rw [List.foldl_cons]
      cases happening with
      | accept peer stream clock network =>
          have hkept : (world.step config (.accept peer stream clock network)).tasks[i]? =
              some served :=
            (List.getElem?_append_left (List.getElem?_eq_some_iff.mp h).1).trans h
          exact ih _ hkept
      | turn j =>
          have hturn := world.update_getElem? j i fun served shared => (served.turn, shared)
          rw [h] at hturn
          by_cases heq : j = i
          · subst heq
            rw [if_pos rfl] at hturn
            rw [Served.follow_turn]
            exact ih _ hturn
          · rw [if_neg heq] at hturn
            rw [Served.follow_other i rest served (by simp [heq]) (by simp)]
            exact ih _ hturn
      | leave j clock =>
          have hleave := world.update_getElem? j i (Server.leave · clock ·)
          rw [h] at hleave
          by_cases heq : j = i
          · subst heq
            rw [if_pos rfl] at hleave
            rw [Served.follow_leave j clock rest served world.shared]
            exact ih _ hleave
          · rw [if_neg heq] at hleave
            rw [Served.follow_other i rest served (by simp) (by simp [heq])]
            exact ih _ hleave

theorem World.step_length (config : Config H) (world : World π H Shared)
    (happening : Happening π Clock Network) : (world.step config happening).tasks.length =
      world.tasks.length + Happening.accepted [happening] := by
  cases happening with
  | accept peer stream clock network => exact List.length_append
  | turn i => exact world.update_length i _
  | leave i clock => exact world.update_length i _

theorem Server.listen_length (config : Config H) (shared : Shared)
    (happenings : List (Happening π Clock Network)) :
    (listen config shared happenings).tasks.length = Happening.accepted happenings := by
  suffices hgeneral : ∀ world : World π H Shared,
      (happenings.foldl (World.step config) world).tasks.length =
        world.tasks.length + Happening.accepted happenings from
    (hgeneral ⟨shared, []⟩).trans (Nat.zero_add _)
  induction happenings with
  | nil => exact fun _ => rfl
  | cons happening rest ih =>
      intro world
      rw [List.foldl_cons, ih, World.step_length]
      cases happening <;> simp [Happening.accepted, Nat.add_assoc, Nat.add_comm 1]

/-- A stream starts a task, and the happenings after it make the rest of the task. -/
theorem Server.listen_accept (config : Config H) (shared : Shared)
    (before after : List (Happening π Clock Network)) (peer : IpAddr) (stream : π) (clock : Clock)
    (network : Network) :
    (listen config shared (before ++ .accept peer stream clock network :: after)).tasks[
        Happening.accepted before]? =
      some (Served.follow (Happening.accepted before) after
        ⟨peer, (accept config peer stream clock network (listen config shared before).shared).1,
          false⟩) := by
  have hstart : ((listen config shared before).step config
      (.accept peer stream clock network)).tasks[Happening.accepted before]? = some ⟨peer,
        (accept config peer stream clock network (listen config shared before).shared).1,
        false⟩ := by
    rw [← listen_length config shared before]
    exact List.getElem?_concat_length
  rw [listen, List.foldl_append, List.foldl_cons]
  exact World.foldl_step_getElem? config _ after hstart

/-- In every run each task is what its own turns alone make of the session that was
accepted, up to its end; of the other tasks it has met no more than what they shared when
its stream was accepted. -/
theorem Server.task_goes_own_way (config : Config H) (shared : Shared)
    (before after : List (Happening π Clock Network)) (peer : IpAddr) (stream : π) (clock : Clock)
    (network : Network) :
    let i := Happening.accepted before
    let first := accept config peer stream clock network (listen config shared before).shared
    (listen config shared (before ++ .accept peer stream clock network :: after)).tasks[i]? =
      some ⟨peer, first.1.turns (Happening.turnsOf i after), Happening.leaves i after⟩ := by
  intro i first
  rw [listen_accept, Served.follow]
  rfl

omit [Transport π] [Handler H] [Base64] [PeerHandler H Shared Clock Network] in
theorem Happening.exists_accept {happenings : List (Happening π Clock Network)} {i : Nat}
    (h : i < accepted happenings) : ∃ before peer stream clock network after,
      happenings = before ++ accept peer stream clock network :: after ∧ accepted before = i := by
  induction happenings generalizing i with
  | nil => cases h
  | cons happening rest ih =>
      cases happening with
      | accept peer stream clock network =>
          cases i with
          | zero => exact ⟨[], peer, stream, clock, network, rest, rfl, rfl⟩
          | succ i =>
              obtain ⟨before, peer', stream', clock', network', after, rfl, hbefore⟩ :=
                ih (Nat.lt_of_succ_lt_succ h)
              exact ⟨_ :: before, peer', stream', clock', network', after, rfl,
                congrArg (· + 1) hbefore⟩
      | turn j =>
          obtain ⟨before, peer, stream, clock, network, after, rfl, hbefore⟩ := ih h
          exact ⟨_ :: before, peer, stream, clock, network, after, rfl, hbefore⟩
      | leave j clock =>
          obtain ⟨before, peer, stream, clock', network, after, rfl, hbefore⟩ := ih h
          exact ⟨_ :: before, peer, stream, clock', network, after, rfl, hbefore⟩

/-- Every task comes from a stream that was accepted. -/
theorem Server.exists_accept_of_mem {config : Config H} {shared : Shared}
    {happenings : List (Happening π Clock Network)} {served : Served π H}
    (h : served ∈ (listen config shared happenings).tasks) :
    ∃ before peer stream clock network after,
      happenings = before ++ .accept peer stream clock network :: after ∧
        served = Served.follow (Happening.accepted before) after ⟨peer,
          (accept config peer stream clock network (listen config shared before).shared).1,
          false⟩ := by
  obtain ⟨i, hi⟩ := List.getElem?_of_mem h
  have hlt : i < Happening.accepted happenings := by
    rw [← listen_length config shared happenings]
    exact (List.getElem?_eq_some_iff.mp hi).1
  obtain ⟨before, peer, stream, clock, network, after, rfl, rfl⟩ := Happening.exists_accept hlt
  refine ⟨before, peer, stream, clock, network, after, rfl, ?_⟩
  rw [listen_accept] at hi
  exact (Option.some.inj hi).symm

/-! ## Serial runs -/

/-- A task that is not closed has the given number of turns. -/
def Served.turned (count : Nat) (served : Served π H) : Served π H :=
  if served.closed then served else { served with task := served.task.turns count }

omit [PeerHandler H Shared Clock Network] in
@[simp] theorem Served.turned_zero (served : Served π H) : served.turned 0 = served := by
  unfold turned
  split <;> simp

omit [PeerHandler H Shared Clock Network] in
theorem Served.turned_succ (count : Nat) (served : Served π H) :
    served.turned (count + 1) = served.turn.turned count := by
  unfold turned turn
  cases hclosed : served.closed with
  | true => simp [hclosed]
  | false => simp [Task.turns_succ]

/-- Every task has had the turns that the happenings have for it. -/
def World.ahead (happenings : List (Happening π Clock Network)) (world : World π H Shared) :
    World π H Shared :=
  { world with
    tasks := world.tasks.mapIdx fun i served => served.turned (Happening.turnsOf i happenings) }

omit [Transport π] [Handler H] [Base64] [PeerHandler H Shared Clock Network] in
theorem World.ext_getElem? {first second : World π H Shared}
    (hshared : first.shared = second.shared)
    (htasks : ∀ i : Nat, first.tasks[i]? = second.tasks[i]?) : first = second := by
  cases first
  cases second
  cases hshared
  cases List.ext_getElem? htasks
  rfl

theorem World.foldl_turns (config : Config H) (count i : Nat) (world : World π H Shared) :
    (List.replicate count (Happening.turn i : Happening π Clock Network)).foldl
        (World.step config) world =
      world.update i fun served shared => (served.turned count, shared) := by
  induction count generalizing world with
  | zero =>
      apply World.ext_getElem?
      · exact (world.update_shared_eq i fun _ _ => rfl).symm
      · intro j
        rw [update_getElem?]
        simp
  | succ count ih =>
      rw [List.replicate_succ, List.foldl_cons, ih]
      apply World.ext_getElem?
      · rw [step, update_shared_eq _ _ fun _ _ => rfl, update_shared_eq _ _ fun _ _ => rfl,
          update_shared_eq _ _ fun _ _ => rfl]
      · intro j
        simp only [step, update_getElem?]
        split
        · cases world.tasks[j]? <;> simp [Served.turned_succ]
        · rfl

omit [PeerHandler H Shared Clock Network] in
theorem World.ahead_getElem? (happenings : List (Happening π Clock Network))
    (world : World π H Shared) (i : Nat) : (world.ahead happenings).tasks[i]? =
      world.tasks[i]?.map (Served.turned (Happening.turnsOf i happenings)) :=
  List.getElem?_mapIdx

omit [PeerHandler H Shared Clock Network] in
theorem World.ahead_length (happenings : List (Happening π Clock Network))
    (world : World π H Shared) :
    (world.ahead happenings).tasks.length = world.tasks.length :=
  List.length_mapIdx

theorem World.ahead_turn (config : Config H) (i : Nat) (rest : List (Happening π Clock Network))
    (world : World π H Shared) :
    (world.step config (.turn i : Happening π Clock Network)).ahead rest =
      world.ahead (.turn i :: rest) := by
  apply World.ext_getElem?
  · exact world.update_shared_eq i fun _ _ => rfl
  · intro j
    rw [ahead_getElem?, ahead_getElem?, step, update_getElem?, Happening.turnsOf]
    split
    · cases world.tasks[j]? <;> simp [Served.turned_succ]
    · rfl

theorem World.ahead_leave (config : Config H) (i : Nat) (clock : Clock)
    (rest : List (Happening π Clock Network)) (world : World π H Shared) :
    (world.step config (.leave i clock : Happening π Clock Network)).ahead rest =
      (world.ahead (.leave i clock :: rest)).step config (.leave i clock) := by
  apply World.ext_getElem?
  · rw [ahead, step, step, update_shared, update_shared, ahead_getElem?, Happening.turnsOf,
      if_pos rfl]
    cases world.tasks[i]? <;> simp [ahead]
  · intro j
    rw [ahead_getElem?, step, step, update_getElem?, update_getElem?, ahead_getElem?,
      Happening.turnsOf]
    split
    · cases hserved : world.tasks[j]? with
      | none => rfl
      | some served =>
          simp only [Option.map_some, Served.turned_zero]
          have hclosed : (Server.leave served clock world.shared).1.closed = true := by
            unfold Server.leave
            split <;> trivial
          rw [Served.turned, if_pos hclosed]
          rfl
    · rfl

theorem World.step_accept_getElem? (config : Config H) (peer : IpAddr) (stream : π) (clock : Clock)
    (network : Network) (world : World π H Shared) (i : Nat) :
    (world.step config (.accept peer stream clock network)).tasks[i]? =
      if world.tasks.length = i then
        some ⟨peer, (Server.accept config peer stream clock network world.shared).1, false⟩
      else world.tasks[i]? := by
  split
  next heq =>
    subst heq
    exact List.getElem?_concat_length
  next hne =>
    rcases Nat.lt_or_gt_of_ne hne with hlt | hlt
    · rw [List.getElem?_eq_none (Nat.le_of_lt hlt)]
      exact List.getElem?_eq_none (List.length_append.trans_le hlt)
    · exact List.getElem?_append_left hlt

theorem World.ahead_accept (config : Config H) (peer : IpAddr) (stream : π) (clock : Clock)
    (network : Network) (rest : List (Happening π Clock Network)) (world : World π H Shared) :
    (world.step config (.accept peer stream clock network)).ahead rest =
      (List.replicate (Happening.turnsOf world.tasks.length rest)
        (Happening.turn world.tasks.length : Happening π Clock Network)).foldl (step config)
          ((world.ahead (.accept peer stream clock network :: rest)).step config
            (.accept peer stream clock network)) := by
  rw [foldl_turns]
  apply World.ext_getElem?
  · rw [update_shared_eq _ _ fun _ _ => rfl]
    rfl
  · intro j
    rw [ahead_getElem?, update_getElem?, step_accept_getElem?, step_accept_getElem?, ahead_length]
    by_cases heq : world.tasks.length = j
    · subst heq
      rw [if_pos rfl, if_pos rfl, if_pos rfl]
      rfl
    · rw [if_neg heq, if_neg heq, if_neg heq, ahead_getElem?]
      rfl

/-- Every interleaving leads where the serial run leads. -/
theorem World.foldl_serialise (config : Config H) (happenings : List (Happening π Clock Network))
    (world : World π H Shared) :
    (Happening.serialise world.tasks.length happenings).foldl (step config)
        (world.ahead happenings) = happenings.foldl (step config) world := by
  induction happenings generalizing world with
  | nil =>
      have hnone : world.ahead ([] : List (Happening π Clock Network)) = world := by
        apply World.ext_getElem?
        · rfl
        · intro i
          rw [ahead_getElem?, Happening.turnsOf]
          cases world.tasks[i]? <;> simp
      exact hnone
  | cons happening rest ih =>
      rw [List.foldl_cons, ← ih]
      have hlength := world.step_length config happening
      cases happening with
      | accept peer stream clock network =>
          rw [hlength, ahead_accept, Happening.serialise, List.foldl_cons, List.foldl_append]
          rfl
      | turn i =>
          rw [hlength, ahead_turn]
          rfl
      | leave i clock =>
          rw [hlength, ahead_leave]
          rfl

/-- Any interleaving of the tasks reaches the very world of the serial run: the same
callbacks in the same order, each session reading all its lines at once. This is so for
handlers whose sessions share nothing: only the first and the last callback of a task get
what is shared. -/
theorem Server.listen_serialised (config : Config H) (shared : Shared)
    (happenings : List (Happening π Clock Network)) :
    (listen config shared (Happening.serialise 0 happenings) : World π H Shared) =
      listen config shared happenings :=
  World.foldl_serialise config happenings ⟨shared, []⟩

end PostGraph.Smtp
