import PostGraph.Smtp.Refinement

/-! # The server

Each accepted stream gets a task of its own: the callback on connecting, then the
session if the peer was accepted, and in any case the callback on disconnecting.
Tasks interleave: between the two callbacks of one, the others may do anything.
A session may be cut off after any line, when it takes too long.
-/

namespace PostGraph.Smtp

open Foundation

/-- A task between its two callbacks. -/
inductive Task (π H : Type) where
  | refused (config : SessionConfig H)
  | serving (flow : Flow (Session π H) (Except Error Unit))

/-- A task, whose it is, and whether its last callback is done. -/
structure Served (π H : Type) where
  peer : IpAddr
  task : Task π H
  closed : Bool

/-- What the tasks share, and all tasks in the order of their streams. -/
structure World (π H Shared : Type) where
  shared : Shared
  tasks : List (Served π H)

/-- A callback or a turn of some task, with what it meets of the outside. -/
inductive Happening (π Clock Network : Type) where
  | accept (peer : IpAddr) (stream : π) (clock : Clock) (network : Network)
  | turn (task : Nat)
  | leave (task : Nat) (clock : Clock)

variable {π H Shared Clock Network : Type}

/-- What a callback reads of the clock. -/
def Happening.clock : Happening π Clock Network → Option Clock
  | accept _ _ clock _ => some clock
  | turn _ => none
  | leave _ clock => some clock

def Task.config : Task π H → SessionConfig H
  | refused config => config
  | serving flow => flow.state.config

def Task.log : Task π H → List Event
  | refused _ => []
  | serving flow => flow.state.log

def Task.accepted : Task π H → Bool
  | refused _ => false
  | serving _ => true

variable [Transport π] [Handler H] [Base64]

/-- The session, if there is one, reads one more line. -/
def Task.turn : Task π H → Task π H
  | refused config => refused config
  | serving flow => serving (flow.step Session.iteration)

def Served.turn (served : Served π H) : Served π H :=
  if served.closed then served else { served with task := served.task.turn }

variable [PeerHandler H Shared Clock Network]

/-- The task of an accepted stream, up to its first wait. -/
def Server.accept (config : Config H) (peer : IpAddr) (stream : π) (clock : Clock)
    (network : Network) (shared : Shared) : Task π H × Shared :=
  let connection := Connection.newPlain stream config.tls
  let sessionConfig := config.sessionConfig
  match PeerHandler.onConnect peer clock shared
      (PeerHandler.clone network sessionConfig.handler) with
  | (.ok .ok, shared, handler) =>
      (.serving (Session.greet (.new connection { sessionConfig with handler })), shared)
  | (.ok .reject, shared, handler) | (.error _, shared, handler) =>
      (.refused { sessionConfig with handler }, shared)

omit [Handler H] [Base64] in
theorem Server.accept_shared (config : Config H) (peer : IpAddr) (stream : π) (clock : Clock)
    (network : Network) (shared : Shared) :
    (accept config peer stream clock network shared).2 =
      (PeerHandler.onConnect peer clock shared
        (PeerHandler.clone network config.sessionConfig.handler)).2.1 := by
  rcases hanswer : PeerHandler.onConnect peer clock shared
      (PeerHandler.clone network config.sessionConfig.handler) with ⟨_ | _ | _, shared', handler⟩
  all_goals rw [accept, hanswer]

omit [Handler H] [Base64] in
theorem Server.accept_accepted {config : Config H} {peer : IpAddr} {stream : π} {clock : Clock}
    {network : Network} {shared : Shared}
    (h : (accept config peer stream clock network shared).1.accepted = true) :
    (PeerHandler.onConnect peer clock shared
      (PeerHandler.clone network config.sessionConfig.handler)).1 = .ok .ok := by
  rcases hanswer : PeerHandler.onConnect peer clock shared
      (PeerHandler.clone network config.sessionConfig.handler) with ⟨_ | _ | _, shared', handler⟩
  · rw [accept, hanswer] at h
    cases h
  · rfl
  · rw [accept, hanswer] at h
    cases h

/-- The end of a task. -/
def Server.leave (served : Served π H) (clock : Clock) (shared : Shared) :
    Served π H × Shared :=
  if served.closed then (served, shared)
  else
    let (_, shared, _) :=
      PeerHandler.onDisconnect served.peer clock shared served.task.config.handler
    ({ served with closed := true }, shared)

/-- One task changes, if it exists, and with it what is shared. -/
def World.update (world : World π H Shared) (i : Nat)
    (change : Served π H → Shared → Served π H × Shared) : World π H Shared :=
  match world.tasks[i]? with
  | none => world
  | some served =>
      let (served, shared) := change served world.shared
      { shared, tasks := world.tasks.set i served }

def World.step (config : Config H) (world : World π H Shared) :
    Happening π Clock Network → World π H Shared
  | .accept peer stream clock network =>
      let (task, shared) := Server.accept config peer stream clock network world.shared
      { shared, tasks := world.tasks ++ [⟨peer, task, false⟩] }
  | .turn i => world.update i fun served shared => (served.turn, shared)
  | .leave i clock => world.update i (Server.leave · clock ·)

/-- `Server::listen` from a shared state, through the given happenings. -/
def Server.listen (config : Config H) (shared : Shared)
    (happenings : List (Happening π Clock Network)) : World π H Shared :=
  happenings.foldl (World.step config) ⟨shared, []⟩

theorem Server.listen_concat (config : Config H) (shared : Shared)
    (happenings : List (Happening π Clock Network)) (happening : Happening π Clock Network) :
    listen config shared (happenings ++ [happening]) =
      (listen config shared happenings).step config happening := by
  simp [listen]

/-! ## What holds of every task -/

/-- What turns of a task preserve, for each kind of task. -/
def Task.Holds (live : Dialogue H → Prop) (ended : SessionConfig H → List Event → Prop)
    (idle : SessionConfig H → Prop) : Task π H → Prop
  | refused config => idle config
  | serving flow =>
      flow.Holds (fun session => live session.dialogue)
        (fun session => ended session.config session.log)

omit [Transport π] [Handler H] [Base64] in
/-- What a task shows, whether it was refused, is running or has ended. -/
theorem Task.Holds.shown {live : Dialogue H → Prop}
    {ended : SessionConfig H → List Event → Prop} {idle : SessionConfig H → Prop}
    {P : SessionConfig H → List Event → Prop} {task : Task π H} (h : task.Holds live ended idle)
    (hlive : ∀ d, live d → P d.config d.log)
    (hended : ∀ config log, ended config log → P config log)
    (hidle : ∀ config, idle config → P config []) : P task.config task.log := by
  cases task with
  | refused config => exact hidle config h
  | serving flow =>
      cases flow with
      | running session => exact hlive _ h
      | stopped session result => exact hended _ _ h

/-- The dialogue of a session that starts with the given handler. -/
def Dialogue.start (config : Config H) (handler : H) : Dialogue H where
  config := { config.sessionConfig with handler }
  state := .new
  log := []
  security := some (.plain config.tls.isSome)

section Invariants

variable {live : Dialogue H → Prop} {ended : SessionConfig H → List Event → Prop}
variable {idle : SessionConfig H → Prop}

omit [PeerHandler H Shared Clock Network] in
theorem Task.turn_holds (hinvariant : Dialogue.Invariant live ended) {task : Task π H}
    (h : task.Holds live ended idle) : task.turn.Holds live ended idle := by
  cases task with
  | refused config => exact h
  | serving flow => exact Flow.step_holds (fun _ => Session.iteration_holds hinvariant) h

omit [Base64] in
theorem Server.accept_holds (hinvariant : Dialogue.Invariant live ended) {config : Config H}
    {peer : IpAddr} {stream : π} {clock : Clock} {network : Network} {shared : Shared}
    {answer : Except Text ConnectResult} {shared' : Shared} {handler : H}
    (hanswer : PeerHandler.onConnect peer clock shared
      (PeerHandler.clone network config.sessionConfig.handler) = (answer, shared', handler))
    (hlive : live (.start config handler)) (hidle : idle { config.sessionConfig with handler }) :
    (accept config peer stream clock network shared).1.Holds live ended idle := by
  rw [accept, hanswer]
  rcases answer with error | _ | _
  · exact hidle
  · exact Session.greet_holds hinvariant hlive
  · exact hidle

omit [Base64] in
/-- A session that was just started has sent the banner at most. -/
theorem Server.accept_said {config : Config H} {peer : IpAddr} {stream : π} {clock : Clock}
    {network : Network} {shared shared' : Shared} {answer : Except Text ConnectResult}
    {handler : H} {session : Session π H}
    (hanswer : PeerHandler.onConnect peer clock shared
      (PeerHandler.clone network config.sessionConfig.handler) = (answer, shared', handler))
    (haccept : (accept config peer stream clock network shared).1 = .serving (.running session)) :
    Dialogue.Said (.start config handler) session.dialogue := by
  rw [accept, hanswer] at haccept
  rcases answer with error | _ | _
  · cases haccept
  · have hsaid := Session.greet_said (Session.new (Connection.newPlain stream config.tls)
      { config.sessionConfig with handler })
    rw [Task.serving.inj haccept] at hsaid
    exact hsaid
  · cases haccept

/-- Something holds of every task. -/
def World.Forall (P : Task π H → Prop) (world : World π H Shared) : Prop :=
  ∀ served ∈ world.tasks, P served.task

omit [Transport π] [Handler H] [Base64] [PeerHandler H Shared Clock Network] in
theorem World.Forall.update {P : Task π H → Prop} {world : World π H Shared}
    (h : world.Forall P) {i : Nat} {change : Served π H → Shared → Served π H × Shared}
    (hchange : ∀ served shared, P served.task → P (change served shared).1.task) :
    (world.update i change).Forall P := by
  intro served hserved
  unfold World.update at hserved
  split at hserved
  next => exact h served hserved
  next current hcurrent =>
    rcases List.mem_or_eq_of_mem_set hserved with hserved | rfl
    · exact h served hserved
    · exact hchange current _ (h current (List.mem_of_getElem? hcurrent))

/-- What accepting a stream establishes and turns preserve holds of every task. -/
theorem Server.listen_forall {P : Task π H → Prop} {config : Config H}
    (haccept : ∀ peer stream clock network shared,
      P (accept config peer stream clock network shared).1)
    (hturn : ∀ task, P task → P task.turn) (shared : Shared)
    (happenings : List (Happening π Clock Network)) :
    (listen config shared happenings).Forall P := by
  induction happenings using List.reverseRecOn with
  | nil => exact fun _ hserved => absurd hserved List.not_mem_nil
  | append_singleton happenings happening ih =>
      rw [listen_concat]
      cases happening with
      | accept peer stream clock network =>
          intro served hserved
          rcases List.mem_append.mp hserved with hserved | hserved
          · exact ih served hserved
          · rw [List.mem_singleton.mp hserved]
            exact haccept peer stream clock network _
      | turn i =>
          apply ih.update
          intro current _ hcurrent
          unfold Served.turn
          split
          · exact hcurrent
          · exact hturn _ hcurrent
      | leave i clock =>
          apply ih.update
          intro current _ hcurrent
          unfold leave
          split <;> exact hcurrent

end Invariants

end PostGraph.Smtp
