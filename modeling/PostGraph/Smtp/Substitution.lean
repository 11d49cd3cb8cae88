import PostGraph.Foundation.TwoRuns
import PostGraph.Smtp.Interleaving

/-! # Another handler in its place

A server sees of its handlers only what they answer. If each handler is replaced by its
image under a function, and the images answer the same, then the whole run is the same
but for the handlers. The answers may differ where a handler ends up telling the
difference; from then on nothing is said about the run.
-/

namespace PostGraph.Smtp

open Foundation

variable {π H Shared Clock Network : Type}

def SessionConfig.over (f : H → H) (config : SessionConfig H) : SessionConfig H :=
  { config with handler := f config.handler }

def Session.over (f : H → H) (session : Session π H) : Session π H :=
  { session with config := session.config.over f }

def Task.over (f : H → H) : Task π H → Task π H
  | refused config => refused (config.over f)
  | serving flow => serving (flow.map (Session.over f))

def Served.over (f : H → H) (served : Served π H) : Served π H :=
  { served with task := served.task.over f }

def World.over (f : H → H) (world : World π H Shared) : World π H Shared :=
  { world with tasks := world.tasks.map (Served.over f) }

def Config.over (f : H → H) (config : Config H) : Config H :=
  { config with sessionConfig := config.sessionConfig.over f }

@[simp] theorem Task.over_config (f : H → H) (task : Task π H) :
    (task.over f).config = task.config.over f := by
  cases task with
  | refused config => rfl
  | serving flow => cases flow <;> rfl

/-- Handlers with the invariant answer as their images do, or end up telling. -/
structure Alike [Handler H] (f : H → H) (invariant tells : H → Prop) : Prop where
  answers : ∀ (callback : Callback) (handler : H), invariant handler →
    callback.call (f handler) =
        ((callback.call handler).1, f (callback.call handler).2) ∨
      tells (callback.call handler).2
  keeps : ∀ (callback : Callback) (handler : H), invariant handler →
    invariant (callback.call handler).2
  told : ∀ (callback : Callback) (handler : H), tells handler → tells (callback.call handler).2

namespace Session

variable [Transport π] [Handler H] {f : H → H} {invariant tells : H → Prop}

/-- What callbacks preserve is preserved by all that a session does. -/
theorem Built.keeps {P : H → Prop}
    (hcall : ∀ (callback : Callback) (handler : H), P handler → P (callback.call handler).2)
    {α : Type} {program : SessionM π H α} (h : Free program) (session : Session π H)
    (hsession : P session.config.handler) :
    Sat program session (fun _ after => P after.config.handler)
      fun _ after => P after.config.handler := by
  induction h generalizing session with
  | pure a => exact hsession
  | throw error herror => exact hsession
  | bind h hnext ih ihnext =>
      exact (ih session hsession).bind fun a after hafter => ihnext a after hafter
  | observe h hview ih => exact ih session session hsession
  | operation operation =>
      unfold Sat onConnection
      cases hs : session.connection with
      | none => exact hsession
      | some connection =>
          rcases hrun : operation.run connection with ⟨error | answer, after⟩
          · simp only [hrun]
            exact hsession
          · simp only [hrun]
            exact hsession
  | callback callback isTls hevent => exact hcall callback session.config.handler hsession
  | change change hchanges => exact hsession
  | record response hevent => exact hsession
  | upgrade hevent hchanges =>
      unfold Sat Session.upgrade
      cases hs : session.connection with
      | none => exact hsession
      | some connection =>
          cases hsecured : connection.startTls with
          | error error =>
              simp only [hsecured]
              exact hsession
          | ok secured =>
              simp only [hsecured]
              exact hsession

/-- The second session is the first one with another handler. -/
structure Replaced (f : H → H) (invariant : H → Prop) (s t : Session π H) : Prop where
  over_eq : s.over f = t
  holds : invariant s.config.handler

omit [Transport π] [Handler H] in
theorem Replaced.view {s t : Session π H} (h : Replaced f invariant s t) : SameView s t := by
  obtain ⟨rfl, -⟩ := h
  exact ⟨⟨rfl, rfl, rfl⟩, rfl, rfl, rfl⟩

/-- What a session is built of does not see its handler. -/
theorem Built.replaced (halike : Alike f invariant tells) {α : Type} {program : SessionM π H α}
    (h : Free program) (s t : Session π H) (hst : Replaced f invariant s t) :
    AgreeUnless (fun session => tells session.config.handler) (Replaced f invariant)
      (Replaced f invariant) program program s t := by
  induction h generalizing s t with
  | pure a => exact .inl (.pure hst)
  | throw error herror => exact .inl (.throw hst)
  | bind h hnext ih ihnext =>
      exact (ih s t hst).bind (fun a s' t' => ihnext a s' t')
        fun a s' htold => (hnext a).keeps halike.told s' htold
  | observe h hview ih =>
      have hnext := ih s s t hst
      rcases hnext with hagree | htold
      · refine .inl (.get_bind ?_)
        rw [← hview s t hst.view]
        exact hagree
      · exact .inr (.get_bind htold)
  | operation operation =>
      obtain ⟨rfl, hinvariant⟩ := hst
      refine .inl ?_
      have hconnection : (s.over f).connection = s.connection := rfl
      unfold Agree onConnection
      cases hs : s.connection with
      | none =>
          simp only [hconnection, hs]
          exact ⟨trivial, rfl, hinvariant⟩
      | some connection =>
          rcases hrun : operation.run connection with ⟨error | answer, after⟩
          · simp only [hconnection, hs, hrun]
            exact ⟨trivial, rfl, hinvariant⟩
          · simp only [hconnection, hs, hrun]
            exact ⟨trivial, rfl, hinvariant⟩
  | callback callback isTls hevent =>
      obtain ⟨rfl, hinvariant⟩ := hst
      rcases halike.answers callback s.config.handler hinvariant with hanswer | htold
      · refine .inl ?_
        have hhandler : (s.over f).config.handler = f s.config.handler := rfl
        unfold Agree callHandler
        rw [hhandler, hanswer]
        exact ⟨rfl, rfl, halike.keeps callback s.config.handler hinvariant⟩
      · exact .inr htold
  | change change hchanges =>
      obtain ⟨rfl, hinvariant⟩ := hst
      exact .inl (.modify ⟨rfl, hinvariant⟩)
  | record response hevent =>
      obtain ⟨rfl, hinvariant⟩ := hst
      exact .inl (.modify ⟨rfl, hinvariant⟩)
  | upgrade hevent hchanges =>
      obtain ⟨rfl, hinvariant⟩ := hst
      refine .inl ?_
      have hconnection : (s.over f).connection = s.connection := rfl
      unfold Agree Session.upgrade
      cases hs : s.connection with
      | none =>
          simp only [hconnection, hs]
          exact ⟨trivial, rfl, hinvariant⟩
      | some connection =>
          cases hsecured : connection.startTls with
          | error error =>
              simp only [hconnection, hs, hsecured]
              exact ⟨trivial, rfl, hinvariant⟩
          | ok secured =>
              simp only [hconnection, hs, hsecured]
              exact ⟨trivial, rfl, hinvariant⟩

/-- The banner is sent whatever the handler. -/
theorem greet_over (halike : Alike f invariant tells) (session : Session π H)
    (hsession : invariant session.config.handler) :
    greet (session.over f) = (greet session).map (Session.over f) ∨
      tells (greet session).state.config.handler := by
  have hname : (session.over f).config.serverName = session.config.serverName := rfl
  have hreply := (Built.freeReply (.banner session.config.serverName)).replaced halike session
    (session.over f) ⟨rfl, hsession⟩
  unfold greet
  rw [hname]
  rcases hreply.cases with ⟨_, s, t, hs, ht, rfl, -⟩ | ⟨error, s, t, hs, ht, rfl, -⟩ | htold
  · rw [hs, ht]
    exact .inl rfl
  · rw [hs, ht]
    exact .inl rfl
  · refine .inr ?_
    rcases hs : reply (.banner session.config.serverName) session with ⟨_, s⟩ | ⟨error, s⟩
    · exact htold.of_ok hs
    · exact htold.of_error hs

/-- What callbacks preserve is preserved by the banner. -/
theorem greet_keeps {P : H → Prop}
    (hcall : ∀ (callback : Callback) (handler : H), P handler → P (callback.call handler).2)
    (session : Session π H) (hsession : P session.config.handler) :
    P (greet session).state.config.handler := by
  have hkeeps := (Built.freeReply (.banner session.config.serverName)).keeps hcall session hsession
  unfold greet
  rcases hs : reply (.banner session.config.serverName) session with ⟨_, s⟩ | ⟨error, s⟩
  · exact hkeeps.of_ok hs
  · exact hkeeps.of_error hs

variable [Base64]

theorem iteration_over (halike : Alike f invariant tells) (session : Session π H)
    (hsession : invariant session.config.handler) :
    iteration (session.over f) = (iteration session).map (Session.over f) ∨
      tells (iteration session).state.config.handler := by
  have hturn := Built.turn.replaced halike session (session.over f) ⟨rfl, hsession⟩
  unfold iteration
  rcases hturn.cases with ⟨control, s, t, hs, ht, rfl, -⟩ | ⟨error, s, t, hs, ht, rfl, -⟩ | htold
  · rw [hs, ht]
    cases control <;> exact .inl rfl
  · rw [hs, ht]
    exact .inl rfl
  · refine .inr ?_
    rcases hs : turn session with ⟨control, s⟩ | ⟨error, s⟩
    · cases control <;> exact htold.of_ok hs
    · exact htold.of_error hs

/-- What callbacks preserve is preserved by an iteration. -/
theorem iteration_keeps {P : H → Prop}
    (hcall : ∀ (callback : Callback) (handler : H), P handler → P (callback.call handler).2)
    {session : Session π H} (hsession : P session.config.handler) :
    P (iteration session).state.config.handler := by
  have hkeeps := Built.turn.keeps hcall session hsession
  unfold iteration
  rcases hs : turn session with ⟨control, s⟩ | ⟨error, s⟩
  · cases control <;> exact hkeeps.of_ok hs
  · exact hkeeps.of_error hs

end Session

/-! ## Servers -/

section Servers

variable [Transport π] [Handler H] [Base64] {f : H → H} {invariant tells : H → Prop}

theorem Task.turn_over (halike : Alike f invariant tells) {task : Task π H}
    (htask : invariant task.config.handler) :
    (task.over f).turn = task.turn.over f ∨ tells task.turn.config.handler := by
  cases task with
  | refused config => exact .inl rfl
  | serving flow =>
      cases flow with
      | stopped session result => exact .inl rfl
      | running session =>
          rcases Session.iteration_over halike session htask with hsame | htold
          · exact .inl (congrArg Task.serving hsame)
          · exact .inr htold

theorem Task.turn_keeps {P : H → Prop}
    (hcall : ∀ (callback : Callback) (handler : H), P handler → P (callback.call handler).2)
    {task : Task π H} (htask : P task.config.handler) : P task.turn.config.handler := by
  cases task with
  | refused config => exact htask
  | serving flow =>
      cases flow with
      | stopped session result => exact htask
      | running session => exact Session.iteration_keeps hcall htask

theorem Served.turn_keeps {P : H → Prop}
    (hcall : ∀ (callback : Callback) (handler : H), P handler → P (callback.call handler).2)
    {served : Served π H} (hserved : P served.task.config.handler) :
    P served.turn.task.config.handler := by
  unfold Served.turn
  split
  next => exact hserved
  next => exact Task.turn_keeps hcall hserved

variable [PeerHandler H Shared Clock Network]

/-- The callbacks around a session treat a handler and its image alike. -/
structure AlikePeers (Shared Clock Network : Type) [PeerHandler H Shared Clock Network]
    (f : H → H) (invariant : H → Prop) (handler : H) : Prop where
  connect : ∀ (peer : IpAddr) (clock : Clock) (shared : Shared) (network : Network),
    PeerHandler.onConnect peer clock shared (PeerHandler.clone network (f handler)) =
      ((PeerHandler.onConnect peer clock shared (PeerHandler.clone network handler)).1,
        (PeerHandler.onConnect peer clock shared (PeerHandler.clone network handler)).2.1,
        f (PeerHandler.onConnect peer clock shared (PeerHandler.clone network handler)).2.2)
  holds : ∀ (peer : IpAddr) (clock : Clock) (shared : Shared) (network : Network),
    invariant (PeerHandler.onConnect peer clock shared (PeerHandler.clone network handler)).2.2
  disconnect : ∀ (peer : IpAddr) (clock : Clock) (shared : Shared) (other : H),
    (PeerHandler.onDisconnect peer clock shared (f other)).2.1 =
      (PeerHandler.onDisconnect peer clock shared other).2.1

variable {config : Config H} {shared : Shared}

omit [Base64] in
theorem Server.accept_over (halike : Alike f invariant tells)
    (hpeers : AlikePeers Shared Clock Network f invariant config.sessionConfig.handler)
    (peer : IpAddr) (stream : π) (clock : Clock) (network : Network) (shared : Shared) :
    accept (config.over f) peer stream clock network shared =
        ((accept config peer stream clock network shared).1.over f,
          (accept config peer stream clock network shared).2) ∨
      tells (accept config peer stream clock network shared).1.config.handler := by
  have hhandler : (config.over f).sessionConfig.handler = f config.sessionConfig.handler := rfl
  have hconnect := hpeers.connect peer clock shared network
  have hholds := hpeers.holds peer clock shared network
  rcases hanswer : PeerHandler.onConnect peer clock shared
    (PeerHandler.clone network config.sessionConfig.handler) with ⟨_ | _ | _, shared', handler⟩
  all_goals
    rw [hanswer] at hconnect hholds
    unfold accept
    dsimp only
    rw [hhandler, hconnect, hanswer]
  · exact .inl rfl
  · rcases Session.greet_over halike (.new (.newPlain stream config.tls)
        { config.sessionConfig with handler }) hholds with hsame | htold
    · exact .inl (congrArg (fun flow => (Task.serving flow, shared')) hsame)
    · exact .inr htold
  · exact .inl rfl

omit [Base64] in
theorem Server.accept_keeps {P : H → Prop}
    (hcall : ∀ (callback : Callback) (handler : H), P handler → P (callback.call handler).2)
    {peer : IpAddr} {clock : Clock} {network : Network}
    (hconnect : P (PeerHandler.onConnect peer clock shared
      (PeerHandler.clone network config.sessionConfig.handler)).2.2) (stream : π) :
    P (accept config peer stream clock network shared).1.config.handler := by
  rcases hanswer : PeerHandler.onConnect peer clock shared
    (PeerHandler.clone network config.sessionConfig.handler) with ⟨_ | _ | _, shared', handler⟩
  all_goals
    rw [hanswer] at hconnect
    rw [accept, hanswer]
  · exact hconnect
  · exact Session.greet_keeps hcall _ hconnect
  · exact hconnect

/-- The handler of some task tells. -/
def World.Tells (tells : H → Prop) (world : World π H Shared) : Prop :=
  ∃ served ∈ world.tasks, tells served.task.config.handler

omit [Transport π] [Handler H] [Base64] [PeerHandler H Shared Clock Network] in
/-- A task that changes and still tells, if it did. -/
theorem World.Tells.update {world : World π H Shared} (h : world.Tells tells) (i : Nat)
    {change : Served π H → Shared → Served π H × Shared}
    (hchange : ∀ served shared, tells served.task.config.handler →
      tells (change served shared).1.task.config.handler) :
    (world.update i change).Tells tells := by
  obtain ⟨served, hserved, htold⟩ := h
  obtain ⟨j, hj⟩ := List.getElem?_of_mem hserved
  unfold World.update
  cases hi : world.tasks[i]? with
  | none => exact ⟨served, hserved, htold⟩
  | some old =>
      by_cases heq : i = j
      · subst heq
        cases hi.symm.trans hj
        exact ⟨_, List.mem_set (List.getElem?_eq_some_iff.mp hi).1 _,
          hchange served world.shared htold⟩
      · refine ⟨served, List.mem_of_getElem? (i := j) ?_, htold⟩
        rwa [List.getElem?_set_ne heq]

/-- What was told stays told. -/
theorem World.step_told (halike : Alike f invariant tells) {world : World π H Shared}
    (h : world.Tells tells) (happening : Happening π Clock Network) :
    (world.step config happening).Tells tells := by
  cases happening with
  | accept peer stream clock network =>
      obtain ⟨served, hserved, htold⟩ := h
      exact ⟨served, List.mem_append_left _ hserved, htold⟩
  | turn i => exact h.update i fun served _ htold => Served.turn_keeps halike.told htold
  | leave i clock =>
      apply h.update i
      intro served shared htold
      unfold Server.leave
      split
      next => exact htold
      next => exact htold

omit [Transport π] [Handler H] [Base64] [PeerHandler H Shared Clock Network] in
/-- A change of one task that leads from images to images, or else tells. -/
theorem World.update_over {world : World π H Shared} (i : Nat)
    {change : Served π H → Shared → Served π H × Shared}
    (hchange : ∀ served ∈ world.tasks, ∀ shared,
      change (served.over f) shared = ((change served shared).1.over f, (change served shared).2) ∨
        tells (change served shared).1.task.config.handler) :
    (world.over f).update i change = (world.update i change).over f ∨
      (world.update i change).Tells tells := by
  unfold World.update World.over
  dsimp only
  rw [List.getElem?_map]
  cases hi : world.tasks[i]? with
  | none => exact .inl rfl
  | some served =>
      rcases hchange served (List.mem_of_getElem? hi) world.shared with hsame | htold
      · refine .inl ?_
        simp only [Option.map_some, hsame, List.map_set]
      · exact .inr ⟨_, List.mem_set (List.getElem?_eq_some_iff.mp hi).1 _, htold⟩

theorem World.step_over (halike : Alike f invariant tells)
    (hpeers : AlikePeers Shared Clock Network f invariant config.sessionConfig.handler)
    {world : World π H Shared} (hworld : world.Forall fun task => invariant task.config.handler)
    (happening : Happening π Clock Network) :
    (world.over f).step (config.over f) happening = (world.step config happening).over f ∨
      (world.step config happening).Tells tells := by
  cases happening with
  | accept peer stream clock network =>
      rcases Server.accept_over halike hpeers peer stream clock network world.shared with
        hsame | htold
      · refine .inl ?_
        simp only [World.step, hsame, World.over, List.map_append]
        rfl
      · exact .inr ⟨_, List.mem_append_right _ (List.mem_singleton_self _), htold⟩
  | turn i =>
      rw [World.step, World.step]
      apply World.update_over
      intro served hserved shared
      unfold Served.turn Served.over
      cases hclosed : served.closed with
      | true => simp [hclosed]
      | false =>
          rcases Task.turn_over halike (hworld served hserved) with hsame | htold
          · refine .inl ?_
            simp only [hsame]
            rfl
          · exact .inr htold
  | leave i clock =>
      rw [World.step, World.step]
      apply World.update_over
      intro served hserved shared
      refine .inl ?_
      have hdisconnect := hpeers.disconnect served.peer clock shared served.task.config.handler
      unfold Server.leave Served.over
      cases hclosed : served.closed with
      | true => simp [hclosed]
      | false =>
          simp only [Bool.false_eq_true, if_false, Task.over_config]
          exact Prod.ext rfl hdisconnect

/-- A server whose handlers are replaced by their images goes through the same
happenings as before, and does the same, unless some handler tells the difference. -/
theorem Server.listen_over (halike : Alike f invariant tells)
    (hpeers : AlikePeers Shared Clock Network f invariant config.sessionConfig.handler)
    (happenings : List (Happening π Clock Network)) :
    listen (config.over f) shared happenings = (listen config shared happenings).over f ∨
      (listen config shared happenings).Tells tells := by
  induction happenings using List.reverseRecOn with
  | nil => exact .inl rfl
  | append_singleton happenings happening ih =>
      rw [listen_concat, listen_concat]
      rcases ih with hsame | htold
      · rw [hsame]
        refine World.step_over halike hpeers (listen_forall ?_ ?_ shared happenings) happening
        · exact fun peer stream clock network shared => Server.accept_keeps
            (fun callback handler => halike.keeps callback handler)
            (hpeers.holds peer clock shared network) stream
        · exact fun task htask => Task.turn_keeps halike.keeps htask
      · exact .inr (World.step_told halike htold happening)

end Servers

end PostGraph.Smtp
