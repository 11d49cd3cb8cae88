import PostGraph.Smtp.Interleaving

/-! # Events of a kind

What is true of every event of a session can be told from the callbacks alone: of what the
handler answers under a configuration that the callbacks keep.
-/

namespace PostGraph.Smtp

open Foundation

variable {H : Type} [Handler H]

/-- Callbacks keep to the configurations, and their events are of the kind. Logins come
only where the mode provides for them. -/
structure Observed (keeps : SessionConfig H → Prop) (kind : Event → Prop) : Prop where
  reply : ∀ response, kind (.reply response)
  startTls : kind .startTls
  hello {config : SessionConfig H} {domain : Text} {extended : Bool}
    {answer : Except Text HelloResult} {handler : H} (hconfig : keeps config)
    (hanswer : Handler.onHello domain extended config.handler = (answer, handler)) :
    kind (.hello domain extended answer) ∧ keeps { config with handler }
  login {d : Dialogue H} {username password : Text} {answer : Except Text LoginResult}
    {handler : H} (hconfig : keeps d.config) (hmay : d.MayLogIn)
    (hanswer : Handler.onLogin username password d.config.handler = (answer, handler)) :
    kind (.login username password answer d.isTls) ∧ keeps { d.config with handler }
  mail {config : SessionConfig H} {mail : Mail} {answer : Except Text Unit} {handler : H}
    (isTls : Bool) (hconfig : keeps config)
    (hanswer : Handler.onMail mail config.handler = (answer, handler)) :
    kind (.mail mail answer isTls) ∧ keeps { config with handler }
  reset {config : SessionConfig H} {answer : Except Text Unit} {handler : H}
    (hconfig : keeps config) (hanswer : Handler.onReset config.handler = (answer, handler)) :
    kind (.reset answer) ∧ keeps { config with handler }

variable {keeps : SessionConfig H → Prop} {kind : Event → Prop}

/-- The dialogue keeps to the configurations, and all its events are of the kind. -/
structure Dialogue.Observes (keeps : SessionConfig H → Prop) (kind : Event → Prop)
    (d : Dialogue H) : Prop where
  config : keeps d.config
  log : ∀ event ∈ d.log, kind event

namespace Dialogue.Observes

variable {d : Dialogue H}

omit [Handler H] in
theorem of_log (h : d.Observes keeps kind) {d' : Dialogue H} {event : Event}
    (hevent : kind event ∧ keeps d'.config) (hlog : d'.log = d.log ++ [event]) :
    d'.Observes keeps kind where
  config := hevent.2
  log event hmem := by
    rw [hlog] at hmem
    rcases List.mem_append.mp hmem with hbefore | hnew
    · exact h.log event hbefore
    · rw [List.mem_singleton.mp hnew]
      exact hevent.1

theorem act (hobserved : Observed keeps kind) (h : d.Observes keeps kind) {d' : Dialogue H}
    (hact : Act d d') : d'.Observes keeps kind := by
  cases hact with
  | greet hphase hanswer => exact h.of_log (hobserved.hello h.config hanswer) rfl
  | secure hphase hsecurity => exact h.of_log ⟨hobserved.startTls, h.config⟩ rfl
  | logIn hphase hmay hanswer => exact h.of_log (hobserved.login h.config hmay hanswer) rfl
  | mail sender hphase hallowed => exact ⟨h.config, h.log⟩
  | recipient address hphase hallowed => exact ⟨h.config, h.log⟩
  | data hphase hallowed => exact ⟨h.config, h.log⟩
  | capture line hphase hsize => exact ⟨h.config, h.log⟩
  | deliver hphase hanswer => exact h.of_log (hobserved.mail d.isTls h.config hanswer) rfl
  | reset hanswer => exact h.of_log (hobserved.reset h.config hanswer) rfl

theorem parting (hobserved : Observed keeps kind) (h : d.Observes keeps kind) {d' : Dialogue H}
    (hparting : Parting d d') : d'.Observes keeps kind := by
  cases hparting with
  | hello hphase hanswer hrejected => exact h.of_log (hobserved.hello h.config hanswer) rfl
  | login hphase hmay hanswer hrejected =>
      exact h.of_log (hobserved.login h.config hmay hanswer) rfl

end Dialogue.Observes

theorem Observed.log_replies (hobserved : Observed keeps kind) {log : List Event}
    (hlog : ∀ event ∈ log, kind event) (replies : List Response) :
    ∀ event ∈ log ++ replies.map .reply, kind event := by
  intro event hevent
  rcases List.mem_append.mp hevent with hbefore | hreply
  · exact hlog event hbefore
  · obtain ⟨response, -, rfl⟩ := List.mem_map.mp hreply
    exact hobserved.reply response

theorem Observed.invariant (hobserved : Observed keeps kind) :
    Dialogue.Invariant (Dialogue.Observes keeps kind) fun _ log => ∀ event ∈ log, kind event where
  say replies hd := ⟨hd.config, hobserved.log_replies hd.log replies⟩
  act hd hact := hd.act hobserved hact
  parting hd hparting := (hd.parting hobserved hparting).log
  ended_of_live hd := hd.log
  ended_say replies hended := hobserved.log_replies hended replies

omit [Handler H] in
/-- All events of a task are of the kind. -/
theorem Task.Holds.observed {π : Type} {task : Task π H} {idle : SessionConfig H → Prop}
    (h : task.Holds (Dialogue.Observes keeps kind) (fun _ log => ∀ event ∈ log, kind event) idle) :
    ∀ event ∈ task.log, kind event :=
  h.shown (fun _ hd => hd.log) (fun _ _ hended => hended) fun _ _ => nofun

end PostGraph.Smtp
