import PostGraph.Smtp.Session

/-! # Dialogues

What a session is for, without its octets: a client may greet, secure the
connection, log in, run transactions and reset, each only where it is allowed,
and the handler answers. Replies change nothing but the log. A dialogue ends
with a parting act, or when the connection breaks between two replies.
-/

namespace PostGraph.Smtp

open Foundation

/-- The kind of a connection. A plain one may support the upgrade to TLS. -/
inductive Security where
  | plain (upgradable : Bool)
  | tls
  deriving DecidableEq

/-- The configuration includes the handler. Without security the connection is
lost. -/
structure Dialogue (H : Type) where
  config : SessionConfig H
  state : SessionState
  log : List Event
  security : Option Security

namespace Dialogue

variable {H : Type}

def isTls (d : Dialogue H) : Bool := d.security = some .tls

def isAuthenticated (d : Dialogue H) : Bool :=
  if d.config.hasAuth then d.state.isAuthenticated else true

/-- Logging in is possible under the authentication mode. -/
def MayLogIn (d : Dialogue H) : Prop :=
  d.config.authMode = .always ∨ d.config.authMode = .requireTls ∧ d.isTls

def say (d : Dialogue H) (replies : List Response) : Dialogue H :=
  { d with log := d.log ++ replies.map .reply }

/-- The handler's next state, and an entry for its answer. -/
def heard (d : Dialogue H) (handler : H) (event : Event) : Dialogue H :=
  { d with config := { d.config with handler }, log := d.log ++ [event] }

def inPhase (d : Dialogue H) (phase : Phase) : Dialogue H :=
  { d with state := { d.state with phase } }

def withMail (d : Dialogue H) (currentMail : Mail) : Dialogue H :=
  { d with state := { d.state with currentMail } }

def loggedIn (d : Dialogue H) : Dialogue H :=
  { d with state := { d.state with isAuthenticated := true } }

def cleared (d : Dialogue H) : Dialogue H := { d with state := .new }

def secured (d : Dialogue H) : Dialogue H :=
  { d with security := some .tls, log := d.log ++ [.startTls] }

/-- Only replies are between the two. -/
def Said (d d' : Dialogue H) : Prop := ∃ replies, d' = d.say replies

theorem Said.refl (d : Dialogue H) : Said d d := ⟨[], by simp [say]⟩

theorem Said.trans {d d' d'' : Dialogue H} (h : Said d d') (h' : Said d' d'') : Said d d'' := by
  obtain ⟨first, rfl⟩ := h
  obtain ⟨second, rfl⟩ := h'
  exact ⟨first ++ second, by simp [say]⟩

variable [Handler H]

/-- Acts after which the dialogue may go on. -/
inductive Act : Dialogue H → Dialogue H → Prop
  | greet {d : Dialogue H} {domain : Text} {extended : Bool} {handler : H}
      (hphase : d.state.phase = .connected)
      (hanswer : Handler.onHello domain extended d.config.handler = (.ok .ok, handler)) :
      Act d ((d.heard handler (.hello domain extended (.ok .ok))).inPhase .greeted)
  | secure {d : Dialogue H} (hphase : d.state.phase = .greeted)
      (hsecurity : d.security = some (.plain true)) : Act d d.secured.cleared
  | logIn {d : Dialogue H} {username password : Text} {handler : H}
      (hphase : d.state.phase = .greeted) (hmode : d.MayLogIn)
      (hanswer : Handler.onLogin username password d.config.handler = (.ok .ok, handler)) :
      Act d (d.heard handler (.login username password (.ok .ok) d.isTls)).loggedIn
  | mail {d : Dialogue H} (sender : Text) (hphase : d.state.phase = .greeted)
      (hallowed : d.isAuthenticated = true) :
      Act d ((d.withMail (Mail.empty.setSender sender)).inPhase .envelope)
  | recipient {d : Dialogue H} (address : Text) (hphase : d.state.phase = .envelope)
      (hallowed : d.isAuthenticated = true) :
      Act d (d.withMail (d.state.currentMail.addRecipient address))
  | data {d : Dialogue H} (hphase : d.state.phase = .envelope)
      (hallowed : d.isAuthenticated = true) : Act d (d.inPhase .data)
  | capture {d : Dialogue H} (line : Bytes) (hphase : d.state.phase = .data)
      (hsize : d.state.currentMail.dataLength + line.length ≤ d.config.maxMessageSize) :
      Act d (d.withMail (d.state.currentMail.appendData line))
  | deliver {d : Dialogue H} {answer : Except Text Unit} {handler : H}
      (hphase : d.state.phase = .data)
      (hanswer : Handler.onMail d.state.currentMail d.config.handler = (answer, handler)) :
      Act d (((d.heard handler (.mail d.state.currentMail answer d.isTls)).withMail
        .empty).inPhase .greeted)
  | reset {d : Dialogue H} {answer : Except Text Unit} {handler : H}
      (hanswer : Handler.onReset d.config.handler = (answer, handler)) :
      Act d (d.heard handler (.reset answer)).cleared

/-- Acts that end the dialogue. -/
inductive Parting : Dialogue H → Dialogue H → Prop
  | hello {d : Dialogue H} {domain : Text} {extended : Bool}
      {answer : Except Text HelloResult} {handler : H} (hphase : d.state.phase = .connected)
      (hanswer : Handler.onHello domain extended d.config.handler = (answer, handler))
      (hrejected : answer ≠ .ok .ok) : Parting d (d.heard handler (.hello domain extended answer))
  | login {d : Dialogue H} {username password : Text} {answer : Except Text LoginResult}
      {handler : H} (hphase : d.state.phase = .greeted) (hmode : d.MayLogIn)
      (hanswer : Handler.onLogin username password d.config.handler = (answer, handler))
      (hrejected : answer ≠ .ok .ok) :
      Parting d (d.heard handler (.login username password answer d.isTls))

/-- Between two command boundaries: replies, at most one act, and replies. -/
def Turn (d d' : Dialogue H) : Prop :=
  ∃ start middle, Said d start ∧ (middle = start ∨ Act start middle) ∧ Said middle d'

/-- The end of a dialogue: replies, at most one act, and replies. The session
may break off before it has updated its own state. -/
def Close (d d' : Dialogue H) : Prop :=
  ∃ start middle last, Said d start ∧ (middle = start ∨ Act start middle ∨ Parting start middle) ∧
    Said middle last ∧ d'.config = last.config ∧ d'.log = last.log

theorem Turn.of_said {d d' : Dialogue H} (h : Said d d') : Turn d d' :=
  ⟨d', d', h, .inl rfl, .refl d'⟩

theorem Turn.close {d d' : Dialogue H} (h : Turn d d') : Close d d' := by
  obtain ⟨start, middle, hbefore, hact, hafter⟩ := h
  exact ⟨start, middle, d', hbefore, hact.imp_right .inl, hafter, rfl, rfl⟩

theorem Turn.after_said {d d' d'' : Dialogue H} (hsaid : Said d d') (h : Turn d' d'') :
    Turn d d'' := by
  obtain ⟨start, middle, hbefore, hact, hafter⟩ := h
  exact ⟨start, middle, hsaid.trans hbefore, hact, hafter⟩

theorem Close.after_said {d d' d'' : Dialogue H} (hsaid : Said d d') (h : Close d' d'') :
    Close d d'' := by
  obtain ⟨start, middle, last, hbefore, hact, hafter⟩ := h
  exact ⟨start, middle, last, hsaid.trans hbefore, hact, hafter⟩

/-- What holds between turns and what holds after the end, for the dialogues
of an invariant that replies and acts preserve. -/
structure Invariant (live : Dialogue H → Prop) (ended : SessionConfig H → List Event → Prop) :
    Prop where
  say {d : Dialogue H} (replies : List Response) (hd : live d) : live (d.say replies)
  act {d d' : Dialogue H} (hd : live d) (hact : Act d d') : live d'
  parting {d d' : Dialogue H} (hd : live d) (hparting : Parting d d') : ended d'.config d'.log
  ended_of_live {d : Dialogue H} (hd : live d) : ended d.config d.log
  ended_say {config : SessionConfig H} {log : List Event} (replies : List Response)
    (hended : ended config log) : ended config (log ++ replies.map .reply)

namespace Invariant

variable {live : Dialogue H → Prop} {ended : SessionConfig H → List Event → Prop}

theorem turn (h : Invariant live ended) {d d' : Dialogue H} (hd : live d) (hturn : Turn d d') :
    live d' := by
  obtain ⟨start, middle, ⟨before, rfl⟩, rfl | hact, ⟨after, rfl⟩⟩ := hturn
  · exact h.say after (h.say before hd)
  · exact h.say after (h.act (h.say before hd) hact)

theorem close (h : Invariant live ended) {d d' : Dialogue H} (hd : live d)
    (hclose : Close d d') : ended d'.config d'.log := by
  obtain ⟨start, middle, last, ⟨before, rfl⟩, hmiddle, ⟨after, rfl⟩, hconfig, hlog⟩ := hclose
  rw [hconfig, hlog]
  have hsaid := h.say before hd
  apply h.ended_say after
  rcases hmiddle with rfl | hact | hparting
  · exact h.ended_of_live hsaid
  · exact h.ended_of_live (h.act hsaid hact)
  · exact h.parting hsaid hparting

/-- A second invariant may use the first one. -/
theorem and (h : Invariant live ended) {live' : Dialogue H → Prop}
    {ended' : SessionConfig H → List Event → Prop}
    (hsay : ∀ {d} replies, live' d → live' (d.say replies))
    (hact : ∀ {d d'}, live d → live' d → Act d d' → live' d')
    (hparting : ∀ {d d'}, live d → live' d → Parting d d' → ended' d'.config d'.log)
    (hended : ∀ {d}, live' d → ended' d.config d.log)
    (hendedSay : ∀ {config log} (replies : List Response), ended' config log →
      ended' config (log ++ replies.map .reply)) :
    Invariant (fun d => live d ∧ live' d)
      (fun config log => ended config log ∧ ended' config log) where
  say replies hd := ⟨h.say replies hd.1, hsay replies hd.2⟩
  act hd hacts := ⟨h.act hd.1 hacts, hact hd.1 hd.2 hacts⟩
  parting hd hparts := ⟨h.parting hd.1 hparts, hparting hd.1 hd.2 hparts⟩
  ended_of_live hd := ⟨h.ended_of_live hd.1, hended hd.2⟩
  ended_say replies hd := ⟨h.ended_say replies hd.1, hendedSay replies hd.2⟩

end Invariant

end Dialogue

end PostGraph.Smtp
