import PostGraph.MailProxy.Proxy

/-! # Productive sessions

A session that ends counts as a fail unless it has handed over a mail and did not
end with a rejected login. A rejected login is the last thing that happens in a
session, so there is at most one.
-/

namespace PostGraph.MailProxy

open Foundation Smtp

namespace ProxyEvent

def isSendMail : ProxyEvent → Bool
  | login _ _ _ => false
  | sendMail _ _ => true

/-- A login with a wrong password. -/
def isRejection : ProxyEvent → Bool
  | login _ _ accepted => !accepted
  | sendMail _ _ => false

end ProxyEvent

/-- No mail was handed over, or a rejected login came last. -/
def unproductive (history : List ProxyEvent) : Bool :=
  !history.any ProxyEvent.isSendMail || history.getLast?.any ProxyEvent.isRejection

/-- How many logins were rejected. -/
def rejections (history : List ProxyEvent) : Nat := history.countP ProxyEvent.isRejection

theorem rejections_append (before after : List ProxyEvent) :
    rejections (before ++ after) = rejections before + rejections after :=
  List.countP_append

variable {N : Type}

/-- The handler's flag is right, and logins are rejected in unproductive sessions
only, once at most. -/
structure Settled (handler : ProxyHandler N) : Prop where
  productive_eq : handler.productive = !unproductive handler.history
  rejections_le : rejections handler.history ≤ if unproductive handler.history then 1 else 0

/-- No login has been rejected, and the flag tells of mails only. -/
structure Unrejected (handler : ProxyHandler N) : Prop where
  productive_eq : handler.productive = handler.history.any ProxyEvent.isSendMail
  not_rejected : ∀ event ∈ handler.history, event.isRejection = false

theorem Unrejected.of_fresh {file : ConfigFile} {handler : ProxyHandler N}
    (h : handler.Fresh file) : Unrejected handler where
  productive_eq := by
    rw [h.productive_eq, h.history_eq]
    rfl
  not_rejected event hevent := by
    rw [h.history_eq] at hevent
    exact absurd hevent List.not_mem_nil

/-- One more entry that is no rejected login. -/
theorem Unrejected.concat {handler handler' : ProxyHandler N} (h : Unrejected handler)
    {event : ProxyEvent} (hhistory : handler'.history = handler.history ++ [event])
    (hproductive : handler'.productive = (handler.productive || event.isSendMail))
    (hevent : event.isRejection = false) : Unrejected handler' where
  productive_eq := by
    rw [hhistory, hproductive, h.productive_eq, List.any_append, List.any_cons, List.any_nil,
      Bool.or_false]
  not_rejected other hother := by
    rw [hhistory] at hother
    rcases List.mem_append.mp hother with hother | hother
    · exact h.not_rejected other hother
    · rw [List.mem_singleton.mp hother]
      exact hevent

theorem Unrejected.rejections_eq {handler : ProxyHandler N} (h : Unrejected handler) :
    rejections handler.history = 0 :=
  List.countP_eq_zero.mpr fun event hevent => by simp [h.not_rejected event hevent]

theorem Unrejected.settled {handler : ProxyHandler N} (h : Unrejected handler) :
    Settled handler where
  productive_eq := by
    have hlast : handler.history.getLast?.any ProxyEvent.isRejection = false := by
      cases hhistory : handler.history.getLast? with
      | none => rfl
      | some event => exact h.not_rejected event (List.mem_of_getLast? hhistory)
    rw [unproductive, hlast, Bool.or_false, Bool.not_not, h.productive_eq]
  rejections_le := by
    rw [h.rejections_eq]
    exact Nat.zero_le _

/-- The flag of each task's handler is right, and a refused task has done nothing. -/
structure TaskSettled {π : Type} (task : Task π (ProxyHandler N)) : Prop where
  settled : Settled task.config.handler
  refused : task.accepted = false → task.config.handler.history = []

/-- The callback on disconnecting counts a fail for the refused and the unproductive. -/
theorem TaskSettled.not_productive {π : Type} {task : Task π (ProxyHandler N)}
    (h : TaskSettled task) :
    (!task.accepted || unproductive task.config.handler.history) =
      !task.config.handler.productive := by
  rw [h.settled.productive_eq, Bool.not_not]
  cases haccepted : task.accepted with
  | true => rfl
  | false =>
      rw [h.refused haccepted]
      rfl

variable [Lowercase] [Argon2] [MsGraph.HttpClient N] [Base64] {d : Dialogue (ProxyHandler N)}

theorem Unrejected.act (h : Unrejected d.config.handler) {d' : Dialogue (ProxyHandler N)}
    (hact : Dialogue.Act d d') : Unrejected d'.config.handler := by
  cases hact with
  | greet hphase hanswer =>
      cases hanswer
      exact h
  | secure hphase hsecurity => exact h
  | @logIn username password handler hphase hmode hanswer =>
      rcases d.config.handler.onLogin_cases username password with
        ⟨_, hlogin⟩ | ⟨_, hlogin⟩
      · cases hlogin.symm.trans hanswer
        exact h.concat rfl (Bool.or_false _).symm rfl
      · cases hlogin.symm.trans hanswer
  | mail sender hphase hallowed => exact h
  | recipient address hphase hallowed => exact h
  | data hphase hallowed => exact h
  | capture line hphase hsize => exact h
  | deliver hphase hanswer =>
      rcases d.config.handler.onMail_cases d.state.currentMail with
        ⟨error, hmail⟩ | ⟨_, answer, graphClient, hmail⟩
      · cases hmail.symm.trans hanswer
        exact h
      · cases hmail.symm.trans hanswer
        exact h.concat rfl (Bool.or_true _).symm rfl
  | reset hanswer =>
      cases hanswer
      exact ⟨h.productive_eq, h.not_rejected⟩

/-- A rejected login ends the session. -/
theorem Unrejected.parting (h : Unrejected d.config.handler) {d' : Dialogue (ProxyHandler N)}
    (hparting : Dialogue.Parting d d') : Settled d'.config.handler := by
  cases hparting with
  | hello hphase hanswer hrejected =>
      cases hanswer
      exact h.settled
  | @login username password answer handler hphase hmode hanswer hrejected =>
      cases ProxyHandler.onLogin_rejected hanswer hrejected
      have hunproductive : unproductive
          (d.config.handler.history ++ [.login username password false]) = true := by
        simp [unproductive, ProxyEvent.isRejection]
      have hrejections : rejections
          (d.config.handler.history ++ [.login username password false]) = 1 := by
        rw [rejections_append, h.rejections_eq]
        rfl
      exact ⟨by simp [Dialogue.heard, hunproductive], by
        simp [Dialogue.heard, hunproductive, hrejections]⟩

theorem unrejected_invariant :
    Dialogue.Invariant (fun d : Dialogue (ProxyHandler N) => Unrejected d.config.handler)
      (fun config _ => Settled config.handler) where
  say _ hd := hd
  act hd hact := hd.act hact
  parting hd hparting := hd.parting hparting
  ended_of_live hd := hd.settled
  ended_say _ hended := hended

theorem run_settled {π : Type} [TlsFiles] [Transport π] {file : ConfigFile} {network : N}
    {happenings : List (Happening π Readings N)} {world : World π (ProxyHandler N) Fail2Ban}
    (hrun : run file network happenings = .ok world) : world.Forall TaskSettled := by
  have hholds : world.Forall (·.Holds _ _ fun config : SessionConfig (ProxyHandler N) =>
      config.handler.Fresh file) :=
    run_holds unrejected_invariant (fun _ hstarts => .of_fresh hstarts.handler)
      (fun _ hfresh => hfresh) hrun
  intro served hserved
  have htask := hholds served hserved
  cases hcase : served.task with
  | refused config =>
      rw [hcase] at htask
      exact ⟨(Unrejected.of_fresh htask).settled, fun _ => htask.history_eq⟩
  | serving flow =>
      rw [hcase] at htask
      refine ⟨?_, fun haccepted => by cases haccepted⟩
      cases flow with
      | running session => exact Unrejected.settled htask
      | stopped session result => exact htask

end PostGraph.MailProxy
