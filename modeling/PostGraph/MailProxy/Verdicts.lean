import PostGraph.MailProxy.Proxy
import PostGraph.Smtp.Observed

/-! # What the events of a run are like

What callbacks of the handler answer is what every event of every run shows. In particular
all logins get the verdict of the list of users.
-/

namespace PostGraph.Smtp

open Foundation

/-- A login is accepted exactly if the check of its password is passed, and else rejected. -/
def Event.Judged (check : Text → Text → Except Text Unit) : Event → Prop
  | login username password answer _ =>
      (answer = .ok .ok ↔ check username password = .ok ()) ∧
        (answer = .ok .ok ∨ answer = .ok .reject)
  | _ => True

end PostGraph.Smtp

namespace PostGraph.MailProxy

open Foundation Smtp

section Runs

variable {π N : Type} [TlsFiles] [Lowercase] [Argon2] [MsGraph.HttpClient N] [Base64] [Transport π]
variable {file : ConfigFile} {network : N} {happenings : List (Happening π Readings N)}
variable {world : World π (ProxyHandler N) Fail2Ban}

/-- Every event of a run is of a kind that callbacks keep to from the start. -/
theorem run_observed {keeps : SessionConfig (ProxyHandler N) → Prop} {kind : Event → Prop}
    (hobserved : Observed keeps kind) (hstarts : ∀ d, Starts file d → keeps d.config)
    (hrun : run file network happenings = .ok world) :
    ∀ served ∈ world.tasks, ∀ event ∈ served.task.log, kind event := by
  have hlive : ∀ d, Starts file d → Dialogue.Observes keeps kind d := by
    intro d hd
    refine ⟨hstarts d hd, ?_⟩
    rw [hd.log_eq]
    exact nofun
  have hholds : world.Forall (·.Holds (Dialogue.Observes keeps kind)
      (fun _ log => ∀ event ∈ log, kind event) fun _ => True) :=
    run_holds hobserved.invariant hlive (fun _ _ => trivial) hrun
  exact fun served hserved => (hholds served hserved).observed

omit [TlsFiles] [Transport π] in
theorem judged_observed (file : ConfigFile) :
    Observed (fun config : SessionConfig (ProxyHandler N) => config.handler.config = file)
      (Event.Judged file.smtp.users.verifyUserPassword) where
  reply _ := trivial
  startTls := trivial
  hello hconfig hanswer := by
    cases hanswer
    exact ⟨trivial, hconfig⟩
  login {d username password answer handler} hconfig _ hanswer := by
    rcases d.config.handler.onLogin_cases username password with
      ⟨haccepted, hlogin⟩ | ⟨⟨error, hrejected⟩, hlogin⟩
    · cases hlogin.symm.trans hanswer
      rw [hconfig] at haccepted
      exact ⟨⟨iff_of_true rfl haccepted, .inl rfl⟩, hconfig⟩
    · cases hlogin.symm.trans hanswer
      rw [hconfig] at hrejected
      refine ⟨⟨iff_of_false nofun ?_, .inr rfl⟩, hconfig⟩
      rw [hrejected]
      exact nofun
  mail _ hconfig hanswer := ⟨trivial, (ProxyHandler.onMail_keeps hanswer).2.trans hconfig⟩
  reset hconfig hanswer := by
    cases hanswer
    exact ⟨trivial, hconfig⟩

/-- Every login gets the verdict of the configured list. -/
theorem run_judged (hrun : run file network happenings = .ok world) :
    ∀ served ∈ world.tasks, ∀ event ∈ served.task.log,
      event.Judged file.smtp.users.verifyUserPassword :=
  run_observed (judged_observed file) (fun _ hd => hd.handler.config_eq) hrun

end Runs

end PostGraph.MailProxy
