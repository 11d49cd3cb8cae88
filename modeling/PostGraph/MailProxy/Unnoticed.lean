import PostGraph.MailProxy.LoginState
import PostGraph.Smtp.Substitution

/-! # Users that nobody notices

Whether a user exists, which password it has and what it may send can be told from
outside only by a login with a right password. Until then a server with the user and
one without do the same, reply by reply.
-/

namespace PostGraph.MailProxy

open Foundation Smtp

/-- The lists have the same entries, but for one user. -/
structure UserList.SameBut [Lowercase] (username : Text) (list other : UserList) : Prop where
  lookup : ∀ name, toLowercase name ≠ toLowercase username →
    list.users.lookup (toLowercase name) = other.users.lookup (toLowercase name)
  hasUsers : list.hasUsers = other.hasUsers

def ConfigFile.withUsers (users : UserList) (file : ConfigFile) : ConfigFile :=
  { file with smtp := { file.smtp with users } }

/-- The handler under the configuration with other users. -/
def ProxyHandler.withUsers {N : Type} (users : UserList) (handler : ProxyHandler N) :
    ProxyHandler N :=
  { handler with config := handler.config.withUsers users }

section Unnoticed

variable {N : Type} [Lowercase] [Argon2] {username : Text} {file : ConfigFile} {users : UserList}

/-- Some login as the user had a password that is right in one of the lists. -/
def Found (username : Text) (list other : UserList) (handler : ProxyHandler N) : Prop :=
  ∃ name password accepted, .login name password accepted ∈ handler.history ∧
    toLowercase name = toLowercase username ∧
      (list.verifyUserPassword name password = .ok () ∨
        other.verifyUserPassword name password = .ok ())

/-- The configuration never changes, and whoever is logged in as the user has found a
password. -/
structure Unfound (username : Text) (file : ConfigFile) (users : UserList)
    (handler : ProxyHandler N) : Prop where
  config_eq : handler.config = file
  found : ∀ name, handler.username = some name → toLowercase name = toLowercase username →
    Found username file.smtp.users users handler

theorem UserList.SameBut.verifyUserPassword_eq {list other : UserList}
    (h : list.SameBut username other) {name : Text}
    (hname : toLowercase name ≠ toLowercase username) (password : Text) :
    list.verifyUserPassword name password = other.verifyUserPassword name password := by
  unfold UserList.verifyUserPassword
  dsimp only
  rw [h.lookup name hname]

omit [Argon2] in
theorem UserList.SameBut.verifyUserCanSendAs_eq {list other : UserList}
    (h : list.SameBut username other) {name : Text}
    (hname : toLowercase name ≠ toLowercase username) (sender : Text) :
    list.verifyUserCanSendAs name sender = other.verifyUserCanSendAs name sender := by
  unfold UserList.verifyUserCanSendAs
  dsimp only
  rw [h.lookup name hname]

/-- A history that goes on keeps what was found. -/
theorem Found.mono {list other : UserList} {handler after : ProxyHandler N}
    (h : Found username list other handler) (hhistory : handler.history ⊆ after.history) :
    Found username list other after := by
  obtain ⟨name, password, accepted, hmem, hfound⟩ := h
  exact ⟨name, password, accepted, hhistory hmem, hfound⟩

variable [MsGraph.HttpClient N] [Base64]

theorem history_subset_call (callback : Callback) (handler : ProxyHandler N) :
    handler.history ⊆ (callback.call handler).2.history := by
  cases callback with
  | hello domain extended => exact List.Subset.refl _
  | login name password =>
      rcases handler.onLogin_cases name password with ⟨-, hlogin⟩ | ⟨-, hlogin⟩
      · exact (congrArg (·.2.history) hlogin).symm ▸ List.subset_append_left _ _
      · exact (congrArg (·.2.history) hlogin).symm ▸ List.subset_append_left _ _
  | mail mail =>
      rcases handler.onMail_cases mail with ⟨error, hmail⟩ | ⟨-, answer, graphClient, hmail⟩
      · exact (congrArg (·.2.history) hmail).symm ▸ List.Subset.refl _
      · exact (congrArg (·.2.history) hmail).symm ▸ List.subset_append_left _ _
  | reset => exact List.Subset.refl _

omit [MsGraph.HttpClient N] [Base64] in
/-- A login that is not the user's gets the same answer from both lists. -/
theorem onLogin_withUsers {handler : ProxyHandler N} (hconfig : handler.config = file)
    {name password : Text}
    (hsame : file.smtp.users.verifyUserPassword name password = .ok () ↔
      users.verifyUserPassword name password = .ok ()) :
    ProxyHandler.onLogin name password (handler.withUsers users) =
      ((ProxyHandler.onLogin name password handler).1,
        (ProxyHandler.onLogin name password handler).2.withUsers users) := by
  subst hconfig
  rcases handler.onLogin_cases name password with ⟨haccepted, hlogin⟩ | ⟨⟨error, hrejected⟩, hlogin⟩
  · rcases (handler.withUsers users).onLogin_cases name password with
      ⟨-, hlogin'⟩ | ⟨⟨error', hrejected'⟩, -⟩
    · rw [hlogin, hlogin']
      rfl
    · cases hrejected'.symm.trans (hsame.mp haccepted)
  · rcases (handler.withUsers users).onLogin_cases name password with
      ⟨haccepted', -⟩ | ⟨-, hlogin'⟩
    · cases hrejected.symm.trans (hsame.mpr haccepted')
    · rw [hlogin, hlogin']
      rfl

omit [Argon2] in
/-- The mail of somebody else, or of nobody, is treated alike under both lists. -/
theorem onMail_withUsers {handler : ProxyHandler N} {mail : Mail}
    (hsame : ∀ name, handler.username = some name →
      handler.config.smtp.users.verifyUserCanSendAs name mail.sender =
        users.verifyUserCanSendAs name mail.sender) :
    ProxyHandler.onMail mail (handler.withUsers users) =
      ((ProxyHandler.onMail mail handler).1,
        (ProxyHandler.onMail mail handler).2.withUsers users) := by
  have hcheck : (handler.withUsers users).checkSender mail.sender =
      handler.checkSender mail.sender := by
    unfold ProxyHandler.checkSender
    have husername : (handler.withUsers users).username = handler.username := rfl
    rw [husername]
    cases hname : handler.username with
    | none => rfl
    | some name =>
        dsimp only
        rw [hsame name hname]
        rfl
  have hclient : (handler.withUsers users).graphClient = handler.graphClient := rfl
  unfold ProxyHandler.onMail
  rw [hcheck]
  cases handler.checkSender mail.sender with
  | error error => rfl
  | ok checked =>
      dsimp only
      rw [hclient]
      cases MsGraph.Client.sendMail mail.sender mail.data handler.graphClient <;> rfl

omit [MsGraph.HttpClient N] [Base64] in
/-- A login as the user with a right password is found in the history. -/
theorem found_onLogin {list other : UserList} {name password : Text} (handler : ProxyHandler N)
    (hname : toLowercase name = toLowercase username)
    (hright : list.verifyUserPassword name password = .ok () ∨
      other.verifyUserPassword name password = .ok ()) :
    Found username list other (ProxyHandler.onLogin name password handler).2 := by
  rcases handler.onLogin_cases name password with ⟨-, hlogin⟩ | ⟨-, hlogin⟩
  · rw [hlogin]
    exact ⟨name, password, true, List.mem_append_right _ (List.mem_singleton_self _), hname, hright⟩
  · rw [hlogin]
    exact ⟨name, password, false, List.mem_append_right _ (List.mem_singleton_self _), hname,
      hright⟩

omit [MsGraph.HttpClient N] [Base64] in
/-- A user whom a handler remembers has logged in with a right password. -/
theorem onLogin_remembers {handler : ProxyHandler N} {name password other : Text}
    (hother : (ProxyHandler.onLogin name password handler).2.username = some other) :
    handler.config.smtp.users.verifyUserPassword name password = .ok () ∧ name = other := by
  rcases handler.onLogin_cases name password with ⟨haccepted, hlogin⟩ | ⟨-, hlogin⟩
  · rw [hlogin] at hother
    cases hother
    exact ⟨haccepted, rfl⟩
  · rw [hlogin] at hother
    cases hother

/-- Until somebody finds a password of the user, handlers answer alike. -/
theorem alike_withUsers (hsame : file.smtp.users.SameBut username users) :
    Alike (ProxyHandler.withUsers (N := N) users) (Unfound username file users)
      (Found username file.smtp.users users) where
  told callback handler htold := htold.mono (history_subset_call callback handler)
  keeps callback handler h := by
    cases callback with
    | hello domain extended => exact h
    | login name password =>
        have hconfig : (ProxyHandler.onLogin name password handler).2.config = handler.config := by
          rcases handler.onLogin_cases name password with ⟨-, hlogin⟩ | ⟨-, hlogin⟩ <;> rw [hlogin]
        refine ⟨hconfig.trans h.config_eq, fun other hother hname => ?_⟩
        obtain ⟨haccepted, rfl⟩ := onLogin_remembers hother
        exact found_onLogin handler hname (.inl (h.config_eq ▸ haccepted))
    | mail mail =>
        obtain ⟨husername, hconfig⟩ :=
          ProxyHandler.onMail_keeps (Prod.mk.eta (p := ProxyHandler.onMail mail handler)).symm
        refine ⟨hconfig.trans h.config_eq, fun name hname huser => ?_⟩
        exact (h.found name (husername.symm.trans hname) huser).mono
          (history_subset_call (.mail mail) handler)
    | reset => exact ⟨h.config_eq, nofun⟩
  answers callback handler h := by
    cases callback with
    | hello domain extended => exact .inl rfl
    | login name password =>
        by_cases hname : toLowercase name = toLowercase username
        · by_cases hright : file.smtp.users.verifyUserPassword name password = .ok () ∨
              users.verifyUserPassword name password = .ok ()
          · exact .inr (found_onLogin handler hname hright)
          · rw [not_or] at hright
            exact .inl (onLogin_withUsers h.config_eq (iff_of_false hright.1 hright.2))
        · exact .inl (onLogin_withUsers h.config_eq
            (by rw [hsame.verifyUserPassword_eq hname]))
    | mail mail =>
        by_cases huser : ∃ name, handler.username = some name ∧
            toLowercase name = toLowercase username
        · obtain ⟨name, hsome, hname⟩ := huser
          exact .inr ((h.found name hsome hname).mono (history_subset_call (.mail mail) handler))
        · refine .inl (onMail_withUsers fun name hsome => ?_)
          rw [h.config_eq]
          exact hsame.verifyUserCanSendAs_eq (fun hname => huser ⟨name, hsome, hname⟩) mail.sender
    | reset => exact .inl rfl

omit [Argon2] [MsGraph.HttpClient N] [Base64] in
theorem alikePeers_withUsers {handler : ProxyHandler N} (hconfig : handler.config = file)
    (husername : handler.username = none) [Argon2] :
    AlikePeers Fail2Ban Readings N (ProxyHandler.withUsers users) (Unfound username file users)
      handler where
  connect peer clock shared network := rfl
  holds peer clock shared network := by
    refine ⟨hconfig, fun name hsome => ?_⟩
    cases husername.symm.trans hsome
  disconnect peer clock shared other := rfl

omit [Lowercase] [Argon2] [MsGraph.HttpClient N] [Base64] in
/-- The handler passes through the application of the settings as it is. -/
theorem SMTPServerConfig.applyToServerConfig_over [TlsFiles] {H : Type} (f : H → H)
    {settings : SMTPServerConfig} {config applied : Smtp.Config H}
    (h : settings.applyToServerConfig config = .ok applied) :
    settings.applyToServerConfig (config.over f) = .ok (applied.over f) := by
  unfold SMTPServerConfig.applyToServerConfig at h ⊢
  cases htls : settings.tls with
  | none =>
      rw [htls] at h
      cases h
      rfl
  | some tls =>
      rw [htls] at h
      cases hacceptor :
          (Smtp.TlsConfig.chain tls.certificateChain tls.privateKey).intoTlsAcceptor with
      | error error =>
          simp only [Smtp.Config.withTls, hacceptor] at h
          cases h
      | ok acceptor =>
          simp only [Smtp.Config.withTls, hacceptor] at h ⊢
          cases h
          rfl

omit [Argon2] [MsGraph.HttpClient N] [Base64] in
/-- The settings ask of the users only whether there are any. -/
theorem applyToServerConfig_withUsers [TlsFiles] {H : Type}
    (hsame : file.smtp.users.SameBut username users) (config : Smtp.Config H) :
    (file.withUsers users).smtp.applyToServerConfig config =
      file.smtp.applyToServerConfig config := by
  have hmode : (file.withUsers users).smtp.authMode = file.smtp.authMode := by
    unfold SMTPServerConfig.authMode
    have husers : (file.withUsers users).smtp.users.hasUsers = file.smtp.users.hasUsers :=
      hsame.hasUsers.symm
    rw [husers]
    rfl
  unfold SMTPServerConfig.applyToServerConfig
  rw [hmode]
  rfl

omit [Argon2] [MsGraph.HttpClient N] [Base64] in
/-- The same preparations under the other list. -/
theorem prepare_withUsers [TlsFiles] {network : N}
    (hsame : file.smtp.users.SameBut username users) {smtpConfig : Smtp.Config (ProxyHandler N)}
    {fail2ban : Fail2Ban} (h : prepare file network = .ok (smtpConfig, fail2ban)) :
    prepare (file.withUsers users) network =
      .ok (smtpConfig.over (ProxyHandler.withUsers users), fail2ban) := by
  unfold prepare at h ⊢
  dsimp only at h ⊢
  rw [applyToServerConfig_withUsers hsame]
  cases happly : file.smtp.applyToServerConfig (.new (ProxyHandler.new file
      (.new (file.graph.intoClientConfig network)))) with
  | error error =>
      rw [happly] at h
      cases h
  | ok applied =>
      rw [happly] at h
      cases h
      have hover := SMTPServerConfig.applyToServerConfig_over (ProxyHandler.withUsers users) happly
      exact congrArg (Except.map fun applied => (applied, _)) hover

/-- For every configuration and every run of the proxy, and two lists that differ in one
user only and of which both or none have users: as long as nobody logs in as that user with
a password that is right in one of the lists, the run is the same under both of them, in
all that the sessions say and send, in their order, and in the store. -/
theorem user_unnoticed {π : Type} [TlsFiles] [Transport π] (file : ConfigFile) (users : UserList)
    (username : Text) (network : N) (happenings : List (Happening π Readings N))
    (world : World π (ProxyHandler N) Fail2Ban)
    (hsame : file.smtp.users.SameBut username users)
    (hrun : run file network happenings = .ok world)
    (hmissed : ∀ served ∈ world.tasks, ∀ name password accepted,
      .login name password accepted ∈ served.task.config.handler.history →
        toLowercase name = toLowercase username →
          file.smtp.users.verifyUserPassword name password ≠ .ok () ∧
            users.verifyUserPassword name password ≠ .ok ()) :
    run (file.withUsers users) network happenings =
      .ok (world.over (ProxyHandler.withUsers users)) := by
  obtain ⟨smtpConfig, fail2ban, hprepare, rfl⟩ := run_ok hrun
  rw [run_of_prepare (prepare_withUsers hsame hprepare)]
  have hpeers : AlikePeers Fail2Ban Readings N (ProxyHandler.withUsers users)
      (Unfound username file users) smtpConfig.sessionConfig.handler := by
    obtain ⟨hhandler, -⟩ := prepare_ok hprepare
    exact alikePeers_withUsers (congrArg ProxyHandler.config hhandler)
      (congrArg ProxyHandler.username hhandler)
  rcases Server.listen_over (alike_withUsers hsame) hpeers happenings with
    hover | ⟨served, hserved, name, password, accepted, hlogin, hname, hright⟩
  · rw [hover]
  · obtain ⟨hwrong, hwrong'⟩ := hmissed served hserved name password accepted hlogin hname
    exact (hright.elim hwrong hwrong').elim

end Unnoticed

namespace Sample

/-- A configuration without the user who logs in. -/
def strangersFile : ConfigFile where
  smtp := { (file true).smtp with users := ⟨Finmap.singleton "c".toList ⟨hash, ∅⟩⟩ }
  graph := ConfigFile.empty.graph

/-- The users of that configuration and one more, with another password. -/
def moreUsers : UserList := strangersFile.smtp.users.insert "a".toList ⟨[], ∅⟩

theorem moreUsers_sameBut : strangersFile.smtp.users.SameBut "a".toList moreUsers where
  lookup _ hname := (Finmap.lookup_insert_of_ne _ hname).symm
  hasUsers := by decide

end Sample

open Sample in
theorem user_unnoticed_sample : ∃ world, run strangersFile () loggingIn = .ok world ∧
    run (strangersFile.withUsers moreUsers) () loggingIn =
      .ok (world.over (ProxyHandler.withUsers moreUsers)) := by
  refine ⟨_, rfl, user_unnoticed strangersFile moreUsers "a".toList () loggingIn _
    moreUsers_sameBut rfl fun served hserved name password accepted hlogin _ => ?_⟩
  have hhistories : ∀ world, run strangersFile () loggingIn = .ok world →
      world.tasks.map (fun served => served.task.config.handler.history) =
        [[.login "a".toList "b".toList false]] := by
    intro world hrun
    cases hrun
    decide +kernel
  have hhistory := List.mem_map_of_mem (
    f := fun served : Served Wire (ProxyHandler Unit) => served.task.config.handler.history) hserved
  rw [hhistories _ rfl, List.mem_singleton] at hhistory
  rw [hhistory, List.mem_singleton] at hlogin
  cases hlogin
  constructor
  · decide +kernel
  · decide +kernel

end PostGraph.MailProxy
