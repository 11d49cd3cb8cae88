import PostGraph.App.Users
import PostGraph.Foundation.History
import PostGraph.MailProxy.FilterEdits

/-! # The rules that commands leave

Commands add and remove rules for peers. Whether a rule is in force is settled by the
last command about it, and the rules in force decide about every peer.
-/

namespace PostGraph.App

open Foundation Foundation.History MailProxy

namespace ConfigCommand

/-- The command brings the rule into force. -/
def Puts (rule : FilterRule) : ConfigCommand → Prop
  | smtp (.peers (.allow network remove)) => remove = false ∧ rule = ⟨.allow, network⟩
  | smtp (.peers (.deny network remove)) => remove = false ∧ rule = ⟨.deny, network⟩
  | reset => rule ∈ PeerFilter.newAllowAny.rules
  | _ => False

/-- The command puts the rule out of force. -/
def Takes (rule : FilterRule) : ConfigCommand → Prop
  | smtp (.peers (.allow network remove)) => remove = true ∧ rule = ⟨.allow, network⟩
  | smtp (.peers (.deny network remove)) => remove = true ∧ rule = ⟨.deny, network⟩
  | reset => rule ∉ PeerFilter.newAllowAny.rules
  | _ => False

end ConfigCommand

/-- The rule was brought into force, or was there from the start, and no later command
took it. -/
def InForce (config : ConfigFile) (commands : List (Inputs × ConfigCommand))
    (rule : FilterRule) : Prop :=
  Stands (fun _ given => given.2.Puts rule) (fun given => given.2.Takes rule) commands ∨
    (∀ given ∈ commands, ¬ given.2.Takes rule) ∧ rule ∈ config.smtp.peerFilter.rules

section Steps

variable {config : ConfigFile} {rule : FilterRule}

theorem changeRule_rules (changed : FilterRule) (remove : Bool) :
    rule ∈ (changeRule config changed remove).smtp.peerFilter.rules ↔
      remove = false ∧ rule = changed ∨
        ¬ (remove = true ∧ rule = changed) ∧ rule ∈ config.smtp.peerFilter.rules := by
  cases remove with
  | true => exact PeerFilter.mem_remove.trans (by simp [and_comm])
  | false => exact PeerFilter.mem_add.trans (by simp)

theorem changeRule_nodup (h : config.smtp.peerFilter.rules.Nodup) (changed : FilterRule)
    (remove : Bool) : (changeRule config changed remove).smtp.peerFilter.rules.Nodup := by
  cases remove with
  | true => exact PeerFilter.nodup_remove h changed
  | false => exact PeerFilter.nodup_add h changed

theorem disableInsecureAuth_peerFilter (config : ConfigFile) :
    (disableInsecureAuth config).smtp.peerFilter = config.smtp.peerFilter := by
  unfold disableInsecureAuth
  split
  next => rfl
  next => rfl

/-- Commands about anything else leave the rules alone. -/
theorem SmtpCommand.execute_peerFilter {command : SmtpCommand}
    (hother : ∀ peers, command ≠ .peers peers) :
    (command.execute config).smtp.peerFilter = config.smtp.peerFilter := by
  cases command with
  | display => rfl
  | setup address name maxMessageSize => rfl
  | fail2ban connections failures duration reset => cases reset <;> rfl
  | peers command => exact absurd rfl (hother command)
  | tls command => cases command <;> rfl

variable [Lowercase] [PasswordHasher] [UrlSafeBase64]

theorem AuthCommand.execute_peerFilter (inputs : Inputs) (command : AuthCommand) :
    (command.execute inputs config).smtp.peerFilter = config.smtp.peerFilter := by
  obtain ⟨users, allowInsecureAuth, hcommand⟩ := command.execute_eq inputs config
  rw [hcommand]

theorem ConfigCommand.mem_execute (inputs : Inputs) (command : ConfigCommand) :
    rule ∈ (command.execute inputs config).smtp.peerFilter.rules ↔
      command.Puts rule ∨ ¬ command.Takes rule ∧ rule ∈ config.smtp.peerFilter.rules := by
  unfold execute
  rw [disableInsecureAuth_peerFilter]
  cases command with
  | smtp command =>
      cases command with
      | peers command =>
          cases command with
          | allow network remove => exact changeRule_rules ⟨.allow, network⟩ remove
          | deny network remove => exact changeRule_rules ⟨.deny, network⟩ remove
          | test ip => simp [Puts, Takes, SmtpCommand.execute, PeersCommand.execute]
          | display => simp [Puts, Takes, SmtpCommand.execute, PeersCommand.execute]
      | display | setup | fail2ban | tls =>
          dsimp only
          rw [SmtpCommand.execute_peerFilter]
          · simp [Puts, Takes]
          · exact nofun
  | graph command => cases command <;> simp [Puts, Takes, GraphCommand.execute]
  | auth command => simp [Puts, Takes, command.execute_peerFilter inputs]
  | reset =>
      -- the rules of an empty configuration replace all others
      change rule ∈ PeerFilter.newAllowAny.rules ↔ rule ∈ PeerFilter.newAllowAny.rules ∨
        ¬ rule ∉ PeerFilter.newAllowAny.rules ∧ rule ∈ config.smtp.peerFilter.rules
      tauto

theorem ConfigCommand.nodup_execute (h : config.smtp.peerFilter.rules.Nodup) (inputs : Inputs)
    (command : ConfigCommand) :
    (command.execute inputs config).smtp.peerFilter.rules.Nodup := by
  unfold execute
  rw [disableInsecureAuth_peerFilter]
  cases command with
  | smtp command =>
      cases command with
      | peers command =>
          cases command with
          | allow network remove => exact changeRule_nodup h ⟨.allow, network⟩ remove
          | deny network remove => exact changeRule_nodup h ⟨.deny, network⟩ remove
          | test ip => exact h
          | display => exact h
      | display | setup | fail2ban | tls =>
          dsimp only
          rw [SmtpCommand.execute_peerFilter]
          · exact h
          · exact nofun
  | graph command => cases command <;> exact h
  | auth command =>
      dsimp only
      rw [command.execute_peerFilter inputs]
      exact h
  | reset =>
      change PeerFilter.newAllowAny.rules.Nodup
      decide

end Steps

/-- After any commands, a peer is allowed exactly if one of the rules in force matches it
that allows, and none that matches it is more specific. The rules are then listed once
each, if they were before. -/
theorem last_word_decides [Lowercase] [PasswordHasher] [UrlSafeBase64] (config : ConfigFile)
    (commands : List (Inputs × ConfigCommand)) :
    (∀ ip, (after config commands).smtp.peerFilter.evaluate ip = .allow ↔
      ∃ rule, InForce config commands rule ∧ rule.action = .allow ∧
        rule.target.contains ip = true ∧ ∀ other, InForce config commands other →
          other.target.contains ip = true → other.target.prefixLen ≤ rule.target.prefixLen) ∧
      (config.smtp.peerFilter.rules.Nodup →
        (after config commands).smtp.peerFilter.rules.Nodup) := by
  constructor
  · intro ip
    have hinForce : ∀ rule, rule ∈ (after config commands).smtp.peerFilter.rules ↔
        InForce config commands rule := by
      intro rule
      have hstep : ∀ (history : List (Inputs × ConfigCommand)) (given : Inputs × ConfigCommand),
          rule ∈ (given.2.execute given.1 (after config history)).smtp.peerFilter.rules ↔
            given.2.Puts rule ∨
              ¬ given.2.Takes rule ∧ rule ∈ (after config history).smtp.peerFilter.rules :=
        fun _ given => given.2.mem_execute given.1
      exact @foldl_iff_stands _ (fun _ given => given.2.Puts rule) _ _
        (fun config given => given.2.execute given.1 config)
        (fun config => rule ∈ config.smtp.peerFilter.rules) config hstep commands
    rw [PeerFilter.evaluate_eq_allow_iff]
    constructor
    · rintro ⟨rule, ⟨hmem, hcontains, hlongest⟩, hallow⟩
      exact ⟨rule, (hinForce rule).mp hmem, hallow, hcontains,
        fun other hother => hlongest other ((hinForce other).mpr hother)⟩
    · rintro ⟨rule, hrule, hallow, hcontains, hlongest⟩
      exact ⟨rule, ⟨(hinForce rule).mpr hrule, hcontains,
        fun other hother => hlongest other ((hinForce other).mp hother)⟩, hallow⟩
  · intro hnodup
    induction commands generalizing config with
    | nil => exact hnodup
    | cons given rest ih => exact ih _ (given.2.nodup_execute hnodup given.1)

end PostGraph.App
