import Mathlib.Data.Finset.Sort
import Mathlib.Data.List.Lex
import Mathlib.Data.String.Basic
import PostGraph.App.Cli
import PostGraph.MailProxy.ConfigFormat
import PostGraph.MailProxy.LoginState
import PostGraph.MailProxy.RuleGrammar

/-! # Configurations that commands make are read back

Commands keep user names in lower case and numbers within 64 bits, so that a
configuration can be read back once it is written. They accept a ban duration with
a fraction of a second, which the file has no place for.
-/

namespace PostGraph.App

open Foundation MailProxy
open Serde (Value)

section Produced

variable [Lowercase] [Uppercase] [PasswordHasher] [PasswordHashString] [HashOrder] [IpNetText]
variable [UrlSafeBase64] [Yaml]

/-- A configuration that commands make of the empty one. Between two commands, the
file may be written and read again. -/
inductive Produced (F : Type) [FileSystem F] : ConfigFile → Prop where
  | empty : Produced F .empty
  | execute {config : ConfigFile} (inputs : Inputs) (command : ConfigCommand)
      (hconfig : Produced F config) : Produced F (command.execute inputs config)
  | reload {config read : ConfigFile} {files files' : F} {path : Text}
      (hconfig : Produced F config) (hwritten : config.toFile files path = (.ok (), files'))
      (hread : ConfigFile.fromFile files' path = .ok read) : Produced F read

theorem Produced.after {F : Type} [FileSystem F] {config : ConfigFile} (hconfig : Produced F config)
    (commands : List (Inputs × ConfigCommand)) : Produced F (after config commands) := by
  induction commands generalizing config with
  | nil => exact hconfig
  | cons given rest ih => exact ih (.execute given.1 given.2 hconfig)

end Produced

section Commands

variable [Lowercase] [PasswordHashString] {config : ConfigFile}

theorem changeRule_storable (hconfig : config.Storable) (rule : FilterRule) (remove : Bool) :
    (changeRule config rule remove).Storable := by
  cases remove with
  | true => exact hconfig.of_eq rfl rfl rfl
  | false => exact hconfig.of_eq rfl rfl rfl

theorem PeersCommand.execute_storable (hconfig : config.Storable) (command : PeersCommand) :
    (command.execute config).Storable := by
  cases command with
  | allow network remove => exact changeRule_storable hconfig ⟨.allow, network⟩ remove
  | deny network remove => exact changeRule_storable hconfig ⟨.deny, network⟩ remove
  | test ip => exact hconfig
  | display => exact hconfig

theorem TlsCommand.execute_storable (hconfig : config.Storable) (command : TlsCommand) :
    (command.execute config).Storable := by
  cases command with
  | setup certificate privateKey => exact hconfig.of_eq rfl rfl rfl
  | disable => exact hconfig.of_eq rfl rfl rfl

omit [Lowercase] [PasswordHashString] in
/-- A new ban duration replaces the one that was there before. -/
theorem SmtpCommand.banDuration_fail2ban (connections failures : Option UInt32)
    (duration : Option ParsedDuration) :
    ((fail2ban connections failures duration false).execute config).banDuration =
      (duration.map Subtype.val).or config.banDuration := by
  change Option.or _ (config.smtp.fail2ban.getD ⟨none, none, none⟩).banDuration =
    Option.or _ (config.smtp.fail2ban.bind Fail2BanConfig.banDuration)
  cases config.smtp.fail2ban <;> rfl

theorem SmtpCommand.execute_storable (hconfig : config.Storable) (command : SmtpCommand) :
    (command.execute config).Storable := by
  cases command with
  | display => exact hconfig
  | setup address name maxMessageSize =>
      refine ⟨hconfig.users, ?_, hconfig.banDuration⟩
      intro size hsize
      cases maxMessageSize with
      | none => exact hconfig.maxMessageSize size hsize
      | some given =>
          -- a maximum of zero removes the limit
          have hgiven : (if given = 0 then none else some given.toNat) = some size := hsize
          obtain ⟨-, hsome⟩ := Option.ite_none_left_eq_some.mp hgiven
          cases hsome
          exact given.toNat_lt
  | fail2ban connections failures duration reset =>
      cases reset with
      | true => exact ⟨hconfig.users, hconfig.maxMessageSize, nofun⟩
      | false =>
          refine ⟨hconfig.users, hconfig.maxMessageSize, ?_⟩
          rw [banDuration_fail2ban]
          intro banDuration hban
          rcases Option.or_eq_some_iff.mp hban with hgiven | ⟨-, hkept⟩
          · obtain ⟨given, -, rfl⟩ := Option.map_eq_some_iff.mp hgiven
            exact given.property
          · exact hconfig.banDuration banDuration hkept
  | peers command => exact command.execute_storable hconfig
  | tls command => exact command.execute_storable hconfig

theorem GraphCommand.execute_storable (hconfig : config.Storable) (command : GraphCommand) :
    (command.execute config).Storable := by
  cases command with
  | display => exact hconfig
  | setup tenantId clientId clientSecret => exact hconfig.of_eq rfl rfl rfl
  | test => exact hconfig

theorem AllowInsecureAuthCommand.execute_storable (hconfig : config.Storable) (inputs : Inputs)
    (command : AllowInsecureAuthCommand) : (command.execute inputs config).Storable := by
  cases command with
  | yes =>
      rw [execute]
      split
      next => exact hconfig
      next =>
        split
        next => exact hconfig.of_eq rfl rfl rfl
        next => exact hconfig
  | no =>
      rw [execute]
      split
      next => exact hconfig
      next => exact hconfig.of_eq rfl rfl rfl

theorem disableInsecureAuth_storable (hconfig : config.Storable) :
    (disableInsecureAuth config).Storable := by
  rw [disableInsecureAuth]
  split
  next => exact hconfig.of_eq rfl rfl rfl
  next => exact hconfig

variable (hlower : ∀ text, toLowercase (toLowercase text) = toLowercase text)

include hlower

theorem UserSendAsCommand.execute_storable (hconfig : config.Storable) (username : Text)
    (command : UserSendAsCommand) : (command.execute config username).Storable := by
  cases command with
  | add sender =>
      exact hconfig.withUsers (hconfig.users.addUserSendAs hlower username sender)
  | remove sender =>
      exact hconfig.withUsers (hconfig.users.removeUserSendAs hlower username sender)
  | display => exact hconfig

variable [PasswordHasher] [UrlSafeBase64]
variable (hhashes : ∀ password salt hash, PasswordHasher.hashPassword password salt = some hash →
  PasswordHashString.new hash = .ok hash)

include hhashes

theorem UserCommand.execute_storable (hconfig : config.Storable) (inputs : Inputs)
    (username : Text) (command : UserCommand) :
    (command.execute inputs config username).Storable := by
  cases command with
  | setPassword password force =>
      rw [execute]
      split
      next => exact hconfig
      next =>
        exact hconfig.withUsers
          (hconfig.users.setUserPassword hlower hhashes username _ inputs.salt)
  | remove => exact hconfig.withUsers (hconfig.users.removeUser username)
  | senders command => exact command.execute_storable hlower hconfig username

theorem AuthCommand.execute_storable (hconfig : config.Storable) (inputs : Inputs)
    (command : AuthCommand) : (command.execute inputs config).Storable := by
  cases command with
  | user username command => exact command.execute_storable hlower hhashes hconfig inputs username
  | showUsers => exact hconfig
  | allowInsecureAuth command => exact command.execute_storable hconfig inputs

theorem ConfigCommand.execute_storable (hconfig : config.Storable) (inputs : Inputs)
    (command : ConfigCommand) : (command.execute inputs config).Storable := by
  apply disableInsecureAuth_storable
  cases command with
  | smtp command => exact command.execute_storable hconfig
  | graph command => exact command.execute_storable hconfig
  | auth command => exact command.execute_storable hlower hhashes hconfig inputs
  | reset => exact ConfigFile.storable_empty

variable [HashOrder] [Uppercase] [IpNetText] [Yaml]

variable (hnets : ∀ net, IpNetText.fromStr (IpNetText.toString net) = .ok net)
variable (hyaml : ∀ (value : Value) (yaml : Text), value.Writable →
  Yaml.toString value = .ok yaml → Yaml.fromStr yaml = .ok value)
variable {F : Type} [FileSystem F]
variable (hfiles : ∀ (files files' : F) (path text : Text),
  FileSystem.write files path text = (.ok (), files') →
    FileSystem.readToString files' path = .ok text)

include hnets hyaml hfiles

theorem Produced.storable (hconfig : Produced F config) : config.Storable := by
  induction hconfig with
  | empty => exact ConfigFile.storable_empty
  | execute inputs command _ ih => exact command.execute_storable hlower hhashes ih inputs
  | reload _ hwritten hread ih =>
      -- what is read is what was written, but for the fraction of a second
      rw [ConfigFile.fromFile_toFile hnets hyaml hfiles ih hwritten] at hread
      cases hread
      exact ih.wholeSeconds

/-- What commands produce is read back as it was written exactly if its ban duration
is a whole number of seconds. -/
theorem config_round_trip (hconfig : Produced F config) {files files' : F} {path : Text}
    (hwritten : config.toFile files path = (.ok (), files')) :
    ConfigFile.fromFile files' path = .ok config ↔
      ∀ duration ∈ config.banDuration, WholeSeconds duration := by
  have hstorable := hconfig.storable hlower hhashes hnets hyaml hfiles
  rw [ConfigFile.fromFile_toFile hnets hyaml hfiles hstorable hwritten, Except.ok.injEq]
  exact ConfigFile.wholeSeconds_eq_iff

end Commands

namespace Sample

open MailProxy.Sample

/-- The only password that is hashed is the one whose hash is known. -/
scoped instance : PasswordHasher where
  hashPassword password _ := if password = ascii "b" then some hash else none

scoped instance : PasswordHashString where
  new text := if text = hash then .ok hash else .error "invalid password hash".toList

theorem new_hashPassword (password salt : Bytes) (stored : PasswordHash)
    (hstored : PasswordHasher.hashPassword password salt = some stored) :
    PasswordHashString.new stored = .ok stored := by
  have hhash : (if password = ascii "b" then some hash else none) = some stored := hstored
  obtain ⟨-, hsome⟩ := Option.ite_none_right_eq_some.mp hhash
  cases hsome
  rfl

scoped instance : UrlSafeBase64 where
  encode _ := []

/-- Hash tables in the order of their keys. -/
scoped instance : HashOrder where
  arrange _ keys := keys.sort (· ≤ ·)
  nodup_arrange _ keys := keys.sort_nodup _
  mem_arrange _ _ _ := Finset.mem_sort _

/-- Files by their paths. -/
abbrev Files := Text → Option Text

scoped instance : FileSystem Files where
  readToString files path :=
    match files path with
    | none => .error "No such file or directory".toList
    | some text => .ok text
  write files path text := (.ok (), Function.update files path (some text))

theorem readToString_write (files files' : Files) (path text : Text)
    (hwritten : FileSystem.write files path text = (.ok (), files')) :
    FileSystem.readToString files' path = .ok text := by
  cases hwritten
  change (match Function.update files path (some text) path with
    | none => .error _
    | some text => .ok text) = Except.ok text
  rw [Function.update_self]

/-! ### Documents -/

def alice : Text := "alice@example.com".toList

/-- The value of a user with the one password whose hash is known. -/
def userEntry (name : Text) (senders : List Text) : Text × Value :=
  (name, .mapping
    [("password".toList, .string hash), ("send_as".toList, .sequence (senders.map .string))])

/-- The value of a configuration with these limits and users. -/
def document (insecure : Bool) (limits users : List (Text × Value)) : Value :=
  .mapping
    [("smtp".toList, .mapping
      ([("address".toList, .string "127.0.0.1:25".toList),
        ("allow_insecure_auth".toList, .ofBool insecure)] ++ limits ++
        [("users".toList, .mapping users),
          ("peer_filter".toList, .sequence
            [.string "ALLOW:0.0.0.0/0".toList, .string "ALLOW:::/0".toList])])),
      ("graph".toList, .mapping
        [("tenant_id".toList, .string []), ("client_id".toList, .string []),
          ("client_secret".toList, .string [])])]

/-- Such a document in YAML. -/
def yaml (insecure limits users : String) : Text :=
  "smtp:\n  address: 127.0.0.1:25\n  allow_insecure_auth: ".toList ++ insecure.toList ++
    limits.toList ++ users.toList ++
    "\n  peer_filter:\n  - ALLOW:0.0.0.0/0\n  - ALLOW:::/0\n".toList ++
    "graph:\n  tenant_id: ''\n  client_id: ''\n  client_secret: ''\n".toList

def yamlUser (name senders : String) : String :=
  "\n  users:\n    " ++ name ++ ":\n      password: " ++ .ofList hash ++ "\n      send_as:" ++
    senders

/-- One user, and a ban duration. -/
def banning (seconds : Nat) : Value × Text :=
  (document false [("fail2ban".toList, .mapping [("ban_duration".toList, .ofNat seconds)])]
      [userEntry alice [alice]],
    yaml "false" ("\n  fail2ban:\n    ban_duration: " ++ toString seconds)
      (yamlUser "alice@example.com" "\n      - alice@example.com"))

/-- No user. -/
def blank : Value × Text := (document false [] [], yaml "false" "" "\n  users: \x7b\x7d")

/-- One user, with or without insecure authentication. -/
def joined (insecure : Bool) : Value × Text :=
  (document insecure [] [userEntry "a".toList ["a".toList]],
    yaml (toString insecure) "" (yamlUser "a" "\n      - a"))

/-- The same user may send for a domain. -/
def granted : Value × Text :=
  (document true [] [userEntry "a".toList ["*@example.com".toList, "a".toList]],
    yaml "true" "" (yamlUser "a" "\n      - '*@example.com'\n      - a"))

def known : List (Value × Text) :=
  [banning 90, banning 0, blank, joined false, joined true, granted]

open Classical in
noncomputable def print (value : Value) : Except Text Text :=
  match known.find? fun entry => entry.1 = value with
  | some entry => .ok entry.2
  | none => .error "unknown document".toList

def parse (text : Text) : Except Text Value :=
  match known.find? fun entry => entry.2 = text with
  | some entry => .ok entry.1
  | none => .error "unknown document".toList

/-- A few documents are known. -/
noncomputable scoped instance : Yaml := ⟨print, parse, fun _ => []⟩

theorem find_known {α : Type} [DecidableEq α] {part : Value × Text → α}
    (hparts : (known.map part).Nodup) {entry : Value × Text} (hentry : entry ∈ known) :
    known.find? (fun other => part other = part entry) = some entry := by
  have hfound : (known.find? fun other => part other = part entry).isSome = true :=
    List.find?_isSome.mpr ⟨entry, hentry, decide_eq_true rfl⟩
  obtain ⟨found, hfound⟩ := Option.isSome_iff_exists.mp hfound
  have hsame : part found = part entry := by simpa using List.find?_some hfound
  rw [hfound, List.inj_on_of_nodup_map hparts (List.mem_of_find?_eq_some hfound) hentry hsame]

theorem nodup_texts : (known.map Prod.snd).Nodup := by decide +kernel

theorem nodup_values : (known.map Prod.fst).Nodup := by
  simp [known, banning, blank, joined, granted, document, userEntry]

theorem parse_known {entry : Value × Text} (hentry : entry ∈ known) :
    Yaml.fromStr entry.2 = .ok entry.1 := by
  change parse entry.2 = .ok entry.1
  rw [parse, find_known nodup_texts hentry]

theorem print_known {entry : Value × Text} (hentry : entry ∈ known) :
    Yaml.toString entry.1 = .ok entry.2 := by
  classical
  change print entry.1 = .ok entry.2
  rw [print, find_known nodup_values hentry]

theorem parse_print (value : Value) (text : Text) (_ : value.Writable)
    (htext : Yaml.toString value = .ok text) : Yaml.fromStr text = .ok value := by
  change print value = .ok text at htext
  rw [print] at htext
  split at htext
  next entry hfound =>
    cases htext
    have hvalue : entry.1 = value := by simpa using List.find?_some hfound
    rw [parse_known (List.mem_of_find?_eq_some hfound), hvalue]
  next => cases htext

/-! ### Commands -/

def inputs : Inputs := ⟨[], [], .error []⟩

/-- A user is added, and the ban duration is set. -/
def commands (ban : ParsedDuration) : List (Inputs × ConfigCommand) :=
  [(inputs, .auth (.user alice (.setPassword (some "b".toList) false))),
    (inputs, .smtp (.fail2ban none none (some ban) false))]

def configured (ban : ParsedDuration) : ConfigFile := after .empty (commands ban)

theorem arrange_singleton (table : HashTable) (key : Text) :
    HashOrder.arrange table {key} = [key] :=
  Finset.sort_singleton (· ≤ ·) key

theorem listing_singleton (table : HashTable) (name : Text) (user : UserEntry) :
    listing table (Finmap.singleton name user) = [(name, user)] := by
  rw [listing, Finmap.keys_singleton, arrange_singleton, List.filterMap_cons,
    Finmap.lookup_singleton_eq]
  rfl

theorem users_configured (ban : ParsedDuration) :
    (configured ban).smtp.users = ⟨Finmap.singleton alice ⟨hash, {alice}⟩⟩ := rfl

/-- Users are listed with their senders in order. -/
theorem serialize_singleton {name : Text} {senders : Finset Text} (hsenders : senders ≠ ∅) :
    Serde.serialize (UserList.mk (Finmap.singleton name ⟨hash, senders⟩)) =
      .mapping [userEntry name (senders.sort (· ≤ ·))] := by
  change Value.mapping ((listing .users _).map _) = _
  rw [listing_singleton]
  change Value.mapping [(name, Serde.record
    [_, .skipIf (senders = ∅) _ (HashOrder.arrange (.senders name) senders)])] = _
  rw [decide_eq_false hsenders]
  rfl

theorem serialize_configured (ban : ParsedDuration) :
    Serde.serialize (configured ban) = (banning ban.val.asSecs).1 := by
  have husers : Serde.serialize (configured ban).smtp.users =
      .mapping [userEntry alice [alice]] := by
    rw [users_configured, serialize_singleton (Finset.singleton_ne_empty alice),
      Finset.sort_singleton]
  rw [banning, document, ← husers]
  rfl

theorem toFile_configured {ban : ParsedDuration} (hknown : banning ban.val.asSecs ∈ known)
    (files : Files) (path : Text) : (configured ban).toFile files path =
      (.ok (), Function.update files path (some (banning ban.val.asSecs).2)) := by
  rw [ConfigFile.toFile, serialize_configured, print_known hknown]
  rfl

theorem produced_configured (ban : ParsedDuration) : Produced Files (configured ban) :=
  Produced.empty.after (commands ban)

/-- Ninety seconds. -/
def minutes : ParsedDuration := ⟨.fromSecs 90, by decide⟩

/-- Half a second. -/
def half : ParsedDuration := ⟨500000000, by decide⟩

def noFiles : Files := fun _ => none

end Sample

open Sample MailProxy.Sample

/-- A ban of 90 seconds is read back. -/
theorem config_round_trip_minutes : ∃ files' : Files,
    (configured minutes).toFile noFiles "config.yaml".toList = (.ok (), files') ∧
      ConfigFile.fromFile files' "config.yaml".toList = .ok (configured minutes) := by
  have hwritten := toFile_configured (.head _ : banning minutes.val.asSecs ∈ known) noFiles
    "config.yaml".toList
  refine ⟨_, hwritten, ?_⟩
  apply (config_round_trip toLowercase_toLowercase new_hashPassword fromStr_toString parse_print
    readToString_write (produced_configured minutes) hwritten).mpr
  intro duration hduration
  cases hduration
  rfl

/-- A ban of half a second is written as one of no time at all, so that not even the
limits in effect are read back. -/
theorem config_not_round_trip : ¬ ∀ (config : ConfigFile) (files files' : Files) (path : Text),
    Produced Files config → config.toFile files path = (.ok (), files') →
    ∃ read, ConfigFile.fromFile files' path = .ok read ∧
      read.smtp.getEffectiveFail2banConfig = config.smtp.getEffectiveFail2banConfig := by
  intro h
  have hwritten := toFile_configured (.tail _ (.head _) : banning half.val.asSecs ∈ known)
    noFiles "config.yaml".toList
  have hproduced := produced_configured half
  have hstorable := hproduced.storable toLowercase_toLowercase new_hashPassword fromStr_toString
    parse_print readToString_write
  obtain ⟨read, hread, heffective⟩ := h _ _ _ _ hproduced hwritten
  rw [ConfigFile.fromFile_toFile fromStr_toString parse_print readToString_write hstorable
    hwritten] at hread
  cases hread
  have hban : (0 : Nat) = 500000000 := congrArg (·.2.2) heffective
  exact absurd hban (by decide)

end PostGraph.App
