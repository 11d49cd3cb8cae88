import PostGraph.MailProxy.ConfigFile
import PostGraph.MailProxy.RuleFormat
import PostGraph.MailProxy.UserFormat

/-! # The format of the configuration file

The configuration is a tree of records. A ban duration is stored in whole
seconds; everything else is read back as it was.
-/

namespace PostGraph.MailProxy

open Foundation
open Serde (Value Serialize Deserialize Record ReadsAs Survives Field)

/-! ## Records of the configuration -/

namespace OptDurationSecs

def serialize (duration : Option Duration) : Value :=
  match duration.map Duration.asSecs with
  | none => .ofNull
  | some seconds => .ofNat seconds

def deserialize (value : Value) : Except Serde.Error (Option Duration) := do
  let seconds : Option Nat ← Serde.deserialize value
  return seconds.map Duration.fromSecs

end OptDurationSecs

instance : Record TLSConfig where
  expecting := "struct TLSConfig".toList
  fields tls :=
    [.present "certificate_chain".toList tls.certificateChain,
      .present "private_key".toList tls.privateKey]
  visitMap entries := do
    let certificateChain ← Serde.required entries "certificate_chain".toList
    let privateKey ← Serde.required entries "private_key".toList
    return { certificateChain, privateKey }

instance : Record Fail2BanConfig where
  expecting := "struct Fail2BanConfig".toList
  fields fail2ban :=
    [.skipNone "max_connections".toList fail2ban.maxConnections,
      .skipNone "max_failures".toList fail2ban.maxFailures,
      ("ban_duration".toList, if fail2ban.banDuration.isNone then none
        else some (OptDurationSecs.serialize fail2ban.banDuration))]
  visitMap entries := do
    let maxConnections ← Serde.optional entries "max_connections".toList
    let maxFailures ← Serde.optional entries "max_failures".toList
    let banDuration ← match ← Serde.find entries "ban_duration".toList with
      | some value => OptDurationSecs.deserialize value
      | none => .ok none
    return { maxConnections, maxFailures, banDuration }

instance : Record GraphAPIConfig where
  expecting := "struct GraphAPIConfig".toList
  fields graph :=
    [.present "tenant_id".toList graph.tenantId,
      .present "client_id".toList graph.clientId,
      .present "client_secret".toList graph.clientSecret]
  visitMap entries := do
    let tenantId ← Serde.required entries "tenant_id".toList
    let clientId ← Serde.required entries "client_id".toList
    let clientSecret ← Serde.required entries "client_secret".toList
    return { tenantId, clientId, clientSecret }

section Configuration

variable [HashOrder] [PasswordHashString] [Lowercase] [Uppercase] [IpNetText]

instance : Record SMTPServerConfig where
  expecting := "struct SMTPServerConfig".toList
  fields smtp :=
    [.present "address".toList smtp.address,
      .skipNone "name".toList smtp.name,
      .skipNone "max_message_size".toList smtp.maxMessageSize,
      .present "allow_insecure_auth".toList smtp.allowInsecureAuth,
      .skipNone "tls".toList smtp.tls,
      .skipNone "fail2ban".toList smtp.fail2ban,
      .present "users".toList smtp.users,
      .skipIf smtp.peerFilter.isEmpty "peer_filter".toList smtp.peerFilter]
  visitMap entries := do
    let address ← Serde.required entries "address".toList
    let name ← Serde.optional entries "name".toList
    let maxMessageSize ← Serde.optional entries "max_message_size".toList
    let allowInsecureAuth ← Serde.required entries "allow_insecure_auth".toList
    let tls ← Serde.optional entries "tls".toList
    let fail2ban ← Serde.optional entries "fail2ban".toList
    let users ← Serde.required entries "users".toList
    let peerFilter ← Serde.defaulted entries "peer_filter".toList PeerFilter.default
    return { address, name, maxMessageSize, allowInsecureAuth, tls, fail2ban, users, peerFilter }

instance : Record ConfigFile where
  expecting := "struct ConfigFile".toList
  fields file := [.present "smtp".toList file.smtp, .present "graph".toList file.graph]
  visitMap entries := do
    let smtp ← Serde.required entries "smtp".toList
    let graph ← Serde.required entries "graph".toList
    return { smtp, graph }

/-! ## Files -/

/-- The YAML library. -/
class Yaml where
  toString : Value → Except Text Text
  fromStr : Text → Except Text Value
  /-- Text of the error about a value that is read. -/
  errorText : Serde.Error → Text

/-- A file system, which may fail to read and to write. -/
class FileSystem (F : Type) where
  readToString : F → Text → Except Text Text
  write : F → Text → Text → Except Text Unit × F

variable [Yaml] {F : Type} [FileSystem F]

def ConfigFile.fromFile (files : F) (path : Text) : Except Text ConfigFile := do
  let yaml ← FileSystem.readToString files path
  let value ← Yaml.fromStr yaml
  (Serde.deserialize value).mapError Yaml.errorText

def ConfigFile.toFile (file : ConfigFile) (files : F) (path : Text) : Except Text Unit × F :=
  match Yaml.toString (Serde.serialize file) with
  | .error error => (.error error, files)
  | .ok yaml => FileSystem.write files path yaml

end Configuration

/-! ## What is read back -/

/-- A duration without a fraction of a second. -/
def WholeSeconds (duration : Duration) : Prop := duration % 1000000000 = 0

def Fail2BanConfig.wholeSeconds (fail2ban : Fail2BanConfig) : Fail2BanConfig :=
  { fail2ban with banDuration := fail2ban.banDuration.map fun duration =>
      Duration.fromSecs duration.asSecs }

/-- The configuration without the fraction of a second of its ban duration. -/
def ConfigFile.wholeSeconds (file : ConfigFile) : ConfigFile :=
  { file with smtp.fail2ban := file.smtp.fail2ban.map Fail2BanConfig.wholeSeconds }

/-- The ban duration of a configuration, if it has one of its own. -/
def ConfigFile.banDuration (file : ConfigFile) : Option Duration :=
  file.smtp.fail2ban.bind Fail2BanConfig.banDuration

theorem ConfigFile.wholeSeconds_banDuration (file : ConfigFile) :
    file.wholeSeconds.banDuration =
      file.banDuration.map fun duration => Duration.fromSecs duration.asSecs := by
  unfold banDuration wholeSeconds
  cases file.smtp.fail2ban <;> rfl

theorem fromSecs_asSecs_eq_iff {duration : Duration} :
    Duration.fromSecs duration.asSecs = duration ↔ WholeSeconds duration := by
  rw [WholeSeconds, ← Nat.dvd_iff_mod_eq_zero, Nat.dvd_iff_div_mul_eq]
  exact Iff.rfl

theorem ConfigFile.wholeSeconds_eq_iff {file : ConfigFile} :
    file.wholeSeconds = file ↔ ∀ duration ∈ file.banDuration, WholeSeconds duration := by
  obtain ⟨⟨address, name, maxMessageSize, allowInsecureAuth, tls, fail2ban, users, peerFilter⟩,
    graph⟩ := file
  rcases fail2ban with _ | ⟨maxConnections, maxFailures, _ | duration⟩ <;>
    simp [wholeSeconds, banDuration, Fail2BanConfig.wholeSeconds, fromSecs_asSecs_eq_iff]

theorem TLSConfig.survives (tls : TLSConfig) : Survives tls := by
  have hnames : ((Record.fields tls).map Prod.fst).Nodup := by
    change ["certificate_chain".toList, "private_key".toList].Nodup
    decide
  have hchain : Survives tls.certificateChain :=
    Serde.survives_list fun path _ => Serde.survives_text path
  have hkey : Survives tls.privateKey := Serde.survives_text tls.privateKey
  apply Serde.readsAs_record hnames
  · simp only [Record.fields, List.forall_mem_cons]
    exact ⟨Field.writable_present hchain, Field.writable_present hkey, nofun⟩
  · simp only [Record.visitMap]
    rw [Serde.required_written hnames 0 rfl hchain,
      Serde.required_written hnames 1 rfl hkey]
    rfl

theorem GraphAPIConfig.survives (graph : GraphAPIConfig) : Survives graph := by
  have hnames : ((Record.fields graph).map Prod.fst).Nodup := by
    change ["tenant_id".toList, "client_id".toList, "client_secret".toList].Nodup
    decide
  have htenant : Survives graph.tenantId := Serde.survives_text graph.tenantId
  have hclient : Survives graph.clientId := Serde.survives_text graph.clientId
  have hsecret : Survives graph.clientSecret := Serde.survives_text graph.clientSecret
  apply Serde.readsAs_record hnames
  · simp only [Record.fields, List.forall_mem_cons]
    exact ⟨Field.writable_present htenant, Field.writable_present hclient,
      Field.writable_present hsecret, nofun⟩
  · simp only [Record.visitMap]
    rw [Serde.required_written hnames 0 rfl htenant,
      Serde.required_written hnames 1 rfl hclient,
      Serde.required_written hnames 2 rfl hsecret]
    rfl

theorem OptDurationSecs.deserialize_serialize {duration : Duration}
    (hduration : duration.asSecs < UInt64.size) :
    deserialize (serialize (some duration)) = .ok (some (.fromSecs duration.asSecs)) := by
  have hseconds := Serde.deserialize_some (Serde.survives_u64 hduration)
  change (Serde.deserialize (Serde.serialize duration.asSecs) >>= _) = _
  rw [hseconds]
  rfl

theorem Fail2BanConfig.readsAs {fail2ban : Fail2BanConfig}
    (hban : ∀ duration ∈ fail2ban.banDuration, duration.asSecs < UInt64.size) :
    ReadsAs fail2ban fail2ban.wholeSeconds := by
  have hnames : ((Record.fields fail2ban).map Prod.fst).Nodup := by
    change ["max_connections".toList, "max_failures".toList, "ban_duration".toList].Nodup
    decide
  have hlimit : ∀ {limit : Option UInt32}, ∀ some ∈ limit, Survives some :=
    fun some _ => Serde.survives_u32 some
  apply Serde.readsAs_record hnames
  · simp only [Record.fields, List.forall_mem_cons]
    refine ⟨Field.writable_skipNone hlimit, Field.writable_skipNone hlimit, ?_, nofun⟩
    -- the duration has a codec of its own
    intro value hvalue
    cases hduration : fail2ban.banDuration with
    | none => simp [hduration] at hvalue
    | some duration =>
        rw [hduration] at hvalue
        cases hvalue
        exact .number duration.asSecs
  · simp only [Record.visitMap]
    rw [Serde.optional_survives hnames 0 rfl hlimit, Serde.optional_survives hnames 1 rfl hlimit,
      Serde.find_written hnames 2 rfl, wholeSeconds]
    cases hduration : fail2ban.banDuration with
    | none => rfl
    | some duration =>
        change (OptDurationSecs.deserialize (OptDurationSecs.serialize (some duration)) >>= _) = _
        rw [OptDurationSecs.deserialize_serialize (hban duration hduration)]
        rfl

/-- Numbers have 64 bits, and users can be read. -/
structure ConfigFile.Storable [PasswordHashString] [Lowercase] (file : ConfigFile) : Prop where
  users : file.smtp.users.Readable
  maxMessageSize : ∀ size ∈ file.smtp.maxMessageSize, size < UInt64.size
  banDuration : ∀ duration ∈ file.banDuration, duration.asSecs < UInt64.size

namespace ConfigFile

variable [PasswordHashString] [Lowercase] {config : ConfigFile}

/-- Nothing that is checked when the file is read has changed. -/
theorem Storable.of_eq (hconfig : config.Storable) {config' : ConfigFile}
    (husers : config'.smtp.users = config.smtp.users)
    (hsize : config'.smtp.maxMessageSize = config.smtp.maxMessageSize)
    (hfail2ban : config'.smtp.fail2ban = config.smtp.fail2ban) : config'.Storable where
  users := husers ▸ hconfig.users
  maxMessageSize := hsize ▸ hconfig.maxMessageSize
  banDuration := by
    rw [ConfigFile.banDuration, hfail2ban]
    exact hconfig.banDuration

theorem Storable.withUsers (hconfig : config.Storable) {users : UserList}
    (husers : users.Readable) : Storable { config with smtp.users := users } :=
  ⟨husers, hconfig.maxMessageSize, hconfig.banDuration⟩

theorem Storable.wholeSeconds (hconfig : config.Storable) : config.wholeSeconds.Storable where
  users := hconfig.users
  maxMessageSize := hconfig.maxMessageSize
  banDuration := by
    intro duration hduration
    rw [wholeSeconds_banDuration] at hduration
    obtain ⟨given, hgiven, rfl⟩ := Option.map_eq_some_iff.mp hduration
    rw [Duration.asSecs_fromSecs]
    exact hconfig.banDuration given hgiven

theorem storable_empty : empty.Storable where
  users := ⟨fun name hname => absurd hname Finmap.notMem_empty, fun name user huser => by
    cases huser⟩
  maxMessageSize := nofun
  banDuration := nofun

end ConfigFile

section Reading

variable [HashOrder] [PasswordHashString] [Lowercase] [Uppercase] [IpNetText]
variable (hnets : ∀ net, IpNetText.fromStr (IpNetText.toString net) = .ok net)

include hnets

theorem SMTPServerConfig.readsAs {file : ConfigFile} (hfile : file.Storable) :
    ReadsAs file.smtp file.wholeSeconds.smtp := by
  have hnames : ((Record.fields file.smtp).map Prod.fst).Nodup := by
    change ["address".toList, "name".toList, "max_message_size".toList,
      "allow_insecure_auth".toList, "tls".toList, "fail2ban".toList, "users".toList,
      "peer_filter".toList].Nodup
    decide
  have haddress : Survives file.smtp.address := Serde.survives_text file.smtp.address
  have hname : ∀ name ∈ file.smtp.name, Survives name := fun name _ => Serde.survives_text name
  have hsize : ∀ size ∈ file.smtp.maxMessageSize, Survives size :=
    fun size hsize => Serde.survives_u64 (hfile.maxMessageSize size hsize)
  have hallow : Survives file.smtp.allowInsecureAuth :=
    Serde.survives_bool file.smtp.allowInsecureAuth
  have htls : ∀ tls ∈ file.smtp.tls, Survives tls := fun tls _ => tls.survives
  have hfail2ban : ∀ fail2ban ∈ file.smtp.fail2ban, ReadsAs fail2ban fail2ban.wholeSeconds := by
    intro fail2ban hfail2ban
    apply Fail2BanConfig.readsAs
    intro duration hduration
    exact hfile.banDuration duration (Option.mem_bind_iff.mpr ⟨fail2ban, hfail2ban, hduration⟩)
  have husers : Survives file.smtp.users := UserList.survives hfile.users
  have hfilter : Survives file.smtp.peerFilter := PeerFilter.survives hnets file.smtp.peerFilter
  have hempty : file.smtp.peerFilter.isEmpty = true → file.smtp.peerFilter = .default :=
    fun hempty => congrArg PeerFilter.mk (List.isEmpty_iff.mp hempty)
  apply Serde.readsAs_record hnames
  · simp only [Record.fields, List.forall_mem_cons]
    exact ⟨Field.writable_present haddress, Field.writable_skipNone hname,
      Field.writable_skipNone hsize, Field.writable_present hallow,
      Field.writable_skipNone htls, Field.writable_skipNone hfail2ban,
      Field.writable_present husers, Field.writable_skipIf hfilter, nofun⟩
  · simp only [Record.visitMap]
    rw [Serde.required_written hnames 0 rfl haddress, Serde.optional_survives hnames 1 rfl hname,
      Serde.optional_survives hnames 2 rfl hsize, Serde.required_written hnames 3 rfl hallow,
      Serde.optional_survives hnames 4 rfl htls, Serde.optional_written hnames 5 rfl hfail2ban,
      Serde.required_written hnames 6 rfl husers,
      Serde.defaulted_written hnames 7 rfl hempty hfilter]
    rfl

/-- A configuration is read back without the fraction of a second of its ban
duration. -/
theorem ConfigFile.readsAs {file : ConfigFile} (hfile : file.Storable) :
    ReadsAs file file.wholeSeconds := by
  have hnames : ((Record.fields file).map Prod.fst).Nodup := by
    change ["smtp".toList, "graph".toList].Nodup
    decide
  have hsmtp := SMTPServerConfig.readsAs hnets hfile
  have hgraph := file.graph.survives
  apply Serde.readsAs_record hnames
  · simp only [Record.fields, List.forall_mem_cons]
    exact ⟨Field.writable_present hsmtp, Field.writable_present hgraph, nofun⟩
  · simp only [Record.visitMap]
    rw [Serde.required_written hnames 0 rfl hsmtp, Serde.required_written hnames 1 rfl hgraph]
    rfl

variable [Yaml] {F : Type} [FileSystem F]
variable (hyaml : ∀ (value : Value) (yaml : Text), value.Writable →
  Yaml.toString value = .ok yaml → Yaml.fromStr yaml = .ok value)
variable (hfiles : ∀ (files files' : F) (path text : Text),
  FileSystem.write files path text = (.ok (), files') →
    FileSystem.readToString files' path = .ok text)

include hyaml hfiles

theorem ConfigFile.fromFile_toFile {file : ConfigFile} (hfile : file.Storable)
    {files files' : F} {path : Text} (hwritten : file.toFile files path = (.ok (), files')) :
    fromFile files' path = .ok file.wholeSeconds := by
  have hreads := ConfigFile.readsAs hnets hfile
  rw [toFile] at hwritten
  cases hprint : Yaml.toString (Serde.serialize file) with
  | error error =>
      rw [hprint] at hwritten
      cases hwritten
  | ok yaml =>
      rw [hprint] at hwritten
      rw [fromFile, hfiles _ _ _ _ hwritten]
      change (Yaml.fromStr yaml >>= _) = _
      rw [hyaml _ _ hreads.writable hprint]
      change (Serde.deserialize (Serde.serialize file)).mapError _ = _
      rw [hreads.deserialize_serialize]
      rfl

end Reading

end PostGraph.MailProxy
