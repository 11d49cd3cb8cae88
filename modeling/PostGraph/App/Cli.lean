import PostGraph.MailProxy.ConfigFile

/-! # Commands that change the configuration

The commands of the command line interface, with their arguments as they are
parsed. What they print is left out.
-/

namespace PostGraph.App

open Foundation MailProxy
open Smtp (IpAddr)

/-- Base64 for URLs, without padding. -/
class UrlSafeBase64 where
  encode : Bytes → Text

/-- What a command gets from outside besides its arguments: bytes of the random
number generator, and the line typed at a prompt. -/
structure Inputs where
  salt : Bytes
  random : Bytes
  line : Except Text Text

/-- A duration as it is parsed; its seconds have 64 bits. -/
abbrev ParsedDuration := { duration : Duration // duration.asSecs < UInt64.size }

inductive PeersCommand where
  | allow (network : IpNet) (remove : Bool)
  | deny (network : IpNet) (remove : Bool)
  | test (ip : IpAddr)
  | display

inductive TlsCommand where
  | setup (certificate : List Text) (privateKey : Text)
  | disable

inductive SmtpCommand where
  | display
  | setup (address name : Option Text) (maxMessageSize : Option UInt64)
  | fail2ban (connections failures : Option UInt32) (duration : Option ParsedDuration)
      (reset : Bool)
  | peers (command : PeersCommand)
  | tls (command : TlsCommand)

inductive GraphCommand where
  | display
  | setup (tenantId clientId clientSecret : Option Text)
  | test

inductive UserSendAsCommand where
  | add (sender : Text)
  | remove (sender : Text)
  | display

inductive UserCommand where
  | setPassword (password : Option Text) (force : Bool)
  | remove
  | senders (command : UserSendAsCommand)

inductive AllowInsecureAuthCommand where
  | yes
  | no

inductive AuthCommand where
  | user (username : Text) (command : UserCommand)
  | showUsers
  | allowInsecureAuth (command : AllowInsecureAuthCommand)

inductive ConfigCommand where
  | smtp (command : SmtpCommand)
  | graph (command : GraphCommand)
  | auth (command : AuthCommand)
  | reset

/-- The typed line confirms if it is the prompt, up to white space around it. -/
def promptUserConfirmation (line : Except Text Text) (prompt : Text) : Except Text Unit := do
  let input ← line
  if trim input = prompt then .ok () else .error "Confirmation did not match".toList

/-- Add a rule, or remove it. -/
def changeRule (config : ConfigFile) (rule : FilterRule) (remove : Bool) : ConfigFile :=
  if remove then { config with smtp.peerFilter := config.smtp.peerFilter.remove rule }
  else { config with smtp.peerFilter := (config.smtp.peerFilter.add rule).2 }

def PeersCommand.execute (config : ConfigFile) : PeersCommand → ConfigFile
  | allow network remove => changeRule config ⟨.allow, network⟩ remove
  | deny network remove => changeRule config ⟨.deny, network⟩ remove
  | test _ => config
  | display => config

def TlsCommand.execute (config : ConfigFile) : TlsCommand → ConfigFile
  | setup certificate privateKey =>
      { config with
        smtp.tls := some { certificateChain := certificate, privateKey := privateKey } }
  | disable => { config with smtp.tls := none }

def SmtpCommand.execute (config : ConfigFile) : SmtpCommand → ConfigFile
  | display => config
  | setup address name maxMessageSize =>
      let address := address.getD config.smtp.address
      let name := name.or config.smtp.name
      let maxMessageSize := match maxMessageSize with
        | some size => if size = 0 then none else some size.toNat
        | none => config.smtp.maxMessageSize
      { config with smtp := { config.smtp with address, name, maxMessageSize } }
  | fail2ban connections failures duration reset =>
      if reset then { config with smtp.fail2ban := none }
      else
        let fail2ban := config.smtp.fail2ban.getD ⟨none, none, none⟩
        { config with
          smtp.fail2ban := some
            { maxConnections := connections.or fail2ban.maxConnections
              maxFailures := failures.or fail2ban.maxFailures
              banDuration := (duration.map Subtype.val).or fail2ban.banDuration } }
  | peers command => command.execute config
  | tls command => command.execute config

def GraphCommand.execute (config : ConfigFile) : GraphCommand → ConfigFile
  | display => config
  | setup tenantId clientId clientSecret =>
      { config with
        graph :=
          { tenantId := tenantId.getD config.graph.tenantId
            clientId := clientId.getD config.graph.clientId
            clientSecret := clientSecret.getD config.graph.clientSecret } }
  | test => config

def AllowInsecureAuthCommand.execute (inputs : Inputs) (config : ConfigFile) :
    AllowInsecureAuthCommand → ConfigFile
  | yes =>
      if config.smtp.tls.isSome then config
      else match promptUserConfirmation inputs.line "yes, i understand".toList with
        | .ok () => { config with smtp.allowInsecureAuth := true }
        | .error _ => config
  | no =>
      if config.smtp.tls.isSome then config
      else { config with smtp.allowInsecureAuth := false }

/-- Insecure authentication is not left allowed where it is not needed. -/
def disableInsecureAuth (config : ConfigFile) : ConfigFile :=
  if config.smtp.allowInsecureAuth && (config.smtp.tls.isSome || !config.smtp.users.hasUsers)
  then { config with smtp.allowInsecureAuth := false }
  else config

section Users

variable [Lowercase]

def UserSendAsCommand.execute (config : ConfigFile) (username : Text) :
    UserSendAsCommand → ConfigFile
  | add sender =>
      { config with smtp.users := (config.smtp.users.addUserSendAs username sender).2 }
  | remove sender =>
      { config with smtp.users := (config.smtp.users.removeUserSendAs username sender).2 }
  | display => config

variable [PasswordHasher] [UrlSafeBase64]

def UserCommand.execute (inputs : Inputs) (config : ConfigFile) (username : Text) :
    UserCommand → ConfigFile
  | setPassword password force =>
      let isNew := !config.smtp.users.hasUser username
      if isNew && !username.contains '@' && !force then config
      else
        -- without a password, one is generated
        let password := password.getD (UrlSafeBase64.encode inputs.random)
        { config with
          smtp.users := (config.smtp.users.setUserPassword username password inputs.salt).2 }
  | remove => { config with smtp.users := (config.smtp.users.removeUser username).2 }
  | senders command => command.execute config username

def AuthCommand.execute (inputs : Inputs) (config : ConfigFile) : AuthCommand → ConfigFile
  | user username command => command.execute inputs config username
  | showUsers => config
  | allowInsecureAuth command => command.execute inputs config

/-- What a command makes of the configuration. -/
def ConfigCommand.execute (inputs : Inputs) (config : ConfigFile) (command : ConfigCommand) :
    ConfigFile :=
  disableInsecureAuth (match command with
    | smtp command => command.execute config
    | graph command => command.execute config
    | auth command => command.execute inputs config
    | reset => { config with smtp := ConfigFile.empty.smtp, graph := ConfigFile.empty.graph })

/-- The configuration after a sequence of commands. -/
def after (config : ConfigFile) (commands : List (Inputs × ConfigCommand)) : ConfigFile :=
  commands.foldl (fun config given => given.2.execute given.1 config) config

end Users

end PostGraph.App
