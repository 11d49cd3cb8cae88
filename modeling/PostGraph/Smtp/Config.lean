import PostGraph.Smtp.Handler

/-! # Server and session configuration -/

namespace PostGraph.Smtp

open Foundation

/-- Configuration of a session, with its handler. -/
structure SessionConfig (H : Type) where
  handler : H
  serverName : Text
  authMode : AuthMode
  maxMessageSize : Nat

/-- Authentication is configured in some way. -/
def SessionConfig.hasAuth {H : Type} (config : SessionConfig H) : Bool := config.authMode ≠ .none

/-- Certificates and keys in files, as the operating system and the TLS library
read them; paths are given as text. -/
class TlsFiles where
  readCerts : Text → Except Text (List Bytes)
  readKey : Text → Except Text Bytes
  withSingleCert : List Bytes → Bytes → Except Text TlsAcceptor

/-- TLS configuration of the server. -/
inductive TlsConfig where
  | chain (certificates : List Text) (privateKey : Text)
  | custom (acceptor : TlsAcceptor)

def TlsConfig.intoTlsAcceptor [TlsFiles] : TlsConfig → Except Text TlsAcceptor
  | custom acceptor => .ok acceptor
  | chain certificates privateKey => do
      let certs ← certificates.mapM TlsFiles.readCerts
      let key ← TlsFiles.readKey privateKey
      TlsFiles.withSingleCert certs.flatten key

/-- Configuration of the server and of the sessions it creates. -/
structure Config (H : Type) where
  address : Text
  tls : Option TlsAcceptor
  sessionConfig : SessionConfig H

namespace Config

variable {H : Type}

def new (handler : H) : Config H where
  address := "0.0.0.0:25".toList
  tls := none
  sessionConfig :=
    { handler
      serverName := "localhost".toList
      authMode := .none
      maxMessageSize := defaultMaxMessageSize }

def withAddress (config : Config H) (address : Text) : Config H := { config with address }

def withServerName (config : Config H) (serverName : Text) : Config H :=
  { config with sessionConfig := { config.sessionConfig with serverName } }

def withAuth (config : Config H) (authMode : AuthMode) : Config H :=
  { config with sessionConfig := { config.sessionConfig with authMode } }

def withMaxMessageSize (config : Config H) (maxMessageSize : Nat) : Config H :=
  { config with sessionConfig := { config.sessionConfig with maxMessageSize } }

def withTls [TlsFiles] (config : Config H) (tlsConfig : TlsConfig) : Except Text (Config H) := do
  let acceptor ← tlsConfig.intoTlsAcceptor
  return { config with tls := some acceptor }

end Config

end PostGraph.Smtp
