import PostGraph.Foundation.Clock
import PostGraph.Foundation.Program
import PostGraph.Foundation.Text

/-! # The client of the Graph API

The client posts a mail to the API with an access token, which it requests when
it has none or when the token has expired. The network and the clock stand
behind `HttpClient`: a request that is handed to it gets a reply or an error, and
the next one may meet another network. What it sends for the request on its own,
such as after a redirect, stays behind it: the reply is the last one.
-/

namespace PostGraph.MsGraph

open Foundation

/-- Response to a request for an access token. -/
structure AccessToken where
  accessToken : Text
  tokenType : Text
  expiresIn : Nat
  issuedAt : Option Instant
  deriving DecidableEq

inductive Body where
  | form (fields : List (Text × Text))
  | raw (bytes : Bytes)
  deriving DecidableEq

/-- A POST request. -/
structure Request where
  url : Text
  bearer : Option Text
  contentType : Option Text
  body : Body
  deriving DecidableEq

structure Reply where
  status : Nat
  body : Bytes

/-- An HTTP client, with the clock next to it. -/
class HttpClient (N : Type) where
  /-- Hand over a request. The reply is the one that is left when the client has
  followed all redirects. -/
  send : Request → N → Except Text Reply × N
  now : N → Instant × N
  /-- Text of the error that an error status becomes. -/
  statusError : Nat → Text
  /-- An access token from JSON, without the time of its issue. -/
  json : Bytes → Except Text AccessToken

def defaultLoginEndpoint : Text := "https://login.microsoftonline.com".toList

def defaultGraphEndpoint : Text := "https://graph.microsoft.com/v1.0".toList

/-- Recommended maximum message size. -/
def recommendedMaxMessageSize : Nat := 34 * 1024 * 1024

structure Config (N : Type) where
  tenantId : Text
  clientId : Text
  clientSecret : Text
  loginEndpoint : Text
  graphEndpoint : Text
  httpClient : N

def Config.new {N : Type} (tenantId clientId clientSecret : Text) (httpClient : N) : Config N where
  tenantId
  clientId
  clientSecret
  loginEndpoint := defaultLoginEndpoint
  graphEndpoint := defaultGraphEndpoint
  httpClient

structure Client (N : Type) where
  config : Config N
  token : Option AccessToken

namespace Client

variable {N : Type}

def new (config : Config N) : Client N := ⟨config, none⟩

/-- The same client over another state of the network. -/
def withHttpClient (client : Client N) (httpClient : N) : Client N :=
  { client with config := { client.config with httpClient } }

/-- Address of the API to send mail as the given user. -/
def sendMailUrl (config : Config N) (sender : Text) : Text :=
  config.graphEndpoint ++ "/users/".toList ++ sender ++ "/sendMail".toList

def tokenUrl (config : Config N) : Text :=
  config.loginEndpoint ++ ['/'] ++ config.tenantId ++ "/oauth2/v2.0/token".toList

variable [HttpClient N]

/-- Hand a request to the HTTP client; an error status is an error. -/
def send (request : Request) : EStateM Text (Client N) Reply := fun client =>
  match HttpClient.send request client.config.httpClient with
  | (.error error, network) => .error error (client.withHttpClient network)
  | (.ok reply, network) =>
      if 400 ≤ reply.status ∧ reply.status < 600 then
        .error (HttpClient.statusError N reply.status) (client.withHttpClient network)
      else .ok reply (client.withHttpClient network)

def now : EStateM Text (Client N) Instant := fun client =>
  let (now, network) := HttpClient.now client.config.httpClient
  .ok now (client.withHttpClient network)

/-- A token of unknown age is taken as valid. -/
def isExpired (token : AccessToken) : EStateM Text (Client N) Bool := do
  match token.issuedAt with
  | some issuedAt => return token.expiresIn < Duration.asSecs (Instant.elapsed issuedAt (← now))
  | none => return false

/-- A token by the client credentials grant. -/
def getClientCredentials : EStateM Text (Client N) AccessToken := do
  let config := (← get).config
  let reply ← send
    { url := tokenUrl config
      bearer := none
      contentType := none
      body := .form
        [("client_id".toList, config.clientId), ("client_secret".toList, config.clientSecret),
          ("scope".toList, "https://graph.microsoft.com/.default".toList),
          ("grant_type".toList, "client_credentials".toList)] }
  match HttpClient.json N reply.body with
  | .error error => throw error
  | .ok token =>
      let token := { token with issuedAt := some (← now) }
      if token.tokenType ≠ "Bearer".toList then
        throw ("Invalid token type '".toList ++ token.tokenType ++ "'".toList)
      else
        return token

/-- The token of the client, unless it has expired. -/
def validToken : EStateM Text (Client N) (Option AccessToken) := do
  match (← get).token with
  | none => return none
  | some token => return if ← isExpired token then none else some token

def getAuthentication : EStateM Text (Client N) AccessToken := do
  match ← validToken with
  | some token => return token
  | none => throw "not authenticated or expired".toList

/-- Request a token if there is no valid one; the answer tells whether it did. -/
def authenticate : EStateM Text (Client N) Bool := do
  match ← validToken with
  | some _ => return false
  | none =>
      let token ← getClientCredentials
      modify fun client => { client with token := some token }
      return true

def sendMail [Base64] (sender : Text) (mailMimeData : Bytes) : EStateM Text (Client N) Unit := do
  let _ ← authenticate
  let url := sendMailUrl (← get).config sender
  let token ← getAuthentication
  let _ ← send
    { url
      bearer := some token.accessToken
      contentType := some "text/plain".toList
      body := .raw (Base64.encode mailMimeData) }

end Client

end PostGraph.MsGraph
