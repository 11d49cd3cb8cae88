import PostGraph.Foundation.Utf8

/-! # Responses

A response is a code and a message. A continued one is followed by another
response to the same command.
-/

namespace PostGraph.Smtp

open Foundation

/-- A static or a constructed message string. -/
inductive Message where
  | fixed (text : Text)
  | custom (text : Text)
  deriving DecidableEq, Repr

structure Response where
  code : UInt16
  message : Message
  hasNext : Bool
  deriving DecidableEq, Repr

namespace Response

def fixed (code : UInt16) (message : String) : Response := ⟨code, .fixed message.toList, false⟩

def new (code : UInt16) (message : Text) : Response := ⟨code, .custom message, false⟩

def newContinued (code : UInt16) (message : Text) : Response := ⟨code, .custom message, true⟩

/-- The banner, a 220 response. -/
def banner (serverName : Text) : Response :=
  new 220 ("2.2.0 ".toList ++ serverName ++ " ESMTP ready".toList)

/-- The syntax error, a 500 response. -/
def syntaxError (error : Option Text) : Response :=
  new 500 (match error with
    | some error => "5.5.2 Syntax error: ".toList ++ error
    | none => "5.5.2 Syntax error".toList)

def messageText (response : Response) : Text :=
  match response.message with
  | .custom message => message
  | .fixed message => message

/-- The same response with an extended message. -/
def extend (response : Response) (extension : Text) : Response :=
  { response with message := .custom (response.messageText ++ ": ".toList ++ extension) }

/-- The line of the response, without its CRLF. -/
def line (response : Response) : Text :=
  let message := response.messageText
  let delimiter : Text :=
    if message.isEmpty then [] else if response.hasNext then ['-'] else [' ']
  Nat.toDigits 10 response.code.toNat ++ delimiter ++ message

def startTls : Response := fixed 220 "2.0.0 Ready to start TLS"

def goodbye : Response := fixed 221 "2.0.0 Goodbye"

def authOk : Response := fixed 235 "2.7.0 Authentication succeeded"

def ok : Response := fixed 250 "2.0.0 OK"

def reset : Response := fixed 250 "2.0.0 RESET"

def mailAccepted : Response := fixed 250 "2.0.0 Mail accepted"

def authChallengePlain : Response := fixed 334 ""

def authChallengeLoginUsername : Response := fixed 334 "VXNlcm5hbWU6"

def authChallengeLoginPassword : Response := fixed 334 "UGFzc3dvcmQ6"

def dataStart : Response := fixed 354 "3.0.0 Start mail input; end with <CRLF>.<CRLF>"

def mailHandlerError : Response := fixed 451 "4.3.0 Error during mail processing"

def badSequence : Response := fixed 503 "5.5.1 Bad sequence of commands"

def authRequired : Response := fixed 530 "5.7.0 Authentication required"

def authFail : Response := fixed 535 "5.7.8 Authentication failed"

def dataTooLong : Response :=
  fixed 552 "5.3.4 Mail size exceeds fixed maximum message size"

end Response

end PostGraph.Smtp
