import PostGraph.Foundation.Text

/-! # Mail objects and authentication modes -/

namespace PostGraph.Smtp

open Foundation

/-- Authentication modes for an SMTP session. -/
inductive AuthMode where
  /-- No authentication is required. -/
  | none
  /-- Authentication is required and always allowed. -/
  | always
  /-- Authentication is required and allowed only after STARTTLS. -/
  | requireTls
  deriving DecidableEq, Repr

/-- Envelope and data of a mail. The fields are the source's `from`, `to` and
`data`, under the names of their accessors. -/
structure Mail where
  sender : Text
  recipients : List Text
  data : Bytes
  deriving DecidableEq, Repr

namespace Mail

def empty : Mail := ⟨[], [], []⟩

/-- The address without surrounding white space and without one pair of angle
brackets, of which either may be missing. -/
def normalizeAddress (address : Text) : Text :=
  let address := trim address
  let address := (address.dropPrefix? ['<']).getD address
  let address := (address.dropSuffix? ['>']).getD address
  trim address

def setSender (mail : Mail) (sender : Text) : Mail :=
  { mail with sender := normalizeAddress sender }

def addRecipient (mail : Mail) (address : Text) : Mail :=
  { mail with recipients := mail.recipients ++ [normalizeAddress address] }

def appendData (mail : Mail) (data : Bytes) : Mail := { mail with data := mail.data ++ data }

def dataLength (mail : Mail) : Nat := mail.data.length

end Mail

/-- Default maximum message size. -/
def defaultMaxMessageSize : Nat := 10 * 1024 * 1024

end PostGraph.Smtp
