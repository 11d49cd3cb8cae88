import PostGraph.Foundation.Url
import PostGraph.MailProxy.LoginState

/-! # The sender in the URL

The Graph client writes the sender into the path of its request as it is. The
request is for the mailbox of the sender exactly if the text of the sender is
verbatim as a segment of a path, which no check asks for.
-/

namespace PostGraph.MailProxy

open Foundation Smtp MsGraph

variable {N : Type}

/-- The request to send mail is for one mailbox below the endpoint: the sender's. -/
def AddressesSender (config : MsGraph.Config N) (endpoint : Url.Base) (sender : Text) : Prop :=
  ∃ m, Url.parse (Utf8.encode (Client.sendMailUrl config sender)) =
      some ⟨endpoint.secure, endpoint.authority, endpoint.segments.map Url.percentEncode ++
        [ascii "users", m, ascii "sendMail"]⟩ ∧
    Url.percentDecode m = Utf8.encode sender

theorem users_verbatim : ∀ segment ∈ [ascii "users"], Url.Verbatim segment := by decide

theorem sendMail_verbatim : ∀ segment ∈ [ascii "sendMail"], Url.Verbatim segment := by decide

/-- The URL is the endpoint with three more segments. -/
theorem encode_sendMailUrl {config : MsGraph.Config N} {endpoint : Url.Base}
    (hendpoint : Utf8.encode config.graphEndpoint = endpoint.text) (sender : Text) :
    Utf8.encode (Client.sendMailUrl config sender) =
      (endpoint.extend [ascii "users"] users_verbatim).text ++
        Url.written [Utf8.encode sender, ascii "sendMail"] := by
  have husers : Utf8.encode "/users/".toList = Url.slash :: ascii "users" ++ [Url.slash] := by
    decide
  have hsendMail : Utf8.encode "/sendMail".toList = Url.slash :: ascii "sendMail" := by decide
  rw [Client.sendMailUrl, Utf8.encode_append, Utf8.encode_append, Utf8.encode_append, hendpoint,
    husers, hsendMail]
  have hscheme : (endpoint.extend [ascii "users"] users_verbatim).schemeText =
      endpoint.schemeText := rfl
  rw [Url.Base.text, Url.Base.text, hscheme]
  simp [Url.Base.extend, Url.written]

theorem addressesSender_iff {config : MsGraph.Config N} {endpoint : Url.Base}
    (hendpoint : Utf8.encode config.graphEndpoint = endpoint.text) (sender : Text) :
    AddressesSender config endpoint sender ↔ Url.Verbatim (Utf8.encode sender) := by
  have hlast : ∀ b ∈ (Url.slash :: (Utf8.encode sender ++
      Url.written [ascii "sendMail"])).getLast?, sp < b := by
    have hsendMail : (Url.written [ascii "sendMail"]).getLast? = some 0x6C := by decide
    rw [← List.cons_append, List.getLast?_append, hsendMail]
    intro b hb
    cases hb
    decide
  rw [← (endpoint.extend [ascii "users"] users_verbatim).segment_iff (Utf8.encode sender)
    sendMail_verbatim hlast, AddressesSender, encode_sendMailUrl hendpoint]
  have husers : Url.percentEncode (ascii "users") = ascii "users" := by decide
  have hsendMail : Url.percentEncode (ascii "sendMail") = ascii "sendMail" := by decide
  simp [Url.Base.extend, husers, hsendMail]

/-- For every endpoint of the API that is an absolute URL, every list of users and
every sender that a MAIL command names and that a user may send as: the request is
for the mailbox of the sender exactly if the sender is verbatim. -/
theorem sender_url_iff [Lowercase] (config : MsGraph.Config N) (endpoint : Url.Base)
    (hendpoint : Utf8.encode config.graphEndpoint = endpoint.text) :
    ∀ (list : UserList) (username : Text) (line : Bytes) (raw : Text),
      Command.parse line = .ok (.mail raw) →
      list.verifyUserCanSendAs username (Mail.normalizeAddress raw) = .ok () →
      (AddressesSender config endpoint (Mail.normalizeAddress raw) ↔
        Url.Verbatim (Utf8.encode (Mail.normalizeAddress raw))) :=
  fun _ _ _ _ _ _ => addressesSender_iff hendpoint _

namespace Sample

/-- The address of the API. -/
def endpoint : Url.Base where
  secure := true
  authority := ascii "graph.microsoft.com"
  segments := [ascii "v1.0"]
  authority_ne := by decide
  authority_free := forall_mem_of_all (by decide)
  segments_verbatim := by decide

/-- How the proxy configures its client. -/
def graphConfig : MsGraph.Config Unit := (file true).graph.intoClientConfig ()

theorem graphEndpoint_text : Utf8.encode graphConfig.graphEndpoint = endpoint.text := by
  decide +kernel

end Sample

open Sample in
theorem sender_url_sample :
    AddressesSender graphConfig endpoint "x@example.com".toList :=
  (sender_url_iff graphConfig endpoint graphEndpoint_text users "a".toList
    (ascii "MAIL FROM:<x@example.com>\r\n") "<x@example.com>".toList (by decide +kernel)
    (by decide +kernel)).mpr (by decide +kernel)

open Sample in
/-- A user who may send for one domain acts on a mailbox of another. -/
theorem sender_beyond_domain :
    let sender := "ceo@other.org/sendMail?@example.com".toList
    Command.parse (ascii "MAIL FROM:<ceo@other.org/sendMail?@example.com>\r\n") =
        .ok (.mail ('<' :: sender ++ ['>'])) ∧
      users.verifyUserCanSendAs "a".toList (Mail.normalizeAddress ('<' :: sender ++ ['>'])) =
        .ok () ∧
      Url.parse (Utf8.encode (Client.sendMailUrl graphConfig sender)) =
        some ⟨true, ascii "graph.microsoft.com",
          [ascii "v1.0", ascii "users", ascii "ceo@other.org", ascii "sendMail"]⟩ ∧
      ¬ AddressesSender graphConfig endpoint (Mail.normalizeAddress ('<' :: sender ++ ['>'])) := by
  have hnot : ¬ AddressesSender graphConfig endpoint
      (Mail.normalizeAddress "<ceo@other.org/sendMail?@example.com>".toList) := by
    rw [addressesSender_iff graphEndpoint_text]
    decide +kernel
  exact ⟨by decide +kernel, by decide +kernel, by decide +kernel, hnot⟩

end PostGraph.MailProxy
