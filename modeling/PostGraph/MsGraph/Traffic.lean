import PostGraph.Foundation.History
import PostGraph.Foundation.TwoRuns
import PostGraph.MsGraph.Client

/-! # The traffic of a client

A recording HTTP client keeps what passes through it: the requests that are handed
to it with their answers, and the readings of the clock. From the record alone one
can tell which token was granted last, whether it still is valid, and so whether a
request was in order.
-/

namespace PostGraph.MsGraph

open Foundation History

/-- A request that is handed to the HTTP client, or a reading of the clock. -/
inductive Exchange where
  | sent (request : Request) (answer : Except Text Reply)
  | read (now : Instant)

/-- An HTTP client with a record of its traffic, oldest first. -/
structure Recorded (N : Type) where
  network : N
  traffic : List Exchange

variable {N : Type}

def Recorded.new (network : N) : Recorded N := ⟨network, []⟩

instance [HttpClient N] : HttpClient (Recorded N) where
  send request recorded :=
    let (answer, network) := HttpClient.send request recorded.network
    (answer, ⟨network, recorded.traffic ++ [.sent request answer]⟩)
  now recorded :=
    let (now, network) := HttpClient.now recorded.network
    (now, ⟨network, recorded.traffic ++ [.read now]⟩)
  statusError := HttpClient.statusError N
  json := HttpClient.json N

/-- The status of the reply is an error. -/
def Reply.IsError (reply : Reply) : Prop := 400 ≤ reply.status ∧ reply.status < 600

instance (reply : Reply) : Decidable reply.IsError :=
  inferInstanceAs (Decidable (400 ≤ reply.status ∧ reply.status < 600))

/-- The same configuration over another network. -/
def Config.over {M : Type} (network : M) (config : Config N) : Config M :=
  { config with httpClient := network }

/-- The one request that contains the client's secret. -/
def tokenRequest (config : Config N) : Request where
  url := Client.tokenUrl config
  bearer := none
  contentType := none
  body := .form
    [("client_id".toList, config.clientId), ("client_secret".toList, config.clientSecret),
      ("scope".toList, "https://graph.microsoft.com/.default".toList),
      ("grant_type".toList, "client_credentials".toList)]

def mailRequest [Base64] (config : Config N) (token : AccessToken) (sender : Text)
    (mailMimeData : Bytes) : Request where
  url := Client.sendMailUrl config sender
  bearer := some token.accessToken
  contentType := some "text/plain".toList
  body := .raw (Base64.encode mailMimeData)

/-! ## Tokens in the traffic -/

/-- What an observer of the traffic knows: the token that was granted last, one
that the last answer offers, and the last reading of the clock. -/
structure Wallet where
  token : Option AccessToken
  offered : Option AccessToken
  time : Option Instant
  deriving DecidableEq

def Wallet.empty : Wallet := ⟨none, none, none⟩

variable [HttpClient N]

/-- The token that an answer to the request for one contains. -/
def offer (config : Config N) (request : Request) (answer : Except Text Reply) :
    Option AccessToken :=
  match answer with
  | .error _ => none
  | .ok reply =>
      if request = tokenRequest config ∧ ¬ reply.IsError then
        (HttpClient.json N reply.body).toOption
      else none

/-- A token is granted when a bearer token was offered and its issue is dated. -/
def Wallet.observe (config : Config N) (wallet : Wallet) : Exchange → Wallet
  | .sent request answer => { wallet with offered := offer config request answer }
  | .read now =>
      { token := (wallet.offered.filter (·.tokenType = "Bearer".toList)).elim wallet.token
          fun token => some { token with issuedAt := some now }
        offered := none
        time := some now }

def Wallet.after (config : Config N) (traffic : List Exchange) : Wallet :=
  traffic.foldl (observe config) empty

/-- The token of the wallet, unless it had expired at the last reading. -/
def Wallet.valid (wallet : Wallet) : Option AccessToken :=
  match wallet.token, wallet.time with
  | some token, some now =>
      if token.expiresIn < (Instant.elapsed (token.issuedAt.getD now) now).asSecs then none
      else some token
  | _, _ => none

/-- A token is requested when there is no valid one, and else a mail is posted
with it. -/
def InOrder [Base64] (config : Config N) (before : List Exchange) : Exchange → Prop
  | .sent request _ =>
      request = tokenRequest config ∧ (Wallet.after config before).valid = none ∨
        ∃ token sender mailMimeData, (Wallet.after config before).valid = some token ∧
          request = mailRequest config token sender mailMimeData
  | .read _ => True

theorem Wallet.after_concat (config : Config N) (traffic : List Exchange) (exchange : Exchange) :
    after config (traffic ++ [exchange]) = (after config traffic).observe config exchange := by
  simp [after]

/-! ## Mails in the traffic -/

/-- A post of a mail, and whether it was accepted. -/
structure Post where
  url : Text
  body : Body
  accepted : Bool
  deriving DecidableEq

/-- A request is accepted that gets a reply without an error status. -/
def accepts : Except Text Reply → Bool
  | .error _ => false
  | .ok reply => !decide reply.IsError

/-- Posts are the requests with a token. -/
def Exchange.post : Exchange → Option Post
  | .sent request answer => request.bearer.map fun _ => ⟨request.url, request.body, accepts answer⟩
  | .read _ => none

def posts (traffic : List Exchange) : List Post := traffic.filterMap Exchange.post

theorem posts_concat (traffic : List Exchange) (exchange : Exchange) :
    posts (traffic ++ [exchange]) = posts traffic ++ exchange.post.toList := by
  rw [posts, List.filterMap_append]
  cases hpost : exchange.post <;> simp [posts, hpost]

theorem offer_of_refused {config : Config N} {request : Request} {answer : Except Text Reply}
    (h : accepts answer = false) : offer config request answer = none := by
  cases answer with
  | error error => rfl
  | ok reply =>
      have herror : reply.IsError := by simpa [accepts] using h
      simp [offer, herror]

theorem offer_of_accepted {config : Config N} {reply : Reply} (h : ¬ reply.IsError) :
    offer config (tokenRequest config) (.ok reply) = (HttpClient.json N reply.body).toOption :=
  if_pos ⟨rfl, h⟩

omit [HttpClient N] in
theorem mailRequest_ne_tokenRequest [Base64] (config config' : Config N) (token : AccessToken)
    (sender : Text) (mailMimeData : Bytes) :
    mailRequest config token sender mailMimeData ≠ tokenRequest config' := by
  intro heq
  cases congrArg Request.bearer heq

theorem offer_mailRequest [Base64] {config config' : Config N} {token : AccessToken}
    {sender : Text} {mailMimeData : Bytes} {answer : Except Text Reply} :
    offer config (mailRequest config' token sender mailMimeData) answer = none := by
  cases answer with
  | error error => rfl
  | ok reply =>
      exact if_neg fun h => mailRequest_ne_tokenRequest config' config token sender mailMimeData h.1

/-! ## The client's token -/

namespace Client

abbrev traffic (client : Client (Recorded N)) : List Exchange := client.config.httpClient.traffic

/-- The same client over another state of the network, after one more exchange. -/
def passed (client : Client (Recorded N)) (network : N) (exchange : Exchange) :
    Client (Recorded N) :=
  client.withHttpClient ⟨network, client.traffic ++ [exchange]⟩

/-- Every request so far was in order, and the client has the token that was granted
last. -/
structure Tracked [Base64] (config : Config N) (client : Client (Recorded N)) : Prop where
  settings : ∃ recorded, client.config = config.over recorded
  token_eq : client.token = (Wallet.after config client.traffic).token
  dated : ∀ token, client.token = some token → token.issuedAt.isSome
  settled : (Wallet.after config client.traffic).offered = none
  ordered : Justified (InOrder config) client.traffic

variable [Base64] {config : Config N} {client : Client (Recorded N)}

namespace Tracked

theorem tokenRequest_eq (h : Tracked config client) :
    tokenRequest client.config = tokenRequest config := by
  obtain ⟨recorded, hsettings⟩ := h.settings
  rw [hsettings]
  rfl

theorem mailRequest_eq (h : Tracked config client) (token : AccessToken) (sender : Text)
    (mailMimeData : Bytes) : mailRequest client.config token sender mailMimeData =
      mailRequest config token sender mailMimeData := by
  obtain ⟨recorded, hsettings⟩ := h.settings
  rw [hsettings]
  rfl

omit [HttpClient N] [Base64] in
theorem settings_passed (h : ∃ recorded, client.config = config.over recorded) (network : N)
    (exchange : Exchange) :
    ∃ recorded, (client.passed network exchange).config = config.over recorded := by
  obtain ⟨recorded, hsettings⟩ := h
  refine ⟨⟨network, client.traffic ++ [exchange]⟩, ?_⟩
  exact congrArg (Config.over (⟨network, client.traffic ++ [exchange]⟩ : Recorded N)) hsettings

/-- A reading of the clock when no token is on offer. -/
theorem read (h : Tracked config client) (network : N) (now : Instant) :
    Tracked config (client.passed network (.read now)) where
  settings := settings_passed h.settings network _
  token_eq := by
    change client.token = (Wallet.after config (client.traffic ++ [_])).token
    rw [Wallet.after_concat, Wallet.observe, h.settled]
    exact h.token_eq
  dated := h.dated
  settled := by
    change (Wallet.after config (client.traffic ++ [_])).offered = none
    rw [Wallet.after_concat]
    rfl
  ordered := h.ordered.concat trivial

/-- A request whose answer offers no token. -/
theorem sent (h : Tracked config client) {request : Request} {answer : Except Text Reply}
    (horder : InOrder config client.traffic (.sent request answer))
    (hoffer : offer config request answer = none) (network : N) :
    Tracked config (client.passed network (.sent request answer)) where
  settings := settings_passed h.settings network _
  token_eq := by
    change client.token = (Wallet.after config (client.traffic ++ [_])).token
    rw [Wallet.after_concat]
    exact h.token_eq
  dated := h.dated
  settled := by
    change (Wallet.after config (client.traffic ++ [_])).offered = none
    rw [Wallet.after_concat]
    exact hoffer
  ordered := h.ordered.concat horder

/-- A token that was requested and dated, without the client's taking it. -/
theorem granted (h : Tracked config client) {reply : Reply} {token : AccessToken}
    (hnone : (Wallet.after config client.traffic).valid = none) (hreply : ¬ reply.IsError)
    (hjson : HttpClient.json N reply.body = .ok token) (first second : N) (now : Instant) :
    let asked := client.passed first (.sent (tokenRequest config) (.ok reply))
    let dated := asked.passed second (.read now)
    if token.tokenType = "Bearer".toList then
      Tracked config { dated with token := some { token with issuedAt := some now } }
    else Tracked config dated := by
  intro asked dated
  have hsettings : ∃ recorded, dated.config = config.over recorded :=
    settings_passed (settings_passed h.settings first _) second _
  have hasked : InOrder config client.traffic (.sent (tokenRequest config) (.ok reply)) :=
    Or.inl ⟨rfl, hnone⟩
  have hordered : Justified (InOrder config) dated.traffic :=
    (h.ordered.concat hasked).concat trivial
  have hwallet : Wallet.after config dated.traffic =
      ⟨((some token).filter (·.tokenType = "Bearer".toList)).elim client.token
        fun token => some { token with issuedAt := some now }, none, some now⟩ := by
    change Wallet.after config (client.traffic ++ [_] ++ [_]) = _
    rw [Wallet.after_concat, Wallet.after_concat, Wallet.observe, Wallet.observe, h.token_eq,
      offer_of_accepted hreply, hjson]
    rfl
  split
  next hbearer =>
    refine ⟨hsettings, ?_, ?_, ?_, hordered⟩
    · change _ = (Wallet.after config dated.traffic).token
      rw [hwallet, Option.filter_some, if_pos (decide_eq_true hbearer)]
      rfl
    · rintro _ ⟨⟩
      rfl
    · change (Wallet.after config dated.traffic).offered = none
      rw [hwallet]
  next hother =>
    refine ⟨hsettings, ?_, h.dated, ?_, hordered⟩
    · change client.token = _
      rw [hwallet, Option.filter_some, if_neg fun h => hother (of_decide_eq_true h)]
      rfl
    · rw [hwallet]

end Tracked

/-! ## One call -/

omit [Base64] in
theorem send_sat {request : Request} : Sat (send request) client
    (fun reply after => ¬ reply.IsError ∧
      ∃ network, after = client.passed network (.sent request (.ok reply)))
    (fun _ after => ∃ answer network, accepts answer = false ∧
      after = client.passed network (.sent request answer)) := by
  unfold Sat send
  rcases hsend : HttpClient.send request client.config.httpClient.network with
    ⟨error | reply, network⟩
  · simp only [HttpClient.send, hsend]
    exact ⟨.error error, network, rfl, rfl⟩
  · by_cases herror : 400 ≤ reply.status ∧ reply.status < 600
    · have hrefused : accepts (.ok reply) = false := by
        rw [accepts, decide_eq_true (p := reply.IsError) herror]
        rfl
      simp only [HttpClient.send, hsend, if_pos herror]
      exact ⟨.ok reply, network, hrefused, rfl⟩
    · simp only [HttpClient.send, hsend, if_neg herror]
      exact ⟨herror, network, rfl⟩

/-- The client stays in order, and no mail is posted. -/
def Quiet (config : Config N) (before after : Client (Recorded N)) : Prop :=
  Tracked config after ∧ posts after.traffic = posts before.traffic

theorem Tracked.quiet (h : Tracked config client) : Quiet config client client := ⟨h, rfl⟩

theorem Quiet.trans {first second third : Client (Recorded N)} (h : Quiet config first second)
    (h' : Quiet config second third) : Quiet config first third :=
  ⟨h'.1, h'.2.trans h.2⟩

omit [Base64] in
theorem now_passed : Sat now client
    (fun now after => ∃ network, after = client.passed network (.read now))
    (fun _ _ => False) :=
  ⟨_, rfl⟩

theorem now_sat (h : Tracked config client) : Sat now client
    (fun now after => Quiet config client after ∧ after.token = client.token ∧
      (Wallet.after config after.traffic).time = some now) (fun _ _ => False) := by
  refine now_passed.mono ?_ fun _ _ => False.elim
  rintro now _ ⟨network, rfl⟩
  refine ⟨⟨h.read network now, ?_⟩, rfl, ?_⟩
  · exact (posts_concat client.traffic _).trans (List.append_nil _)
  · exact congrArg Wallet.time (Wallet.after_concat config client.traffic _)

/-- The client and an observer of its traffic agree on the token. -/
theorem validToken_sat (h : Tracked config client) : Sat validToken client
    (fun token after => Quiet config client after ∧
      token = (Wallet.after config after.traffic).valid) (fun _ _ => False) := by
  unfold validToken
  apply Sat.get_bind
  cases htoken : client.token with
  | none =>
      refine Sat.pure ⟨h.quiet, ?_⟩
      rw [Wallet.valid, ← h.token_eq, htoken]
  | some token =>
      obtain ⟨issuedAt, hissued⟩ := Option.isSome_iff_exists.mp (h.dated token htoken)
      unfold isExpired
      dsimp only
      rw [hissued]
      refine Sat.bind (Sat.bind (now_sat h) fun now after hafter => Sat.pure ?_) fun
        expired after hafter => Sat.pure hafter
      obtain ⟨hquiet, hkept, htime⟩ := hafter
      refine ⟨hquiet, ?_⟩
      rw [Wallet.valid, ← hquiet.1.token_eq, hkept, htoken, htime]
      simp [hissued]

theorem getAuthentication_sat (h : Tracked config client) : Sat getAuthentication client
    (fun token after => Quiet config client after ∧
      (Wallet.after config after.traffic).valid = some token)
    (fun _ after => Quiet config client after) := by
  refine Sat.bind (validToken_sat h |>.mono (fun _ _ h => h) fun _ _ => False.elim) fun
    token after hafter => ?_
  cases token with
  | none => exact Sat.throw hafter.1
  | some token => exact Sat.pure ⟨hafter.1, hafter.2.symm⟩

theorem getClientCredentials_sat (h : Tracked config client)
    (hnone : (Wallet.after config client.traffic).valid = none) : Sat getClientCredentials client
    (fun token after => Quiet config client { after with token := some token })
    (fun _ after => Quiet config client after) := by
  unfold getClientCredentials
  apply Sat.get_bind
  change Sat (send (tokenRequest client.config) >>= _) _ _ _
  rw [h.tokenRequest_eq]
  have hposts : ∀ network answer, posts (client.passed network
      (.sent (tokenRequest config) answer)).traffic = posts client.traffic := fun _ answer =>
    (posts_concat client.traffic (.sent (tokenRequest config) answer)).trans (List.append_nil _)
  refine Sat.bind (send_sat.mono (fun _ _ h => h) ?_) ?_
  · rintro error _ ⟨answer, network, hrefused, rfl⟩
    exact ⟨h.sent (Or.inl ⟨rfl, hnone⟩) (offer_of_refused hrefused) network, hposts network answer⟩
  · rintro reply _ ⟨hreply, network, rfl⟩
    split
    next error hjson =>
      refine Sat.throw ⟨h.sent (Or.inl ⟨rfl, hnone⟩) ?_ network, hposts network _⟩
      rw [offer_of_accepted hreply]
      exact congrArg Except.toOption hjson
    next token hjson =>
      refine Sat.bind (now_passed.mono (fun _ _ h => h) fun _ _ => False.elim) ?_
      rintro now _ ⟨network', rfl⟩
      have hgranted := h.granted hnone hreply hjson network network' now
      have hread : posts (_ ++ [_]) = posts client.traffic :=
        (posts_concat _ (.read now)).trans ((List.append_nil _).trans (hposts network (.ok reply)))
      dsimp only
      split
      next hother =>
        rw [if_neg hother] at hgranted
        exact Sat.throw ⟨hgranted, hread⟩
      next hbearer =>
        rw [if_pos (not_not.mp hbearer)] at hgranted
        exact Sat.pure ⟨hgranted, hread⟩

/-- Afterwards the client has a valid token, unless it expires at once. -/
theorem authenticate_sat (h : Tracked config client) : Sat authenticate client
    (fun _ after => Quiet config client after) (fun _ after => Quiet config client after) := by
  refine Sat.bind ((validToken_sat h).mono (fun _ _ h => h) fun _ _ => False.elim) ?_
  rintro token after ⟨hquiet, htoken⟩
  cases token with
  | some token => exact Sat.pure hquiet
  | none =>
      refine Sat.bind ((getClientCredentials_sat hquiet.1 htoken.symm).mono (fun _ _ h => h)
        fun _ _ => hquiet.trans) ?_
      intro token last hlast
      exact Sat.modify_bind (Sat.pure (hquiet.trans hlast))

/-- The post that a mail becomes. -/
def postOf (config : Config N) (mail : Text × Bytes) (accepted : Bool) : Post :=
  ⟨sendMailUrl config mail.1, .raw (Base64.encode mail.2), accepted⟩

/-- A mail is posted once if the call succeeds, and once or never if it fails. -/
theorem sendMail_sat (h : Tracked config client) (sender : Text) (mailMimeData : Bytes) :
    Sat (sendMail sender mailMimeData) client
      (fun _ after => Tracked config after ∧
        posts after.traffic = posts client.traffic ++ [postOf config (sender, mailMimeData) true])
      (fun _ after => Tracked config after ∧
        (posts after.traffic = posts client.traffic ∨ posts after.traffic =
          posts client.traffic ++ [postOf config (sender, mailMimeData) false])) := by
  unfold sendMail
  refine Sat.bind ((authenticate_sat h).mono (fun _ _ h => h) fun _ _ h => h.imp_right .inl) ?_
  intro _ authenticated hauthenticated
  apply Sat.get_bind
  refine Sat.bind ((getAuthentication_sat hauthenticated.1).mono (fun _ _ h => h) fun _ _ hlast =>
    (hauthenticated.trans hlast).imp_right .inl) ?_
  rintro token last ⟨hlast, htoken⟩
  have hquiet := hauthenticated.trans hlast
  change Sat (send (mailRequest authenticated.config token sender mailMimeData) >>= _) _ _ _
  rw [hauthenticated.1.mailRequest_eq]
  have hposts : ∀ network answer, posts (last.passed network
      (.sent (mailRequest config token sender mailMimeData) answer)).traffic =
        posts client.traffic ++ [postOf config (sender, mailMimeData) (accepts answer)] :=
    fun _ answer => (posts_concat last.traffic _).trans (congrArg (· ++ _) hquiet.2)
  refine Sat.bind (send_sat.mono (fun _ _ h => h) ?_) ?_
  · rintro error _ ⟨answer, network, hrefused, rfl⟩
    refine ⟨hquiet.1.sent (Or.inr ⟨token, sender, mailMimeData, htoken, rfl⟩) offer_mailRequest
      network, .inr ?_⟩
    rw [hposts, hrefused]
  · rintro reply _ ⟨hreply, network, rfl⟩
    refine Sat.pure ⟨hquiet.1.sent (Or.inr ⟨token, sender, mailMimeData, htoken, rfl⟩)
      offer_mailRequest network, ?_⟩
    rw [hposts, accepts, decide_eq_false hreply]
    rfl

/-! ## Runs -/

/-- A call of `sendMail`, whatever it returns. -/
def submit {N : Type} [HttpClient N] (mail : Text × Bytes) (client : Client N) :
    Except Text Unit × Client N :=
  match sendMail mail.1 mail.2 client with
  | .ok () client => (.ok (), client)
  | .error error client => (.error error, client)

/-- One call after the other, each mail with its answer. -/
def submitAll {N : Type} [HttpClient N] :
    List (Text × Bytes) → Client N → List ((Text × Bytes) × Except Text Unit) × Client N
  | [], client => ([], client)
  | mail :: rest, client =>
      let (answer, client) := submit mail client
      let (answers, client) := submitAll rest client
      ((mail, answer) :: answers, client)

/-- The posts that the answers speak of. -/
def postsOf (config : Config N) (answers : List ((Text × Bytes) × Except Text Unit)) : List Post :=
  answers.map fun (mail, answer) => postOf config mail answer.isOk

/-- What one call does, whatever it returns. -/
theorem submit_tracked (h : Tracked config client) (mail : Text × Bytes) :
    Tracked config (submit mail client).2 ∧
      (posts (submit mail client).2.traffic =
          posts client.traffic ++ [postOf config mail (submit mail client).1.isOk] ∨
        (submit mail client).1.isOk = false ∧
          posts (submit mail client).2.traffic = posts client.traffic) := by
  have hsat := sendMail_sat h mail.1 mail.2
  unfold Sat at hsat
  unfold submit
  split at hsat
  next _ after heq =>
    rw [heq]
    exact ⟨hsat.1, .inl hsat.2⟩
  next error after heq =>
    rw [heq]
    exact ⟨hsat.1, hsat.2.elim (fun h => .inr ⟨rfl, h⟩) .inl⟩

theorem submitAll_tracked (mails : List (Text × Bytes)) (h : Tracked config client) :
    Tracked config (submitAll mails client).2 := by
  induction mails generalizing client with
  | nil => exact h
  | cons mail rest ih => exact ih (submit_tracked h mail).1

/-! ## The record changes nothing -/

/-- The client over a network that starts its record. -/
def recorded {N : Type} (client : Client N) : Client (Recorded N) :=
  ⟨client.config.over (.new client.config.httpClient), client.token⟩

/-- The client without the record. -/
def unrecorded {N : Type} (client : Client (Recorded N)) : Client N :=
  ⟨client.config.over client.config.httpClient.network, client.token⟩

theorem recorded_tracked (config : Config N) : Tracked config (new config).recorded where
  settings := ⟨_, rfl⟩
  token_eq := rfl
  dated := fun _ htoken => by cases htoken
  settled := rfl
  ordered := .nil

section Mirrors

omit [Base64]

theorem send_mirrors (request : Request) :
    Mirrors unrecorded (send request) (send request) client := by
  unfold Mirrors send
  rcases hsend : HttpClient.send request client.config.httpClient.network with
    ⟨error | reply, network⟩
  · simp only [HttpClient.send, unrecorded, Config.over, hsend]
    rfl
  · by_cases herror : 400 ≤ reply.status ∧ reply.status < 600
    · simp only [HttpClient.send, unrecorded, Config.over, hsend, if_pos herror]
      rfl
    · simp only [HttpClient.send, unrecorded, Config.over, hsend, if_neg herror]
      rfl

theorem now_mirrors : Mirrors unrecorded now now client := rfl

theorem validToken_mirrors : Mirrors unrecorded validToken validToken client := by
  refine .get_bind ?_
  have hsame : client.unrecorded.token = client.token := rfl
  rw [hsame]
  cases client.token with
  | none => exact .pure none
  | some token =>
      refine .bind ?_ fun expired _ => .pure _
      unfold isExpired
      cases token.issuedAt with
      | none => exact .pure false
      | some issuedAt => exact .bind now_mirrors fun now _ => .pure _

theorem getAuthentication_mirrors :
    Mirrors unrecorded getAuthentication getAuthentication client := by
  refine .bind validToken_mirrors fun token _ => ?_
  cases token with
  | none => exact .throw _
  | some token => exact .pure token

theorem getClientCredentials_mirrors :
    Mirrors unrecorded getClientCredentials getClientCredentials client := by
  refine .get_bind (.bind (send_mirrors _) fun reply _ => ?_)
  have hsame : HttpClient.json (Recorded N) reply.body = HttpClient.json N reply.body := rfl
  rw [hsame]
  cases HttpClient.json N reply.body with
  | error error => exact .throw error
  | ok token =>
      refine .bind now_mirrors fun now _ => ?_
      dsimp only
      split
      next => exact .throw _
      next => exact .pure _

theorem authenticate_mirrors : Mirrors unrecorded authenticate authenticate client := by
  refine .bind validToken_mirrors fun token _ => ?_
  cases token with
  | none => exact .bind getClientCredentials_mirrors fun token _ => rfl
  | some token => exact .pure false

end Mirrors

theorem sendMail_mirrors (sender : Text) (mailMimeData : Bytes) (client : Client (Recorded N)) :
    Mirrors unrecorded (sendMail sender mailMimeData) (sendMail sender mailMimeData) client := by
  refine .bind authenticate_mirrors fun _ _ => .get_bind ?_
  exact .bind getAuthentication_mirrors fun token _ => .bind (send_mirrors _) fun _ _ => .pure ()

theorem submit_unrecorded (mail : Text × Bytes) (client : Client (Recorded N)) :
    submit mail client.unrecorded =
      ((submit mail client).1, (submit mail client).2.unrecorded) := by
  have hmirrors := sendMail_mirrors mail.1 mail.2 client
  unfold Mirrors at hmirrors
  unfold submit
  rw [hmirrors]
  cases sendMail mail.1 mail.2 client with
  | ok _ after => rfl
  | error error after => rfl

theorem submitAll_unrecorded (mails : List (Text × Bytes)) (client : Client (Recorded N)) :
    (submitAll mails client).1 = (submitAll mails client.unrecorded).1 := by
  induction mails generalizing client with
  | nil => rfl
  | cons mail rest ih =>
      simp only [submitAll, submit_unrecorded]
      rw [ih]

theorem submitAll_posts (mails : List (Text × Bytes)) (h : Tracked config client) :
    ∃ posted : List Post, posts (submitAll mails client).2.traffic =
        posts client.traffic ++ posted ∧
      posted.Sublist (postsOf config (submitAll mails client).1) ∧
      posted.filter Post.accepted =
        (postsOf config (submitAll mails client).1).filter Post.accepted := by
  induction mails generalizing client with
  | nil => exact ⟨[], (List.append_nil _).symm, List.nil_sublist _, rfl⟩
  | cons mail rest ih =>
      obtain ⟨htracked, hone⟩ := submit_tracked h mail
      obtain ⟨posted, hposts, hsublist, hfilter⟩ := ih htracked
      simp only [submitAll]
      rcases hone with hone | ⟨hfailed, hnone⟩
      · refine ⟨_ :: posted, ?_, hsublist.cons_cons _, ?_⟩
        · rw [hposts, hone, List.append_assoc]
          rfl
        · rw [List.filter_cons, hfilter]
          exact (List.filter_cons ..).symm
      · refine ⟨posted, by rw [hposts, hnone], hsublist.cons _, hfilter.trans ?_⟩
        exact (List.filter_cons_of_neg (by simp [postOf, hfailed])).symm

end Client

section Results

variable [Base64]

/-- Every request that a client hands to its HTTP client, whatever that answers and its
clock shows, is in order: its secret is only in requests for a token, which are made
when there is no valid token, and a mail is posted with the token that was granted
last, as long as the last reading of the clock shows it valid. -/
theorem requests_in_order (config : Config N) (mails : List (Text × Bytes)) :
    Justified (InOrder config) (Client.submitAll mails (Client.new config).recorded).2.traffic :=
  (Client.submitAll_tracked mails (Client.recorded_tracked config)).ordered

/-- The posts that the client hands to its HTTP client and that get no error and no error
status are those of the calls that succeeded, in order, and no call hands over its mail
twice. -/
theorem posts_accounted (config : Config N) (mails : List (Text × Bytes)) :
    let answers := (Client.submitAll mails (Client.new config)).1
    let traffic := (Client.submitAll mails (Client.new config).recorded).2.traffic
    (posts traffic).filter Post.accepted =
        (Client.postsOf config answers).filter Post.accepted ∧
      (posts traffic).Sublist (Client.postsOf config answers) := by
  intro answers traffic
  obtain ⟨posted, hposts, hsublist, hfilter⟩ :=
    Client.submitAll_posts mails (Client.recorded_tracked config)
  have hanswers : (Client.submitAll mails (Client.new config).recorded).1 = answers :=
    Client.submitAll_unrecorded mails (Client.new config).recorded
  rw [hanswers] at hsublist hfilter
  have htraffic : posts traffic = posted := hposts
  rw [htraffic]
  exact ⟨hfilter, hsublist⟩

end Results

end PostGraph.MsGraph
