import PostGraph.MsGraph.Traffic

/-! # Servers that are up

As long as the login service grants tokens and the API accepts what is posted with a
valid one, every call of a client succeeds at its first attempt. Tokens may expire and be
renewed meanwhile: it is enough that none expires between the check of a call that finds
it valid and the use right behind that check.
-/

namespace PostGraph.MsGraph

open Foundation History

variable {N : Type}

/-- How often the clock was read since the last request. -/
def readsSince (traffic : List Exchange) : Nat :=
  traffic.foldl (fun count exchange => match exchange with
    | .sent _ _ => 0
    | .read _ => count + 1) 0

theorem readsSince_sent (traffic : List Exchange) (request : Request)
    (answer : Except Text Reply) : readsSince (traffic ++ [.sent request answer]) = 0 := by
  simp [readsSince]

theorem readsSince_read (traffic : List Exchange) (now : Instant) :
    readsSince (traffic ++ [.read now]) = readsSince traffic + 1 := by
  simp [readsSince]

variable [HttpClient N]

theorem Recorded.send_snd (request : Request) (recorded : Recorded N) :
    (HttpClient.send request recorded).2 = ⟨(HttpClient.send request recorded.network).2,
      recorded.traffic ++ [.sent request (HttpClient.send request recorded).1]⟩ := rfl

/-- A token that was issued at the last reading is valid. -/
theorem Wallet.valid_of_issued {wallet : Wallet} {token : AccessToken} {now : Instant}
    (htoken : wallet.token = some { token with issuedAt := some now })
    (htime : wallet.time = some now) : wallet.valid.isSome := by
  rw [Wallet.valid, htoken, htime]
  simp [Duration.asSecs]

theorem Wallet.token_isSome_of_valid {wallet : Wallet} (h : wallet.valid.isSome) :
    wallet.token.isSome := by
  cases htoken : wallet.token with
  | some token => rfl
  | none =>
      rw [Wallet.valid, htoken] at h
      cases h

theorem exists_reply_of_accepts {answer : Except Text Reply} (h : accepts answer = true) :
    ∃ reply, answer = .ok reply ∧ ¬ reply.IsError := by
  cases answer with
  | error error => cases h
  | ok reply => exact ⟨reply, rfl, by simpa [MsGraph.accepts] using h⟩

variable [Base64]

/-- What the servers do while they are up, and the clock next to them, given the traffic
so far: a token is granted when there is no valid one, a mail is accepted with a valid
one, and a token that is valid at the first reading since the last request is valid at
the second one. There is no third reading in a row. -/
structure Works (config : Config N) (up : Recorded N → Prop) : Prop where
  grants : ∀ recorded, up recorded → (Wallet.after config recorded.traffic).valid = none →
    ∃ reply token, (HttpClient.send (tokenRequest config) recorded).1 = .ok reply ∧
      ¬ reply.IsError ∧ HttpClient.json N reply.body = .ok token ∧
        token.tokenType = "Bearer".toList ∧ up (HttpClient.send (tokenRequest config) recorded).2
  accepts : ∀ recorded token sender mailMimeData, up recorded →
    (Wallet.after config recorded.traffic).valid = some token →
      let outcome := HttpClient.send (mailRequest config token sender mailMimeData) recorded
      accepts outcome.1 = true ∧ up outcome.2
  reads : ∀ recorded, up recorded → readsSince recorded.traffic < 2 →
    up (HttpClient.now recorded).2
  keeps : ∀ recorded, up recorded → readsSince recorded.traffic = 1 →
    (Wallet.after config recorded.traffic).valid.isSome →
      (Wallet.after config (HttpClient.now recorded).2.traffic).valid.isSome

namespace Client

/-- The client is in order and its servers are up; the clock was read so many times since
the last request. -/
structure Ready (config : Config N) (up : Recorded N → Prop) (reads : Nat)
    (client : Client (Recorded N)) : Prop where
  tracked : Tracked config client
  up : up client.config.httpClient
  reads_eq : readsSince client.traffic = reads

variable {config : Config N} {up : Recorded N → Prop} {client : Client (Recorded N)} {reads : Nat}

theorem now_ready (hworks : Works config up) (h : Ready config up reads client)
    (hreads : reads < 2) : Sat now client
      (fun _ after => Ready config up (reads + 1) after ∧
        after.config.httpClient = (HttpClient.now client.config.httpClient).2)
      fun _ _ => False :=
  ⟨⟨h.tracked.read _ _, hworks.reads _ h.up (h.reads_eq.trans_lt hreads),
    (readsSince_read client.traffic _).trans (congrArg (· + 1) h.reads_eq)⟩, rfl⟩

/-- The clock is read once if there is a token to check. -/
theorem validToken_ready (hworks : Works config up) (h : Ready config up reads client)
    (hreads : reads < 2) : Sat validToken client
      (fun token after => token = (Wallet.after config after.traffic).valid ∧
        if client.token.isSome then
          Ready config up (reads + 1) after ∧
            after.config.httpClient = (HttpClient.now client.config.httpClient).2
        else after = client)
      fun _ _ => False := by
  have hclock : Sat validToken client
      (fun _ after => if client.token.isSome then
          Ready config up (reads + 1) after ∧
            after.config.httpClient = (HttpClient.now client.config.httpClient).2
        else after = client) fun _ _ => False := by
    unfold validToken
    apply Sat.get_bind
    cases htoken : client.token with
    | none => exact Sat.pure rfl
    | some token =>
        obtain ⟨issuedAt, hissued⟩ := Option.isSome_iff_exists.mp (h.tracked.dated token htoken)
        unfold isExpired
        dsimp only
        rw [hissued]
        exact Sat.bind (Sat.bind (now_ready hworks h hreads) fun now after hafter =>
          Sat.pure hafter) fun expired after hafter => Sat.pure hafter
  exact ((validToken_sat h.tracked).and hclock).mono
    (fun _ _ hafter => ⟨hafter.1.2, hafter.2⟩) fun _ _ hfalse => hfalse.1

/-- A token that was found valid at the only reading since the last request is handed out. -/
theorem getAuthentication_ready (hworks : Works config up) (h : Ready config up 1 client)
    (hvalid : (Wallet.after config client.traffic).valid.isSome) :
    Sat getAuthentication client
      (fun token after => Ready config up 2 after ∧
        (Wallet.after config after.traffic).valid = some token) fun _ _ => False := by
  have htoken : client.token.isSome := by
    rw [h.tracked.token_eq]
    exact Wallet.token_isSome_of_valid hvalid
  have hkept := hworks.keeps client.config.httpClient h.up h.reads_eq hvalid
  refine Sat.bind (validToken_ready hworks h (by decide)) ?_
  rintro token after ⟨rfl, hafter⟩
  rw [if_pos htoken] at hafter
  obtain ⟨hready, hclock⟩ := hafter
  rw [← hclock] at hkept
  obtain ⟨token, htoken⟩ := Option.isSome_iff_exists.mp hkept
  rw [show (Wallet.after config after.traffic).valid = some token from htoken]
  exact Sat.pure ⟨hready, htoken⟩

omit [Base64] in
theorem now_exact : Sat now client
    (fun now after => now = (HttpClient.now client.config.httpClient.network).1 ∧
      after = client.passed (HttpClient.now client.config.httpClient.network).2 (.read now))
    fun _ _ => False :=
  ⟨rfl, rfl⟩

omit [Base64] in
theorem send_ready {request : Request} {reply : Reply}
    (hsent : (HttpClient.send request client.config.httpClient).1 = .ok reply)
    (hreply : ¬ reply.IsError) : Sat (send request) client
      (fun reply' after => reply' = reply ∧ after = client.passed
        (HttpClient.send request client.config.httpClient.network).2 (.sent request (.ok reply)))
      fun _ _ => False := by
  have hstatus : ¬ (400 ≤ reply.status ∧ reply.status < 600) := hreply
  unfold Sat send
  rcases hsend : HttpClient.send request client.config.httpClient with ⟨answer, after⟩
  rw [hsend] at hsent
  have hafter := Recorded.send_snd request client.config.httpClient
  rw [hsend, hsent] at hafter
  subst hsent
  simp only [if_neg hstatus]
  exact ⟨trivial, congrArg client.withHttpClient hafter⟩

/-- Without a valid token one is granted, and is valid at the reading that dates it. -/
theorem getClientCredentials_ready (hworks : Works config up) (h : Ready config up reads client)
    (hnone : (Wallet.after config client.traffic).valid = none) : Sat getClientCredentials client
      (fun token after => Ready config up 1 { after with token := some token } ∧
        (Wallet.after config after.traffic).valid.isSome) fun _ _ => False := by
  obtain ⟨reply, token, hsent, hreply, hjson, hbearer, hup⟩ :=
    hworks.grants client.config.httpClient h.up hnone
  rw [Recorded.send_snd, hsent] at hup
  unfold getClientCredentials
  apply Sat.get_bind
  change Sat (send (tokenRequest client.config) >>= _) _ _ _
  rw [h.tracked.tokenRequest_eq]
  refine Sat.bind (send_ready hsent hreply) ?_
  rintro reply asked ⟨rfl, rfl⟩
  split
  next error herror => cases herror.symm.trans hjson
  next other hother =>
    cases hother.symm.trans hjson
    refine Sat.bind now_exact ?_
    rintro now dated ⟨rfl, rfl⟩
    dsimp only
    rw [if_neg (not_not.mpr hbearer)]
    have hasked := readsSince_sent client.traffic (tokenRequest config) (.ok reply)
    have hgranted := h.tracked.granted hnone hreply hjson
      (HttpClient.send (tokenRequest config) client.config.httpClient.network).2
      (HttpClient.now (HttpClient.send (tokenRequest config) client.config.httpClient.network).2).2
      (HttpClient.now (HttpClient.send (tokenRequest config) client.config.httpClient.network).2).1
    dsimp only at hgranted
    rw [if_pos hbearer] at hgranted
    refine Sat.pure ⟨⟨hgranted, ?_, ?_⟩, ?_⟩
    · exact hworks.reads _ hup (hasked.trans_lt (by decide))
    · exact (readsSince_read _ _).trans (congrArg (· + 1) hasked)
    · refine Wallet.valid_of_issued hgranted.token_eq.symm ?_
      exact congrArg Wallet.time (Wallet.after_concat config _ _)

theorem authenticate_ready (hworks : Works config up) (h : Ready config up 0 client) :
    Sat authenticate client
      (fun _ after => Ready config up 1 after ∧
        (Wallet.after config after.traffic).valid.isSome) fun _ _ => False := by
  refine Sat.bind (validToken_ready hworks h (by decide)) ?_
  rintro token after ⟨htoken, hafter⟩
  cases token with
  | some token =>
      have hvalid : (Wallet.after config after.traffic).valid.isSome := by
        rw [← htoken]
        rfl
      split at hafter
      next => exact Sat.pure ⟨hafter.1, hvalid⟩
      next hnone =>
        rw [hafter] at hvalid
        exact absurd (h.tracked.token_eq ▸ Wallet.token_isSome_of_valid hvalid) hnone
  | none =>
      have hready : ∃ reads, Ready config up reads after := by
        split at hafter
        next => exact ⟨1, hafter.1⟩
        next => exact ⟨0, hafter ▸ h⟩
      obtain ⟨reads, hready⟩ := hready
      refine Sat.bind (getClientCredentials_ready hworks hready htoken.symm) ?_
      intro token last hlast
      exact Sat.modify_bind (Sat.pure hlast)

/-- A mail is sent, and the client stays ready for the next one. -/
theorem sendMail_ready (hworks : Works config up) (h : Ready config up 0 client) (sender : Text)
    (mailMimeData : Bytes) :
    Sat (sendMail sender mailMimeData) client (fun _ after => Ready config up 0 after)
      fun _ _ => False := by
  unfold sendMail
  refine Sat.bind (authenticate_ready hworks h) ?_
  rintro _ authenticated ⟨hready, hvalid⟩
  apply Sat.get_bind
  refine Sat.bind (getAuthentication_ready hworks hready hvalid) ?_
  rintro token last ⟨hlast, htoken⟩
  change Sat (send (mailRequest authenticated.config token sender mailMimeData) >>= _) _ _ _
  rw [hready.tracked.mailRequest_eq]
  obtain ⟨haccepted, hup⟩ :=
    hworks.accepts last.config.httpClient token sender mailMimeData hlast.up htoken
  obtain ⟨reply, hsent, hreply⟩ := exists_reply_of_accepts haccepted
  rw [Recorded.send_snd, hsent] at hup
  refine Sat.bind (send_ready hsent hreply) ?_
  rintro reply after ⟨rfl, rfl⟩
  exact Sat.pure ⟨hlast.tracked.sent (Or.inr ⟨token, sender, mailMimeData, htoken, rfl⟩)
    offer_mailRequest _, hup, readsSince_sent _ _ _⟩

theorem submit_ready (hworks : Works config up) (h : Ready config up 0 client)
    (mail : Text × Bytes) :
    (submit mail client).1 = .ok () ∧ Ready config up 0 (submit mail client).2 := by
  have hsat := sendMail_ready hworks h mail.1 mail.2
  unfold Sat at hsat
  unfold submit
  split at hsat
  next _ after heq =>
    rw [heq]
    exact ⟨rfl, hsat⟩
  next => exact hsat.elim

end Client

end PostGraph.MsGraph
