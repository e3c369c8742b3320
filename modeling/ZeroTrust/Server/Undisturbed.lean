import ZeroTrust.Ca.Decision
import ZeroTrust.Common.Handshake
import ZeroTrust.Common.WireSize
import ZeroTrust.Effects.Solo
import ZeroTrust.Server.Guarantee

/-!
# One request, served undisturbed

A request that no other program interrupts and nothing disturbs: no operation fails from
outside, the clock is a 64-bit number, and what `make_envelope` draws has the form it draws.
Then every operation answers as the store says, and the handlers' common parts have one
outcome each.

* `Input.Healthy`, `Undisturbed`: what the environment supplies where nothing disturbs.
* `sent`: the messages that reached the client.
* `serve`: the run of a request.
* `Fits`: the envelope around a payload is not too long; `fits_of_le` for the short ones.
* `wp_replayGate`, `wp_verifySession`, `wp_loadVerifiedPubkeyCert`: the common parts.
-/

namespace ZeroTrust
namespace Server

open Python Effects Data

/-- What the environment supplies where nothing disturbs an operation. -/
structure Input.Healthy (i : Input) : Prop where
  fault : i.fault = none
  now : -2 ^ 63 ≤ i.now ∧ i.now < 2 ^ 63
  nonce : i.nonce.length = 16
  requestId : ∃ n, i.requestId = uuidStr n

/-- Nothing disturbs a request. -/
def Undisturbed (inputs : ℕ → Input) : Prop := ∀ n, (inputs n).Healthy

/-- A request that is served alone. -/
abbrev Alone := Solo Op Op.Res Input ServerState

/-- A message that reached the client. -/
def sentBy : Ev → Option (MessageType × Obj)
  | ⟨.send type payload, r⟩ => r.toOption.map fun _ => (type, payload)
  | _ => none

/-- The messages that reached the client, in their order. -/
def sent (h : List Ev) : List (MessageType × Obj) := (h.filterMap sentBy).reverse

variable (P : Primitives) (ca : Bytes)

/-- The run of one request alone. -/
def serve (session : Session) (env : Envelope) (s : ServerState) (inputs : ℕ → Input) :
    Outcome Op Op.Res Input ServerState (Except PyExn Unit) :=
  (Solo.start s inputs).run (exec P) (dispatch P ca session env).run

variable {P} {ca} {t : Alone} {session : Session} {env : Envelope}

/-- An operation that nothing disturbs, with a request id of the form that is drawn. -/
def sampleInput (now : ℤ) : Input := { Input.quiet now with requestId := uuidStr 0 }

theorem undisturbed_sampleInput {now : ℤ} (h : -2 ^ 63 ≤ now ∧ now < 2 ^ 63) :
    Undisturbed fun _ => sampleInput now :=
  fun _ => ⟨rfl, h, rfl, 0, rfl⟩

theorem Undisturbed.tail {inputs : ℕ → Input} (h : Undisturbed inputs) :
    Undisturbed fun n => inputs (n + 1) := fun n => h (n + 1)

/-! ## Answers -/

theorem reading_of_fault_none {α : Type} {i : Input} {s : ServerState} {x : Except PyExn α}
    (h : i.fault = none) : reading i s x = (x, s) := by
  rw [reading, h]

/-- A reading that is disturbed raises. -/
theorem reading_of_fault {α : Type} {i : Input} {s : ServerState} {x : Except PyExn α} {e : PyExn}
    (h : i.fault = some e) : reading i s x = (.error e, s) := by
  rw [reading, h]

/-- A write that goes through is done. -/
theorem done_of_fault_none {op : Op} {answer : op.Ans} {x : Except PyExn ServerState}
    {s' : ServerState} (hi : (t.inputs 0).fault = none)
    (hexec : exec P op (t.inputs 0) t.store = writing (t.inputs 0) t.store answer x)
    (hx : x = .ok s') : t.answer (exec P) op = .ok answer ∧ (t.next (exec P) op).store = s' := by
  have hw : exec P op (t.inputs 0) t.store = (.ok answer, s') := by
    simp only [hexec, writing, hi, hx]
  exact ⟨congrArg Prod.fst hw, congrArg Prod.snd hw⟩

/-- A write that does not go through changes nothing. -/
theorem raised_of_fault_none {op : Op} {answer : op.Ans} {x : Except PyExn ServerState} {e : PyExn}
    (hi : (t.inputs 0).fault = none)
    (hexec : exec P op (t.inputs 0) t.store = writing (t.inputs 0) t.store answer x)
    (hx : x = .error e) :
    t.answer (exec P) op = .error e ∧ (t.next (exec P) op).store = t.store := by
  have hw : exec P op (t.inputs 0) t.store = (.error e, t.store) := by
    simp only [hexec, writing, hi, hx]
  exact ⟨congrArg Prod.fst hw, congrArg Prod.snd hw⟩

theorem answer_time : t.answer (exec P) .time = .ok (t.inputs 0).now := rfl

/-- A reading leaves the store alone. -/
theorem store_next_of_isRead {op : Op} (h : op.isRead = true) :
    (t.next (exec P) op).store = t.store := by
  cases op with
  | time => rfl
  | getFile | listPending | isFile | readBytes | statSize | mkdirFiles | send =>
    exact reading_snd (Prod.mk.eta.symm)
  | _ => exact absurd h Bool.false_ne_true

/-! ## Messages -/

/-- The envelope around a payload is not too long. -/
def Fits (P : Primitives) (type : MessageType) (payload : Obj) (i : Input) : Prop :=
  wireLength P (makeEnvelope type payload i.nonce i.now i.requestId) ≤ MAX_MESSAGE_BYTES

/-- **Around a payload of 60 MB an envelope fits.** -/
theorem fits_of_le {type : MessageType} {payload : Obj} {i : Input} (hi : i.Healthy)
    (h : wireLength P (.obj payload) ≤ 60000000) : Fits P type payload i := by
  obtain ⟨n, hn⟩ := hi.requestId
  have htype := textLength_name type
  have hnow := length_intRepr_lt hi.now
  rw [Fits, hn, wireLength_makeEnvelope P type payload i.now n hi.nonce, MAX_MESSAGE_BYTES]
  omega

theorem answer_send_of_fits {type : MessageType} {payload : Obj} (hi : (t.inputs 0).Healthy)
    (h : Fits P type payload (t.inputs 0)) : t.answer (exec P) (.send type payload) = .ok () := by
  obtain ⟨body, hbody⟩ := (packMessage_eq_ok P).mpr h
  show (reading _ _ _).1 = _
  rw [reading_of_fault_none hi.fault, hbody]
  rfl

theorem answer_send_of_not_fits {type : MessageType} {payload : Obj}
    (hi : (t.inputs 0).Healthy) (h : ¬ Fits P type payload (t.inputs 0)) :
    ∃ e, t.answer (exec P) (.send type payload) = .error e := by
  show ∃ e, (reading _ _ _).1 = _
  rw [reading_of_fault_none hi.fault]
  cases hp : packMessage P (makeEnvelope type payload (t.inputs 0).nonce (t.inputs 0).now
    (t.inputs 0).requestId) with
  | error e => exact ⟨e, rfl⟩
  | ok body => exact absurd ((packMessage_eq_ok P).mp ⟨body, hp⟩) h

theorem sent_cons_send {type : MessageType} {payload : Obj} {h : List Ev} :
    sent (⟨.send type payload, .ok ()⟩ :: h) = sent h ++ [(type, payload)] := by
  rw [sent, List.filterMap_cons]
  exact List.reverse_cons

theorem sent_cons_error {op : Op} {e : PyExn} {h : List Ev} :
    sent (⟨op, .error e⟩ :: h) = sent h := by
  cases op <;> rfl

/-- Whether an operation sends. -/
def Op.isSend : Op → Bool
  | .send _ _ => true
  | _ => false

theorem sent_cons {op : Op} {r : op.Res} {h : List Ev} (hop : op.isSend = false) :
    sent (⟨op, r⟩ :: h) = sent h := by
  cases op with
  | send => exact absurd hop Bool.false_ne_true.symm
  | _ => rfl

/-- What has been sent after an operation that does not send. -/
theorem sent_next {op : Op} (hop : op.isSend = false) :
    sent (t.next (exec P) op).hist = sent t.hist := sent_cons hop

/-- A reading that does not send leaves two situations alike, whatever it answers. -/
theorem alike_next {Rel : ServerState → ServerState → Prop} {op : Op} {u : Alone}
    (hread : op.isRead = true) (hsend : op.isSend = false) (htu : t.Alike sentBy Rel u) :
    (t.next (exec P) op).Alike sentBy Rel (u.next (exec P) op) where
  hist := List.reverse_injective ((sent_next hsend).trans
    ((congrArg List.reverse htu.hist).trans (sent_next hsend).symm))
  store := by
    rw [store_next_of_isRead hread, store_next_of_isRead hread]
    exact htu.store
  inputs := by
    show (fun n => t.inputs (n + 1)) = fun n => u.inputs (n + 1)
    rw [htu.inputs]

/-- A message is sent: it reaches the client, or is too long. -/
theorem wp_sendMessage {type : MessageType} {payload : Obj}
    {Q : Alone → Except PyExn Unit → Prop} (hi : (t.inputs 0).Healthy)
    (hfits : Fits P type payload (t.inputs 0) → ∀ t' : Alone, t'.store = t.store →
      sent t'.hist = sent t.hist ++ [(type, payload)] → Q t' (.ok ()))
    (hlong : ¬ Fits P type payload (t.inputs 0) → ∀ e, ∀ t' : Alone, t'.store = t.store →
      sent t'.hist = sent t.hist → Q t' (.error e)) :
    wpE (.solo (exec P)) (sendMessage type payload) t Q := by
  rw [sendMessage, wpE_solo_act]
  have hstore : (t.next (exec P) (.send type payload)).store = t.store := store_next_of_isRead rfl
  by_cases h : Fits P type payload (t.inputs 0)
  · have ha := answer_send_of_fits hi h
    rw [ha]
    refine hfits h _ hstore ?_
    show sent (⟨_, t.answer (exec P) _⟩ :: t.hist) = _
    rw [ha, sent_cons_send]
  · obtain ⟨e, ha⟩ := answer_send_of_not_fits hi h
    rw [ha]
    refine hlong h e _ hstore ?_
    show sent (⟨_, t.answer (exec P) _⟩ :: t.hist) = _
    rw [ha, sent_cons_error]

/-- A code of at most a thousand characters is sent. -/
theorem wp_sendError {code : String} {Q : Alone → Except PyExn Unit → Prop}
    (hi : (t.inputs 0).Healthy) (hcode : (py code).length ≤ 1000)
    (hQ : ∀ t' : Alone, t'.store = t.store →
      sent t'.hist = sent t.hist ++ [(.ERROR, errorPayload code)] → Q t' (.ok ())) :
    wpE (.solo (exec P)) (sendError code) t Q := by
  refine wp_sendMessage hi (fun _ => hQ) fun hlong => absurd (fits_of_le hi ?_) hlong
  have hkey : textLength (py "code") = 6 := by decide
  have := textLength_le (py code)
  rw [errorPayload, wireLength_obj]
  simp only [List.map_cons, List.map_nil, List.sum_cons, List.sum_nil, itemLength, hkey,
    wireLength_str]
  omega

/-! ## The gate -/

/-- An envelope is fresh and its nonce is new. -/
def PassesGate (env : Envelope) (now : ℤ) (s : ServerState) : Prop :=
  isStale now env.timestamp = false ∧ s.nonces.find? env.nonceBytes = none

/-- What an earlier situation and a later one of the same request have in common: the
request goes on with the inputs that are left, nothing has been sent in between, and at most
nonces have been recorded. -/
structure Quietly (t : Alone) (k : ℕ) (t' : Alone) : Prop where
  inputs : t'.inputs = fun n => t.inputs (n + k)
  store : ∃ nonces, t'.store = { t.store with nonces }
  sent : sent t'.hist = sent t.hist

theorem Quietly.undisturbed {k : ℕ} {t' : Alone} (h : Quietly t k t')
    (hund : Undisturbed t.inputs) : Undisturbed t'.inputs := by
  rw [h.inputs]
  exact fun n => hund (n + k)

theorem Quietly.files {k : ℕ} {t' : Alone} (h : Quietly t k t') :
    t'.store.files = t.store.files := by
  obtain ⟨nonces, hs⟩ := h.store
  rw [hs]

theorem Quietly.acks {k : ℕ} {t' : Alone} (h : Quietly t k t') :
    t'.store.acks = t.store.acks := by
  obtain ⟨nonces, hs⟩ := h.store
  rw [hs]

theorem Quietly.disk {k : ℕ} {t' : Alone} (h : Quietly t k t') :
    t'.store.disk = t.store.disk := by
  obtain ⟨nonces, hs⟩ := h.store
  rw [hs]

theorem Quietly.refl (t : Alone) : Quietly t 0 t := ⟨rfl, ⟨_, rfl⟩, rfl⟩

theorem Quietly.trans {k k' : ℕ} {t' t'' : Alone} (h : Quietly t k t') (h' : Quietly t' k' t'') :
    Quietly t (k + k') t'' where
  inputs := by
    rw [h'.inputs, h.inputs]
    exact funext fun n => congrArg t.inputs (by omega)
  store := by
    obtain ⟨nonces, hs⟩ := h.store
    obtain ⟨nonces', hs'⟩ := h'.store
    exact ⟨nonces', by rw [hs', hs]⟩
  sent := h'.sent.trans h.sent

/-- A reading that does not send is quiet. -/
theorem quietly_next (P : Primitives) (t : Alone) (op : Op) (hread : op.isRead = true)
    (hsend : op.isSend = false) : Quietly t 1 (t.next (exec P) op) where
  inputs := rfl
  store := ⟨_, store_next_of_isRead hread⟩
  sent := sent_next hsend

/-- Reading without sending is quiet. -/
theorem wp_quiet {α : Type} {x : ServerM α}
    (hx : Issues (fun op : Op => op.isRead = true ∧ op.isSend = false) x) :
    wpE (.solo (exec P)) x t fun t' _ => ∃ k, Quietly t k t' := by
  refine hx.keeps (J := fun t' => ∃ k, Quietly t k t') ?_ ⟨0, .refl t⟩
  rintro t' op ⟨hread, hsend⟩ ⟨k, hq⟩
  exact ⟨k + 1, hq.trans (quietly_next P t' op hread hsend)⟩

theorem answer_insertNonce {nonce : Bytes} {now : ℤ} (hi : (t.inputs 0).fault = none)
    (hnow : -2 ^ 63 ≤ now ∧ now < 2 ^ 63) (hnew : t.store.nonces.find? nonce = none) :
    t.answer (exec P) (.insertNonce nonce now) = .ok () ∧
      ∃ nonces, (t.next (exec P) (.insertNonce nonce now)).store = { t.store with nonces } := by
  have hbind : bindInt now = .ok () := bindInt_eq_ok.mpr hnow
  cases hins : t.store.nonces.insert? ⟨nonce, now⟩ with
  | none =>
    have hsome := Table.insert?_eq_none_iff.mp hins
    rw [hnew] at hsome
    exact absurd hsome Bool.false_ne_true
  | some nonces =>
    have hx : t.store.insertNonce ⟨nonce, now⟩ = .ok { t.store with nonces } := by
      rw [ServerState.insertNonce, hbind, ok_bind, hins]
      rfl
    have hdone : t.answer (exec P) (.insertNonce nonce now) = .ok () ∧
        (t.next (exec P) (.insertNonce nonce now)).store = { t.store with nonces } :=
      done_of_fault_none hi rfl hx
    exact ⟨hdone.1, nonces, hdone.2⟩

theorem answer_insertNonce_seen {nonce : Bytes} {now : ℤ} (hi : (t.inputs 0).fault = none)
    (hnow : -2 ^ 63 ≤ now ∧ now < 2 ^ 63) (hseen : t.store.nonces.find? nonce ≠ none) :
    t.answer (exec P) (.insertNonce nonce now) = .error .integrityError ∧
      (t.next (exec P) (.insertNonce nonce now)).store = t.store := by
  have hins : t.store.nonces.insert? ⟨nonce, now⟩ = none :=
    Table.insert?_eq_none_iff.mpr (Option.isSome_iff_ne_none.mpr hseen)
  have hx : t.store.insertNonce ⟨nonce, now⟩ = .error .integrityError := by
    have hbind : bindInt now = .ok () := bindInt_eq_ok.mpr hnow
    rw [ServerState.insertNonce, hbind, ok_bind, hins]
    rfl
  exact raised_of_fault_none hi rfl hx

/-- **The gate.**  Either the envelope passes, and the body runs with the nonce recorded; or
it does not, and the client is told so. -/
theorem wp_replayGate {body : ServerM Unit} {Q : Alone → Except PyExn Unit → Prop}
    (hund : Undisturbed t.inputs)
    (hpass : PassesGate env (t.inputs 0).now t.store → ∀ t', Quietly t 2 t' →
      wpE (.solo (exec P)) body t' Q)
    (hstale : ¬ PassesGate env (t.inputs 0).now t.store → ∀ t' : Alone, t'.store = t.store →
      sent t'.hist = sent t.hist ++ [(.ERROR, errorPayload "STALE")] → Q t' (.ok ())) :
    wpE (.solo (exec P)) (replayGate env body) t Q := by
  obtain ⟨hnonce, hlen⟩ := env.b64decode_nonce
  rw [replayGate, hnonce]
  dsimp only
  have hrefuse : ¬ PassesGate env (t.inputs 0).now t.store → ∀ t' : Alone, (t'.inputs 0).Healthy →
      t'.store = t.store → sent t'.hist = sent t.hist →
      wpE (.solo (exec P)) (sendError "STALE") t' Q := by
    intro hnot t' hi hs hsent
    refine wp_sendError hi (by decide) fun t'' hs' hsent' => ?_
    exact hstale hnot t'' (hs'.trans hs) (hsent'.trans (by rw [hsent]))
  rw [wpE_bind, checkAndRecord, if_neg (not_not.mpr hlen), wpE_solo_act_bind answer_time]
  cases hs : isStale (t.inputs 0).now env.timestamp with
  | true =>
    rw [if_pos rfl]
    refine hrefuse (fun h => ?_) _ (hund 1) rfl (sent_next rfl)
    rw [h.1] at hs
    cases hs
  | false =>
    rw [if_neg Bool.false_ne_true, wpE_bind, wpE_attempt, wpE_solo_act]
    have hq : Quietly t 1 (t.next (exec P) .time) := quietly_next P _ _ rfl rfl
    have hi : ((t.next (exec P) .time).inputs 0).Healthy := hund 1
    by_cases hnew : t.store.nonces.find? env.nonceBytes = none
    · obtain ⟨ha, hstore⟩ := answer_insertNonce hi.fault (hund 0).now hnew
      rw [ha]
      exact hpass ⟨hs, hnew⟩ _ (hq.trans ⟨rfl, hstore, sent_next rfl⟩)
    · obtain ⟨ha, hstore⟩ := answer_insertNonce_seen hi.fault (hund 0).now hnew
      rw [ha]
      exact hrefuse (fun h => hnew h.2) _ (hund 2) hstore ((sent_next rfl).trans (sent_next rfl))

/-! ## Certificates -/

/-- Whether a certificate is in date is decided at every time, if it is at one. -/
theorem exists_certInDate {cert : Obj} {now₀ : ℤ} (h : certInDate cert now₀ = .ok true) (now : ℤ) :
    ∃ b, certInDate cert now = .ok b := by
  obtain ⟨validFrom, hfrom, h⟩ := bind_eq_ok.mp h
  obtain ⟨started, hstarted, h⟩ := bind_eq_ok.mp h
  have hle : ∃ b, validFrom.leInt now = .ok b := by
    cases validFrom with
    | null | str | arr | obj => cases hstarted
    | float x => cases x <;> exact ⟨_, rfl⟩
    | _ => exact ⟨_, rfl⟩
  obtain ⟨started', hle⟩ := hle
  rw [certInDate, hfrom, ok_bind, hle, ok_bind]
  cases started with
  | false => cases h
  | true =>
    obtain ⟨validUntil, huntil, h⟩ := bind_eq_ok.mp h
    cases started' with
    | false => exact ⟨false, rfl⟩
    | true =>
      rw [if_pos rfl, huntil, ok_bind]
      cases validUntil with
      | null | str | arr | obj => cases h
      | float x => cases x <;> exact ⟨_, rfl⟩
      | _ => exact ⟨_, rfl⟩

/-- What `verify_certificate` returns or raises, with at most one reading of the clock. -/
theorem wp_certOutcome {cert : Obj} {subject : Option PyStr}
    {Q : Alone → Except PyExn Bool → Prop}
    (hQ : ∀ k t', Quietly t k t' → (certSignatureOk P cert ca = .ok true → k = 1) →
      Q t' (certOutcome P ca cert (t.inputs 0).now subject)) :
    wpE (.solo (exec P)) (verifyCertificate P (act Op.time) (.obj cert) ca subject) t Q := by
  by_cases hs : certSignatureOk P cert ca = .ok true
  · rw [verifyCertificate_of_signed hs, wpE_solo_act_bind answer_time, wpE_raising]
    have hout := hQ 1 _ (quietly_next P t .time rfl rfl) fun _ => rfl
    rw [certOutcome, hs, ok_bind, if_pos rfl] at hout
    exact hout
  · have hout := hQ 0 t (.refl t) fun h => absurd h hs
    show wpE _ (raising (certSignatureOk P cert ca) >>= _) t Q
    rw [wpE_bind, wpE_raising]
    rw [certOutcome] at hout
    cases h : certSignatureOk P cert ca with
    | error e =>
      rw [h] at hout
      exact hout
    | ok b =>
      cases b with
      | false =>
        rw [h] at hout
        exact hout
      | true => exact absurd h hs

/-- The certificate is good when the function returns `True`. -/
theorem certCheck_iff {cert : Obj} {now : ℤ} {subject : Option PyStr} :
    CertCheck P ca cert now subject ↔ certOutcome P ca cert now subject = .ok true := by
  rw [certOutcome]
  constructor
  · intro h
    rw [h.signed, ok_bind, if_pos rfl]
    exact certVerdict_eq_ok_true.mpr ⟨h.inDate, h.subject⟩
  · intro h
    obtain ⟨b, hs, h⟩ := bind_eq_ok.mp h
    cases b with
    | false => cases h
    | true =>
      obtain ⟨hdate, hsubject⟩ := certVerdict_eq_ok_true.mp h
      exact ⟨hs, hdate, hsubject⟩

/-- A certificate that can be checked is decided about. -/
theorem exists_certOutcome {cert : Obj} (hsig : ∃ b, certSignatureOk P cert ca = .ok b)
    (hdate : ∀ now, ∃ b, certInDate cert now = .ok b) (now : ℤ) (subject : Option PyStr) :
    ∃ b, certOutcome P ca cert now subject = .ok b := by
  obtain ⟨signed, hsigned⟩ := hsig
  rw [certOutcome, hsigned, ok_bind]
  cases signed with
  | false => exact ⟨false, rfl⟩
  | true =>
    obtain ⟨b, hb⟩ := hdate now
    rw [if_pos rfl, certVerdict, hb]
    cases b <;> exact ⟨_, rfl⟩

/-- A certificate that can be checked at any time is checked, with at most one reading of the
clock. -/
theorem wp_verifyCertificate {cert : Obj} {subject : Option PyStr}
    {Q : Alone → Except PyExn Bool → Prop} (hsig : ∃ b, certSignatureOk P cert ca = .ok b)
    (hdate : ∀ now, ∃ b, certInDate cert now = .ok b)
    (hQ : ∀ b k t', Quietly t k t' → (certSignatureOk P cert ca = .ok true → k = 1) →
      (b = true ↔ CertCheck P ca cert (t.inputs 0).now subject) → Q t' (.ok b)) :
    wpE (.solo (exec P)) (verifyCertificate P (act Op.time) (.obj cert) ca subject) t Q := by
  refine wp_certOutcome fun k t' hq hk => ?_
  obtain ⟨b, hb⟩ := exists_certOutcome hsig hdate (t.inputs 0).now subject
  rw [hb]
  refine hQ b k t' hq hk ?_
  rw [certCheck_iff, hb]
  exact ⟨fun h => congrArg Except.ok h, Except.ok.inj⟩

/-- What the handshake has established of a session: the certificate was good for its
subject when it was checked, and its key could be loaded. -/
structure Session.Authenticated (P : Primitives) (ca : Bytes) (session : Session) : Prop where
  certified : ∃ now, CertCheck P ca session.peerCert now (some session.peerSubject)
  key : ∃ key, certKey P session.peerCert = .ok key

/-- The certificate of a session is checked again. -/
theorem wp_verifySession {f : Bool → ServerM Unit} {Q : Alone → Except PyExn Unit → Prop}
    (hauth : session.Authenticated P ca)
    (hf : ∀ b t', Quietly t 1 t' →
      (b = true ↔ CertCheck P ca session.peerCert (t.inputs 0).now (some session.peerSubject)) →
      wpE (.solo (exec P)) (f b) t' Q) :
    wpE (.solo (exec P)) (verifyCertificate P (act Op.time) (.obj session.peerCert) ca
      (some session.peerSubject) >>= f) t Q := by
  obtain ⟨now, hcert⟩ := hauth.certified
  refine (wpE_bind ..).mpr (wp_verifyCertificate ⟨_, hcert.signed⟩
    (exists_certInDate hcert.inDate) fun b k t' hq hk hb => ?_)
  obtain rfl := hk hcert.signed
  exact hf b t' hq hb

/-! ## The public key directory -/

/-- Every file of the directory holds a JSON object that can be checked as a certificate. -/
def HealthyKeys (P : Primitives) (ca : Bytes) (s : ServerState) : Prop :=
  ∀ name data, s.disk ⟨.pubkeys, name⟩ = some data → ∃ text cert, utf8Decode data = some text ∧
    P.jsonLoads text = .ok (.obj cert) ∧ (∃ b, certSignatureOk P cert ca = .ok b) ∧
    ∀ now, ∃ b, certInDate cert now = .ok b

/-- The directory has a good certificate for a username. -/
def Listed (P : Primitives) (ca : Bytes) (s : ServerState) (username : Json) (now : ℤ)
    (cert : Obj) : Prop :=
  ∃ path data text, pubkeyPathFor username = some path ∧ s.disk path = some data ∧
    utf8Decode data = some text ∧ P.jsonLoads text = .ok (.obj cert) ∧
    CertCheck P ca cert now username.asStr

/-- The directory has one certificate for a username at most. -/
theorem Listed.unique {username : Json} {s : ServerState} {now now' : ℤ} {cert cert' : Obj}
    (h : Listed P ca s username now cert) (h' : Listed P ca s username now' cert') :
    cert = cert' := by
  obtain ⟨path, data, text, hp, hd, ht, hj, -⟩ := h
  obtain ⟨path', data', text', hp', hd', ht', hj', -⟩ := h'
  obtain rfl := Option.some.inj (hp.symm.trans hp')
  obtain rfl := Option.some.inj (hd.symm.trans hd')
  obtain rfl := Option.some.inj (ht.symm.trans ht')
  exact Json.obj.inj (Except.ok.inj (hj.symm.trans hj'))

theorem Quietly.listed {k : ℕ} {t' : Alone} (h : Quietly t k t') {username : Json} {now : ℤ}
    {cert : Obj} :
    Listed P ca t'.store username now cert ↔ Listed P ca t.store username now cert := by
  unfold Listed
  rw [h.disk]

theorem answer_isFile {path : Path} (hi : (t.inputs 0).fault = none) :
    t.answer (exec P) (.isFile path) = .ok (t.store.disk path).isSome := by
  show (reading _ _ _).1 = _
  rw [reading_of_fault_none hi]

theorem answer_readBytes {path : Path} (hi : (t.inputs 0).fault = none) :
    t.answer (exec P) (.readBytes path) = t.store.readBytes path := by
  show (reading _ _ _).1 = _
  rw [reading_of_fault_none hi]

/-- The exceptions that `_load_verified_pubkey_cert` takes for a miss. -/
def isMiss (e : PyExn) : Bool := e = .osError ∨ e = .jsonDecodeError ∨ e.isProtocolError

/-- What `_read_json` makes of the contents of a file, by what disturbs the reading. -/
def jsonOutcome (P : Primitives) (read : Option PyExn) (data : Bytes) : Except PyExn Obj :=
  match read, utf8Decode data with
  | some e, _ => .error e
  | none, none => .error .unicodeDecodeError
  | none, some text =>
      match P.jsonLoads text with
      | .ok (.obj cert) => .ok cert
      | .ok _ => .error (.protocolError (py "must contain a JSON object"))
      | .error e => .error e

/-- What a look-up makes of what `_read_json` has returned or raised. -/
def certFound (P : Primitives) (ca : Bytes) (username : Json) (now : ℤ) :
    Except PyExn Obj → Except PyExn (Option Obj)
  | .ok cert => do
      if ← certOutcome P ca cert now username.asStr then return some cert else return none
  | .error e => if isMiss e then .ok none else .error e

/-- What a look-up returns or raises, by what disturbs its two readings. -/
def lookupOutcome (P : Primitives) (ca : Bytes) (s : ServerState) (username : Json)
    (isFile read : Option PyExn) (now : ℤ) : Except PyExn (Option Obj) :=
  match pubkeyPathFor username, isFile with
  | none, _ => .ok none
  | some _, some e => .error e
  | some path, none =>
      match s.disk path with
      | none => .ok none
      | some data => certFound P ca username now (jsonOutcome P read data)

/-- The contents of a file are read. -/
theorem wp_readJson {path : Path} {data : Bytes} {Q : Alone → Except PyExn Obj → Prop}
    (hd : t.store.disk path = some data)
    (hQ : ∀ t', Quietly t 1 t' → Q t' (jsonOutcome P (t.inputs 0).fault data)) :
    wpE (.solo (exec P)) (readJson P path) t Q := by
  have hgoal := hQ _ (quietly_next P t (.readBytes path) rfl rfl)
  unfold jsonOutcome at hgoal
  rw [readJson]
  cases hf : (t.inputs 0).fault with
  | some e =>
    rw [hf] at hgoal
    have hraise : t.answer (exec P) (.readBytes path) = .error e :=
      congrArg Prod.fst (reading_of_fault hf)
    rw [wpE_solo_act_bind_error hraise]
    exact hgoal
  | none =>
    have hread : t.answer (exec P) (.readBytes path) = .ok data := by
      rw [answer_readBytes hf, ServerState.readBytes, hd]
    rw [hf] at hgoal
    rw [wpE_solo_act_bind hread]
    cases htext : utf8Decode data with
    | none =>
      rw [htext] at hgoal
      exact hgoal
    | some text =>
      rw [htext] at hgoal
      dsimp only at hgoal ⊢
      rw [wpE_bind, wpE_raising]
      cases hj : P.jsonLoads text with
      | error e =>
        rw [hj] at hgoal
        exact hgoal
      | ok v =>
        rw [hj] at hgoal
        cases v <;> exact hgoal

/-- **A look-up in the directory**, whatever disturbs it. -/
theorem wp_lookupOutcome {username : Json} {Q : Alone → Except PyExn (Option Obj) → Prop}
    (hQ : ∀ k t' r, r = lookupOutcome P ca t.store username (t.inputs 0).fault (t.inputs 1).fault
      (t.inputs 2).now → Quietly t k t' → (∀ cert, r = .ok (some cert) → k = 3) → Q t' r) :
    wpE (.solo (exec P)) (loadVerifiedPubkeyCert P ca username) t Q := by
  unfold loadVerifiedPubkeyCert
  unfold lookupOutcome at hQ
  cases hp : pubkeyPathFor username with
  | none =>
    rw [hp] at hQ
    exact hQ 0 t _ rfl (.refl t) nofun
  | some path =>
    have hfile : Quietly t 1 (t.next (exec P) (.isFile path)) := quietly_next P _ _ rfl rfl
    rw [hp] at hQ
    dsimp only
    cases hf : (t.inputs 0).fault with
    | some e =>
      rw [hf] at hQ
      have hraise : t.answer (exec P) (.isFile path) = .error e :=
        congrArg Prod.fst (reading_of_fault hf)
      rw [wpE_solo_act_bind_error hraise]
      exact hQ 1 _ _ rfl hfile nofun
    | none =>
      rw [hf] at hQ
      rw [wpE_solo_act_bind (answer_isFile hf)]
      dsimp only at hQ
      cases hd : t.store.disk path with
      | none =>
        rw [hd] at hQ
        exact hQ 1 _ _ rfl hfile nofun
      | some data =>
        have hd' : (t.next (exec P) (.isFile path)).store.disk path = some data := by
          rw [store_next_of_isRead rfl, hd]
        have hfault : ((t.next (exec P) (.isFile path)).inputs 0).fault = (t.inputs 1).fault := rfl
        rw [hd] at hQ
        rw [Option.isSome_some, if_pos rfl, wpE_bind, wpE_attempt]
        refine wp_readJson hd' fun t' hq => ?_
        have hboth := hfile.trans hq
        have hfault : ((t.next (exec P) (.isFile path)).inputs 0).fault = (t.inputs 1).fault := rfl
        rw [hfault]
        dsimp only at hQ
        generalize jsonOutcome P (t.inputs 1).fault data = r at hQ ⊢
        cases r with
        | ok cert =>
          refine (wpE_bind ..).mpr (wp_certOutcome fun k t'' hq' hk => ?_)
          have hnow : (t'.inputs 0).now = (t.inputs 2).now := by
            rw [hboth.inputs]
          rw [hnow]
          have hall := hboth.trans hq'
          have hgoal := hQ _ t'' _ rfl hall
          rw [certFound] at hgoal
          cases hout : certOutcome P ca cert (t.inputs 2).now username.asStr with
          | error e =>
            rw [hout] at hgoal
            exact hgoal nofun
          | ok b =>
            rw [hout] at hgoal
            cases b with
            | true =>
              obtain rfl := hk (certCheck_iff.mpr hout).signed
              exact hgoal fun _ _ => rfl
            | false => exact hgoal nofun
        | error e =>
          have hgoal := hQ _ t' _ rfl hboth
          cases e <;> exact hgoal nofun

theorem jsonOutcome_eq_ok {read : Option PyExn} {data : Bytes} {cert : Obj} :
    jsonOutcome P read data = .ok cert ↔ read = none ∧
      ∃ text, utf8Decode data = some text ∧ P.jsonLoads text = .ok (.obj cert) := by
  unfold jsonOutcome
  cases read with
  | some e => simp
  | none =>
    cases utf8Decode data with
    | none => simp
    | some text =>
      cases hj : P.jsonLoads text with
      | error e => simp [hj]
      | ok v => cases v <;> simp [hj]

theorem certFound_eq_some {username : Json} {now : ℤ} {r : Except PyExn Obj} {cert : Obj} :
    certFound P ca username now r = .ok (some cert) ↔
      r = .ok cert ∧ CertCheck P ca cert now username.asStr := by
  rw [certCheck_iff]
  cases r with
  | error e =>
    rw [certFound]
    cases isMiss e <;> simp
  | ok cert' =>
    rw [certFound]
    cases hout : certOutcome P ca cert' now username.asStr with
    | error e =>
      refine iff_of_false nofun ?_
      rintro ⟨⟨⟩, h⟩
      cases hout.symm.trans h
    | ok b =>
      cases b with
      | true =>
        constructor
        · intro h
          obtain rfl := Option.some.inj (Except.ok.inj h)
          exact ⟨rfl, hout⟩
        · rintro ⟨⟨⟩, -⟩
          rfl
      | false =>
        refine iff_of_false nofun ?_
        rintro ⟨⟨⟩, h⟩
        cases hout.symm.trans h

/-- What a look-up finds is listed. -/
theorem lookupOutcome_eq_some {s : ServerState} {username : Json} {isFile read : Option PyExn}
    {now : ℤ} {cert : Obj} : lookupOutcome P ca s username isFile read now = .ok (some cert) ↔
      isFile = none ∧ read = none ∧ Listed P ca s username now cert := by
  unfold lookupOutcome
  constructor
  · intro h
    cases hp : pubkeyPathFor username with
    | none =>
      rw [hp] at h
      cases h
    | some path =>
      rw [hp] at h
      cases isFile with
      | some e => cases h
      | none =>
        dsimp only at h
        cases hd : s.disk path with
        | none =>
          rw [hd] at h
          cases h
        | some data =>
          rw [hd] at h
          obtain ⟨hr, hcheck⟩ := certFound_eq_some.mp h
          obtain ⟨rfl, text, htext, hj⟩ := jsonOutcome_eq_ok.mp hr
          exact ⟨rfl, rfl, path, data, text, hp, hd, htext, hj, hcheck⟩
  · rintro ⟨rfl, rfl, path, data, text, hp, hd, htext, hj, hcheck⟩
    rw [hp]
    dsimp only
    rw [hd]
    exact certFound_eq_some.mpr ⟨jsonOutcome_eq_ok.mpr ⟨rfl, text, htext, hj⟩, hcheck⟩

/-- Where every file holds a certificate that can be checked, a look-up raises nothing. -/
theorem exists_lookupOutcome {s : ServerState} (hkeys : HealthyKeys P ca s) (username : Json)
    (now : ℤ) : ∃ found, lookupOutcome P ca s username none none now = .ok found := by
  unfold lookupOutcome
  cases hp : pubkeyPathFor username with
  | none => exact ⟨none, rfl⟩
  | some path =>
    dsimp only
    cases hd : s.disk path with
    | none => exact ⟨none, rfl⟩
    | some data =>
      obtain ⟨dir, name⟩ := path
      obtain rfl : dir = .pubkeys := dir_of_pubkeyPathFor hp
      obtain ⟨text, cert, ht, hj, hsig, hdate⟩ := hkeys name data hd
      obtain ⟨b, hb⟩ := exists_certOutcome hsig hdate now username.asStr
      dsimp only
      rw [jsonOutcome_eq_ok.mpr ⟨rfl, text, ht, hj⟩, certFound, hb]
      cases b <;> exact ⟨_, rfl⟩

/-- **A look-up in the directory** finds the certificate that is listed, and raises nothing. -/
theorem wp_loadVerifiedPubkeyCert {username : Json} {Q : Alone → Except PyExn (Option Obj) → Prop}
    (hund : Undisturbed t.inputs) (hkeys : HealthyKeys P ca t.store)
    (hnone : ∀ k t', Quietly t k t' →
      (∀ cert, ¬ Listed P ca t.store username (t.inputs 2).now cert) → Q t' (.ok none))
    (hsome : ∀ cert t', Quietly t 3 t' → Listed P ca t.store username (t.inputs 2).now cert →
      Q t' (.ok (some cert))) :
    wpE (.solo (exec P)) (loadVerifiedPubkeyCert P ca username) t Q := by
  refine wp_lookupOutcome fun k t' r hr hq hk => ?_
  rw [(hund 0).fault, (hund 1).fault] at hr
  obtain ⟨found, hfound⟩ := exists_lookupOutcome hkeys username (t.inputs 2).now
  obtain rfl := hr.trans hfound
  cases found with
  | none =>
    refine hnone k t' hq fun cert hl => ?_
    cases hfound.symm.trans (lookupOutcome_eq_some.mpr ⟨rfl, rfl, hl⟩)
  | some cert =>
    obtain rfl := hk cert rfl
    exact hsome cert t' hq (lookupOutcome_eq_some.mp hfound).2.2

/-! ## Listings -/

/-- The size that a listing shows for a row. -/
def blobSize (s : ServerState) (row : FileRow) : Json :=
  match s.disk (fileBlobPathFor row.fileId) with
  | some data => .int data.length
  | none => .null

/-- The rows that a listing shows. -/
def pendingRows (s : ServerState) (recipient : PyStr) (now : ℤ) : List FileRow :=
  s.files.rows.filter fun row => row.recipientId = recipient ∧ row.status = .pending ∧
    now < row.expiration

/-- The payload of `PENDING_LIST`. -/
def listingPayload (s : ServerState) (recipient : PyStr) (now : ℤ) : Obj :=
  [(py "files", .arr ((pendingRows s recipient now).map fun row =>
    pendingEntry row (blobSize s row)))]

theorem Quietly.blobSize {k : ℕ} {t' : Alone} (h : Quietly t k t') :
    blobSize t'.store = blobSize t.store := by
  funext row
  rw [Server.blobSize, Server.blobSize, h.disk]

/-- The size of one blob: it is there, or the listing shows `None`. -/
theorem wp_ciphertextSize {row : FileRow} {Q : Alone → Except PyExn Json → Prop}
    (hi : (t.inputs 0).Healthy) (hQ : ∀ t', Quietly t 1 t' → Q t' (.ok (blobSize t.store row))) :
    wpE (.solo (exec P)) (ciphertextSize row) t Q := by
  have hanswer : t.answer (exec P) (.statSize (fileBlobPathFor row.fileId)) =
      (t.store.readBytes (fileBlobPathFor row.fileId)).map List.length := by
    show (reading _ _ _).1 = _
    rw [reading_of_fault_none hi.fault]
  have hq : Quietly t 1 (t.next (exec P) (.statSize (fileBlobPathFor row.fileId))) :=
    quietly_next P _ _ rfl rfl
  have hgoal := hQ _ hq
  rw [ciphertextSize, wpE_bind, wpE_attempt, wpE_solo_act, hanswer, ServerState.readBytes]
  unfold blobSize at hgoal
  cases hd : t.store.disk (fileBlobPathFor row.fileId) with
  | none =>
    rw [hd] at hgoal
    exact hgoal
  | some data =>
    rw [hd] at hgoal
    exact hgoal

/-- The sizes of the blobs: by induction on the rows that are left. -/
theorem wp_pendingEntries {rows : List FileRow} {Q : Alone → Except PyExn (List Json) → Prop}
    (hund : Undisturbed t.inputs)
    (hQ : ∀ t', Quietly t rows.length t' →
      Q t' (.ok (rows.map fun row => pendingEntry row (blobSize t.store row)))) :
    wpE (.solo (exec P)) (pendingEntries rows) t Q := by
  induction rows generalizing t Q with
  | nil => exact hQ t (.refl t)
  | cons row rows ih =>
    rw [pendingEntries, wpE_bind]
    refine wp_ciphertextSize (hund 0) fun t' hq => (wpE_bind ..).mpr ?_
    refine ih (hq.undisturbed hund) fun t'' hq' => ?_
    rw [hq.blobSize]
    have hboth := hq.trans hq'
    rw [Nat.add_comm] at hboth
    exact hQ t'' hboth

/-- Where the name of a recipient can be bound, the rows of a listing are read. -/
theorem answer_listPending {recipient : PyStr} {now : ℤ} (hi : (t.inputs 0).fault = none)
    (hname : recipient.any isSurrogate = false) (hnow : -2 ^ 63 ≤ now ∧ now < 2 ^ 63) :
    t.answer (exec P) (.listPending recipient now) = .ok (pendingRows t.store recipient now) := by
  have htext : bindText recipient = .ok () := bindText_eq_ok.mpr hname
  have hint : bindInt now = .ok () := bindInt_eq_ok.mpr hnow
  show (reading _ _ _).1 = _
  rw [reading_of_fault_none hi, ServerState.listPending, htext, ok_bind, hint, ok_bind]
  rfl

/-- The rows of a listing. -/
theorem wp_listPendingFor {recipient : PyStr} {Q : Alone → Except PyExn (List FileRow) → Prop}
    (hund : Undisturbed t.inputs) (hname : recipient.any isSurrogate = false)
    (hQ : ∀ t', Quietly t 2 t' → Q t' (.ok (pendingRows t.store recipient (t.inputs 0).now))) :
    wpE (.solo (exec P)) (listPendingFor recipient) t Q := by
  have htime : Quietly t 1 (t.next (exec P) .time) := quietly_next P _ _ rfl rfl
  have hi : ((t.next (exec P) .time).inputs 0).Healthy := hund 1
  rw [listPendingFor, wpE_solo_act_bind answer_time, wpE_solo_act,
    answer_listPending hi.fault hname (hund 0).now]
  exact hQ _ (htime.trans (quietly_next P _ _ rfl rfl))

/-! ## Look-ups -/

theorem answer_getFile {k : Json} (hi : (t.inputs 0).fault = none) :
    t.answer (exec P) (.getFile k) = t.store.getFile P k := by
  show (reading _ _ _).1 = _
  rw [reading_of_fault_none hi]

theorem getFile_eq_ok {s : ServerState} {k : Json} {row : Option FileRow} :
    s.getFile P k = .ok row ↔ ∃ key, bindKey P k = .ok key ∧ key.bind s.files.find? = row := by
  rw [ServerState.getFile, bind_eq_ok]
  simp only [pure_eq_ok]

theorem getFile_eq_error {s : ServerState} {k : Json} {e : PyExn} :
    s.getFile P k = .error e ↔ bindKey P k = .error e := by
  rw [ServerState.getFile]
  cases bindKey P k with
  | error e' =>
    constructor
    · rintro ⟨⟩
      rfl
    · rintro ⟨⟩
      rfl
  | ok key => exact iff_of_false nofun nofun

theorem Quietly.getFile {k : ℕ} {t' : Alone} (h : Quietly t k t') (v : Json) :
    t'.store.getFile P v = t.store.getFile P v := by
  rw [ServerState.getFile, ServerState.getFile, h.files]

/-- A text without lone surrogates is bound as itself. -/
theorem bindKey_of_str {f : PyStr} (h : f.any isSurrogate = false) :
    bindKey P (.str f) = .ok (some f) := by
  have hbind : bindText f = .ok () := bindText_eq_ok.mpr h
  rw [bindKey, hbind]
  rfl

/-- A status is written over the row of a bound key. -/
theorem answer_markStatus {k : Json} {key : Option PyStr} {st : Status}
    (hi : (t.inputs 0).fault = none) (hkey : bindKey P k = .ok key) (hst : ∀ text, st ≠ .other text) :
    t.answer (exec P) (.markStatus k st) = .ok () ∧ (t.next (exec P) (.markStatus k st)).store =
      t.store.setStatus (fun row => some row.fileId = key) st := by
  refine done_of_fault_none hi rfl ?_
  cases st with
  | other text => exact absurd rfl (hst text)
  | _ =>
    show (bindKey P k >>= _) = _
    rw [hkey]
    rfl

/-- What the chokepoint decides about the row that was read and the clock. -/
def downloadVerdict (session : Session) (row : Option FileRow) (now : ℤ) : Except String FileRow :=
  match row with
  | none => .error "NOT_FOUND"
  | some row =>
      if row.recipientId ≠ session.peerSubject then .error "AUTH_FAILED"
      else if row.expiration ≤ now then .error "EXPIRED"
      else
        match row.status with
        | .pending => .ok row
        | .expired => .error "EXPIRED"
        | .revoked => .error "REVOKED"
        | .downloaded => .error "ALREADY_DOWNLOADED"
        | .other _ => .error "INTERNAL_ERROR"

theorem downloadVerdict_eq_ok {row : Option FileRow} {now : ℤ} {row' : FileRow} :
    downloadVerdict session row now = .ok row' ↔ row = some row' ∧
      row'.recipientId = session.peerSubject ∧ now < row'.expiration ∧ row'.status = .pending := by
  unfold downloadVerdict
  cases row with
  | none => exact iff_of_false nofun fun h => nomatch h.1
  | some row =>
    dsimp only
    split_ifs with hrec hexp
    · refine iff_of_false nofun ?_
      rintro ⟨⟨⟩, h, -⟩
      exact hrec h
    · refine iff_of_false nofun ?_
      rintro ⟨⟨⟩, -, h, -⟩
      omega
    · rw [not_not] at hrec
      cases hst : row.status with
      | pending =>
        rw [Except.ok.injEq, Option.some.injEq]
        constructor
        · rintro rfl
          exact ⟨rfl, hrec, by omega, hst⟩
        · exact fun h => h.1
      | _ =>
        refine iff_of_false nofun ?_
        rintro ⟨⟨⟩, -, -, h⟩
        rw [hst] at h
        cases h

theorem length_downloadVerdict {row : Option FileRow} {now : ℤ} {code : String}
    (h : downloadVerdict session row now = .error code) : (py code).length ≤ 1000 := by
  have hcodes : ∀ c ∈ ["NOT_FOUND", "AUTH_FAILED", "EXPIRED", "REVOKED", "ALREADY_DOWNLOADED",
      "INTERNAL_ERROR"], (py c).length ≤ 1000 := by decide
  refine hcodes code ?_
  unfold downloadVerdict at h
  split at h
  · cases h
    simp
  · split_ifs at h
    · cases h
      simp
    · cases h
      simp
    · split at h <;> cases h <;> simp

/-- **The chokepoint** decides about the row that is there, and raises only where the id cannot
be bound. -/
theorem wp_authoriseDownload {k : Json} {Q : Alone → Except PyExn (Except String FileRow) → Prop}
    (hund : Undisturbed t.inputs)
    (hraise : ∀ e, bindKey P k = .error e → ∀ t', Quietly t 1 t' → Q t' (.error e))
    (hdecide : ∀ row t', t.store.getFile P k = .ok row →
      (∀ row', downloadVerdict session row (t.inputs 1).now = .ok row' → Quietly t 2 t') →
      Undisturbed t'.inputs → sent t'.hist = sent t.hist →
      Q t' (.ok (downloadVerdict session row (t.inputs 1).now))) :
    wpE (.solo (exec P)) (authoriseDownload session k) t Q := by
  have hread : Quietly t 1 (t.next (exec P) (.getFile k)) := quietly_next P _ _ rfl rfl
  have htime := hread.trans (quietly_next P _ .time rfl rfl)
  rw [authoriseDownload, wpE_bind, wpE_solo_act, answer_getFile (hund 0).fault]
  cases hrow : t.store.getFile P k with
  | error e => exact hraise e (getFile_eq_error.mp hrow) _ hread
  | ok row =>
    have hdecide := hdecide row
    unfold downloadVerdict at hdecide
    cases row with
    | none => exact hdecide _ hrow (by simp) (hread.undisturbed hund) hread.sent
    | some row =>
      dsimp only at hdecide ⊢
      by_cases hrec : row.recipientId = session.peerSubject
      · rw [if_neg (not_not.mpr hrec)] at hdecide ⊢
        rw [wpE_solo_act_bind answer_time]
        have hnow : ((t.next (exec P) (.getFile k)).inputs 0).now = (t.inputs 1).now := rfl
        rw [hnow]
        by_cases hexp : row.expiration ≤ (t.inputs 1).now
        · rw [if_pos hexp] at hdecide ⊢
          by_cases hst : row.status = .pending
          · obtain ⟨key, hkey, -⟩ := getFile_eq_ok.mp hrow
            have hi : (((t.next (exec P) (.getFile k)).next (exec P) .time).inputs 0).Healthy := hund 2
            obtain ⟨hmark, -⟩ := @answer_markStatus P _ k key .expired hi.fault hkey (by simp)
            rw [if_pos hst, wpE_solo_act_bind hmark]
            exact hdecide _ hrow (by simp) (fun n => hund (n + 3)) ((sent_next rfl).trans htime.sent)
          · rw [if_neg hst]
            exact hdecide _ hrow (by simp) (htime.undisturbed hund) htime.sent
        · rw [if_neg hexp] at hdecide ⊢
          cases hst : row.status with
          | pending =>
            rw [hst] at hdecide
            exact hdecide _ hrow (fun _ _ => htime) (htime.undisturbed hund) htime.sent
          | _ =>
            rw [hst] at hdecide
            exact hdecide _ hrow (by simp) (htime.undisturbed hund) htime.sent
      · rw [if_pos hrec] at hdecide ⊢
        exact hdecide _ hrow (by simp) (hread.undisturbed hund) hread.sent

/-! ## Uploads -/

/-- What the insertion of an upload's row needs. -/
def Storable (P : Primitives) (session : Session) (s : ServerState) (up : Upload) : Prop :=
  ∃ aad, aadBytes up.fileId session.peerSubject up.recipient = .ok aad ∧
    bindFileRow (up.row P session aad) = .ok () ∧ s.files.find? up.fileId = none

/-- The row and the blob of an upload are there. -/
def Stored (P : Primitives) (session : Session) (s : ServerState) (up : Upload) : Prop :=
  ∃ aad, aadBytes up.fileId session.peerSubject up.recipient = .ok aad ∧
    s.files.find? up.fileId = some (up.row P session aad) ∧
    s.disk (fileBlobPathFor up.fileId) = some up.ciphertext

theorem answer_writeTmp {path : Path} {data : Bytes} (hi : (t.inputs 0).fault = none) :
    t.answer (exec P) (.writeTmp path data) = .ok () ∧
      (t.next (exec P) (.writeTmp path data)).store = t.store.write path data := by
  have hw : exec P (.writeTmp path data) (t.inputs 0) t.store =
      (.ok (), t.store.write path data) := by
    simp only [exec, writingPart, hi]
  exact ⟨congrArg Prod.fst hw, congrArg Prod.snd hw⟩

theorem answer_replace {src dst : Path} {data : Bytes} (hi : (t.inputs 0).fault = none)
    (hd : t.store.disk src = some data) :
    t.answer (exec P) (.replace src dst) = .ok () ∧ (t.next (exec P) (.replace src dst)).store =
      { t.store with disk := Function.update (Function.update t.store.disk src none) dst (some data) } := by
  refine done_of_fault_none hi rfl ?_
  rw [ServerState.replace, hd]

theorem bind_ne_osError {α β : Type} {x : Except PyExn α} {f : α → Except PyExn β}
    (hx : x ≠ .error .osError) (hf : ∀ a, f a ≠ .error .osError) : x >>= f ≠ .error .osError := by
  cases x with
  | error e => exact fun h => hx (congrArg Except.error (Except.error.inj h))
  | ok a => exact hf a

theorem bindText_ne_osError {f : PyStr} : bindText f ≠ .error .osError := by
  unfold bindText
  split_ifs <;> exact nofun

theorem bindInt_ne_osError {i : ℤ} : bindInt i ≠ .error .osError := by
  unfold bindInt
  split_ifs <;> exact nofun

/-- It is not an `OSError` that says that a row cannot be bound. -/
theorem bindFileRow_ne_osError {row : FileRow} : bindFileRow row ≠ .error .osError :=
  bind_ne_osError bindText_ne_osError fun _ => bind_ne_osError bindText_ne_osError fun _ =>
    bind_ne_osError bindText_ne_osError fun _ => bind_ne_osError bindInt_ne_osError fun _ =>
      bind_ne_osError bindInt_ne_osError fun _ => bind_ne_osError bindText_ne_osError fun _ =>
        bind_ne_osError bindText_ne_osError fun _ => bind_ne_osError bindText_ne_osError fun _ =>
          bindText_ne_osError

/-- A row is inserted where it can be bound and its id is free. -/
theorem answer_insertFile {row : FileRow} (hi : (t.inputs 0).fault = none)
    (hbind : bindFileRow row = .ok ()) (hfree : t.store.files.find? row.fileId = none) :
    t.answer (exec P) (.insertFile row) = .ok () ∧
      (t.next (exec P) (.insertFile row)).store.files.find? row.fileId = some row ∧
      (t.next (exec P) (.insertFile row)).store.disk = t.store.disk := by
  cases hins : t.store.files.insert? row with
  | none =>
    have hsome := Table.insert?_eq_none_iff.mp hins
    rw [hfree] at hsome
    exact absurd hsome Bool.false_ne_true
  | some files =>
    have hx : t.store.insertFile row = .ok { t.store with files } := by
      rw [ServerState.insertFile, hbind, ok_bind, hins]
      rfl
    obtain ⟨hdone, hstore⟩ : t.answer (exec P) (.insertFile row) = .ok () ∧
        (t.next (exec P) (.insertFile row)).store = { t.store with files } :=
      done_of_fault_none hi rfl hx
    refine ⟨hdone, ?_, by rw [hstore]⟩
    rw [hstore]
    exact (Table.find?_insert? hins _).trans (if_pos rfl)

/-- Where a row is not inserted, it is not an `OSError` that says so. -/
theorem answer_insertFile_error {row : FileRow} (hi : (t.inputs 0).fault = none)
    (hno : ¬ (bindFileRow row = .ok () ∧ t.store.files.find? row.fileId = none)) :
    ∃ e, e ≠ .osError ∧ t.answer (exec P) (.insertFile row) = .error e := by
  have hraised : ∀ {e}, t.store.insertFile row = .error e →
      t.answer (exec P) (.insertFile row) = .error e :=
    fun hx => (raised_of_fault_none hi rfl hx).1
  cases hbind : bindFileRow row with
  | error e =>
    refine ⟨e, fun he => bindFileRow_ne_osError (he ▸ hbind), hraised ?_⟩
    rw [ServerState.insertFile, hbind]
    rfl
  | ok u =>
    have hins : t.store.files.insert? row = none :=
      Table.insert?_eq_none_iff.mpr (Option.isSome_iff_ne_none.mpr fun h => hno ⟨hbind, h⟩)
    refine ⟨.integrityError, nofun, hraised ?_⟩
    rw [ServerState.insertFile, hbind, ok_bind, hins]
    rfl

/-- **An upload is stored**, or is refused with an exception that nothing catches. -/
theorem wp_storeUpload {up : Upload} {Q : Alone → Except PyExn Unit → Prop}
    (hund : Undisturbed t.inputs)
    (hin : Storable P session t.store up → ∀ t' : Alone, Stored P session t'.store up →
      t'.inputs = (fun n => t.inputs (n + 3)) → sent t'.hist = sent t.hist → Q t' (.ok ()))
    (hout : ¬ Storable P session t.store up → ∀ e, e ≠ .osError → ∀ t' : Alone,
      sent t'.hist = sent t.hist → Q t' (.error e)) :
    wpE (.solo (exec P)) (storeUpload P session up) t Q := by
  obtain ⟨hwrite, hwritten⟩ := @answer_writeTmp P t (tmpPathFor up.fileId) up.ciphertext (hund 0).fault
  rw [storeUpload, wpE_solo_act_bind hwrite]
  have hsent₁ := @sent_next P t (.writeTmp (tmpPathFor up.fileId) up.ciphertext) rfl
  have hund₁ : Undisturbed (t.next (exec P) (.writeTmp (tmpPathFor up.fileId) up.ciphertext)).inputs :=
    hund.tail
  generalize ht₁ : t.next (exec P) (.writeTmp (tmpPathFor up.fileId) up.ciphertext) = t₁ at *
  have hdata : t₁.store.disk (tmpPathFor up.fileId) = some up.ciphertext := by
    rw [hwritten]
    exact Function.update_self ..
  obtain ⟨hmove, hmoved⟩ := @answer_replace P t₁ _ (fileBlobPathFor up.fileId) _ (hund₁ 0).fault hdata
  rw [wpE_solo_act_bind hmove, wpE_bind, wpE_raising]
  have hsent₂ := @sent_next P t₁ (.replace (tmpPathFor up.fileId) (fileBlobPathFor up.fileId)) rfl
  have hund₂ : Undisturbed
      (t₁.next (exec P) (.replace (tmpPathFor up.fileId) (fileBlobPathFor up.fileId))).inputs :=
    hund₁.tail
  generalize ht₂ : t₁.next (exec P) (.replace (tmpPathFor up.fileId) (fileBlobPathFor up.fileId)) =
    t₂ at *
  have hfiles : t₂.store.files = t.store.files := by
    rw [hmoved, hwritten]
    rfl
  have hblob : t₂.store.disk (fileBlobPathFor up.fileId) = some up.ciphertext := by
    rw [hmoved]
    exact Function.update_self ..
  have hsent := hsent₂.trans hsent₁
  cases haad : aadBytes up.fileId session.peerSubject up.recipient with
  | error e =>
    refine hout ?_ e ?_ t₂ hsent
    · rintro ⟨aad, haad', -, -⟩
      rw [haad] at haad'
      cases haad'
    · rintro rfl
      unfold aadBytes encodeText at haad
      split at haad <;> cases haad
  | ok aad =>
    dsimp only
    rw [wpE_solo_act]
    have hsent₃ := @sent_next P t₂ (.insertFile (up.row P session aad)) rfl
    by_cases hrow : bindFileRow (up.row P session aad) = .ok () ∧
        t₂.store.files.find? up.fileId = none
    · obtain ⟨hins, hfound, hdisk⟩ := @answer_insertFile P t₂ _ (hund₂ 0).fault hrow.1 hrow.2
      rw [hins]
      refine hin ⟨aad, haad, hrow.1, hfiles ▸ hrow.2⟩ _ ⟨aad, haad, hfound, ?_⟩ ?_
        (hsent₃.trans hsent)
      · rw [hdisk, hblob]
      · subst ht₂ ht₁
        rfl
    · obtain ⟨e, hne, he⟩ := @answer_insertFile_error P t₂ (up.row P session aad) (hund₂ 0).fault hrow
      rw [he]
      refine hout ?_ e hne _ (hsent₃.trans hsent)
      rintro ⟨aad', haad', hbind, hfree⟩
      obtain rfl := Except.ok.inj (haad.symm.trans haad')
      exact hrow ⟨hbind, hfiles ▸ hfree⟩

end Server
end ZeroTrust
