import ZeroTrust.Server.Directory
import ZeroTrust.Server.Footprint
import ZeroTrust.Server.Lockstep

/-!
# Whether an acknowledged upload can be delivered

An upload comes in a message of at most `MAX_MESSAGE_BYTES`, and the message that carries it
to its recipient may be no longer.  The two do not carry the same: what is delivered has the
sender's certificate and the AAD besides.  The length of the second message is a sum over the
upload's fields, and the upload is delivered if and only if that sum is not too large.

* `wp_handleUploadRequest_stored`: what has been acknowledged is stored.
* `wp_handleDownloadRequest_of_row`: a stored row is sent if the message is not too long.
* `Upload.responseLength`: the length of that message.
* `delivered_iff`: an acknowledged upload is delivered if and only if it is short enough.
-/

namespace ZeroTrust
namespace Server

open Python Effects Data

variable {P : Primitives} {ca : Bytes} {session recipient : Session} {env env' : Envelope}
  {s s' : ServerState} {inputs inputs' : ℕ → Input} {t : Alone} {up : Upload} {aad : Bytes}

/-! ## The payload of an upload -/

/-- **What a client puts into an upload is read back.** -/
theorem readFrom_uploadPayload {fileId name : PyStr} {ciphertext nonce wrappedKey signature : Bytes}
    {timestamp expiration : ℤ} (hid : isCanonicalUuid fileId = true)
    (hname : validUsername (.str name) = true) :
    Upload.ReadFrom
      (uploadPayload fileId name ciphertext nonce wrappedKey signature timestamp expiration)
      { fileId, recipient := name, timestamp := .int timestamp, expiration := .int expiration,
        timestampInt := timestamp, expirationInt := expiration, ciphertext, aesNonce := nonce,
        wrappedKey, signature } := by
  have hfield : ∀ {payload : Obj} {field : String} {data : Bytes},
      dictGet payload field = some (.str (b64encode data)) →
      decodeB64Field payload field = .ok data := by
    intro payload field data h
    have htext : (dictGet payload field).bind Json.asStr = some (b64encode data) := by
      rw [h]
      rfl
    rw [decodeB64Field, htext]
    dsimp only
    rw [b64decode_b64encode]
  exact
    { fileId := rfl
      canonical := hid
      recipient := rfl
      username := hname
      timestamp := rfl
      timestampInt := rfl
      expiration := rfl
      expirationInt := rfl
      ciphertext := hfield rfl
      aesNonce := hfield rfl
      wrappedKey := hfield rfl
      signature := hfield rfl }

/-! ## Storing -/

/-- No upload has been acknowledged. -/
def NoAck (h : List Ev) : Prop := ∀ payload, (MessageType.UPLOAD_ACK, payload) ∉ sent h

theorem noAck_of_sent_eq_nil {h : List Ev} (hsent : sent h = []) : NoAck h := by
  intro payload hmem
  rw [hsent] at hmem
  exact nomatch hmem

/-- Where an upload has been acknowledged, it is stored. -/
def AckStored (P : Primitives) (session : Session) (env : Envelope) (t : Alone)
    (_ : Except PyExn Unit) : Prop :=
  NoAck t.hist ∨ ∃ up, parseUpload env.payload = .ok up ∧ Stored P session t.store up

theorem wp_sendError_ackStored {code : String} (hund : Undisturbed t.inputs)
    (hsent : sent t.hist = []) (hcode : (py code).length ≤ 1000) :
    wpE (.solo (exec P)) (sendError code) t (AckStored P session env) := by
  refine wp_sendError (hund 0) hcode fun t' _ hsent' => .inl fun payload hmem => ?_
  rw [hsent', hsent, List.nil_append, List.mem_singleton] at hmem
  exact nomatch congrArg Prod.fst hmem

/-- From the origin signature on. -/
theorem wp_acceptUpload_ackStored (hund : Undisturbed t.inputs) (hsent : sent t.hist = [])
    (hparse : parseUpload env.payload = .ok up) :
    wpE (.solo (exec P)) (acceptUpload P ca session up) t (AckStored P session env) := by
  rw [acceptUpload, wpE_bind, wpE_raising]
  cases verifyOriginStruct P session.peerCert up.signature (up.origin P session.peerSubject) with
  | error e => exact .inl (noAck_of_sent_eq_nil hsent)
  | ok good =>
    cases good with
    | false => exact wp_sendError_ackStored hund hsent (by decide)
    | true =>
      have hload : Issues (fun op : Op => op.isRead = true ∧ op.isSend = false)
          (loadVerifiedPubkeyCert P ca (.str up.recipient)) :=
        issues_loadVerifiedPubkeyCert ⟨rfl, rfl⟩ (fun _ => ⟨rfl, rfl⟩) fun _ => ⟨rfl, rfl⟩
      refine (wpE_bind ..).mpr (wpE_mono _ (wp_quiet hload) ?_)
      rintro t₁ found ⟨k, hq⟩
      have hund₁ := hq.undisturbed hund
      have hsent₁ := hq.sent.trans hsent
      rcases found with e | found
      · exact .inl (noAck_of_sent_eq_nil hsent₁)
      · cases found with
        | none => exact wp_sendError_ackStored hund₁ hsent₁ (by decide)
        | some cert =>
          have hmkdir : t₁.answer (exec P) .mkdirFiles = .ok () := by
            show (reading _ _ _).1 = _
            rw [reading_of_fault_none (hund₁ 0).fault]
          have hsent₂ := (@sent_next P t₁ .mkdirFiles rfl).trans hsent₁
          dsimp only
          rw [wpE_solo_act_bind hmkdir, wpE_bind, wpE_attempt]
          refine wp_storeUpload hund₁.tail (fun _ t₂ hstored hinputs hsent' => ?_)
            fun _ e hne t₂ hsent' => ?_
          · have hi : (t₂.inputs 0).Healthy := by
              rw [hinputs]
              exact hund₁ _
            refine wp_sendMessage hi (fun _ t₃ hs _ => .inr ⟨up, hparse, ?_⟩)
              fun _ e t₃ hs _ => .inr ⟨up, hparse, ?_⟩
            · rw [hs]
              exact hstored
            · rw [hs]
              exact hstored
          · have hno := noAck_of_sent_eq_nil (hsent'.trans hsent₂)
            cases e with
            | osError => exact absurd rfl hne
            | _ => exact .inl hno

/-- **What has been acknowledged is stored.** -/
theorem wp_handleUploadRequest_ackStored (hund : Undisturbed t.inputs) (hsent : sent t.hist = []) :
    wpE (.solo (exec P)) (handleUploadRequest P ca session env) t (AckStored P session env) := by
  refine wp_replayGate hund (fun _ t₁ hq => ?_) fun _ t₁ _ hsent' => .inl fun payload hmem => ?_
  · have hverify : Issues (fun op : Op => op.isRead = true ∧ op.isSend = false)
        (verifyCertificate P (act Op.time : ServerM ℤ) (.obj session.peerCert) ca
          (some session.peerSubject)) := issues_verifyCertificate ⟨rfl, rfl⟩
    refine (wpE_bind ..).mpr (wpE_mono _ (wp_quiet hverify) ?_)
    rintro t₂ good ⟨k, hq'⟩
    have hq := hq.trans hq'
    have hund₂ := hq.undisturbed hund
    have hsent₂ := hq.sent.trans hsent
    rcases good with e | good
    · exact .inl (noAck_of_sent_eq_nil hsent₂)
    · cases good with
      | false => exact wp_sendError_ackStored hund₂ hsent₂ (by decide)
      | true =>
        dsimp only
        rw [if_pos rfl]
        cases hparse : parseUpload env.payload with
        | ok up => exact wp_acceptUpload_ackStored hund₂ hsent₂ hparse
        | error e =>
          dsimp only
          split_ifs
          · exact wp_sendError_ackStored hund₂ hsent₂ (by decide)
          · exact .inl (noAck_of_sent_eq_nil hsent₂)
  · rw [hsent', hsent, List.nil_append, List.mem_singleton] at hmem
    exact nomatch congrArg Prod.fst hmem

/-- **An upload that passes every check is acknowledged and stored.** -/
theorem wp_handleUploadRequest_accepted {cert : Obj} (hund : Undisturbed t.inputs)
    (hsent : sent t.hist = []) (hauth : session.Authenticated P ca)
    (hkeys : HealthyKeys P ca t.store) (hgate : PassesGate env (t.inputs 0).now t.store)
    (hsender : CertCheck P ca session.peerCert (t.inputs 2).now (some session.peerSubject))
    (hparse : parseUpload env.payload = .ok up)
    (hverify : verifyOriginStruct P session.peerCert up.signature
      (up.origin P session.peerSubject) = .ok true)
    (hlisted : Listed P ca t.store (.str up.recipient) (t.inputs 5).now cert)
    (hstorable : Storable P session t.store up)
    (hshort : wireLength P (.obj up.ackPayload) ≤ 60000000) :
    wpE (.solo (exec P)) (handleUploadRequest P ca session env) t fun t' _ =>
      sent t'.hist = [(.UPLOAD_ACK, up.ackPayload)] ∧ Stored P session t'.store up := by
  refine wp_replayGate hund (fun _ t₁ hq₁ => ?_) fun hnot => absurd hgate hnot
  refine wp_verifySession hauth fun good t₂ hq₂ hgood => ?_
  rw [congrFun hq₁.inputs 0] at hgood
  obtain rfl := hgood.mpr hsender
  have hq₂ := hq₁.trans hq₂
  rw [if_pos rfl, hparse]
  dsimp only
  rw [acceptUpload, wpE_bind, wpE_raising, hverify]
  dsimp only
  rw [if_pos rfl]
  have hlisted₂ : Listed P ca t₂.store (.str up.recipient) (t₂.inputs 2).now cert := by
    rw [Listed, hq₂.disk, congrFun hq₂.inputs 2]
    exact hlisted
  have hkeys₂ : HealthyKeys P ca t₂.store := by
    rw [HealthyKeys, hq₂.disk]
    exact hkeys
  refine (wpE_bind ..).mpr (wp_loadVerifiedPubkeyCert (hq₂.undisturbed hund) hkeys₂
    (fun k t₃ _ hnone => absurd hlisted₂ (hnone cert)) fun _ t₃ hq₃ _ => ?_)
  have hq₃ := hq₂.trans hq₃
  have hmkdir : t₃.answer (exec P) .mkdirFiles = .ok () := by
    show (reading _ _ _).1 = _
    rw [reading_of_fault_none (hq₃.undisturbed hund 0).fault]
  have hq₄ := hq₃.trans (quietly_next P t₃ .mkdirFiles rfl rfl)
  have hund₄ := hq₄.undisturbed hund
  have hstorable₄ : Storable P session (t₃.next (exec P) .mkdirFiles).store up := by
    rw [Storable, hq₄.files]
    exact hstorable
  dsimp only
  rw [wpE_solo_act_bind hmkdir, wpE_bind, wpE_attempt]
  refine wp_storeUpload hund₄ (fun _ t₅ hstored hinputs hsent₅ => ?_)
    fun hno => absurd hstorable₄ hno
  have hi : (t₅.inputs 0).Healthy := by
    rw [hinputs]
    exact hund₄ 3
  refine wp_sendMessage hi (fun _ t₆ hs hsent₆ => ⟨?_, ?_⟩)
    fun hlong => absurd (fits_of_le hi hshort) hlong
  · rw [hsent₆, hsent₅, hq₄.sent, hsent]
    rfl
  · rw [hs]
    exact hstored

/-- An upload records no nonce but its own. -/
theorem find?_nonces_upload {nonce : Bytes} (hne : nonce ≠ env.nonceBytes)
    (hnew : t.store.nonces.find? nonce = none) :
    wpE (.solo (exec P)) (handleUploadRequest P ca session env) t fun t' _ =>
      t'.store.nonces.find? nonce = none := by
  have hissues : Issues (fun op : Op => ∀ now, op ≠ .insertNonce nonce now)
      (handleUploadRequest P ca session env) := by
    refine issues_handleUploadRequest nofun (fun own now hown later heq => ?_) (fun _ => nofun)
      (fun _ => nofun) nofun (fun _ _ => nofun) (fun _ _ => nofun) (fun _ => nofun) fun _ _ => nofun
    obtain rfl := (Op.insertNonce.inj heq).1
    exact hne (Option.some.inj (hown.symm.trans env.b64decode_nonce.1))
  refine hissues.keeps (J := fun t' : Alone => t'.store.nonces.find? nonce = none) ?_ hnew
  intro t' op hop ht'
  show (exec P op (t'.inputs 0) t'.store).2.nonces.find? nonce = none
  have hchange : Change P t'.store ⟨op, t'.answer (exec P) op⟩ (exec P op (t'.inputs 0) t'.store).2 :=
    change_of_exec Prod.mk.eta.symm
  rcases nonces_of_change hchange with hsame | ⟨row, hev, hins⟩ | ⟨cutoff, n, -, hdel⟩
  · rw [hsame]
    exact ht'
  · obtain rfl : op = .insertNonce row.nonce row.seenAt := congrArg Event.op hev
    rw [Table.find?_insert? hins, if_neg fun h => hop row.seenAt (by rw [h])]
    exact ht'
  · rw [hdel, Table.find?_delete, ht']
    rfl

theorem dispatch_of_upload (htype : env.type = .UPLOAD_REQUEST) :
    dispatch P ca session env = handleUploadRequest P ca session env := by
  rw [dispatch, htype]

/-- The upload as a whole. -/
theorem serve_upload_accepted {cert : Obj} (hund : Undisturbed inputs)
    (htype : env.type = .UPLOAD_REQUEST) (hauth : session.Authenticated P ca)
    (hkeys : HealthyKeys P ca s) (hgate : PassesGate env (inputs 0).now s)
    (hsender : CertCheck P ca session.peerCert (inputs 2).now (some session.peerSubject))
    (hparse : parseUpload env.payload = .ok up)
    (hverify : verifyOriginStruct P session.peerCert up.signature
      (up.origin P session.peerSubject) = .ok true)
    (hlisted : Listed P ca s (.str up.recipient) (inputs 5).now cert)
    (hstorable : Storable P session s up)
    (hshort : wireLength P (.obj up.ackPayload) ≤ 60000000) :
    sent (serve P ca session env s inputs).hist = [(.UPLOAD_ACK, up.ackPayload)] ∧
      Stored P session (serve P ca session env s inputs).store up := by
  have hrun := wp_solo_iff.mp (wp_handleUploadRequest_accepted (t := Solo.start s inputs) hund rfl
    hauth hkeys hgate hsender hparse hverify hlisted hstorable hshort)
  rw [← dispatch_of_upload htype] at hrun
  exact hrun

theorem find?_nonces_serve_upload {nonce : Bytes} (htype : env.type = .UPLOAD_REQUEST)
    (hne : nonce ≠ env.nonceBytes) (hnew : s.nonces.find? nonce = none) :
    (serve P ca session env s inputs).store.nonces.find? nonce = none := by
  have hrun := wp_solo_iff.mp
    (@find?_nonces_upload P ca session env (Solo.start s inputs) nonce hne hnew)
  rw [← dispatch_of_upload htype] at hrun
  exact hrun

/-! ## Delivering -/

/-- The recipient asks for the file in time, with a request that is let through. -/
structure AsksFor (recipient : Session) (env : Envelope) (inputs : ℕ → Input) (s : ServerState)
    (up : Upload) : Prop where
  type : env.type = .DOWNLOAD_REQUEST
  fileId : dictGet env.payload "file_id" = some (.str up.fileId)
  recipient : recipient.peerSubject = up.recipient
  gate : PassesGate env (inputs 0).now s
  inTime : (inputs 3).now < up.expirationInt

/-- What answers the recipient. -/
def Upload.response (P : Primitives) (session : Session) (up : Upload) (aad : Bytes) : Obj :=
  downloadPayload (.str up.fileId) (up.row P session aad) up.ciphertext

/-- A stored upload is sent if the message is not too long. -/
theorem wp_dispatch_of_stored {Q : Alone → Except PyExn Unit → Prop}
    (hund : Undisturbed t.inputs) (hsent : sent t.hist = [])
    (hask : AsksFor recipient env t.inputs t.store up) (hid : up.fileId.any isSurrogate = false)
    (hrow : t.store.files.find? up.fileId = some (up.row P session aad))
    (hblob : t.store.disk (fileBlobPathFor up.fileId) = some up.ciphertext)
    (hfits : Fits P .DOWNLOAD_RESPONSE (up.response P session aad) (t.inputs 6) → ∀ t' : Alone,
      sent t'.hist = [(.DOWNLOAD_RESPONSE, up.response P session aad)] → Q t' (.ok ()))
    (hlong : ¬ Fits P .DOWNLOAD_RESPONSE (up.response P session aad) (t.inputs 6) →
      ∀ e, ∀ t' : Alone, sent t'.hist = [] → Q t' (.error e)) :
    wpE (.solo (exec P)) (dispatch P ca recipient env) t Q := by
  have hdispatch : dispatch P ca recipient env = handleDownloadRequest P recipient env := by
    rw [dispatch, hask.type]
  rw [hdispatch]
  refine wp_replayGate hund (fun _ t₁ hq₁ => ?_) fun hnot => absurd hask.gate hnot
  have hund₁ := hq₁.undisturbed hund
  rw [hask.fileId]
  dsimp only
  have hget : t₁.store.getFile P (.str up.fileId) = .ok (some (up.row P session aad)) := by
    rw [hq₁.getFile, ServerState.getFile, bindKey_of_str hid, ok_bind, Option.bind_some, hrow]
    rfl
  have hnow : (t₁.inputs 1).now = (t.inputs 3).now := by rw [hq₁.inputs]
  have hverdict : downloadVerdict recipient (some (up.row P session aad)) (t₁.inputs 1).now =
      .ok (up.row P session aad) :=
    downloadVerdict_eq_ok.mpr ⟨rfl, hask.recipient.symm, hnow ▸ hask.inTime, rfl⟩
  refine (wpE_bind ..).mpr (wp_authoriseDownload hund₁ (fun e he => ?_)
    fun row t₂ hrow' hquiet _ _ => ?_)
  · rw [bindKey_of_str hid] at he
    cases he
  · obtain rfl := Except.ok.inj (hget.symm.trans hrow')
    have hq₂ := hq₁.trans (hquiet _ hverdict)
    rw [hverdict]
    dsimp only
    have hblob₂ : t₂.store.disk (fileBlobPathFor up.fileId) = some up.ciphertext := by
      rw [hq₂.disk, hblob]
    have hisFile : t₂.answer (exec P) (.isFile (fileBlobPathFor up.fileId)) = .ok true := by
      rw [answer_isFile (hq₂.undisturbed hund 0).fault, hblob₂]
      rfl
    have hq₃ := hq₂.trans (quietly_next P t₂ (.isFile (fileBlobPathFor up.fileId)) rfl rfl)
    have hread : (t₂.next (exec P) (.isFile (fileBlobPathFor up.fileId))).answer (exec P)
        (.readBytes (fileBlobPathFor up.fileId)) = .ok up.ciphertext := by
      rw [answer_readBytes (hq₃.undisturbed hund 0).fault, ServerState.readBytes, hq₃.disk, hblob]
    have hq₄ := hq₃.trans (quietly_next P _ (.readBytes (fileBlobPathFor up.fileId)) rfl rfl)
    show wpE _ (serveDownload P (.str up.fileId) (up.row P session aad)) t₂ _
    unfold serveDownload
    dsimp only [strOf]
    rw [wpE_solo_act_bind hisFile, if_pos rfl, wpE_bind, wpE_attempt, wpE_solo_act, hread]
    have hinput := congrFun hq₄.inputs 0
    refine wp_sendMessage (hq₄.undisturbed hund 0) (fun hf t₅ _ hs => ?_) fun hl e t₅ _ hs => ?_
    · rw [hinput] at hf
      exact hfits hf t₅ (by rw [hs, hq₄.sent, hsent]; rfl)
    · rw [hinput] at hl
      exact hlong hl e t₅ (by rw [hs, hq₄.sent, hsent])

/-- The download as a whole. -/
theorem sent_serve_of_stored (hund : Undisturbed inputs) (hask : AsksFor recipient env inputs s up)
    (hid : isCanonicalUuid up.fileId = true)
    (hrow : s.files.find? up.fileId = some (up.row P session aad))
    (hblob : s.disk (fileBlobPathFor up.fileId) = some up.ciphertext) :
    (Fits P .DOWNLOAD_RESPONSE (up.response P session aad) (inputs 6) →
        sent (serve P ca recipient env s inputs).hist =
          [(.DOWNLOAD_RESPONSE, up.response P session aad)]) ∧
      (¬ Fits P .DOWNLOAD_RESPONSE (up.response P session aad) (inputs 6) →
        sent (serve P ca recipient env s inputs).hist = []) := by
  have hrun : wpE (.solo (exec P)) (dispatch P ca recipient env) (Solo.start s inputs) fun t' _ =>
      (Fits P .DOWNLOAD_RESPONSE (up.response P session aad) (inputs 6) →
          sent t'.hist = [(.DOWNLOAD_RESPONSE, up.response P session aad)]) ∧
        (¬ Fits P .DOWNLOAD_RESPONSE (up.response P session aad) (inputs 6) →
          sent t'.hist = []) :=
    wp_dispatch_of_stored (t := Solo.start s inputs) hund rfl hask
      (not_surrogate_of_isPlain (isPlain_of_isCanonicalUuid hid)) hrow hblob
      (fun hfits _ hsent => ⟨fun _ => hsent, fun hlong => absurd hfits hlong⟩)
      fun hlong _ _ hsent => ⟨fun hfits => absurd hfits hlong, fun _ => hsent⟩
  exact wp_solo_iff.mp hrun

/-! ## The length of the response -/

/-- The length of the message that carries an upload to its recipient. -/
def Upload.responseLength (P : Primitives) (session : Session) (up : Upload) (aad : Bytes)
    (now : ℤ) : ℕ :=
  b64Length up.ciphertext.length + b64Length up.wrappedKey.length + b64Length up.aesNonce.length +
    b64Length aad.length + b64Length up.signature.length + textLength session.peerSubject +
    textLength (dumps P storedOptions (.obj session.peerCert)) +
    (intRepr up.timestampInt).length + (intRepr up.expirationInt).length +
    (intRepr now).length + 344

theorem textLength_responseKeys : textLength (py "file_id") = 9 ∧
    textLength (py "sender_id") = 11 ∧ textLength (py "timestamp") = 11 ∧
    textLength (py "expiration") = 12 ∧ textLength (py "ciphertext") = 12 ∧
    textLength (py "wrapped_key") = 13 ∧ textLength (py "aes_nonce") = 11 ∧
    textLength (py "aes_aad") = 9 ∧ textLength (py "sender_signature") = 18 ∧
    textLength (py "sender_cert_json") = 18 ∧
    textLength MessageType.DOWNLOAD_RESPONSE.name = 19 := by
  decide

/-- **The response fits if and only if the sum is not too large.** -/
theorem fits_response_iff {i : Input} (hi : i.Healthy) (hid : isCanonicalUuid up.fileId = true) :
    Fits P .DOWNLOAD_RESPONSE (up.response P session aad) i ↔
      up.responseLength P session aad i.now ≤ MAX_MESSAGE_BYTES := by
  obtain ⟨n, hn⟩ := hi.requestId
  obtain ⟨h1, h2, h3, h4, h5, h6, h7, h8, h9, h10, h11⟩ := textLength_responseKeys
  have hlength : wireLength P (makeEnvelope .DOWNLOAD_RESPONSE (up.response P session aad) i.nonce
      i.now i.requestId) = up.responseLength P session aad i.now := by
    rw [hn, wireLength_makeEnvelope P _ _ _ n hi.nonce, Upload.response, downloadPayload,
      wireLength_obj, Upload.responseLength]
    simp only [List.map_cons, List.map_nil, List.sum_cons, List.sum_nil, itemLength, h1, h2, h3, h4,
      h5, h6, h7, h8, h9, h10, h11, wireLength_str, wireLength_int, textLength_b64encode,
      textLength_of_isCanonicalUuid hid, Upload.row]
    omega
  rw [Fits, hlength]

/-! ## Delivery -/

/-- The response around a stored upload is packed, and reaches the recipient. -/
def Delivered (P : Primitives) (ca : Bytes) (session recipient : Session) (env : Envelope)
    (s : ServerState) (inputs : ℕ → Input) (up : Upload) (aad : Bytes) : Prop :=
  (∃ body, packMessage P (makeEnvelope .DOWNLOAD_RESPONSE (up.response P session aad)
      (inputs 6).nonce (inputs 6).now (inputs 6).requestId) = .ok body) ∧
    sent (serve P ca recipient env s inputs).hist =
      [(.DOWNLOAD_RESPONSE, up.response P session aad)]

/-- **An acknowledged upload is delivered if and only if it is short enough.**  In between
other requests may be served, as long as they leave the row and the blob as they are. -/
theorem delivered_iff (hund : Undisturbed inputs) (htype : env.type = .UPLOAD_REQUEST)
    (hparse : parseUpload env.payload = .ok up)
    (haad : aadBytes up.fileId session.peerSubject up.recipient = .ok aad)
    (hack : ∃ payload,
      (MessageType.UPLOAD_ACK, payload) ∈ sent (serve P ca session env s inputs).hist)
    (hrow : s'.files.find? up.fileId = (serve P ca session env s inputs).store.files.find? up.fileId)
    (hblob : s'.disk (fileBlobPathFor up.fileId) =
      (serve P ca session env s inputs).store.disk (fileBlobPathFor up.fileId))
    (hund' : Undisturbed inputs') (hask : AsksFor recipient env' inputs' s' up) :
    Delivered P ca session recipient env' s' inputs' up aad ↔
      up.responseLength P session aad (inputs' 6).now ≤ MAX_MESSAGE_BYTES := by
  have hcanon := (readFrom_of_parseUpload hparse).canonical
  have hdispatch := @dispatch_of_upload P ca session env htype
  have hstored : Stored P session (serve P ca session env s inputs).store up := by
    have hrun := wp_solo_iff.mp
      (@wp_handleUploadRequest_ackStored P ca session env (Solo.start s inputs) hund rfl)
    rw [serve, hdispatch]
    rw [serve, hdispatch] at hack
    rcases hrun with hno | ⟨up', hparse', hstored⟩
    · obtain ⟨payload, hmem⟩ := hack
      exact absurd hmem (hno payload)
    · obtain rfl := Except.ok.inj (hparse.symm.trans hparse')
      exact hstored
  obtain ⟨aad', haad', hfound, hdata⟩ := hstored
  obtain rfl := Except.ok.inj (haad.symm.trans haad')
  have hsent := @sent_serve_of_stored P ca session recipient env' s' inputs' up aad hund' hask
    hcanon (hrow.trans hfound) (hblob.trans hdata)
  rw [← fits_response_iff (hund' 6) hcanon, Delivered, packMessage_eq_ok]
  exact ⟨fun h => h.1, fun h => ⟨h, hsent.1 h⟩⟩

/-! ### Sample uploads -/

theorem authenticated_alice : alice.Authenticated samplePrimitives [1] where
  certified := ⟨100, certCheck_alice⟩
  key := ⟨.numbered 65, by decide⟩

theorem healthyKeys_sampleInit : HealthyKeys samplePrimitives [1] sampleInit := by
  intro name data h
  exact ⟨bobText, bob.peerCert, (disk_sampleInit h).1, jsonLoads_bobText, ⟨_, certCheck_bob.signed⟩,
    exists_certInDate certCheck_bob.inDate⟩

/-- `alice`'s signature on an upload of zeros for `bob`. -/
def zeroSignature : Bytes :=
  sampleSign 65 (originCanonical samplePrimitives ⟨py "alice", py "bob", sampleId,
    sha256Hex samplePrimitives (List.replicate 32 0), sha256Hex samplePrimitives [2], .int 100,
    .int 1000⟩)

/-- An upload of `n` zeros. -/
def zeroPayload (n : ℕ) : Obj :=
  uploadPayload sampleId (py "bob") (List.replicate n 0) [3] [2] zeroSignature 100 1000

/-- Its fields. -/
def zeroFields (n : ℕ) : Upload where
  fileId := sampleId
  recipient := py "bob"
  timestamp := .int 100
  expiration := .int 1000
  timestampInt := 100
  expirationInt := 1000
  ciphertext := List.replicate n 0
  aesNonce := [3]
  wrappedKey := [2]
  signature := zeroSignature

/-- Its envelope. -/
def zeroUpload (n : ℕ) : Envelope := .numbered 1 .UPLOAD_REQUEST 100 (zeroPayload n)

/-- What authenticates it. -/
def zeroAad : Bytes := (aadText sampleId (py "alice") (py "bob")).flatMap utf8Char

theorem aadBytes_zeroFields {n : ℕ} :
    aadBytes (zeroFields n).fileId alice.peerSubject (zeroFields n).recipient = .ok zeroAad := by
  show aadBytes sampleId (py "alice") (py "bob") = .ok zeroAad
  decide

theorem readFrom_zeroFields {n : ℕ} : (zeroFields n).ReadFrom (zeroPayload n) :=
  readFrom_uploadPayload (by decide) (by decide)

/-- The hash of the sample primitives shows the last octets only. -/
theorem sha256_zeros {n : ℕ} :
    samplePrimitives.sha256 (List.replicate n 0) = List.replicate 32 0 := by
  show ((List.replicate n (0 : UInt8)).reverse ++ List.replicate 32 0).take 32 = _
  rw [List.reverse_replicate, List.replicate_append_replicate, List.take_replicate]
  congr 1

theorem verify_zeroSignature {n : ℕ} :
    verifyOriginStruct samplePrimitives alice.peerCert (zeroFields n).signature
      ((zeroFields n).origin samplePrimitives alice.peerSubject) = .ok true := by
  have hsignature : (zeroFields n).signature = zeroSignature := by dsimp only [zeroFields]
  have horigin : (zeroFields n).origin samplePrimitives alice.peerSubject =
      (zeroFields 32).origin samplePrimitives alice.peerSubject := by
    have hhex : sha256Hex samplePrimitives (List.replicate n 0) =
        sha256Hex samplePrimitives (List.replicate 32 0) := by
      rw [sha256Hex, sha256Hex, sha256_zeros, sha256_zeros]
    rw [Upload.origin, Upload.origin]
    dsimp only [zeroFields]
    rw [hhex]
  rw [hsignature, horigin]
  decide +kernel

/-- The upload's row can be inserted. -/
theorem storable_zeroFields {n : ℕ} : Storable samplePrimitives alice sampleInit (zeroFields n) := by
  have hread : (zeroFields n).ReadFrom (zeroUpload n).payload := readFrom_zeroFields
  have hbind := @bindFileRow_row samplePrimitives [1] alice _ _ zeroAad authenticated_alice
    encodable_sampleFloat hread
  refine (storable_iff aadBytes_zeroFields hbind).mpr ?_
  have h64 : Is64Bit 100 ∧ Is64Bit 1000 := by
    rw [Is64Bit, Is64Bit]
    decide
  rintro (hfree | hts | hexp)
  · exact hfree rfl
  · exact hts h64.1
  · exact hexp h64.2

/-- The sample store after the upload of `n` zeros. -/
def zeroServed (n : ℕ) : Outcome Op Op.Res Input ServerState (Except PyExn Unit) :=
  serve samplePrimitives [1] alice (zeroUpload n) sampleInit fun _ => sampleInput 100

/-- **However long, the upload is acknowledged and stored.** -/
theorem zeroServed_acked (n : ℕ) :
    sent (zeroServed n).hist = [(.UPLOAD_ACK, (zeroFields n).ackPayload)] ∧
      Stored samplePrimitives alice (zeroServed n).store (zeroFields n) := by
  have hund : Undisturbed fun _ => sampleInput 100 := undisturbed_sampleInput (by decide)
  have hfresh : isStale 100 100 = false := by decide
  have hread : (zeroFields n).ReadFrom (zeroUpload n).payload := readFrom_zeroFields
  have h64 : Is64Bit 1000 := by
    rw [Is64Bit]
    decide
  exact serve_upload_accepted hund rfl authenticated_alice healthyKeys_sampleInit ⟨hfresh, rfl⟩
    certCheck_alice (parseUpload_of_readFrom hread) verify_zeroSignature listed_bob
    storable_zeroFields (wireLength_ackPayload hread h64)

theorem length_zeroSignature : zeroSignature.length = 296 := by decide +kernel

/-- The length of the message in which the upload comes. -/
theorem wireLength_zeroUpload (n : ℕ) :
    wireLength samplePrimitives (makeEnvelope .UPLOAD_REQUEST (zeroPayload n) (List.replicate 16 1)
      100 (uuidStr 0)) = b64Length n + 716 := by
  have hkeys : textLength (py "file_id") = 9 ∧ textLength (py "recipient") = 11 ∧
      textLength (py "ciphertext") = 12 ∧ textLength (py "nonce") = 7 ∧
      textLength (py "wrapped_key") = 13 ∧ textLength (py "signature") = 11 ∧
      textLength (py "timestamp") = 11 ∧ textLength (py "expiration") = 12 := by decide
  have hvalues : textLength sampleId = 38 ∧ textLength (py "bob") = 5 ∧
      textLength MessageType.UPLOAD_REQUEST.name = 16 ∧ (intRepr 100).length = 3 ∧
      (intRepr 1000).length = 4 := by decide
  obtain ⟨h1, h2, h3, h4, h5, h6, h7, h8⟩ := hkeys
  obtain ⟨h9, h10, h11, h12, h13⟩ := hvalues
  rw [wireLength_makeEnvelope _ _ _ _ _ (List.length_replicate ..), zeroPayload, uploadPayload,
    wireLength_obj]
  simp only [List.map_cons, List.map_nil, List.sum_cons, List.sum_nil, itemLength, h1, h2, h3, h4,
    h5, h6, h7, h8, h9, h10, h11, h12, h13, wireLength_str, wireLength_int, textLength_b64encode,
    List.length_replicate, List.length_cons, List.length_nil, length_zeroSignature, b64Length]
  omega

/-- The length of the message in which it would be delivered. -/
theorem responseLength_zeroFields (n : ℕ) :
    (zeroFields n).responseLength samplePrimitives alice zeroAad 100 = b64Length n + 1153 := by
  have hlengths : zeroAad.length = 46 ∧ textLength alice.peerSubject = 7 ∧
      textLength (dumps samplePrimitives storedOptions (.obj alice.peerCert)) = 324 ∧
      (intRepr 100).length = 3 ∧ (intRepr 1000).length = 4 := by decide +kernel
  obtain ⟨h1, h2, h3, h4, h5⟩ := hlengths
  rw [Upload.responseLength]
  dsimp only [zeroFields]
  rw [length_zeroSignature, List.length_replicate, h1, h2, h3, h4, h5]
  simp only [List.length_cons, List.length_nil, b64Length]

/-- `bob` asks for them. -/
def zeroAsk : Envelope := .numbered 2 .DOWNLOAD_REQUEST 100 [(py "file_id", .str sampleId)]

theorem asksFor_zeroAsk (n : ℕ) :
    AsksFor bob zeroAsk (fun _ => sampleInput 100) (zeroServed n).store (zeroFields n) where
  type := rfl
  fileId := rfl
  recipient := rfl
  gate := by
    have hfresh : isStale 100 100 = false := by decide
    have hne : zeroAsk.nonceBytes ≠ (zeroUpload n).nonceBytes := by
      show (b64decode (b64encode (List.replicate 16 2))).getD [] ≠
        (b64decode (b64encode (List.replicate 16 1))).getD []
      rw [b64decode_b64encode, b64decode_b64encode]
      decide
    have hnew : sampleInit.nonces.find? zeroAsk.nonceBytes = none := rfl
    refine ⟨hfresh, ?_⟩
    unfold zeroServed
    exact find?_nonces_serve_upload rfl hne hnew
  inTime := by
    show (100 : ℤ) < 1000
    decide

/-- A short upload is delivered. -/
theorem delivered_zeros :
    Delivered samplePrimitives [1] alice bob zeroAsk (zeroServed 100).store (fun _ => sampleInput 100)
      (zeroFields 100) zeroAad := by
  have hund : Undisturbed fun _ => sampleInput 100 := undisturbed_sampleInput (by decide)
  have hread : (zeroFields 100).ReadFrom (zeroUpload 100).payload := readFrom_zeroFields
  have hmem : (MessageType.UPLOAD_ACK, (zeroFields 100).ackPayload) ∈ sent (zeroServed 100).hist := by
    rw [(zeroServed_acked 100).1]
    exact List.mem_singleton_self _
  refine (delivered_iff hund rfl (parseUpload_of_readFrom hread) aadBytes_zeroFields
    ⟨_, hmem⟩ rfl rfl hund (asksFor_zeroAsk 100)).mpr ?_
  show (zeroFields 100).responseLength samplePrimitives alice zeroAad 100 ≤ MAX_MESSAGE_BYTES
  rw [responseLength_zeroFields]
  decide

/-- An upload of 50331111 zeros fills its message, and is acknowledged; the message that should
deliver it is too long, and nothing is sent. -/
theorem not_delivered_zeros :
    Undisturbed (fun _ => sampleInput 100) ∧
      (∃ body, packMessage samplePrimitives (makeEnvelope .UPLOAD_REQUEST (zeroPayload 50331111)
        (List.replicate 16 1) 100 (uuidStr 0)) = .ok body) ∧
      sent (zeroServed 50331111).hist = [(.UPLOAD_ACK, (zeroFields 50331111).ackPayload)] ∧
      AsksFor bob zeroAsk (fun _ => sampleInput 100) (zeroServed 50331111).store (zeroFields 50331111) ∧
      sent (serve samplePrimitives [1] bob zeroAsk (zeroServed 50331111).store
        fun _ => sampleInput 100).hist = [] ∧
      ¬ Delivered samplePrimitives [1] alice bob zeroAsk (zeroServed 50331111).store
        (fun _ => sampleInput 100) (zeroFields 50331111) zeroAad := by
  have hund : Undisturbed fun _ => sampleInput 100 := undisturbed_sampleInput (by decide)
  obtain ⟨aad, haad, hrow, hblob⟩ := (zeroServed_acked 50331111).2
  obtain rfl := Except.ok.inj (aadBytes_zeroFields.symm.trans haad)
  have hid : isCanonicalUuid sampleId = true := by decide
  have hlong : ¬ Fits samplePrimitives .DOWNLOAD_RESPONSE
      ((zeroFields 50331111).response samplePrimitives alice zeroAad) (sampleInput 100) := by
    rw [fits_response_iff (hund 0) hid]
    show ¬ (zeroFields 50331111).responseLength samplePrimitives alice zeroAad 100 ≤ _
    rw [responseLength_zeroFields]
    decide
  have hsent := @sent_serve_of_stored samplePrimitives [1] alice bob zeroAsk _ _ _ zeroAad hund
    (asksFor_zeroAsk 50331111) hid hrow hblob
  refine ⟨hund, (packMessage_eq_ok _).mpr ?_, (zeroServed_acked 50331111).1, asksFor_zeroAsk 50331111,
    hsent.2 hlong, fun hdelivered => hlong ((packMessage_eq_ok _).mp hdelivered.1)⟩
  rw [wireLength_zeroUpload]
  decide

end Server
end ZeroTrust
