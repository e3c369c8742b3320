import ZeroTrust.Common.Faithful
import ZeroTrust.Server.Access
import ZeroTrust.Server.Undisturbed

/-!
# One request, one reply

A handler answers a request with one message, or an exception leaves it and the connection
ends.  Served undisturbed, from a store whose public keys are in order, it is the exception
in six cases only, which `Hazard` lists: a `file_id` that SQLite cannot bind, an upload of a
taken id or with a number that SQLite cannot bind, an acknowledgement with such a number, and
three replies that are longer than a message may be.

* `InLockstep`: one message was sent, an error where the payload is malformed, and the handler
  returned.
* `Hazard`: the requests that end the connection.
* `inLockstep_iff`: every other request is answered, and none of these is.
-/

namespace ZeroTrust
namespace Server

open Python Effects Data

variable {P : Primitives} {ca : Bytes} {s : ServerState} {session : Session} {env : Envelope}
  {inputs : ℕ → Input} {t : Alone}

/-! ## What is answered -/

/-- The payload lacks a field, or a field has not its form. -/
def Malformed (env : Envelope) : Prop :=
  match env.type with
  | .GET_PUBKEY => validUsername ((dictGet env.payload "username").getD .null) = false
  | .LIST_PENDING => False
  | .UPLOAD_REQUEST => ∀ up, parseUpload env.payload ≠ .ok up
  | .DOWNLOAD_REQUEST => dictGet env.payload "file_id" = none
  | .DOWNLOAD_ACK | .REVOKE_REQUEST => ∀ req, parseSignedRequest env.payload ≠ .ok req
  | _ => True

/-- One message was sent, an error where the payload is malformed, and the handler
returned. -/
structure InLockstep (env : Envelope)
    (o : Outcome Op Op.Res Input ServerState (Except PyExn Unit)) : Prop where
  returns : o.value = .ok ()
  one : ∃ m, sent o.hist = [m] ∧ (Malformed env → m.1 = .ERROR)

/-- An integer that SQLite can store. -/
def Is64Bit (i : ℤ) : Prop := -2 ^ 63 ≤ i ∧ i < 2 ^ 63

/-- An upload that SQLite refuses: its id is taken, or one of its numbers cannot be bound. -/
def Unstorable (s : ServerState) (up : Upload) : Prop :=
  s.files.find? up.fileId ≠ none ∨ ¬ Is64Bit up.timestampInt ∨ ¬ Is64Bit up.expirationInt

section

variable (P : Primitives) (ca : Bytes) (session : Session) (env : Envelope) (inputs : ℕ → Input)
  (s : ServerState)

/-- The certificate is too long for a message. -/
inductive PubkeyHazard : Prop where
  | long {cert : Obj}
      (found : Listed P ca s ((dictGet env.payload "username").getD .null) (inputs 2).now cert)
      (long : ¬ Fits P .PUBKEY_RESPONSE [(py "cert", .obj cert)] (inputs 3))

/-- The listing is too long for a message. -/
inductive ListHazard : Prop where
  | long (long : ¬ Fits P .PENDING_LIST (listingPayload s session.peerSubject (inputs 0).now)
      (inputs ((pendingRows s session.peerSubject (inputs 0).now).length + 2)))

/-- An upload that passes every check is not inserted. -/
inductive UploadHazard : Prop where
  | refused {up : Upload} {cert : Obj} (gate : PassesGate env (inputs 0).now s)
      (sender : CertCheck P ca session.peerCert (inputs 2).now (some session.peerSubject))
      (fields : parseUpload env.payload = .ok up)
      (signature : verifyOriginStruct P session.peerCert up.signature
        (up.origin P session.peerSubject) = .ok true)
      (recipient : Listed P ca s (.str up.recipient) (inputs 5).now cert)
      (refused : Unstorable s up)

/-- The id of a download cannot be bound, or the file is too long for a message. -/
inductive DownloadHazard : Prop where
  | unboundId {v : Json} {e : PyExn} (gate : PassesGate env (inputs 0).now s)
      (fileId : dictGet env.payload "file_id" = some v) (key : bindKey P v = .error e)
  | long {v : Json} {row : FileRow} {ciphertext : Bytes} (gate : PassesGate env (inputs 0).now s)
      (fileId : dictGet env.payload "file_id" = some v)
      (found : s.getFile P v = .ok (some row)) (recipient : row.recipientId = session.peerSubject)
      (expiration : (inputs 3).now < row.expiration) (status : row.status = .pending)
      (blob : s.disk (fileBlobPathFor (strOf P v)) = some ciphertext)
      (long : ¬ Fits P .DOWNLOAD_RESPONSE (downloadPayload v row ciphertext) (inputs 6))

/-- An acknowledgement that passes every check is not inserted. -/
inductive AckHazard : Prop where
  | refused {req : SignedRequest} {row : FileRow} (gate : PassesGate env (inputs 0).now s)
      (fields : parseSignedRequest env.payload = .ok req)
      (found : s.files.find? req.fileId = some row)
      (recipient : row.recipientId = session.peerSubject)
      (sender : CertCheck P ca session.peerCert (inputs 3).now (some session.peerSubject))
      (signature : verifyAck P session.peerCert req = .ok true)
      (refused : ¬ Is64Bit req.timestampInt)

/-- **The requests that end the connection.** -/
def Hazard : Prop :=
  match env.type with
  | .GET_PUBKEY => PubkeyHazard P ca env inputs s
  | .LIST_PENDING => ListHazard P session inputs s
  | .UPLOAD_REQUEST => UploadHazard P ca session env inputs s
  | .DOWNLOAD_REQUEST => DownloadHazard P session env inputs s
  | .DOWNLOAD_ACK => AckHazard P ca session env inputs s
  | _ => False

end

/-! ## What the parts raise -/

/-- What a reading of a payload raises is caught as malformed. -/
def RaisesMalformed {α : Type} (x : Except PyExn α) : Prop :=
  ∀ e, x = .error e → isMalformed e = true

theorem RaisesMalformed.bind {α β : Type} {x : Except PyExn α} {f : α → Except PyExn β}
    (hx : RaisesMalformed x) (hf : ∀ a, RaisesMalformed (f a)) : RaisesMalformed (x >>= f) := by
  intro e h
  cases x with
  | error e' =>
    cases h
    exact hx _ rfl
  | ok a => exact hf a e h

theorem raisesMalformed_ok {α : Type} (a : α) : RaisesMalformed (.ok a) := nofun

theorem raisesMalformed_dictItem (payload : Obj) (key : String) :
    RaisesMalformed (dictItem payload key) := by
  intro e h
  unfold dictItem at h
  split at h <;> cases h
  rfl

theorem raisesMalformed_parseFileId (v : Json) : RaisesMalformed (parseFileId v) := by
  intro e h
  unfold parseFileId at h
  split at h
  · split at h
    · cases h
      rfl
    · split_ifs at h
      cases h
      rfl
  · cases h
    rfl

theorem raisesMalformed_parseRecipient (v : Json) : RaisesMalformed (parseRecipient v) := by
  intro e h
  unfold parseRecipient at h
  split at h
  · split_ifs at h
    cases h
    rfl
  · cases h
    rfl

theorem raisesMalformed_requireInt (msg : String) (v : Json) :
    RaisesMalformed (requireInt msg v) := by
  intro e h
  unfold requireInt at h
  split at h <;> cases h
  rfl

theorem raisesMalformed_decodeB64Field (payload : Obj) (name : String) :
    RaisesMalformed (decodeB64Field payload name) := by
  intro e h
  unfold decodeB64Field at h
  split at h
  · cases h
    rfl
  · split at h <;> cases h
    rfl

theorem raisesMalformed_parseUpload (payload : Obj) : RaisesMalformed (parseUpload payload) :=
  .bind (raisesMalformed_dictItem _ _) fun _ => .bind (raisesMalformed_dictItem _ _) fun _ =>
    .bind (raisesMalformed_dictItem _ _) fun _ => .bind (raisesMalformed_dictItem _ _) fun _ =>
    .bind (raisesMalformed_parseFileId _) fun _ => .bind (raisesMalformed_parseRecipient _) fun _ =>
    .bind (raisesMalformed_requireInt _ _) fun _ => .bind (raisesMalformed_requireInt _ _) fun _ =>
    .bind (raisesMalformed_decodeB64Field _ _) fun _ =>
    .bind (raisesMalformed_decodeB64Field _ _) fun _ =>
    .bind (raisesMalformed_decodeB64Field _ _) fun _ =>
    .bind (raisesMalformed_decodeB64Field _ _) fun _ => raisesMalformed_ok _

theorem raisesMalformed_parseSignedRequest (payload : Obj) :
    RaisesMalformed (parseSignedRequest payload) :=
  .bind (raisesMalformed_dictItem _ _) fun _ => .bind (raisesMalformed_dictItem _ _) fun _ =>
    .bind (raisesMalformed_parseFileId _) fun _ => .bind (raisesMalformed_requireInt _ _) fun _ =>
    .bind (raisesMalformed_decodeB64Field _ _) fun _ => raisesMalformed_ok _

/-- With a key that can be loaded a struct is verified or refused, and nothing is raised. -/
theorem exists_verifyStruct {cert : Obj} {v : Json} {signature : Bytes}
    (hkey : ∃ key, certKey P cert = .ok key) :
    ∃ b, verifyStruct P cert (canonicalJson P v) signature = .ok b := by
  obtain ⟨key, hkey⟩ := hkey
  obtain ⟨pem, hpem, hload⟩ := bind_eq_ok.mp hkey
  unfold verifyStruct
  rw [hpem]
  cases hc : canonicalJson P v with
  | error e =>
    have he : e = .unicodeEncodeError := by
      unfold canonicalJson encodeText at hc
      split at hc <;> cases hc
      rfl
    subst he
    exact ⟨false, rfl⟩
  | ok data =>
    refine ⟨P.pssVerify key data signature, ?_⟩
    simp only [ok_bind, rsaVerify, hload]
    rfl

theorem not_surrogate_of_isPlain {f : PyStr} (h : f.all isPlain = true) :
    f.any isSurrogate = false := by
  rw [List.any_eq_false]
  intro c hc
  have hplain := of_decide_eq_true (List.all_eq_true.mp h c hc)
  rw [Bool.not_eq_true, isSurrogate, decide_eq_false (by omega), Bool.false_and]

/-- The canonical text of a UUID is plain. -/
theorem isPlain_of_isCanonicalUuid {f : PyStr} (h : isCanonicalUuid f = true) :
    f.all isPlain = true := by
  unfold isCanonicalUuid at h
  split at h
  · next n _ => exact of_decide_eq_true h ▸ isPlain_uuidStr n
  · exact absurd h Bool.false_ne_true

/-- A username is plain. -/
theorem isPlain_of_validUsername {f : PyStr} (h : validUsername (.str f) = true) :
    f.all isPlain = true := by
  obtain ⟨-, -, hall⟩ := of_decide_eq_true h
  rw [List.all_eq_true] at hall ⊢
  intro c hc
  have hchar := of_decide_eq_true (hall c hc)
  exact decide_eq_true (by omega)

/-- The subject of a session is a text that can be encoded: it is part of what the CA has
signed. -/
theorem Session.Authenticated.encodable (h : session.Authenticated P ca) :
    Encodable session.peerSubject := by
  obtain ⟨now, hcert⟩ := h.certified
  have hsigned := hcert.signed
  have hmem : (py "subject", Json.str session.peerSubject) ∈ stripSignature session.peerCert := by
    have hne : py "subject" ≠ py "signature" := by decide
    have hget : session.peerCert.lookup (py "subject") = some (.str session.peerSubject) :=
      of_decide_eq_true hcert.subject
    obtain ⟨newer, older, heq, -⟩ := List.lookup_eq_some_iff.mp hget
    exact List.mem_filter.mpr ⟨by simp [heq], decide_eq_true hne⟩
  unfold certSignatureOk at hsigned
  split_ifs at hsigned
  · cases hsigned
  split at hsigned
  · cases hsigned
  · obtain ⟨body, hbody, -⟩ := bind_eq_ok.mp hsigned
    exact encodable_of_canonicalJson hbody hmem

/-! ## The ends of a request -/

/-- The two ends that a request can come to. -/
def Ends (env : Envelope) (hazard : Prop) (t : Alone) (r : Except PyExn Unit) : Prop :=
  (r = .ok () ∧ (∃ m, sent t.hist = [m] ∧ (Malformed env → m.1 = .ERROR)) ∧ ¬ hazard) ∨
    ((∃ e, r = .error e) ∧ hazard)

/-- A request that has run for `k` operations, and has sent nothing yet. -/
abbrev Underway (s : ServerState) (inputs : ℕ → Input) (k : ℕ) (t : Alone) : Prop :=
  Quietly (Solo.start s inputs) k t

theorem Underway.input {k : ℕ} (h : Underway s inputs k t) : t.inputs 0 = inputs k := by
  rw [h.inputs]
  show inputs (0 + k) = _
  rw [Nat.zero_add]

theorem Underway.healthy {k : ℕ} (h : Underway s inputs k t) (hund : Undisturbed inputs) :
    (t.inputs 0).Healthy := h.input ▸ hund k

/-- An error is sent. -/
theorem wp_sendError_ends {code : String} {hazard : Prop} (hi : (t.inputs 0).Healthy)
    (hsent : sent t.hist = []) (hcode : (py code).length ≤ 1000) (hno : ¬ hazard) :
    wpE (.solo (exec P)) (sendError code) t (Ends env hazard) := by
  refine wp_sendError hi hcode fun t' _ hsent' => ?_
  exact .inl ⟨rfl, ⟨(.ERROR, errorPayload code), by rw [hsent', hsent, List.nil_append],
    fun _ => rfl⟩, hno⟩

/-- A reply is sent, or is too long. -/
theorem wp_sendMessage_ends {type : MessageType} {payload : Obj} {hazard : Prop}
    (hi : (t.inputs 0).Healthy) (hsent : sent t.hist = []) (hform : ¬ Malformed env)
    (hno : Fits P type payload (t.inputs 0) → ¬ hazard)
    (hlong : ¬ Fits P type payload (t.inputs 0) → hazard) :
    wpE (.solo (exec P)) (sendMessage type payload) t (Ends env hazard) := by
  refine wp_sendMessage hi (fun hfits t' _ hsent' => ?_) fun h e t' _ _ => .inr ⟨⟨e, rfl⟩, hlong h⟩
  exact .inl ⟨rfl, ⟨(type, payload), by rw [hsent', hsent, List.nil_append],
    fun hm => absurd hm hform⟩, hno hfits⟩

/-- A request behind the gate. -/
theorem wp_gate_ends {body : ServerM Unit} {hazard : Prop} (hund : Undisturbed inputs)
    (hgate : hazard → PassesGate env (inputs 0).now s)
    (hpass : PassesGate env (inputs 0).now s → ∀ t, Underway s inputs 2 t →
      wpE (.solo (exec P)) body t (Ends env hazard)) :
    wpE (.solo (exec P)) (replayGate env body) (.start s inputs) (Ends env hazard) := by
  refine wp_replayGate hund hpass fun hnot t' _ hsent => ?_
  exact .inl ⟨rfl, ⟨_, hsent, fun _ => rfl⟩, fun h => hnot (hgate h)⟩

/-! ## Certificates and listings -/

/-- A certificate request. -/
theorem wp_handleGetPubkey (hund : Undisturbed inputs) (hkeys : HealthyKeys P ca s)
    (htype : env.type = .GET_PUBKEY) :
    wpE (.solo (exec P)) (handleGetPubkey P ca env) (.start s inputs)
      (Ends env (PubkeyHazard P ca env inputs s)) := by
  rw [handleGetPubkey, wpE_bind]
  refine wp_loadVerifiedPubkeyCert hund hkeys (fun k t hq hnone => ?_) fun cert t hq hfound => ?_
  · refine wp_sendError_ends (Underway.healthy hq hund) hq.sent (by decide) ?_
    rintro ⟨hfound, -⟩
    exact hnone _ hfound
  · have hform : ¬ Malformed env := by
      obtain ⟨path, -, -, hpath, -⟩ := hfound
      simp only [Malformed, htype]
      intro hname
      rw [pubkeyPathFor, hname, if_neg Bool.false_ne_true] at hpath
      cases hpath
    refine wp_sendMessage_ends (Underway.healthy hq hund) hq.sent hform ?_ ?_
    · rintro hfits ⟨hfound', hlong⟩
      obtain rfl := hfound.unique hfound'
      exact hlong (Underway.input hq ▸ hfits)
    · exact fun hlong => ⟨hfound, Underway.input hq ▸ hlong⟩

/-- A listing. -/
theorem wp_handleListPending (hund : Undisturbed inputs)
    (hname : session.peerSubject.any isSurrogate = false) (htype : env.type = .LIST_PENDING) :
    wpE (.solo (exec P)) (handleListPending session) (.start s inputs)
      (Ends env (ListHazard P session inputs s)) := by
  have hform : ¬ Malformed env := by
    simp only [Malformed, htype]
    exact id
  rw [handleListPending, wpE_bind]
  refine wp_listPendingFor hund hname fun t hq => (wpE_bind ..).mpr ?_
  refine wp_pendingEntries (hq.undisturbed hund) fun t' hq' => ?_
  have hall : Underway s inputs ((pendingRows s session.peerSubject (inputs 0).now).length + 2) t' := by
    rw [Nat.add_comm]
    exact hq.trans hq'
  rw [hq.blobSize]
  refine wp_sendMessage_ends (hall.healthy hund) hall.sent hform (fun hfits hz => ?_) fun hlong => ?_
  · obtain ⟨hlong⟩ := hz
    exact hlong (hall.input ▸ hfits)
  · exact ⟨hall.input ▸ hlong⟩

/-! ## Downloads -/

/-- A download from its authorisation on. -/
theorem wp_serveDownload {k : Json} {row : FileRow} {hazard : Prop} (hund : Undisturbed t.inputs)
    (hsent : sent t.hist = []) (hform : ¬ Malformed env)
    (hhazard : hazard ↔ ∃ ciphertext, t.store.disk (fileBlobPathFor (strOf P k)) = some ciphertext ∧
      ¬ Fits P .DOWNLOAD_RESPONSE (downloadPayload k row ciphertext) (t.inputs 2)) :
    wpE (.solo (exec P)) (serveDownload P k row) t (Ends env hazard) := by
  have hfile := quietly_next P t (.isFile (fileBlobPathFor (strOf P k))) rfl rfl
  rw [serveDownload, wpE_solo_act_bind (answer_isFile (hund 0).fault)]
  cases hd : t.store.disk (fileBlobPathFor (strOf P k)) with
  | none =>
    rw [Option.isSome_none, if_neg Bool.false_ne_true]
    refine wp_sendError_ends (hund 1) (hfile.sent.trans hsent) (by decide) fun hz => ?_
    obtain ⟨ciphertext, hdata, -⟩ := hhazard.mp hz
    rw [hd] at hdata
    cases hdata
  | some ciphertext =>
    have hread := hfile.trans (quietly_next P _ (.readBytes (fileBlobPathFor (strOf P k))) rfl rfl)
    rw [Option.isSome_some, if_pos rfl, wpE_bind, wpE_attempt, wpE_solo_act,
      answer_readBytes (hund 1).fault, store_next_of_isRead rfl, ServerState.readBytes, hd]
    refine wp_sendMessage_ends (hund 2) (hread.sent.trans hsent) hform (fun hfits hz => ?_)
      fun hlong => hhazard.mpr ⟨_, hd, hlong⟩
    obtain ⟨ciphertext', hdata, hlong⟩ := hhazard.mp hz
    obtain rfl := Option.some.inj (hd.symm.trans hdata)
    exact hlong hfits

/-- A download request. -/
theorem wp_handleDownloadRequest (hund : Undisturbed inputs) (htype : env.type = .DOWNLOAD_REQUEST) :
    wpE (.solo (exec P)) (handleDownloadRequest P session env) (.start s inputs)
      (Ends env (DownloadHazard P session env inputs s)) := by
  have hgates : DownloadHazard P session env inputs s → PassesGate env (inputs 0).now s := by
    rintro (⟨hgate, -, -⟩ | ⟨hgate, -, -, -, -, -, -, -⟩) <;> exact hgate
  refine wp_gate_ends hund hgates fun hgate t hq => ?_
  cases hid : dictGet env.payload "file_id" with
  | none =>
    refine wp_sendError_ends (Underway.healthy hq hund) hq.sent (by decide) ?_
    rintro (⟨-, hid', -⟩ | ⟨-, hid', -, -, -, -, -, -⟩) <;>
    · rw [hid] at hid'
      cases hid'
  | some k =>
    have hform : ¬ Malformed env := by
      simp only [Malformed, htype]
      rw [hid]
      exact nofun
    dsimp only
    refine (wpE_bind ..).mpr (wp_authoriseDownload (hq.undisturbed hund) (fun e he t' hq' => ?_)
      fun row t' hrow hquiet hund' hsent => ?_)
    · exact .inr ⟨⟨e, rfl⟩, .unboundId hgate hid he⟩
    · have hnow : (t.inputs 1).now = (inputs 3).now := by
        rw [hq.inputs]
        rfl
      rw [hq.getFile] at hrow
      obtain ⟨key, hkey, -⟩ := getFile_eq_ok.mp hrow
      cases hv : downloadVerdict session row (t.inputs 1).now with
      | error code =>
        refine wp_sendError_ends (hund' 0) (hsent.trans hq.sent) (length_downloadVerdict hv) ?_
        rintro (⟨-, hid', hbad⟩ | ⟨-, hid', hfound, hrec, hexp, hst, -, -⟩)
        · obtain rfl := Option.some.inj (hid.symm.trans hid')
          rw [hkey] at hbad
          cases hbad
        · obtain rfl := Option.some.inj (hid.symm.trans hid')
          obtain rfl := Except.ok.inj (hrow.symm.trans hfound)
          have hok := downloadVerdict_eq_ok.mpr ⟨rfl, hrec, hnow ▸ hexp, hst⟩
          rw [hv] at hok
          cases hok
      | ok row' =>
        obtain ⟨rfl, hrec, hexp, hst⟩ := downloadVerdict_eq_ok.mp hv
        have hq' : Underway s inputs 4 t' := hq.trans (hquiet row' hv)
        have hinput : t'.inputs 2 = inputs 6 := by
          rw [hq'.inputs]
          rfl
        refine wp_serveDownload hund' hq'.sent hform ?_
        rw [hq'.disk, hinput]
        constructor
        · rintro (⟨-, hid', hbad⟩ | ⟨-, hid', hfound, -, -, -, hblob, hlong⟩)
          · obtain rfl := Option.some.inj (hid.symm.trans hid')
            rw [hkey] at hbad
            cases hbad
          · obtain rfl := Option.some.inj (hid.symm.trans hid')
            obtain rfl := Option.some.inj (Except.ok.inj (hrow.symm.trans hfound))
            exact ⟨_, hblob, hlong⟩
        · rintro ⟨ciphertext, hblob, hlong⟩
          exact .long hgate hid hrow hrec (hnow ▸ hexp) hst hblob hlong

/-! ## Acknowledgements and revocations -/

theorem getFile_of_str {s : ServerState} {f : PyStr} (h : f.any isSurrogate = false) :
    s.getFile P (.str f) = .ok (s.files.find? f) :=
  getFile_eq_ok.mpr ⟨_, bindKey_of_str h, rfl⟩

/-- A payload that is read is not malformed, and one that is not is answered so. -/
theorem malformed_iff_signedRequest (htype : env.type = .DOWNLOAD_ACK ∨ env.type = .REVOKE_REQUEST) :
    Malformed env ↔ ∀ req, parseSignedRequest env.payload ≠ .ok req := by
  rcases htype with htype | htype <;> simp only [Malformed, htype]

/-- A signed request about a file, up to the certificate check.  What is refused before it is
refused with an error. -/
theorem wp_signedRequest_ends {hazard : Prop} {owner : FileRow → PyStr} {code : String}
    {f : SignedRequest → FileRow → Bool → ServerM Unit} (hcode : (py code).length ≤ 1000)
    (hund : Undisturbed inputs) (hauth : session.Authenticated P ca) (hq : Underway s inputs 2 t)
    (htype : env.type = .DOWNLOAD_ACK ∨ env.type = .REVOKE_REQUEST)
    (hhazard : hazard → ∃ req row, parseSignedRequest env.payload = .ok req ∧
      s.files.find? req.fileId = some row ∧ owner row = session.peerSubject)
    (hf : ∀ req row b t', parseSignedRequest env.payload = .ok req →
      s.files.find? req.fileId = some row → owner row = session.peerSubject →
      (b = true ↔ CertCheck P ca session.peerCert (inputs 3).now (some session.peerSubject)) →
      Underway s inputs 4 t' → ¬ Malformed env →
      wpE (.solo (exec P)) (f req row b) t' (Ends env hazard)) :
    wpE (.solo (exec P)) (match parseSignedRequest env.payload with
      | .error e => if isMalformed e then sendError "MALFORMED" else throw e
      | .ok req => do
          match ← act (Op.getFile (.str req.fileId)) with
          | none => sendError "NOT_FOUND"
          | some row =>
              if owner row ≠ session.peerSubject then sendError code
              else do
                let b ← verifyCertificate P (act Op.time) (.obj session.peerCert) ca
                  (some session.peerSubject)
                f req row b) t (Ends env hazard) := by
  cases hparse : parseSignedRequest env.payload with
  | error e =>
    dsimp only
    rw [if_pos (raisesMalformed_parseSignedRequest _ e hparse)]
    refine wp_sendError_ends (Underway.healthy hq hund) hq.sent (by decide) fun hz => ?_
    obtain ⟨req, row, hreq, -⟩ := hhazard hz
    rw [hparse] at hreq
    cases hreq
  | ok req =>
    have hform : ¬ Malformed env := fun hm => (malformed_iff_signedRequest htype).mp hm req hparse
    have hname := not_surrogate_of_isPlain
      (isPlain_of_isCanonicalUuid (readFrom_of_parseSignedRequest hparse).canonical)
    have hread := hq.trans (quietly_next P t (.getFile (.str req.fileId)) rfl rfl)
    have hrow : t.answer (exec P) (.getFile (.str req.fileId)) = .ok (s.files.find? req.fileId) := by
      rw [answer_getFile (Underway.healthy hq hund).fault, hq.getFile, getFile_of_str hname]
      rfl
    dsimp only
    rw [wpE_solo_act_bind hrow]
    cases hfind : s.files.find? req.fileId with
    | none =>
      refine wp_sendError_ends (Underway.healthy hread hund) hread.sent (by decide) fun hz => ?_
      obtain ⟨req', row, hreq, hfound, -⟩ := hhazard hz
      obtain rfl := Except.ok.inj (hparse.symm.trans hreq)
      rw [hfind] at hfound
      cases hfound
    | some row =>
      dsimp only
      by_cases howner : owner row = session.peerSubject
      · rw [if_neg (not_not.mpr howner)]
        refine wp_verifySession hauth fun b t' hq' hb => ?_
        rw [Underway.input hread] at hb
        exact hf req row b t' hparse hfind howner hb (hread.trans hq') hform
      · rw [if_pos howner]
        refine wp_sendError_ends (Underway.healthy hread hund) hread.sent hcode fun hz => ?_
        obtain ⟨req', row', hreq, hfound, howner'⟩ := hhazard hz
        obtain rfl := Except.ok.inj (hparse.symm.trans hreq)
        obtain rfl := Option.some.inj (hfind.symm.trans hfound)
        exact howner howner'

theorem textLength_of_isCanonicalUuid {f : PyStr} (h : isCanonicalUuid f = true) :
    textLength f = 38 := by
  rw [textLength_of_isPlain (isPlain_of_isCanonicalUuid h), length_of_isCanonicalUuid h]

/-- The three short replies about a file are short. -/
theorem wireLength_ackOkPayload {f : PyStr} (h : isCanonicalUuid f = true) :
    wireLength P (.obj (ackOkPayload f)) ≤ 60000000 := by
  have hkey : textLength (py "file_id") = 9 := by decide
  rw [ackOkPayload, wireLength_obj]
  simp [itemLength, hkey, textLength_of_isCanonicalUuid h]

theorem wireLength_revokeAckPayload {f : PyStr} (h : isCanonicalUuid f = true) :
    wireLength P (.obj (revokeAckPayload f)) ≤ 60000000 := by
  have hkey : textLength (py "file_id") = 9 := by decide
  have hstatus : textLength (py "status") = 8 ∧ textLength (py "revoked") = 9 := by decide
  rw [revokeAckPayload, wireLength_obj]
  simp [itemLength, hkey, hstatus, textLength_of_isCanonicalUuid h]

/-- A status is written, and the reply is sent. -/
theorem wp_markAndReply {fileId : PyStr} {st : Status} {type : MessageType} {payload : Obj}
    {hazard : Prop} (hund : Undisturbed t.inputs) (hname : fileId.any isSurrogate = false)
    (hst : ∀ text, st ≠ .other text) (hsent : sent t.hist = []) (hform : ¬ Malformed env)
    (hshort : wireLength P (.obj payload) ≤ 60000000) (hno : ¬ hazard) :
    wpE (.solo (exec P)) (markAndReply fileId st type payload) t (Ends env hazard) := by
  obtain ⟨hmark, -⟩ := answer_markStatus (hund 0).fault (bindKey_of_str hname) hst
  rw [markAndReply, wpE_bind, wpE_attempt, wpE_solo_act, hmark]
  exact wp_sendMessage_ends (hund 1) ((sent_next rfl).trans hsent) hform (fun _ => hno)
    fun hlong => absurd (fits_of_le (hund 1) hshort) hlong

/-- A revocation request is always answered. -/
theorem wp_handleRevokeRequest (hund : Undisturbed inputs) (hauth : session.Authenticated P ca)
    (htype : env.type = .REVOKE_REQUEST) :
    wpE (.solo (exec P)) (handleRevokeRequest P ca session env) (.start s inputs)
      (Ends env False) := by
  refine wp_gate_ends hund False.elim fun _ t hq => ?_
  refine @wp_signedRequest_ends _ _ _ _ _ _ _ _ FileRow.senderId _
    (fun req row b => if b then acceptRevoke P session req row else sendError "AUTH_FAILED")
    (by decide) hund hauth hq (.inr htype) False.elim fun req row b t' hparse _ _ _ hq' hform => ?_
  have hi := Underway.healthy hq' hund
  have hcanon := (readFrom_of_parseSignedRequest hparse).canonical
  have hname := not_surrogate_of_isPlain (isPlain_of_isCanonicalUuid hcanon)
  cases b with
  | false => exact wp_sendError_ends hi hq'.sent (by decide) id
  | true =>
    obtain ⟨good, hgood⟩ := @exists_verifyStruct P session.peerCert
      (revokeJson session.peerSubject req.fileId req.timestamp) req.signature hauth.key
    rw [if_pos rfl, acceptRevoke, wpE_bind, wpE_raising, verifyRevokeStruct, revokeCanonical, hgood]
    cases good with
    | false => exact wp_sendError_ends hi hq'.sent (by decide) id
    | true =>
      dsimp only
      rw [if_pos rfl]
      cases row.status with
      | pending =>
        exact wp_markAndReply (hq'.undisturbed hund) hname (by simp) hq'.sent hform
          (wireLength_revokeAckPayload hcanon) id
      | revoked =>
        exact wp_sendMessage_ends hi hq'.sent hform (fun _ => id) fun hlong =>
          absurd (fits_of_le hi (wireLength_revokeAckPayload hcanon)) hlong
      | _ => exact wp_sendError_ends hi hq'.sent (by decide) id

theorem bindInt_of_not_is64Bit {i : ℤ} (h : ¬ Is64Bit i) : bindInt i = .error .overflowError :=
  if_neg h

/-- What the insertion of an acknowledgement is answered with: the row is new, or was there
before, or its number cannot be bound. -/
theorem answer_insertAck {row : AckRow} (hi : (t.inputs 0).fault = none)
    (hname : row.fileId.any isSurrogate = false) :
    (Is64Bit row.ackTimestamp ∧ t.store.acks.find? row.fileId = none ∧
      t.answer (exec P) (.insertAck row) = .ok () ∧
      (t.next (exec P) (.insertAck row)).store.acks.find? row.fileId = some row) ∨
    (Is64Bit row.ackTimestamp ∧ t.store.acks.find? row.fileId ≠ none ∧
      t.answer (exec P) (.insertAck row) = .error .integrityError) ∨
    ¬ Is64Bit row.ackTimestamp ∧ t.answer (exec P) (.insertAck row) = .error .overflowError := by
  have htext : bindText row.fileId = .ok () := bindText_eq_ok.mpr hname
  have hraised : ∀ {e}, t.store.insertAck row = .error e →
      t.answer (exec P) (.insertAck row) = .error e :=
    fun hx => (raised_of_fault_none hi rfl hx).1
  by_cases hbit : Is64Bit row.ackTimestamp
  · have hint : bindInt row.ackTimestamp = .ok () := bindInt_eq_ok.mpr hbit
    cases hins : t.store.acks.insert? row with
    | none =>
      have hsome := Option.isSome_iff_ne_none.mp (Table.insert?_eq_none_iff.mp hins)
      refine .inr (.inl ⟨hbit, hsome, hraised ?_⟩)
      rw [ServerState.insertAck, htext, ok_bind, hint, ok_bind, hins]
      rfl
    | some acks =>
      have hinsert : t.store.insertAck row = .ok { t.store with acks } := by
        rw [ServerState.insertAck, htext, ok_bind, hint, ok_bind, hins]
        rfl
      obtain ⟨hdone, hstore⟩ : t.answer (exec P) (.insertAck row) = .ok () ∧
          (t.next (exec P) (.insertAck row)).store = { t.store with acks } :=
        done_of_fault_none hi rfl hinsert
      refine .inl ⟨hbit, Table.insert?_isNew hins, hdone, ?_⟩
      rw [hstore]
      exact (Table.find?_insert? hins _).trans (if_pos rfl)
  · refine .inr (.inr ⟨hbit, hraised ?_⟩)
    rw [ServerState.insertAck, htext, ok_bind, bindInt_of_not_is64Bit hbit]
    rfl

/-- An acknowledgement is inserted, or was there before, unless its number cannot be bound. -/
theorem wp_insertAck {row : AckRow} {Q : Alone → Except PyExn Unit → Prop}
    (hi : (t.inputs 0).Healthy) (hname : row.fileId.any isSurrogate = false)
    (hin : Is64Bit row.ackTimestamp → ∀ t' : Alone, t'.inputs = (fun n => t.inputs (n + 1)) →
      sent t'.hist = sent t.hist → Q t' (.ok ()))
    (hout : ¬ Is64Bit row.ackTimestamp → ∀ t' : Alone, Q t' (.error .overflowError)) :
    wpE (.solo (exec P)) (insertAck row) t Q := by
  rw [insertAck, wpE_bind, wpE_attempt, wpE_solo_act]
  rcases answer_insertAck hi.fault hname with ⟨hbit, -, ha, -⟩ | ⟨hbit, -, ha⟩ | ⟨hbit, ha⟩
  · rw [ha]
    exact hin hbit _ rfl (sent_next rfl)
  · rw [ha]
    exact hin hbit _ rfl (sent_next rfl)
  · rw [ha]
    exact hout hbit _

/-- An acknowledgement request. -/
theorem wp_handleDownloadAck (hund : Undisturbed inputs) (hauth : session.Authenticated P ca)
    (htype : env.type = .DOWNLOAD_ACK) :
    wpE (.solo (exec P)) (handleDownloadAck P ca session env) (.start s inputs)
      (Ends env (AckHazard P ca session env inputs s)) := by
  have hgates : AckHazard P ca session env inputs s → PassesGate env (inputs 0).now s := by
    rintro ⟨hgate, -, -, -, -, -, -⟩
    exact hgate
  refine wp_gate_ends hund hgates fun hgate t hq => ?_
  refine @wp_signedRequest_ends _ _ _ _ _ _ _ _ FileRow.recipientId _
    (fun req row b => if b then acceptAck P session req else sendError "AUTH_FAILED")
    (by decide) hund hauth hq (.inl htype) ?_ fun req row b t' hparse hrow hrec hb hq' hform => ?_
  · rintro ⟨-, hparse, hrow, hrec, -, -, -⟩
    exact ⟨_, _, hparse, hrow, hrec⟩
  · have hi := Underway.healthy hq' hund
    have hcanon := (readFrom_of_parseSignedRequest hparse).canonical
    have hname := not_surrogate_of_isPlain (isPlain_of_isCanonicalUuid hcanon)
    have hsame : AckHazard P ca session env inputs s →
        CertCheck P ca session.peerCert (inputs 3).now (some session.peerSubject) ∧
          verifyAck P session.peerCert req = .ok true ∧ ¬ Is64Bit req.timestampInt := by
      rintro ⟨-, hparse', -, -, hcert, hsig, hbad⟩
      obtain rfl := Except.ok.inj (hparse.symm.trans hparse')
      exact ⟨hcert, hsig, hbad⟩
    cases b with
    | false =>
      exact wp_sendError_ends hi hq'.sent (by decide) fun hz =>
        Bool.false_ne_true (hb.mpr (hsame hz).1)
    | true =>
      rw [if_pos rfl]
      unfold acceptAck
      cases hsig : verifyAck P session.peerCert req with
      | error e =>
        exact wp_sendError_ends hi hq'.sent (by decide) fun hz => by
          have := (hsame hz).2.1.symm.trans hsig
          cases this
      | ok good =>
        cases good with
        | false =>
          have hno : ¬ AckHazard P ca session env inputs s := fun hz => by
            have := (hsame hz).2.1.symm.trans hsig
            cases this
          dsimp only
          rw [wpE_bind, wpE_attempt]
          exact wp_sendError hi (by decide) fun t'' _ hsent => .inl ⟨rfl,
            ⟨(.ERROR, errorPayload "AUTH_FAILED"), by rw [hsent, hq'.sent]; rfl, fun _ => rfl⟩, hno⟩
        | true =>
          dsimp only
          refine (wpE_bind ..).mpr (wp_insertAck hi hname (fun hts t'' hinputs hsent => ?_)
            fun hts t'' => ?_)
          · have hund'' : Undisturbed t''.inputs := by
              rw [hinputs]
              exact (hq'.undisturbed hund).tail
            exact wp_markAndReply hund'' hname nofun (hsent.trans hq'.sent) hform
              (wireLength_ackOkPayload hcanon) fun hz => (hsame hz).2.2 hts
          · exact .inr ⟨⟨_, rfl⟩, .refused hgate hparse hrow hrec (hb.mp rfl) hsig hts⟩

/-! ## Uploads -/

theorem encodable_iff {f : PyStr} : Encodable f ↔ f.any isSurrogate = false := by
  simp [Encodable]

theorem encodable_of_isPlain {f : PyStr} (h : f.all isPlain = true) : Encodable f :=
  encodable_iff.mpr (not_surrogate_of_isPlain h)

theorem isPlain_hexdigest (b : Bytes) : (hexdigest b).all isPlain = true := by
  rw [List.all_eq_true]
  intro c hc
  obtain ⟨x, -, hc⟩ := List.mem_flatMap.mp hc
  rcases List.mem_cons.mp hc with rfl | hc
  · exact isPlain_hexDigit _
  · obtain rfl := List.mem_singleton.mp hc
    exact isPlain_hexDigit _

/-- The texts of an upload's row can all be bound: what is left to bind is its two numbers. -/
theorem bindFileRow_row {up : Upload} {aad : Bytes} (hauth : session.Authenticated P ca)
    (hfloat : ∀ x, Encodable (P.floatRepr x)) (hread : up.ReadFrom env.payload) :
    bindFileRow (up.row P session aad) =
      (bindInt up.timestampInt >>= fun _ => bindInt up.expirationInt) := by
  have hbind : ∀ {f : PyStr}, Encodable f → bindText f = .ok () :=
    fun h => bindText_eq_ok.mpr (encodable_iff.mp h)
  have hid := encodable_of_isPlain (isPlain_of_isCanonicalUuid hread.canonical)
  have hpath : Encodable (up.fileId ++ py ".bin") :=
    encodable_append.mpr ⟨hid, encodable_of_all (by decide)⟩
  have hcert : Encodable (dumps P storedOptions (.obj session.peerCert)) :=
    encodable_dumps_ascii rfl (encodable_of_all (by decide)) (encodable_of_all (by decide)) hfloat _
  have hstatus : Encodable (Status.text .pending) := encodable_of_all (by decide)
  simp only [bindFileRow, Upload.row, hbind hid, hbind hauth.encodable,
    hbind (encodable_of_isPlain (isPlain_of_validUsername hread.username)), hbind hpath,
    hbind hcert, hbind hstatus, hbind (encodable_of_isPlain (isPlain_hexdigest _)), sha256Hex, ok_bind]
  cases bindInt up.timestampInt with
  | error e => rfl
  | ok u =>
    cases bindInt up.expirationInt with
    | error e => rfl
    | ok u => rfl

theorem exists_aadBytes {f sender recipient : PyStr} (hf : Encodable f) (hs : Encodable sender)
    (hr : Encodable recipient) : ∃ aad, aadBytes f sender recipient = .ok aad := by
  have hbar : Encodable (py "|") := encodable_of_all (by decide)
  have htext : Encodable (aadText f sender recipient) :=
    encodable_append.mpr ⟨encodable_append.mpr ⟨encodable_append.mpr
      ⟨encodable_append.mpr ⟨hf, hbar⟩, hs⟩, hbar⟩, hr⟩
  refine ⟨(aadText f sender recipient).flatMap utf8Char, encodeText_eq_ok.mpr ?_⟩
  rw [utf8Encode, encodable_iff.mp htext, if_neg Bool.false_ne_true]

/-- An upload is stored where its id is free and its two numbers can be bound. -/
theorem storable_iff {up : Upload} {aad : Bytes}
    (haad : aadBytes up.fileId session.peerSubject up.recipient = .ok aad)
    (hbind : bindFileRow (up.row P session aad) =
      (bindInt up.timestampInt >>= fun _ => bindInt up.expirationInt)) :
    Storable P session s up ↔ ¬ Unstorable s up := by
  rw [Unstorable, not_or, not_or, not_not, not_not, not_not]
  constructor
  · rintro ⟨aad', haad', hrow, hfree⟩
    obtain rfl := Except.ok.inj (haad.symm.trans haad')
    obtain ⟨_, hts, hexp⟩ := bind_eq_ok.mp (hbind.symm.trans hrow)
    exact ⟨hfree, bindInt_eq_ok.mp hts, bindInt_eq_ok.mp hexp⟩
  · rintro ⟨hfree, hts, hexp⟩
    refine ⟨aad, haad, ?_, hfree⟩
    exact hbind.trans (bind_eq_ok.mpr ⟨(), bindInt_eq_ok.mpr hts, bindInt_eq_ok.mpr hexp⟩)

/-- The short reply to an upload is short. -/
theorem wireLength_ackPayload {up : Upload} (hread : up.ReadFrom env.payload)
    (hexp : Is64Bit up.expirationInt) : wireLength P (.obj up.ackPayload) ≤ 60000000 := by
  have hkeys : textLength (py "file_id") = 9 ∧ textLength (py "expiration") = 12 := by decide
  have hnum : wireLength P up.expiration ≤ 36 := by
    have hint := hread.expirationInt
    cases hv : up.expiration with
    | bool b =>
      rw [wireLength, dumps]
      cases b <;> decide
    | int i =>
      rw [hv, Json.asInt_int, Option.some.injEq] at hint
      subst hint
      rw [wireLength_int]
      exact (length_intRepr_lt hexp).le
    | _ =>
      rw [hv] at hint
      cases hint
  rw [Upload.ackPayload, wireLength_obj]
  simp only [List.map_cons, List.map_nil, List.sum_cons, List.sum_nil, itemLength, hkeys,
    wireLength_str, textLength_of_isCanonicalUuid hread.canonical]
  omega

/-- An upload request. -/
theorem wp_handleUploadRequest (hund : Undisturbed inputs) (hkeys : HealthyKeys P ca s)
    (hauth : session.Authenticated P ca) (hfloat : ∀ x, Encodable (P.floatRepr x))
    (htype : env.type = .UPLOAD_REQUEST) :
    wpE (.solo (exec P)) (handleUploadRequest P ca session env) (.start s inputs)
      (Ends env (UploadHazard P ca session env inputs s)) := by
  have hgates : UploadHazard P ca session env inputs s → PassesGate env (inputs 0).now s := by
    rintro ⟨hgate, -, -, -, -, -⟩
    exact hgate
  refine wp_gate_ends hund hgates fun hgate t hq => ?_
  refine wp_verifySession hauth fun b t₁ hq₁ hb => ?_
  have hq₁ : Underway s inputs 3 t₁ := hq.trans hq₁
  rw [Underway.input hq] at hb
  have hi₁ := Underway.healthy hq₁ hund
  cases b with
  | false =>
    refine wp_sendError_ends hi₁ hq₁.sent (by decide) ?_
    rintro ⟨-, hcert, -, -, -, -⟩
    exact Bool.false_ne_true (hb.mpr hcert)
  | true =>
    rw [if_pos rfl]
    cases hparse : parseUpload env.payload with
    | error e =>
      dsimp only
      rw [if_pos (raisesMalformed_parseUpload _ e hparse)]
      refine wp_sendError_ends hi₁ hq₁.sent (by decide) ?_
      rintro ⟨-, -, hparse', -, -, -⟩
      rw [hparse] at hparse'
      cases hparse'
    | ok up =>
      have hform : ¬ Malformed env := by
        simp only [Malformed, htype]
        exact fun hm => hm up hparse
      have hread := readFrom_of_parseUpload hparse
      obtain ⟨good, hgood⟩ := @exists_verifyStruct P session.peerCert
        (up.origin P session.peerSubject).toJson up.signature hauth.key
      have hsame : UploadHazard P ca session env inputs s →
          good = true ∧ (∃ cert, Listed P ca s (.str up.recipient) (inputs 5).now cert) ∧
            Unstorable s up := by
        rintro ⟨-, -, hparse', hsig, hlisted, hbad⟩
        obtain rfl := Except.ok.inj (hparse.symm.trans hparse')
        exact ⟨Except.ok.inj (hgood.symm.trans hsig), ⟨_, hlisted⟩, hbad⟩
      show wpE _ (acceptUpload P ca session up) t₁ _
      rw [acceptUpload, wpE_bind, wpE_raising, verifyOriginStruct, originCanonical, hgood]
      cases good with
      | false =>
        exact wp_sendError_ends hi₁ hq₁.sent (by decide) fun hz =>
          Bool.false_ne_true (hsame hz).1
      | true =>
        dsimp only
        rw [if_pos rfl]
        have hnow : (t₁.inputs 2).now = (inputs 5).now := by
          rw [hq₁.inputs]
          rfl
        have hlisted : ∀ cert, Listed P ca t₁.store (.str up.recipient) (t₁.inputs 2).now cert ↔
            Listed P ca s (.str up.recipient) (inputs 5).now cert := by
          intro cert
          rw [Listed, Listed, hq₁.disk, hnow]
          exact Iff.rfl
        have hkeys₁ : HealthyKeys P ca t₁.store := by
          rw [HealthyKeys, hq₁.disk]
          exact hkeys
        refine (wpE_bind ..).mpr (wp_loadVerifiedPubkeyCert (hq₁.undisturbed hund) hkeys₁
          (fun k t₂ hq₂ hnone => ?_) fun cert t₂ hq₂ hsome => ?_)
        · have hq₂ := hq₁.trans hq₂
          refine wp_sendError_ends (Underway.healthy hq₂ hund) hq₂.sent (by decide) fun hz => ?_
          obtain ⟨cert, hcert⟩ := (hsame hz).2.1
          exact hnone cert ((hlisted cert).mpr hcert)
        · have hq₃ : Underway s inputs 7 (t₂.next (exec P) .mkdirFiles) :=
            (hq₁.trans hq₂).trans (quietly_next P t₂ .mkdirFiles rfl rfl)
          have hmkdir : t₂.answer (exec P) .mkdirFiles = .ok () := by
            show (reading _ _ _).1 = _
            rw [reading_of_fault_none (Underway.healthy (hq₁.trans hq₂) hund).fault]
          obtain ⟨aad, haad⟩ := exists_aadBytes
            (encodable_of_isPlain (isPlain_of_isCanonicalUuid hread.canonical)) hauth.encodable
            (encodable_of_isPlain (isPlain_of_validUsername hread.username))
          have hstorable : Storable P session (t₂.next (exec P) .mkdirFiles).store up ↔
              ¬ Unstorable s up := by
            rw [Storable, hq₃.files]
            exact storable_iff haad (bindFileRow_row hauth hfloat hread)
          have hund₃ := hq₃.undisturbed hund
          dsimp only
          rw [wpE_solo_act_bind hmkdir, wpE_bind, wpE_attempt]
          refine wp_storeUpload hund₃ (fun hgood t₄ _ hinputs hsent => ?_)
            fun hbad e hne t₄ _ => ?_
          · have hgood := hstorable.mp hgood
            have hund₄ : Undisturbed t₄.inputs := by
              rw [hinputs]
              exact fun n => hund₃ (n + 3)
            have hexp : Is64Bit up.expirationInt := by
              by_contra hexp
              exact hgood (.inr (.inr hexp))
            exact wp_sendMessage_ends (hund₄ 0) (hsent.trans hq₃.sent) hform
              (fun _ hz => hgood (hsame hz).2.2)
              fun hlong => absurd (fits_of_le (hund₄ 0) (wireLength_ackPayload hread hexp)) hlong
          · have hbad : Unstorable s up := not_not.mp (mt hstorable.mpr hbad)
            have hz : UploadHazard P ca session env inputs s :=
              .refused hgate (hb.mp rfl) hparse hgood ((hlisted cert).mp hsome) hbad
            cases e with
            | osError => exact absurd rfl hne
            | _ => exact .inr ⟨⟨_, rfl⟩, hz⟩

/-! ## Every request -/

/-- **Lockstep.**  Served undisturbed, from a store whose public keys are in order, a request
is answered with one message if and only if it is none of those that end the connection. -/
theorem inLockstep_iff (hfloat : ∀ x, Encodable (P.floatRepr x)) (hund : Undisturbed inputs)
    (hkeys : HealthyKeys P ca s) (hauth : session.Authenticated P ca) (env : Envelope) :
    InLockstep env (serve P ca session env s inputs) ↔ ¬ Hazard P ca session env inputs s := by
  have hends : wpE (.solo (exec P)) (dispatch P ca session env) (.start s inputs)
      (Ends env (Hazard P ca session env inputs s)) := by
    have hi : ((Solo.start s inputs : Alone).inputs 0).Healthy := hund 0
    unfold dispatch Hazard
    cases htype : env.type with
    | GET_PUBKEY => exact wp_handleGetPubkey hund hkeys htype
    | LIST_PENDING => exact wp_handleListPending hund (encodable_iff.mp hauth.encodable) htype
    | UPLOAD_REQUEST => exact wp_handleUploadRequest hund hkeys hauth hfloat htype
    | DOWNLOAD_REQUEST => exact wp_handleDownloadRequest hund htype
    | DOWNLOAD_ACK => exact wp_handleDownloadAck hund hauth htype
    | REVOKE_REQUEST => exact wp_handleRevokeRequest hund hauth htype
    | _ => exact wp_sendError_ends hi rfl (by decide) id
  rcases wp_solo_iff.mp hends with ⟨hvalue, hone, hno⟩ | ⟨⟨e, he⟩, hz⟩
  · exact iff_of_true ⟨hvalue, hone⟩ hno
  · refine iff_of_false (fun h => ?_) (not_not.mpr hz)
    have := h.returns.symm.trans he
    cases this

/-! ### Sample requests -/

theorem healthyKeys_sampleStore : HealthyKeys samplePrimitives [1] sampleStore := by
  intro name data h
  have hne : (⟨.pubkeys, name⟩ : Path) ≠ fileBlobPathFor sampleId := fun h =>
    nomatch congrArg Path.dir h
  have hsome : (if (⟨.pubkeys, name⟩ : Path) = fileBlobPathFor sampleId then some [1] else none) =
      some data := h
  rw [if_neg hne] at hsome
  cases hsome

theorem encodable_sampleFloat (x : PyFloat) : Encodable (samplePrimitives.floatRepr x) := by
  have hzero : Encodable (py "0.0") := encodable_of_all (by decide)
  exact hzero

theorem authenticated_bob : bob.Authenticated samplePrimitives [1] where
  certified := ⟨100, certCheck_bob⟩
  key := ⟨.numbered 66, by decide⟩

/-- `bob` asks for the sample file. -/
def sampleAsk : Envelope := .numbered 1 .DOWNLOAD_REQUEST 100 [(py "file_id", .str sampleId)]

/-- `bob` asks for a file whose id is an array. -/
def sampleAskArray : Envelope := .numbered 1 .DOWNLOAD_REQUEST 100 [(py "file_id", .arr [])]

theorem not_downloadHazard_sampleAsk :
    ¬ DownloadHazard samplePrimitives bob sampleAsk (fun _ => sampleInput 100) sampleStore := by
  have hid : ∀ {v}, dictGet sampleAsk.payload "file_id" = some v → v = .str sampleId := by
    intro v hv
    exact (Option.some.inj hv).symm
  rintro (⟨-, hv, hkey⟩ | ⟨-, hv, hfound, -, -, -, hblob, hlong⟩)
  · obtain rfl := hid hv
    have hbind : bindKey samplePrimitives (.str sampleId) = .ok (some sampleId) := by decide
    rw [hbind] at hkey
    cases hkey
  · obtain rfl := hid hv
    have hrow : sampleStore.getFile samplePrimitives (.str sampleId) = .ok (some sampleRow) := by
      decide
    have hdata : sampleStore.disk (fileBlobPathFor (strOf samplePrimitives (.str sampleId))) =
        some [1] := by decide
    obtain rfl := Option.some.inj (Except.ok.inj (hrow.symm.trans hfound))
    obtain rfl := Option.some.inj (hdata.symm.trans hblob)
    refine hlong (fits_of_le (undisturbed_sampleInput (by decide) 0) ?_)
    decide +kernel

/-- The sample file is asked for and served. -/
theorem inLockstep_sampleAsk :
    InLockstep sampleAsk (serve samplePrimitives [1] bob sampleAsk sampleStore
      fun _ => sampleInput 100) :=
  (inLockstep_iff encodable_sampleFloat (undisturbed_sampleInput (by decide))
    healthyKeys_sampleStore authenticated_bob sampleAsk).mpr not_downloadHazard_sampleAsk

/-- The array is asked for, and the connection ends. -/
theorem not_inLockstep_sampleAskArray :
    Undisturbed (fun _ => sampleInput 100) ∧ HealthyKeys samplePrimitives [1] sampleStore ∧
      bob.Authenticated samplePrimitives [1] ∧
      ¬ InLockstep sampleAskArray (serve samplePrimitives [1] bob sampleAskArray sampleStore
        fun _ => sampleInput 100) := by
  refine ⟨undisturbed_sampleInput (by decide), healthyKeys_sampleStore, authenticated_bob, fun h => ?_⟩
  have hvalue : (serve samplePrimitives [1] bob sampleAskArray sampleStore
      fun _ => sampleInput 100).value = .error .programmingError := by decide +kernel
  have := h.returns.symm.trans hvalue
  cases this

end Server
end ZeroTrust
