import ZeroTrust.Common.Faithful
import ZeroTrust.Server.Provenance

/-!
# Stored evidence

The server verifies a signature over the values as they came, and stores what SQLite makes of
them.  A text and an integer come back as they are.  A boolean passes the test for an integer,
is signed as `true` and comes back as `1`, so that nobody can verify the stored signature
again.

* `FileRow.reverify`, `AckRow.reverify`: the verification of what is stored.
* `originReverifies_iff`, `ackReverifies_iff`: it succeeds exactly if no boolean was signed.
* `stored_evidence_reverifies_iff`: the same for every run and every answered request.
-/

namespace ZeroTrust
namespace Server

open Python Effects Data

/-! ## The verification of what is stored -/

/-- The origin struct of a stored row. -/
def FileRow.origin (P : Primitives) (row : FileRow) : Origin where
  sender := row.senderId
  recipient := row.recipientId
  fileId := row.fileId
  ciphertextSha256 := row.ciphertextSha256
  wrappedKeySha256 := sha256Hex P row.wrappedKey
  timestamp := .int row.uploadTimestamp
  expiration := .int row.expiration

/-- `verify_origin_struct` of a stored row, with the stored certificate. -/
def FileRow.reverify (P : Primitives) (row : FileRow) : Except PyExn Bool := do
  match ← P.jsonLoads row.senderCertJson with
  | .obj cert => verifyOriginStruct P cert row.senderSignature (row.origin P)
  | _ => throw .typeError

/-- The verification of a stored acknowledgement, under the key of a certificate. -/
def AckRow.reverify (P : Primitives) (cert : Obj) (row : AckRow) : Except PyExn Bool :=
  verifyAck P cert ⟨row.fileId, .int row.ackTimestamp, row.ackTimestamp, row.ackSignature⟩

/-- The item of a payload is a boolean. -/
def isBoolItem (payload : Obj) (key : String) : Prop := ∃ b, dictGet payload key = some (.bool b)

/-- `json.loads` reads the text of a stored certificate back, as the same value. -/
def ReadsBack (P : Primitives) (cert : Obj) : Prop :=
  ∃ cert', P.jsonLoads (dumps P storedOptions (.obj cert)) = .ok (.obj cert') ∧
    (Json.obj cert).Same (.obj cert')

/-- A signature verifies over one text only. -/
def SignaturesBind (P : Primitives) : Prop :=
  ∀ key data data' signature, P.pssVerify key data signature = true →
    P.pssVerify key data' signature = true → data = data'

variable {P : Primitives}

/-- The same certificate has the same key. -/
theorem certPem_of_same {cert cert' : Obj} (hsame : (Json.obj cert).Same (.obj cert'))
    (hdict : (cert.map Prod.fst).Nodup) : certPem cert' = certPem cert := by
  have hitem := hsame.lookup hdict (py "public_key_pem")
  unfold certPem dictItem dictGet
  generalize cert.lookup (py "public_key_pem") = v, cert'.lookup (py "public_key_pem") = v' at hitem
  cases hitem with
  | none => rfl
  | some h => cases h <;> rfl

/-- A signature over a canonical text verifies under a certificate's key. -/
def Verified (P : Primitives) (cert : Obj) (canonical : Except PyExn Bytes) (signature : Bytes) :
    Prop :=
  ∃ pem data, certPem cert = .ok pem ∧ canonical = .ok data ∧
    rsaVerify P pem data signature = .ok true

theorem verifyAck_eq_ok_true {cert : Obj} {req : SignedRequest} :
    verifyAck P cert req = .ok true ↔
      Verified P cert (ackCanonical P req.fileId req.timestamp) req.signature := by
  constructor
  · intro h
    obtain ⟨pem, hpem, h⟩ := bind_eq_ok.mp h
    obtain ⟨data, hdata, h⟩ := bind_eq_ok.mp h
    exact ⟨pem, data, hpem, hdata, h⟩
  · rintro ⟨pem, data, hpem, hdata, h⟩
    rw [verifyAck, hpem, ok_bind, hdata, ok_bind, h]

/-- Under one key, one signature verifies over two canonical texts only if they are equal. -/
theorem Verified.same (hbind : SignaturesBind P) {cert : Obj} {signature : Bytes}
    {canonical canonical' : Except PyExn Bytes} (h : Verified P cert canonical signature)
    (h' : Verified P cert canonical' signature) :
    ∃ data, canonical = .ok data ∧ canonical' = .ok data := by
  obtain ⟨pem, data, hpem, hdata, hv⟩ := h
  obtain ⟨pem', data', hpem', hdata', hv'⟩ := h'
  obtain rfl := Except.ok.inj (hpem.symm.trans hpem')
  obtain ⟨key, hkey, hv⟩ := (rsaVerify_eq_ok_true P).mp hv
  obtain ⟨key', hkey', hv'⟩ := (rsaVerify_eq_ok_true P).mp hv'
  obtain rfl := Except.ok.inj (hkey.symm.trans hkey')
  obtain rfl := hbind key data data' signature hv hv'
  exact ⟨data, hdata, hdata'⟩

/-- What passes for an integer is one, or a boolean. -/
theorem eq_int_or_bool {v : Json} {i : ℤ} (h : v.asInt = some i) : v = .int i ∨ ∃ b, v = .bool b := by
  cases v with
  | int j => exact .inl (congrArg Json.int (Option.some.inj h))
  | bool b => exact .inr ⟨b, rfl⟩
  | _ => cases h

theorem built_of_texts {s : Origin} (htimestamp : s.timestamp.asInt.isSome = true)
    (hexpiration : s.expiration.asInt.isSome = true) : s.toJson.Built fun _ => True :=
  Origin.built (fun _ _ => trivial) (fun _ _ => trivial) htimestamp hexpiration

/-! ## Uploads -/

/-- **The origin signature of a stored row verifies again exactly if neither time was a
boolean.** -/
theorem originReverifies_iff (hbind : SignaturesBind P) {session : Session} {payload : Obj}
    {up : Upload} {aad : Bytes} {st : Status} (hread : up.ReadFrom payload)
    (hver : verifyOriginStruct P session.peerCert up.signature (up.origin P session.peerSubject) =
      .ok true) (hdict : (session.peerCert.map Prod.fst).Nodup)
    (hback : ReadsBack P session.peerCert) :
    ((up.row P session aad).withStatus st).reverify P = .ok true ↔
      ¬ isBoolItem payload "timestamp" ∧ ¬ isBoolItem payload "expiration" := by
  obtain ⟨cert', hloads, hsame⟩ := hback
  have hcert : ((up.row P session aad).withStatus st).reverify P =
      verifyOriginStruct P session.peerCert up.signature ((up.row P session aad).origin P) := by
    show (P.jsonLoads _ >>= _) = _
    rw [show ((up.row P session aad).withStatus st).senderCertJson =
      dumps P storedOptions (.obj session.peerCert) from rfl, hloads, ok_bind]
    show verifyStruct P cert' _ _ = verifyStruct P session.peerCert _ _
    unfold verifyStruct
    rw [certPem_of_same hsame hdict]
    rfl
  have hitem : ∀ {key v i}, dictGet payload key = some v → v.asInt = some i →
      (¬ isBoolItem payload key ↔ v = .int i) := by
    intro key v i hget hint
    constructor
    · intro hne
      rcases eq_int_or_bool hint with h | ⟨b, rfl⟩
      · exact h
      · exact absurd ⟨b, hget⟩ hne
    · rintro rfl ⟨b, hb⟩
      rw [hget] at hb
      cases hb
  rw [hcert, hitem hread.timestamp hread.timestampInt, hitem hread.expiration hread.expirationInt]
  constructor
  · intro h
    obtain ⟨data, hdata, hdata'⟩ := Verified.same hbind ((verifyStruct_eq_ok_true P).mp hver)
      ((verifyStruct_eq_ok_true P).mp h)
    have htime : (up.origin P session.peerSubject).timestamp.asInt.isSome = true := by
      show up.timestamp.asInt.isSome = true
      rw [hread.timestampInt]
      rfl
    have hexp : (up.origin P session.peerSubject).expiration.asInt.isSome = true := by
      show up.expiration.asInt.isSome = true
      rw [hread.expirationInt]
      rfl
    have hsame := same_of_canonicalJson (built_of_texts htime hexp) (built_of_texts rfl rfl) hdata
      hdata'
    have heq := Origin.eq_of_same htime hexp hsame
    exact ⟨congrArg Origin.timestamp heq, congrArg Origin.expiration heq⟩
  · rintro ⟨htime, hexp⟩
    rw [← hver]
    unfold Upload.origin FileRow.origin
    rw [htime, hexp]
    rfl

/-! ## Acknowledgements -/

/-- An acknowledgement struct over two timestamps is one text only if they are the same. -/
theorem ack_timestamp_inj {fileId : PyStr} {v w : Json} {data : Bytes}
    (hv : v.asInt.isSome = true) (hw : w.asInt.isSome = true)
    (h : ackCanonical P fileId v = .ok data) (h' : ackCanonical P fileId w = .ok data) : v = w := by
  have hkeys : (["file_id", "status", "timestamp"].map py).Nodup := by decide +kernel
  have hbuilt : ∀ u : Json, u.asInt.isSome = true → (ackJson fileId u).Built fun _ => True := by
    intro u hu
    refine .obj hkeys (fun _ _ => trivial) ?_
    simp only [List.forall_mem_cons]
    exact ⟨.str trivial, .str trivial, built_of_asInt hu, List.forall_mem_nil _⟩
  have hitem := (same_of_canonicalJson (hbuilt v hv) (hbuilt w hw) h h').lookup hkeys
    (py "timestamp")
  cases hitem with
  | some hsame => exact eq_of_same_of_asInt hv hsame

/-- **A stored acknowledgement verifies again exactly if its time was not a boolean.** -/
theorem ackReverifies_iff (hbind : SignaturesBind P) {cert payload : Obj} {req : SignedRequest}
    (hread : req.ReadFrom payload) (hver : verifyAck P cert req = .ok true) :
    req.ackRow.reverify P cert = .ok true ↔ ¬ isBoolItem payload "timestamp" := by
  rcases eq_int_or_bool hread.timestampInt with htime | ⟨b, htime⟩
  · refine iff_of_true ?_ ?_
    · rw [← hver]
      show verifyAck P cert ⟨req.fileId, .int req.timestampInt, req.timestampInt, req.signature⟩ = _
      rw [← htime]
    · rintro ⟨b, hb⟩
      have h := hread.timestamp.symm.trans hb
      rw [htime] at h
      cases h
  · refine iff_of_false (fun h => ?_) (not_not.mpr ⟨b, htime ▸ hread.timestamp⟩)
    obtain ⟨data, hdata, hdata'⟩ := Verified.same hbind (verifyAck_eq_ok_true.mp hver)
      (@verifyAck_eq_ok_true P cert ⟨req.fileId, .int req.timestampInt, req.timestampInt,
        req.signature⟩ |>.mp h)
    have h := ack_timestamp_inj (by rw [hread.timestampInt]; rfl) rfl hdata hdata'
    rw [htime] at h
    cases h

/-! ## Runs -/

variable {ca : Bytes} {s₀ s : ServerState} {t later earlier : List ServerItem}
  {js : List (Job Op Op.Res Label (Except PyExn Unit))} {x : ServerItem}

/-- After an `UPLOAD_ACK` the row is the one that the upload inserted, but for its status. -/
theorem row_of_uploadAck (hr : Run P ca s₀ t js s) (ht : t = later ++ x :: earlier)
    {session : Session} {env : Envelope} {payload : Obj} (hl : x.label = .request session env)
    (hop : x.ev.op = .send .UPLOAD_ACK payload) :
    ∃ (up : Upload) (aad : Bytes) (st : Status), up.ReadFrom env.payload ∧
      verifyOriginStruct P session.peerCert up.signature (up.origin P session.peerSubject) =
        .ok true ∧
      s.files.find? up.fileId = some ((up.row P session aad).withStatus st) := by
  have heff := hop ▸ effect_of_mem hr (show x ∈ t by simp [ht]) (by rw [hop]; rfl)
  generalize hp : x.past = past at heff
  rw [hl] at heff
  cases heff with
  | @uploadAck _ _ up aad g now htype hadm haad =>
    obtain ⟨⟨-, hparse, hver⟩, -⟩ := hadm
    obtain ⟨since, y, before, rfl, -, -, hyev, -, -⟩ := hr.exists_of_past ht hp
    have hty : t = (later ++ x :: since) ++ y :: before := by simp [ht]
    have hy : y ∈ t := by simp [ht]
    have hrow : HasRowButStatus (up.row P session aad) y.post :=
      ⟨.pending, hasRow_of_insertFile hr hy hyev⟩
    obtain ⟨st, hrow⟩ : HasRowButStatus (up.row P session aad) s :=
      hr.stable hty (fun z hz => hasRowButStatus_step hr (hty ▸ List.mem_append_left _ hz)) hrow
    exact ⟨up, aad, st, readFrom_of_parseUpload hparse, hver, hrow⟩

/-- A recorded acknowledgement stays as it is. -/
theorem ackRow_step (hr : Run P ca s₀ t js s) (hx : x ∈ t) {f : PyStr} {ack : AckRow}
    (h : x.pre.acks.find? f = some ack) : x.post.acks.find? f = some ack := by
  have hch := change_of_mem hr hx
  generalize x.ev = ev, x.post = post at hch
  cases hch with
  | @insertAck row acks hins =>
    show acks.find? f = some ack
    rw [Table.find?_insert? hins]
    split_ifs with hf
    · have hnew := hf ▸ Table.insert?_isNew hins
      rw [hnew] at h
      cases h
    · exact h
  | _ => exact h

/-- After an `ACK_OK` of a request that recorded the acknowledgement, its row is there. -/
theorem ack_of_ackOk (hr : Run P ca s₀ t js s) (ht : t = later ++ x :: earlier)
    {session : Session} {env : Envelope} {payload : Obj} {ack : AckRow}
    (hl : x.label = .request session env) (_ : x.ev.op = .send .ACK_OK payload)
    (hcreated : ⟨.insertAck ack, .ok ()⟩ ∈ x.past) :
    ∃ req, req.ReadFrom env.payload ∧ verifyAck P session.peerCert req = .ok true ∧
      s.acks.find? req.fileId = some req.ackRow := by
  obtain ⟨newer, older, hpast⟩ := List.append_of_mem hcreated
  obtain ⟨since, y, before, rfl, -, hyl, hyev, -⟩ := hr.exists_of_past_append ht hpast
  have hty : t = (later ++ x :: since) ++ y :: before := by simp [ht]
  have hy : y ∈ t := by simp [ht]
  have hyop : y.ev.op = .insertAck ack := congrArg Event.op hyev
  have heff := hyop ▸ effect_of_mem hr hy (by rw [hyop]; rfl)
  rw [hyl, hl] at heff
  generalize y.past = past at heff
  cases heff with
  | @insertAck _ _ req row g now htype hg =>
    obtain ⟨hparse, -, -, hver⟩ := hg
    have hrow : y.post.acks.find? req.fileId = some req.ackRow := by
      have hch := hyev ▸ change_of_mem hr hy
      generalize y.post = post at hch
      cases hch with
      | read _ hread => exact absurd hread Bool.false_ne_true
      | insertAck hins => exact (Table.find?_insert? hins _).trans (if_pos rfl)
    exact ⟨req, readFrom_of_parseSignedRequest hparse, hver,
      @System.Run.stable _ _ _ _ _ _ _ _ _ _ _ _ _ _
        (fun s => s.acks.find? req.fileId = some req.ackRow) hr hty
        (fun z hz => ackRow_step hr (hty ▸ List.mem_append_left _ hz)) hrow⟩

/-- **Stored evidence verifies again exactly if no boolean was signed.**  In every run: for an
upload that has been answered, the row that is read back passes `verify_origin_struct` if and
only if the request's times were no booleans; and likewise the signature of an acknowledgement
that has been recorded and answered. -/
theorem stored_evidence_reverifies_iff (hbind : SignaturesBind P) (hr : Run P ca s₀ t js s) :
    (∀ x ∈ t, ∀ session env payload, x.label = .request session env →
      x.ev.op = .send .UPLOAD_ACK payload → (session.peerCert.map Prod.fst).Nodup →
      ReadsBack P session.peerCert →
      ∃ f row, dictGet env.payload "file_id" = some (.str f) ∧ s.files.find? f = some row ∧
        (row.reverify P = .ok true ↔
          ¬ isBoolItem env.payload "timestamp" ∧ ¬ isBoolItem env.payload "expiration")) ∧
    ∀ x ∈ t, ∀ session env payload ack, x.label = .request session env →
      x.ev.op = .send .ACK_OK payload → ⟨.insertAck ack, .ok ()⟩ ∈ x.past →
      ∃ f row, dictGet env.payload "file_id" = some (.str f) ∧ s.acks.find? f = some row ∧
        (row.reverify P session.peerCert = .ok true ↔ ¬ isBoolItem env.payload "timestamp") := by
  constructor
  · intro x hx session env payload hl hop hdict hback
    obtain ⟨later, earlier, ht⟩ := List.append_of_mem hx
    obtain ⟨up, aad, st, hread, hver, hrow⟩ := row_of_uploadAck hr ht hl hop
    exact ⟨up.fileId, _, hread.fileId, hrow, originReverifies_iff hbind hread hver hdict hback⟩
  · intro x hx session env payload ack hl hop hcreated
    obtain ⟨later, earlier, ht⟩ := List.append_of_mem hx
    obtain ⟨req, hread, hver, hrow⟩ := ack_of_ackOk hr ht hl hop hcreated
    exact ⟨req.fileId, _, hread.fileId, hrow, ackReverifies_iff hbind hread hver⟩

/-! ### Times that are booleans -/

/-- The sample primitives with `alice`'s certificate too. -/
def evidencePrimitives : Primitives := .transparent
  [(bobText, .obj bob.peerCert),
    (dumps (.transparent []) storedOptions (.obj alice.peerCert), .obj alice.peerCert)]

/-- `alice` uploads, and `bob` acknowledges. -/
def sampleEvidence : Config Op Op.Res Input ServerState Label (Except PyExn Unit) :=
  (system evidencePrimitives [1]).play sampleInit
    (Move.alone (sampleUpload 1 [7]) 0 11 (.quiet 100) ++ Move.alone (sampleAck 2) 1 7 (.quiet 100))

theorem run_sampleEvidence : Run evidencePrimitives [1] sampleInit sampleEvidence.trace
    sampleEvidence.jobs sampleEvidence.store := by
  unfold sampleEvidence
  exact (system _ _).run_play _ _

theorem signaturesBind_evidencePrimitives : SignaturesBind evidencePrimitives :=
  fun _ _ _ _ => transparent_verify_inj

theorem readsBack_alice : ReadsBack evidencePrimitives alice.peerCert :=
  ⟨alice.peerCert, by decide +kernel, .refl _⟩

/-- `bob`'s acknowledgement. -/
def sampleAckRow : AckRow :=
  ⟨sampleId, sampleSign 66 (ackCanonical samplePrimitives sampleId (.int 100)), 100⟩

theorem sampleEvidence_checks :
    (∃ x ∈ sampleEvidence.trace, x.label = sampleUpload 1 [7] ∧
      x.ev.op = .send .UPLOAD_ACK [(py "file_id", .str sampleId), (py "expiration", .int 1000)]) ∧
    ∃ x ∈ sampleEvidence.trace, x.label = sampleAck 2 ∧
      x.ev.op = .send .ACK_OK (ackOkPayload sampleId) ∧
      ⟨.insertAck sampleAckRow, .ok ()⟩ ∈ x.past := by
  decide +kernel

/-- An upload and an acknowledgement with integers for their times are stored, and verify
again. -/
theorem stored_evidence_reverifies_sampleEvidence :
    (∃ row, sampleEvidence.store.files.find? sampleId = some row ∧
      row.reverify evidencePrimitives = .ok true) ∧
    ∃ row, sampleEvidence.store.acks.find? sampleId = some row ∧
      row.reverify evidencePrimitives bob.peerCert = .ok true := by
  obtain ⟨⟨x, hx, hl, hop⟩, y, hy, hl', hop', hcreated⟩ := sampleEvidence_checks
  have hnodup : (alice.peerCert.map Prod.fst).Nodup := by decide +kernel
  obtain ⟨hupload, hack⟩ := stored_evidence_reverifies_iff signaturesBind_evidencePrimitives
    run_sampleEvidence
  generalize sampleEvidence.store = s at hupload hack ⊢
  have hint : ∀ {payload : Obj} {key : String} {i : ℤ}, dictGet payload key = some (.int i) →
      ¬ isBoolItem payload key := by
    rintro payload key i h ⟨b, hb⟩
    rw [h] at hb
    cases hb
  constructor
  · obtain ⟨f, row, hf, hrow, hiff⟩ := hupload x hx alice _ _ hl hop hnodup readsBack_alice
    obtain rfl : sampleId = f := Json.str.inj (Option.some.inj hf)
    exact ⟨row, hrow, hiff.mpr ⟨@hint _ _ 100 rfl, @hint _ _ 1000 rfl⟩⟩
  · obtain ⟨f, row, hf, hrow, hiff⟩ := hack y hy bob _ _ _ hl' hop' hcreated
    obtain rfl : sampleId = f := Json.str.inj (Option.some.inj hf)
    exact ⟨row, hrow, hiff.mpr (@hint _ _ 100 rfl)⟩

/-- `alice` signs and sends `true` for the time of her upload. -/
def sampleBoolUpload : Label :=
  .request alice <| .numbered 1 .UPLOAD_REQUEST 100
    [(py "file_id", .str sampleId), (py "recipient", .str (py "bob")),
      (py "ciphertext", .str (b64encode [7])), (py "nonce", .str (b64encode [3])),
      (py "wrapped_key", .str (b64encode [2])),
      (py "signature", .str (b64encode (sampleSign 65 (originCanonical samplePrimitives
        ⟨py "alice", py "bob", sampleId, sha256Hex samplePrimitives [7],
          sha256Hex samplePrimitives [2], .bool true, .int 1000⟩)))),
      (py "timestamp", .bool true), (py "expiration", .int 1000)]

/-- It is stored. -/
def sampleBool : Config Op Op.Res Input ServerState Label (Except PyExn Unit) :=
  (system evidencePrimitives [1]).play sampleInit
    (Move.alone sampleBoolUpload 0 11 (.quiet 100))

/-- The upload is acknowledged, and what is stored does not verify again. -/
theorem not_reverify_sampleBool :
    Run evidencePrimitives [1] sampleInit sampleBool.trace sampleBool.jobs sampleBool.store ∧
      (∃ x ∈ sampleBool.trace, x.label = sampleBoolUpload ∧
        x.ev.op = .send .UPLOAD_ACK [(py "file_id", .str sampleId), (py "expiration", .int 1000)]) ∧
      (sampleBool.store.files.find? sampleId).map (FileRow.reverify evidencePrimitives) =
        some (.ok false) :=
  ⟨by unfold sampleBool; exact (system _ _).run_play _ _, by decide +kernel⟩

end Server
end ZeroTrust
