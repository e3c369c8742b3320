import ZeroTrust.Effects.Interleaving
import ZeroTrust.Server.Handler

/-!
# What a handler has done when it acts

For every handler, the operations it may issue after each of its own histories.  This is
all that the rest of the development uses of the handlers' code: what a row, a reply or a
file operation says about the reads that came before it.  Nothing is assumed of the
answers, so other programs may run between any two operations.

* `passedGate`, `Refused`: the histories of the replay gate; `checkAndRecord_returns`: they are
  told apart by what `check_and_record` returns.
* `UploadStep`, `DownloadStep`, `AckStep`, `RevokeStep`, `ListStep`, `LookupStep`,
  `CleanupStep`: what each program has done when it issues an operation.
* `dispatch_guarantee`, `cleanup_guarantee`: the programs meet them.
-/

namespace ZeroTrust

open Python Effects

/-- The decoded nonce of an envelope. -/
def Envelope.nonceBytes (env : Envelope) : Bytes := (b64decode env.nonce).getD []

theorem Envelope.b64decode_nonce (env : Envelope) :
    b64decode env.nonce = some env.nonceBytes ∧ env.nonceBytes.length = 16 := by
  have h := env.nonce_valid
  unfold nonceBytes
  cases hb : b64decode env.nonce with
  | none => simp [hb] at h
  | some b => exact ⟨rfl, by simpa [hb] using h⟩

namespace Server

/-! ## The gate -/

/-- The history of a program that has just passed the replay gate: `check_and_record` has returned
`True` (`checkAndRecord_returns`). -/
def passedGate (env : Envelope) (now : ℤ) : List Ev :=
  [⟨.insertNonce env.nonceBytes now, .ok ()⟩, ⟨.time, .ok now⟩]

/-- The histories after which the gate refuses an envelope: `check_and_record` has returned `False`
(`checkAndRecord_returns`). -/
def Refused (env : Envelope) (h : List Ev) : Prop :=
  (∃ now, isStale now env.timestamp = true ∧ h = [⟨.time, .ok now⟩]) ∨
    ∃ now, isStale now env.timestamp = false ∧
      h = [⟨.insertNonce env.nonceBytes now, .error .integrityError⟩, ⟨.time, .ok now⟩]

/-- **What `check_and_record` returns**, whatever its operations answer: `True` where the gate is
passed, and `False` where it refuses. -/
theorem checkAndRecord_returns (env : Envelope) :
    wpE (.isolated fun _ _ => True) (checkAndRecord env.nonceBytes env.timestamp) [] fun h r =>
      (r = .ok true ↔ ∃ now, isStale now env.timestamp = false ∧ h = passedGate env now) ∧
        (r = .ok false ↔ Refused env h) := by
  obtain ⟨-, hlen⟩ := env.b64decode_nonce
  refine wpE_checkAndRecord hlen trivial (fun x => ?_) (fun now hs => ?_) fun now hs =>
    ⟨trivial, ?_, ?_, fun x hx => ?_⟩
  · simp [passedGate, Refused]
  · simp [passedGate, Refused, hs]
  · simp [passedGate, Refused, hs]
  · simp [passedGate, Refused, hs]
  · simp [passedGate, Refused, hx]

/-- A program behind the gate: it reads the clock, records the nonce, and then either
refuses or does what its body does. -/
inductive GateStep (env : Envelope) (B : List Ev → Op → Prop) : List Ev → Op → Prop where
  | time : GateStep env B [] .time
  | insertNonce {now : ℤ} : isStale now env.timestamp = false →
      GateStep env B [⟨.time, .ok now⟩] (.insertNonce env.nonceBytes now)
  | refuse {h : List Ev} : Refused env h →
      GateStep env B h (.send .ERROR (errorPayload "STALE"))
  | body {now : ℤ} {g : List Ev} {e : Op} : isStale now env.timestamp = false → B g e →
      GateStep env B (g ++ passedGate env now) e

/-- A program that issues only what `A` allows, from its start on. -/
def Guarantees {α : Type} (A : List Ev → Op → Prop) (x : ServerM α) : Prop :=
  wpE (.isolated A) x [] fun _ _ => True

theorem replayGate_guarantee {env : Envelope} {B : List Ev → Op → Prop} {body : ServerM Unit}
    (hbody : Guarantees B body) : Guarantees (GateStep env B) (replayGate env body) := by
  obtain ⟨hdec, hlen⟩ := env.b64decode_nonce
  unfold Guarantees replayGate
  rw [hdec]
  show wpE _ (checkAndRecord env.nonceBytes env.timestamp >>= _) _ _
  rw [wpE_bind]
  have hrefuse : ∀ {h}, Refused env h →
      wpE (.isolated (GateStep env B)) (sendError "STALE") h fun _ _ => True :=
    fun hr => wpE_act.mpr ⟨.refuse hr, fun _ => trivial⟩
  refine wpE_checkAndRecord hlen .time (fun _ => trivial) (fun now hs => ?_) fun now hs => ?_
  · exact hrefuse (.inl ⟨now, hs, rfl⟩)
  · refine ⟨.insertNonce hs, ?_, ?_, fun _ _ => trivial⟩
    · exact wp_isolated_append hbody (fun g e hb => .body hs hb) fun _ _ _ => trivial
    · exact hrefuse (.inr ⟨now, hs, rfl⟩)

variable {P : Primitives} {ca : Bytes} {session : Session} {env : Envelope}

/-! ## Downloads -/

/-- The reads after which `_authorise_download` grants the row. -/
inductive Authorised (session : Session) (k : Json) (row : FileRow) : List Ev → Prop where
  | intro {now : ℤ} : row.recipientId = session.peerSubject → row.status = .pending →
      now < row.expiration →
      Authorised session k row [⟨.time, .ok now⟩, ⟨.getFile k, .ok (some row)⟩]

/-- What `_authorise_download` has done when it issues an operation. -/
inductive AuthoriseStep (session : Session) (k : Json) : List Ev → Op → Prop where
  | getFile : AuthoriseStep session k [] (.getFile k)
  | time {row : FileRow} : AuthoriseStep session k [⟨.getFile k, .ok (some row)⟩] .time
  | expire {row : FileRow} {now : ℤ} : row.recipientId = session.peerSubject →
      row.status = .pending → row.expiration ≤ now →
      AuthoriseStep session k [⟨.time, .ok now⟩, ⟨.getFile k, .ok (some row)⟩]
        (.markStatus k .expired)

/-- What a download behind the gate has done when it issues an operation. -/
inductive DownloadStep (P : Primitives) (session : Session) (env : Envelope) :
    List Ev → Op → Prop where
  | authorise {k : Json} {g : List Ev} {e : Op} : dictGet env.payload "file_id" = some k →
      AuthoriseStep session k g e → DownloadStep P session env g e
  | isFile {k : Json} {row : FileRow} {g : List Ev} : dictGet env.payload "file_id" = some k →
      Authorised session k row g →
      DownloadStep P session env g (.isFile (fileBlobPathFor (strOf P k)))
  | readBytes {k : Json} {row : FileRow} {g : List Ev} :
      dictGet env.payload "file_id" = some k → Authorised session k row g →
      DownloadStep P session env (⟨.isFile (fileBlobPathFor (strOf P k)), .ok true⟩ :: g)
        (.readBytes (fileBlobPathFor (strOf P k)))
  | respond {k : Json} {row : FileRow} {g : List Ev} {ciphertext : Bytes} :
      dictGet env.payload "file_id" = some k → Authorised session k row g →
      DownloadStep P session env
        (⟨.readBytes (fileBlobPathFor (strOf P k)), .ok ciphertext⟩ ::
          ⟨.isFile (fileBlobPathFor (strOf P k)), .ok true⟩ :: g)
        (.send .DOWNLOAD_RESPONSE (downloadPayload k row ciphertext))
  | error {g : List Ev} (code : String) :
      DownloadStep P session env g (.send .ERROR (errorPayload code))

/-- **The chokepoint**: every path of `_authorise_download`, in the order of its checks. -/
theorem wpE_authoriseDownload {k : Json} :
    wpE (.isolated (AuthoriseStep session k)) (authoriseDownload session k) []
      fun g r => ∀ row, r = .ok (.ok row) → Authorised session k row g := by
  rw [authoriseDownload, wpE_act_bind]
  refine ⟨.getFile, fun x => nofun, fun found => ?_⟩
  cases found with
  | none => exact nofun
  | some row =>
    dsimp only
    by_cases hrec : row.recipientId = session.peerSubject
    · rw [if_neg (not_not.mpr hrec), wpE_act_bind]
      refine ⟨.time, fun x => nofun, fun now => ?_⟩
      by_cases hexp : row.expiration ≤ now
      · rw [if_pos hexp]
        by_cases hst : row.status = .pending
        · rw [if_pos hst, wpE_act_bind]
          exact ⟨.expire hrec hst hexp, fun x => nofun, fun _ => nofun⟩
        · rw [if_neg hst]
          exact nofun
      · rw [if_neg hexp]
        cases hst : row.status with
        | pending =>
          rintro row' ⟨⟩
          exact .intro hrec hst (not_le.mp hexp)
        | downloaded | expired | revoked | other => exact nofun
    · rw [if_pos hrec]
      exact nofun

theorem wpE_sendError {A : List Ev → Op → Prop} {h : List Ev} {code : String}
    (hA : A h (.send .ERROR (errorPayload code))) :
    wpE (.isolated A) (sendError code) h fun _ _ => True :=
  wpE_act.mpr ⟨hA, fun _ => trivial⟩

theorem serveDownload_guarantee {k : Json} {row : FileRow} {g : List Ev}
    (hk : dictGet env.payload "file_id" = some k) (hg : Authorised session k row g) :
    wpE (.isolated (DownloadStep P session env)) (serveDownload P k row) g fun _ _ => True := by
  rw [serveDownload, wpE_act_bind]
  refine ⟨.isFile hk hg, fun _ => trivial, fun there => ?_⟩
  cases there with
  | false => exact wpE_sendError (.error _)
  | true =>
    rw [if_pos rfl, wpE_bind, wpE_attempt, wpE_act]
    refine ⟨.readBytes hk hg, fun r => ?_⟩
    cases r with
    | ok ciphertext => exact wpE_act.mpr ⟨.respond hk hg, fun _ => trivial⟩
    | error x =>
      cases x with
      | osError => exact wpE_sendError (.error _)
      | _ => trivial

theorem download_guarantee :
    Guarantees (GateStep env (DownloadStep P session env))
      (handleDownloadRequest P session env) := by
  refine replayGate_guarantee ?_
  unfold Guarantees
  cases hk : dictGet env.payload "file_id" with
  | none => exact wpE_sendError (.error _)
  | some k =>
    refine wpE_call_nil wpE_authoriseDownload (fun g e he => .authorise hk he)
      (fun g granted hg => ?_) fun _ _ _ => trivial
    cases granted with
    | error code => exact wpE_sendError (.error code)
    | ok row => exact serveDownload_guarantee hk (hg row rfl)

/-! ## The public key directory -/

/-- The reads with which a username's certificate was found and verified. -/
inductive LookedUp (P : Primitives) (ca : Bytes) (username : Json) (cert : Obj) :
    List Ev → Prop where
  | intro {path : Path} {data : Bytes} {text : PyStr} {now : ℤ} :
      pubkeyPathFor username = some path → utf8Decode data = some text →
      P.jsonLoads text = .ok (.obj cert) → CertCheck P ca cert now username.asStr →
      LookedUp P ca username cert
        [⟨.time, .ok now⟩, ⟨.readBytes path, .ok data⟩, ⟨.isFile path, .ok true⟩]

/-- What a directory look-up has done when it issues an operation. -/
inductive LookupStep (username : Json) : List Ev → Op → Prop where
  | isFile {path : Path} : pubkeyPathFor username = some path →
      LookupStep username [] (.isFile path)
  | readBytes {path : Path} : pubkeyPathFor username = some path →
      LookupStep username [⟨.isFile path, .ok true⟩] (.readBytes path)
  | time {path : Path} {data : Bytes} :
      LookupStep username [⟨.readBytes path, .ok data⟩, ⟨.isFile path, .ok true⟩] .time

/-- A file's object is the object of the JSON text it holds. -/
theorem wpE_readJson {A : List Ev → Op → Prop} {h : List Ev} {path : Path}
    {Q : List Ev → Except PyExn Obj → Prop} (hA : A h (.readBytes path))
    (hok : ∀ data text cert, utf8Decode data = some text → P.jsonLoads text = .ok (.obj cert) →
      Q (⟨.readBytes path, .ok data⟩ :: h) (.ok cert))
    (hraise : ∀ r e, Q (⟨.readBytes path, r⟩ :: h) (.error e)) :
    wpE (.isolated A) (readJson P path) h Q := by
  rw [readJson, wpE_act_bind]
  refine ⟨hA, fun x => hraise _ x, fun data => ?_⟩
  cases ht : utf8Decode data with
  | none => exact hraise _ _
  | some text =>
    dsimp only
    rw [wpE_bind, wpE_raising]
    cases hj : P.jsonLoads text with
    | error e => exact hraise _ e
    | ok v =>
      cases v with
      | obj cert => exact hok data text cert ht hj
      | _ => exact hraise _ _

/-- A certificate is checked: the program goes on with `True` only after a check at the
time it has read. -/
theorem wpE_verify {α : Type} {A : List Ev → Op → Prop} {h : List Ev} {cert : Obj}
    {subject : Option PyStr} {f : Bool → ServerM α} {Q : List Ev → Except PyExn α → Prop}
    (hA : A h .time)
    (htrue : ∀ now, CertCheck P ca cert now subject →
      wpE (.isolated A) (f true) (⟨.time, .ok now⟩ :: h) Q)
    (hfalse : ∀ g, wpE (.isolated A) (f false) g Q) (hraise : ∀ g e, Q g (.error e)) :
    wpE (.isolated A) (verifyCertificate P (act Op.time) (.obj cert) ca subject >>= f) h Q := by
  rw [wpE_bind]
  refine wpE_verifyCertificate (fun r hr => ?_) fun c hc hs => ?_
  · rcases r with e | (_ | _)
    · exact hraise h e
    · exact hfalse h
    · exact absurd rfl hr
  · obtain rfl := Json.obj.inj hc
    refine wpE_act.mpr ⟨hA, fun r => ?_⟩
    rcases r with x | now
    · exact hraise _ x
    · dsimp only
      rcases hv : certVerdict cert now subject with e | (_ | _)
      · exact hraise _ e
      · exact hfalse _
      · obtain ⟨hd, hsub⟩ := certVerdict_eq_ok_true.mp hv
        exact htrue now ⟨hs, hd, hsub⟩

theorem wpE_loadVerifiedPubkeyCert {username : Json} :
    wpE (.isolated (LookupStep username)) (loadVerifiedPubkeyCert P ca username) []
      fun g r => ∀ cert, r = .ok (some cert) → LookedUp P ca username cert g := by
  unfold loadVerifiedPubkeyCert
  cases hp : pubkeyPathFor username with
  | none => exact nofun
  | some path =>
    dsimp only
    rw [wpE_act_bind]
    refine ⟨.isFile hp, fun x => nofun, fun there => ?_⟩
    cases there with
    | false => exact nofun
    | true =>
      rw [if_pos rfl, wpE_bind, wpE_attempt]
      refine wpE_readJson (.readBytes hp) (fun data text cert ht hj => ?_) fun r e => ?_
      · refine wpE_verify .time (fun now hc => ?_) (fun g => nofun) fun g e => nofun
        rintro cert' ⟨⟩
        exact .intro hp ht hj hc
      · cases e <;> exact nofun

/-! ## Uploads -/

/-- The history with which an upload's fields and origin signature were verified. -/
inductive OriginProven (P : Primitives) (ca : Bytes) (session : Session) (env : Envelope)
    (up : Upload) : List Ev → Prop where
  | intro {now : ℤ} : CertCheck P ca session.peerCert now (some session.peerSubject) →
      parseUpload env.payload = .ok up →
      verifyOriginStruct P session.peerCert up.signature (up.origin P session.peerSubject) =
        .ok true →
      OriginProven P ca session env up [⟨.time, .ok now⟩]

/-- The history with which an upload passed all its checks. -/
inductive Admitted (P : Primitives) (ca : Bytes) (session : Session) (env : Envelope)
    (up : Upload) : List Ev → Prop where
  | intro {cert : Obj} {g older : List Ev} : OriginProven P ca session env up older →
      LookedUp P ca (.str up.recipient) cert g → Admitted P ca session env up (g ++ older)

/-- The file operations of an upload, up to the moving of its blob. -/
def blobMoved (up : Upload) (older : List Ev) : List Ev :=
  ⟨.replace (tmpPathFor up.fileId) (fileBlobPathFor up.fileId), .ok ()⟩ ::
    ⟨.writeTmp (tmpPathFor up.fileId) up.ciphertext, .ok ()⟩ :: ⟨.mkdirFiles, .ok ()⟩ :: older

/-- What an upload behind the gate has done when it issues an operation. -/
inductive UploadStep (P : Primitives) (ca : Bytes) (session : Session) (env : Envelope) :
    List Ev → Op → Prop where
  | time : UploadStep P ca session env [] .time
  | lookup {up : Upload} {g older : List Ev} {e : Op} : OriginProven P ca session env up older →
      LookupStep (.str up.recipient) g e → UploadStep P ca session env (g ++ older) e
  | mkdirFiles {up : Upload} {g : List Ev} : Admitted P ca session env up g →
      UploadStep P ca session env g .mkdirFiles
  | writeTmp {up : Upload} {g : List Ev} : Admitted P ca session env up g →
      UploadStep P ca session env (⟨.mkdirFiles, .ok ()⟩ :: g)
        (.writeTmp (tmpPathFor up.fileId) up.ciphertext)
  | replace {up : Upload} {g : List Ev} : Admitted P ca session env up g →
      UploadStep P ca session env
        (⟨.writeTmp (tmpPathFor up.fileId) up.ciphertext, .ok ()⟩ :: ⟨.mkdirFiles, .ok ()⟩ :: g)
        (.replace (tmpPathFor up.fileId) (fileBlobPathFor up.fileId))
  | insertFile {up : Upload} {aad : Bytes} {g : List Ev} : Admitted P ca session env up g →
      aadBytes up.fileId session.peerSubject up.recipient = .ok aad →
      UploadStep P ca session env (blobMoved up g) (.insertFile (up.row P session aad))
  | accept {up : Upload} {aad : Bytes} {g : List Ev} : Admitted P ca session env up g →
      aadBytes up.fileId session.peerSubject up.recipient = .ok aad →
      UploadStep P ca session env
        (⟨.insertFile (up.row P session aad), .ok ()⟩ :: blobMoved up g)
        (.send .UPLOAD_ACK up.ackPayload)
  | error {g : List Ev} (code : String) :
      UploadStep P ca session env g (.send .ERROR (errorPayload code))

/-- The `try` block of an upload that passed its checks. -/
theorem wpE_storeUpload {up : Upload} {g : List Ev} (hg : Admitted P ca session env up g) :
    wpE (.isolated (UploadStep P ca session env)) (storeUpload P session up)
      (⟨.mkdirFiles, .ok ()⟩ :: g)
      fun h r => r = .ok () → ∃ aad, aadBytes up.fileId session.peerSubject up.recipient = .ok aad ∧
        h = ⟨.insertFile (up.row P session aad), .ok ()⟩ :: blobMoved up g := by
  rw [storeUpload, wpE_act_bind]
  refine ⟨.writeTmp hg, fun x => nofun, fun _ => ?_⟩
  rw [wpE_act_bind]
  refine ⟨.replace hg, fun x => nofun, fun _ => ?_⟩
  rw [wpE_bind, wpE_raising]
  rcases haad : aadBytes up.fileId session.peerSubject up.recipient with e | aad
  · exact nofun
  · refine wpE_act.mpr ⟨.insertFile hg haad, fun r hr => ?_⟩
    subst hr
    exact ⟨aad, rfl, rfl⟩

theorem acceptUpload_guarantee {up : Upload} {now : ℤ}
    (hcert : CertCheck P ca session.peerCert now (some session.peerSubject))
    (hup : parseUpload env.payload = .ok up) :
    wpE (.isolated (UploadStep P ca session env)) (acceptUpload P ca session up)
      [⟨.time, .ok now⟩] fun _ _ => True := by
  rw [acceptUpload, wpE_bind, wpE_raising]
  rcases hsig : verifyOriginStruct P session.peerCert up.signature
    (up.origin P session.peerSubject) with e | (_ | _)
  · trivial
  · exact wpE_sendError (.error _)
  · have horigin : OriginProven P ca session env up [⟨.time, .ok now⟩] := .intro hcert hup hsig
    refine wpE_call wpE_loadVerifiedPubkeyCert (fun g e he => .lookup horigin he)
      (fun g found hg => ?_) fun _ _ _ => trivial
    cases found with
    | none => exact wpE_sendError (.error _)
    | some cert =>
      have hadm : Admitted P ca session env up (g ++ [⟨.time, .ok now⟩]) :=
        .intro horigin (hg cert rfl)
      dsimp only
      rw [wpE_act_bind]
      refine ⟨.mkdirFiles hadm, fun _ => trivial, fun _ => ?_⟩
      rw [wpE_bind, wpE_attempt]
      refine wpE_mono _ (wpE_storeUpload hadm) fun h r hr => ?_
      rcases r with x | u
      · cases x with
        | osError => exact wpE_sendError (.error _)
        | _ => trivial
      · obtain ⟨aad, haad, rfl⟩ := hr rfl
        exact wpE_act.mpr ⟨.accept hadm haad, fun _ => trivial⟩

theorem upload_guarantee :
    Guarantees (GateStep env (UploadStep P ca session env))
      (handleUploadRequest P ca session env) := by
  refine replayGate_guarantee (wpE_verify .time (fun now hc => ?_)
    (fun g => wpE_sendError (.error _)) fun _ _ => trivial)
  rw [if_pos rfl]
  rcases hup : parseUpload env.payload with e | up
  · dsimp only
    split
    · exact wpE_sendError (.error _)
    · trivial
  · exact acceptUpload_guarantee hc hup

/-! ## Acknowledgements -/

/-- The history with which an acknowledgement passed all its checks. -/
inductive AckProven (P : Primitives) (ca : Bytes) (session : Session) (env : Envelope)
    (req : SignedRequest) (row : FileRow) : List Ev → Prop where
  | intro {now : ℤ} : parseSignedRequest env.payload = .ok req →
      row.recipientId = session.peerSubject →
      CertCheck P ca session.peerCert now (some session.peerSubject) →
      verifyAck P session.peerCert req = .ok true →
      AckProven P ca session env req row
        [⟨.time, .ok now⟩, ⟨.getFile (.str req.fileId), .ok (some row)⟩]

/-- The row that an acknowledgement inserts. -/
def SignedRequest.ackRow (req : SignedRequest) : AckRow :=
  ⟨req.fileId, req.signature, req.timestampInt⟩

/-- `insert_ack` has returned. -/
inductive AckInserted (req : SignedRequest) (older : List Ev) : List Ev → Prop where
  | inserted : AckInserted req older (⟨.insertAck req.ackRow, .ok ()⟩ :: older)
  | already : AckInserted req older (⟨.insertAck req.ackRow, .error .integrityError⟩ :: older)

/-- What an acknowledgement behind the gate has done when it issues an operation. -/
inductive AckStep (P : Primitives) (ca : Bytes) (session : Session) (env : Envelope) :
    List Ev → Op → Prop where
  | getFile {req : SignedRequest} : parseSignedRequest env.payload = .ok req →
      AckStep P ca session env [] (.getFile (.str req.fileId))
  | time {req : SignedRequest} {row : FileRow} :
      AckStep P ca session env [⟨.getFile (.str req.fileId), .ok (some row)⟩] .time
  | insertAck {req : SignedRequest} {row : FileRow} {g : List Ev} :
      AckProven P ca session env req row g → AckStep P ca session env g (.insertAck req.ackRow)
  | markStatus {req : SignedRequest} {row : FileRow} {g h : List Ev} :
      AckProven P ca session env req row g → AckInserted req g h →
      AckStep P ca session env h (.markStatus (.str req.fileId) .downloaded)
  | accept {req : SignedRequest} {row : FileRow} {g h : List Ev} :
      AckProven P ca session env req row g → AckInserted req g h →
      AckStep P ca session env (⟨.markStatus (.str req.fileId) .downloaded, .ok ()⟩ :: h)
        (.send .ACK_OK (ackOkPayload req.fileId))
  | error {g : List Ev} (code : String) :
      AckStep P ca session env g (.send .ERROR (errorPayload code))

/-- A status is written and then told, or an error is sent. -/
theorem wpE_markAndReply {A : List Ev → Op → Prop} {h : List Ev} {fileId : PyStr} {st : Status}
    {type : MessageType} {payload : Obj} (hmark : A h (.markStatus (.str fileId) st))
    (hsend : A (⟨.markStatus (.str fileId) st, .ok ()⟩ :: h) (.send type payload))
    (herror : ∀ g, A g (.send .ERROR (errorPayload "INTERNAL_ERROR"))) :
    wpE (.isolated A) (markAndReply fileId st type payload) h fun _ _ => True := by
  rw [markAndReply, wpE_bind, wpE_attempt, wpE_act]
  refine ⟨hmark, fun r => ?_⟩
  rcases r with x | u
  · dsimp only
    split
    · exact wpE_sendError (herror _)
    · trivial
  · exact wpE_act.mpr ⟨hsend, fun _ => trivial⟩

theorem acceptAck_guarantee {req : SignedRequest} {row : FileRow} {now : ℤ}
    (hreq : parseSignedRequest env.payload = .ok req)
    (hrow : row.recipientId = session.peerSubject)
    (hcert : CertCheck P ca session.peerCert now (some session.peerSubject)) :
    wpE (.isolated (AckStep P ca session env)) (acceptAck P session req)
      [⟨.time, .ok now⟩, ⟨.getFile (.str req.fileId), .ok (some row)⟩] fun _ _ => True := by
  rcases hv : verifyAck P session.peerCert req with e | (_ | _)
  · rw [acceptAck, hv]
    exact wpE_sendError (.error _)
  · rw [acceptAck, hv]
    dsimp only
    rw [wpE_bind, wpE_attempt]
    refine wpE_act.mpr ⟨.error _, fun r => ?_⟩
    rcases r with x | u
    · exact wpE_sendError (.error _)
    · trivial
  · have hproven := AckProven.intro hreq hrow hcert hv
    have hrest : ∀ {h}, AckInserted req _ h → wpE (.isolated (AckStep P ca session env))
        (markAndReply req.fileId .downloaded .ACK_OK (ackOkPayload req.fileId)) h
          fun _ _ => True :=
      fun hi => wpE_markAndReply (.markStatus hproven hi) (.accept hproven hi) fun g => .error _
    rw [acceptAck, hv]
    dsimp only
    rw [wpE_bind, insertAck, wpE_bind, wpE_attempt, wpE_act]
    refine ⟨.insertAck hproven, fun r => ?_⟩
    rcases r with x | u
    · cases x with
      | integrityError => exact hrest .already
      | _ => trivial
    · exact hrest .inserted

theorem ack_guarantee :
    Guarantees (GateStep env (AckStep P ca session env)) (handleDownloadAck P ca session env) := by
  refine replayGate_guarantee ?_
  unfold Guarantees
  rcases hreq : parseSignedRequest env.payload with e | req
  · dsimp only
    split
    · exact wpE_sendError (.error _)
    · trivial
  · dsimp only
    rw [wpE_act_bind]
    refine ⟨.getFile hreq, fun _ => trivial, fun found => ?_⟩
    cases found with
    | none => exact wpE_sendError (.error _)
    | some row =>
      dsimp only
      split_ifs with hrow
      · exact wpE_sendError (.error _)
      · refine wpE_verify .time (fun now hc => ?_) (fun g => wpE_sendError (.error _))
          fun _ _ => trivial
        exact acceptAck_guarantee hreq (not_not.mp hrow) hc

/-! ## Revocations -/

/-- The history with which a revocation passed all its checks. -/
inductive RevokeProven (P : Primitives) (ca : Bytes) (session : Session) (env : Envelope)
    (req : SignedRequest) (row : FileRow) : List Ev → Prop where
  | intro {now : ℤ} : parseSignedRequest env.payload = .ok req →
      row.senderId = session.peerSubject →
      CertCheck P ca session.peerCert now (some session.peerSubject) →
      verifyRevokeStruct P session.peerCert req.signature session.peerSubject req.fileId
        req.timestamp = .ok true →
      RevokeProven P ca session env req row
        [⟨.time, .ok now⟩, ⟨.getFile (.str req.fileId), .ok (some row)⟩]

/-- What a revocation behind the gate has done when it issues an operation. -/
inductive RevokeStep (P : Primitives) (ca : Bytes) (session : Session) (env : Envelope) :
    List Ev → Op → Prop where
  | getFile {req : SignedRequest} : parseSignedRequest env.payload = .ok req →
      RevokeStep P ca session env [] (.getFile (.str req.fileId))
  | time {req : SignedRequest} {row : FileRow} :
      RevokeStep P ca session env [⟨.getFile (.str req.fileId), .ok (some row)⟩] .time
  | markStatus {req : SignedRequest} {row : FileRow} {g : List Ev} :
      RevokeProven P ca session env req row g → row.status = .pending →
      RevokeStep P ca session env g (.markStatus (.str req.fileId) .revoked)
  | accept {req : SignedRequest} {row : FileRow} {g : List Ev} :
      RevokeProven P ca session env req row g → row.status = .pending →
      RevokeStep P ca session env (⟨.markStatus (.str req.fileId) .revoked, .ok ()⟩ :: g)
        (.send .REVOKE_ACK (revokeAckPayload req.fileId))
  | again {req : SignedRequest} {row : FileRow} {g : List Ev} :
      RevokeProven P ca session env req row g → row.status = .revoked →
      RevokeStep P ca session env g (.send .REVOKE_ACK (revokeAckPayload req.fileId))
  | error {g : List Ev} (code : String) :
      RevokeStep P ca session env g (.send .ERROR (errorPayload code))

theorem acceptRevoke_guarantee {req : SignedRequest} {row : FileRow} {now : ℤ}
    (hreq : parseSignedRequest env.payload = .ok req)
    (hrow : row.senderId = session.peerSubject)
    (hcert : CertCheck P ca session.peerCert now (some session.peerSubject)) :
    wpE (.isolated (RevokeStep P ca session env)) (acceptRevoke P session req row)
      [⟨.time, .ok now⟩, ⟨.getFile (.str req.fileId), .ok (some row)⟩] fun _ _ => True := by
  rw [acceptRevoke, wpE_bind, wpE_raising]
  rcases hsig : verifyRevokeStruct P session.peerCert req.signature session.peerSubject
    req.fileId req.timestamp with e | (_ | _)
  · trivial
  · exact wpE_sendError (.error _)
  · have hproven := RevokeProven.intro hreq hrow hcert hsig
    dsimp only
    rw [if_pos rfl]
    cases hst : row.status with
    | revoked => exact wpE_act.mpr ⟨.again hproven hst, fun _ => trivial⟩
    | pending =>
      exact wpE_markAndReply (.markStatus hproven hst) (.accept hproven hst) fun g => .error _
    | downloaded | expired | other => exact wpE_sendError (.error _)

theorem revoke_guarantee :
    Guarantees (GateStep env (RevokeStep P ca session env))
      (handleRevokeRequest P ca session env) := by
  refine replayGate_guarantee ?_
  unfold Guarantees
  rcases hreq : parseSignedRequest env.payload with e | req
  · dsimp only
    split
    · exact wpE_sendError (.error _)
    · trivial
  · dsimp only
    rw [wpE_act_bind]
    refine ⟨.getFile hreq, fun _ => trivial, fun found => ?_⟩
    cases found with
    | none => exact wpE_sendError (.error _)
    | some row =>
      dsimp only
      split_ifs with hrow
      · exact wpE_sendError (.error _)
      · refine wpE_verify .time (fun now hc => ?_) (fun g => wpE_sendError (.error _))
          fun _ _ => trivial
        exact acceptRevoke_guarantee hreq (not_not.mp hrow) hc

/-! ## Listings and certificates -/

/-- The reads of a listing. -/
def listed (session : Session) (rows : List FileRow) (now : ℤ) : List Ev :=
  [⟨.listPending session.peerSubject now, .ok rows⟩, ⟨.time, .ok now⟩]

/-- What a listing has done when it issues an operation. -/
inductive ListStep (session : Session) : List Ev → Op → Prop where
  | time : ListStep session [] .time
  | listPending {now : ℤ} :
      ListStep session [⟨.time, .ok now⟩] (.listPending session.peerSubject now)
  | statSize {rows : List FileRow} {row : FileRow} {now : ℤ} {g : List Ev} : row ∈ rows →
      ListStep session (g ++ listed session rows now) (.statSize (fileBlobPathFor row.fileId))
  | reply {rows : List FileRow} {now : ℤ} {g : List Ev} (payload : Obj) :
      ListStep session (g ++ listed session rows now) (.send .PENDING_LIST payload)

/-- The sizes of the blobs: by induction on the rows that are left. -/
theorem wpE_pendingEntries {A : List Ev → Op → Prop} {older : List Ev}
    {Q : List Ev → Except PyExn (List Json) → Prop} {rows : List FileRow}
    (hA : ∀ row ∈ rows, ∀ g, A (g ++ older) (.statSize (fileBlobPathFor row.fileId)))
    (hQ : ∀ g r, Q (g ++ older) r) (g : List Ev) :
    wpE (.isolated A) (pendingEntries rows) (g ++ older) Q := by
  induction rows generalizing g Q with
  | nil => exact hQ g _
  | cons row rows ih =>
    have hrest : ∀ size (g : List Ev), wpE (.isolated A)
        (do return pendingEntry row size :: (← pendingEntries rows)) (g ++ older) Q := by
      intro size g
      rw [wpE_bind]
      refine ih (fun row' hrow => hA row' (List.mem_cons_of_mem _ hrow)) (fun g r => ?_) g
      rcases r with e | entries
      · exact hQ g _
      · exact hQ g _
    rw [pendingEntries, wpE_bind, ciphertextSize, wpE_bind, wpE_attempt, wpE_act]
    refine ⟨hA row List.mem_cons_self g, fun r => ?_⟩
    rcases r with x | size
    · cases x with
      | osError => exact hrest _ (_ :: g)
      | _ => exact hQ (_ :: g) _
    · exact hrest _ (_ :: g)

theorem list_guarantee : Guarantees (ListStep session) (handleListPending session) := by
  unfold Guarantees
  rw [handleListPending, wpE_bind, listPendingFor, wpE_act_bind]
  refine ⟨.time, fun _ => trivial, fun now => wpE_act.mpr ⟨.listPending, fun r => ?_⟩⟩
  rcases r with x | rows
  · trivial
  · dsimp only
    rw [wpE_bind]
    show wpE _ _ ([] ++ listed session rows now) _
    refine wpE_pendingEntries (fun row hrow g => .statSize hrow) (fun g r => ?_) []
    rcases r with e | entries
    · trivial
    · exact wpE_act.mpr ⟨.reply _, fun _ => trivial⟩

/-- What a certificate request has done when it issues an operation. -/
inductive PubkeyStep (P : Primitives) (ca : Bytes) (env : Envelope) : List Ev → Op → Prop where
  | lookup {g : List Ev} {e : Op} :
      LookupStep ((dictGet env.payload "username").getD .null) g e → PubkeyStep P ca env g e
  | found {cert : Obj} {g : List Ev} :
      LookedUp P ca ((dictGet env.payload "username").getD .null) cert g →
      PubkeyStep P ca env g (.send .PUBKEY_RESPONSE [(py "cert", .obj cert)])
  | error {g : List Ev} (code : String) :
      PubkeyStep P ca env g (.send .ERROR (errorPayload code))

theorem pubkey_guarantee : Guarantees (PubkeyStep P ca env) (handleGetPubkey P ca env) := by
  refine wpE_call_nil wpE_loadVerifiedPubkeyCert (fun g e he => .lookup he)
    (fun g found hg => ?_) fun _ _ _ => trivial
  cases found with
  | none => exact wpE_sendError (.error _)
  | some cert => exact wpE_act.mpr ⟨.found (hg cert rfl), fun _ => trivial⟩

/-! ## All programs of the server -/

/-- What the server runs: one request of a session, or one cleanup pass. -/
inductive Label where
  | request (session : Session) (env : Envelope)
  | cleanup
  deriving DecidableEq

/-- The program of a label. -/
def Label.code (P : Primitives) (ca : Bytes) : Label → Prog Op Op.Res (Except PyExn Unit)
  | request session env => (dispatch P ca session env).run
  | cleanup => (runCleanupPass >>= fun _ => pure () : ServerM Unit).run

/-- What a cleanup pass has done when it issues an operation. -/
inductive CleanupStep : List Ev → Op → Prop where
  | clock : CleanupStep [] .time
  | time {now : ℤ} : CleanupStep [⟨.time, .ok now⟩] .time
  | purgeNonces {now now' : ℤ} :
      CleanupStep [⟨.time, .ok now'⟩, ⟨.time, .ok now⟩] (.purgeNonces (now' - 300))
  | markExpired {now now' : ℤ} {n : ℕ} :
      CleanupStep [⟨.purgeNonces (now' - 300), .ok n⟩, ⟨.time, .ok now'⟩, ⟨.time, .ok now⟩]
        (.markExpired now)

/-- The message types that have a handler. -/
def isDispatched : MessageType → Bool
  | .GET_PUBKEY | .LIST_PENDING | .UPLOAD_REQUEST | .DOWNLOAD_REQUEST | .DOWNLOAD_ACK
  | .REVOKE_REQUEST => true
  | _ => false

/-- What a program of the server has done when it issues an operation. -/
inductive Step (P : Primitives) (ca : Bytes) : Label → List Ev → Op → Prop where
  | pubkey {session : Session} {env : Envelope} {h : List Ev} {e : Op} :
      env.type = .GET_PUBKEY → PubkeyStep P ca env h e → Step P ca (.request session env) h e
  | list {session : Session} {env : Envelope} {h : List Ev} {e : Op} :
      env.type = .LIST_PENDING → ListStep session h e → Step P ca (.request session env) h e
  | upload {session : Session} {env : Envelope} {h : List Ev} {e : Op} :
      env.type = .UPLOAD_REQUEST → GateStep env (UploadStep P ca session env) h e →
      Step P ca (.request session env) h e
  | download {session : Session} {env : Envelope} {h : List Ev} {e : Op} :
      env.type = .DOWNLOAD_REQUEST → GateStep env (DownloadStep P session env) h e →
      Step P ca (.request session env) h e
  | ack {session : Session} {env : Envelope} {h : List Ev} {e : Op} :
      env.type = .DOWNLOAD_ACK → GateStep env (AckStep P ca session env) h e →
      Step P ca (.request session env) h e
  | revoke {session : Session} {env : Envelope} {h : List Ev} {e : Op} :
      env.type = .REVOKE_REQUEST → GateStep env (RevokeStep P ca session env) h e →
      Step P ca (.request session env) h e
  | malformed {session : Session} {env : Envelope} : isDispatched env.type = false →
      Step P ca (.request session env) [] (.send .ERROR (errorPayload "MALFORMED"))
  | cleanup {h : List Ev} {e : Op} : CleanupStep h e → Step P ca .cleanup h e

theorem dispatch_guarantee :
    Guarantees (Step P ca (.request session env)) (dispatch P ca session env) := by
  unfold Guarantees dispatch
  cases ht : env.type with
  | GET_PUBKEY => exact wp_isolated_mono pubkey_guarantee fun g e => .pubkey ht
  | LIST_PENDING => exact wp_isolated_mono list_guarantee fun g e => .list ht
  | UPLOAD_REQUEST => exact wp_isolated_mono upload_guarantee fun g e => .upload ht
  | DOWNLOAD_REQUEST => exact wp_isolated_mono download_guarantee fun g e => .download ht
  | DOWNLOAD_ACK => exact wp_isolated_mono ack_guarantee fun g e => .ack ht
  | REVOKE_REQUEST => exact wp_isolated_mono revoke_guarantee fun g e => .revoke ht
  | _ => exact wpE_sendError (.malformed (ht ▸ rfl))

theorem cleanup_guarantee :
    Guarantees CleanupStep (runCleanupPass >>= fun _ => pure () : ServerM Unit) := by
  unfold Guarantees
  rw [wpE_bind, runCleanupPass, wpE_act_bind]
  refine ⟨.clock, fun _ => trivial, fun now => ?_⟩
  rw [wpE_bind, purgeOldNonces, wpE_act_bind]
  refine ⟨.time, fun _ => trivial, fun now' => wpE_act.mpr ⟨.purgeNonces, fun r => ?_⟩⟩
  rcases r with x | n
  · trivial
  · dsimp only
    rw [wpE_act_bind]
    exact ⟨.markExpired, fun _ => trivial, fun _ => trivial⟩

/-- **The guarantee of the server's programs.** -/
theorem code_guarantee (l : Label) :
    (l.code P ca).wp (.isolated (Step P ca l)) [] fun _ _ => True := by
  cases l with
  | request session env => exact dispatch_guarantee
  | cleanup => exact wp_isolated_mono cleanup_guarantee fun g e => .cleanup

/-! ### Effects -/

/-- The operations that matter to others: those that change the store, and the replies that
grant something. -/
def Op.isEffect : Op → Bool
  | .time | .getFile _ | .listPending _ _ | .isFile _ | .readBytes _ | .statSize _ => false
  | .send .ERROR _ | .send .PENDING_LIST _ | .send .PUBKEY_RESPONSE _ => false
  | _ => true

/-- **What has happened before an effect.** -/
inductive Effect (P : Primitives) (ca : Bytes) : Label → List Ev → Op → Prop where
  | insertNonce {session : Session} {env : Envelope} {now : ℤ} :
      isStale now env.timestamp = false →
      Effect P ca (.request session env) [⟨.time, .ok now⟩] (.insertNonce env.nonceBytes now)
  | mkdirFiles {session : Session} {env : Envelope} {up : Upload} {g : List Ev} {now : ℤ} :
      env.type = .UPLOAD_REQUEST → Admitted P ca session env up g →
      Effect P ca (.request session env) (g ++ passedGate env now) .mkdirFiles
  | writeTmp {session : Session} {env : Envelope} {up : Upload} {g : List Ev} {now : ℤ} :
      env.type = .UPLOAD_REQUEST → Admitted P ca session env up g →
      Effect P ca (.request session env) (⟨.mkdirFiles, .ok ()⟩ :: g ++ passedGate env now)
        (.writeTmp (tmpPathFor up.fileId) up.ciphertext)
  | replace {session : Session} {env : Envelope} {up : Upload} {g : List Ev} {now : ℤ} :
      env.type = .UPLOAD_REQUEST → Admitted P ca session env up g →
      Effect P ca (.request session env)
        (⟨.writeTmp (tmpPathFor up.fileId) up.ciphertext, .ok ()⟩ :: ⟨.mkdirFiles, .ok ()⟩ :: g ++
          passedGate env now)
        (.replace (tmpPathFor up.fileId) (fileBlobPathFor up.fileId))
  | insertFile {session : Session} {env : Envelope} {up : Upload} {aad : Bytes} {g : List Ev}
      {now : ℤ} : env.type = .UPLOAD_REQUEST → Admitted P ca session env up g →
      aadBytes up.fileId session.peerSubject up.recipient = .ok aad →
      Effect P ca (.request session env) (blobMoved up g ++ passedGate env now)
        (.insertFile (up.row P session aad))
  | uploadAck {session : Session} {env : Envelope} {up : Upload} {aad : Bytes} {g : List Ev}
      {now : ℤ} : env.type = .UPLOAD_REQUEST → Admitted P ca session env up g →
      aadBytes up.fileId session.peerSubject up.recipient = .ok aad →
      Effect P ca (.request session env)
        (⟨.insertFile (up.row P session aad), .ok ()⟩ :: blobMoved up g ++ passedGate env now)
        (.send .UPLOAD_ACK up.ackPayload)
  | expire {session : Session} {env : Envelope} {k : Json} {row : FileRow} {now now' : ℤ} :
      env.type = .DOWNLOAD_REQUEST → row.recipientId = session.peerSubject →
      row.status = .pending → row.expiration ≤ now' →
      Effect P ca (.request session env)
        ([⟨.time, .ok now'⟩, ⟨.getFile k, .ok (some row)⟩] ++ passedGate env now)
        (.markStatus k .expired)
  | serve {session : Session} {env : Envelope} {k : Json} {row : FileRow} {ciphertext : Bytes}
      {g : List Ev} {now : ℤ} : env.type = .DOWNLOAD_REQUEST → Authorised session k row g →
      Effect P ca (.request session env)
        ([⟨.readBytes (fileBlobPathFor (strOf P k)), .ok ciphertext⟩,
          ⟨.isFile (fileBlobPathFor (strOf P k)), .ok true⟩] ++ (g ++ passedGate env now))
        (.send .DOWNLOAD_RESPONSE (downloadPayload k row ciphertext))
  | insertAck {session : Session} {env : Envelope} {req : SignedRequest} {row : FileRow}
      {g : List Ev} {now : ℤ} : env.type = .DOWNLOAD_ACK →
      AckProven P ca session env req row g →
      Effect P ca (.request session env) (g ++ passedGate env now) (.insertAck req.ackRow)
  | markDownloaded {session : Session} {env : Envelope} {req : SignedRequest} {row : FileRow}
      {g h : List Ev} {now : ℤ} : env.type = .DOWNLOAD_ACK →
      AckProven P ca session env req row g → AckInserted req g h →
      Effect P ca (.request session env) (h ++ passedGate env now)
        (.markStatus (.str req.fileId) .downloaded)
  | ackOk {session : Session} {env : Envelope} {req : SignedRequest} {row : FileRow}
      {g h : List Ev} {now : ℤ} : env.type = .DOWNLOAD_ACK →
      AckProven P ca session env req row g → AckInserted req g h →
      Effect P ca (.request session env)
        (⟨.markStatus (.str req.fileId) .downloaded, .ok ()⟩ :: h ++ passedGate env now)
        (.send .ACK_OK (ackOkPayload req.fileId))
  | markRevoked {session : Session} {env : Envelope} {req : SignedRequest} {row : FileRow}
      {g : List Ev} {now : ℤ} : env.type = .REVOKE_REQUEST →
      RevokeProven P ca session env req row g → row.status = .pending →
      Effect P ca (.request session env) (g ++ passedGate env now)
        (.markStatus (.str req.fileId) .revoked)
  | revokeAck {session : Session} {env : Envelope} {req : SignedRequest} {row : FileRow}
      {g : List Ev} {now : ℤ} : env.type = .REVOKE_REQUEST →
      RevokeProven P ca session env req row g → row.status = .pending →
      Effect P ca (.request session env)
        (⟨.markStatus (.str req.fileId) .revoked, .ok ()⟩ :: g ++ passedGate env now)
        (.send .REVOKE_ACK (revokeAckPayload req.fileId))
  | revokeAgain {session : Session} {env : Envelope} {req : SignedRequest} {row : FileRow}
      {g : List Ev} {now : ℤ} : env.type = .REVOKE_REQUEST →
      RevokeProven P ca session env req row g → row.status = .revoked →
      Effect P ca (.request session env) (g ++ passedGate env now)
        (.send .REVOKE_ACK (revokeAckPayload req.fileId))
  | purgeNonces {now now' : ℤ} :
      Effect P ca .cleanup [⟨.time, .ok now'⟩, ⟨.time, .ok now⟩] (.purgeNonces (now' - 300))
  | markExpired {now now' : ℤ} {n : ℕ} :
      Effect P ca .cleanup
        [⟨.purgeNonces (now' - 300), .ok n⟩, ⟨.time, .ok now'⟩, ⟨.time, .ok now⟩]
        (.markExpired now)

theorem LookupStep.not_effect {username : Json} {h : List Ev} {e : Op}
    (hl : LookupStep username h e) : e.isEffect = false := by
  cases hl <;> rfl

/-- Behind the gate, an effect is the recording of the nonce or an effect of the body. -/
theorem effect_of_gate {B : List Ev → Op → Prop} {h : List Ev} {e : Op}
    (hg : GateStep env B h e) (he : e.isEffect = true)
    (hB : ∀ g now, B g e → Effect P ca (.request session env) (g ++ passedGate env now) e) :
    Effect P ca (.request session env) h e := by
  cases hg with
  | time => exact absurd he Bool.false_ne_true
  | insertNonce hfresh => exact .insertNonce hfresh
  | refuse _ => exact absurd he Bool.false_ne_true
  | body _ hb => exact hB _ _ hb

/-- The one case analysis over all programs: every effect is one of the list. -/
theorem effect_of_step {l : Label} {h : List Ev} {e : Op} (hs : Step P ca l h e)
    (he : e.isEffect = true) : Effect P ca l h e := by
  cases hs with
  | pubkey _ hp =>
    cases hp with
    | lookup hl => exact absurd (hl.not_effect.symm.trans he) Bool.false_ne_true
    | found _ | error _ => exact absurd he Bool.false_ne_true
  | list _ hl => cases hl <;> exact absurd he Bool.false_ne_true
  | upload htype hg =>
    refine effect_of_gate hg he fun g now hb => ?_
    cases hb with
    | time | error _ => exact absurd he Bool.false_ne_true
    | lookup _ hl => exact absurd (hl.not_effect.symm.trans he) Bool.false_ne_true
    | mkdirFiles hadm => exact .mkdirFiles htype hadm
    | writeTmp hadm => exact .writeTmp htype hadm
    | replace hadm => exact .replace htype hadm
    | insertFile hadm haad => exact .insertFile htype hadm haad
    | accept hadm haad => exact .uploadAck htype hadm haad
  | download htype hg =>
    refine effect_of_gate hg he fun g now hb => ?_
    cases hb with
    | authorise _ ha =>
      cases ha with
      | getFile | time => exact absurd he Bool.false_ne_true
      | expire hrec hst hexp => exact .expire htype hrec hst hexp
    | isFile _ _ | readBytes _ _ | error _ => exact absurd he Bool.false_ne_true
    | respond _ ha => exact .serve htype ha
  | ack htype hg =>
    refine effect_of_gate hg he fun g now hb => ?_
    cases hb with
    | getFile _ | time | error _ => exact absurd he Bool.false_ne_true
    | insertAck hp => exact .insertAck htype hp
    | markStatus hp hi => exact .markDownloaded htype hp hi
    | accept hp hi => exact .ackOk htype hp hi
  | revoke htype hg =>
    refine effect_of_gate hg he fun g now hb => ?_
    cases hb with
    | getFile _ | time | error _ => exact absurd he Bool.false_ne_true
    | markStatus hp hst => exact .markRevoked htype hp hst
    | accept hp hst => exact .revokeAck htype hp hst
    | again hp hst => exact .revokeAgain htype hp hst
  | malformed _ => exact absurd he Bool.false_ne_true
  | cleanup hc =>
    cases hc with
    | clock | time => exact absurd he Bool.false_ne_true
    | purgeNonces => exact .purgeNonces
    | markExpired => exact .markExpired

/-- The server: any number of requests and cleanup passes, one operation at a time. -/
def system (P : Primitives) (ca : Bytes) :
    System Op Op.Res Input ServerState Label (Except PyExn Unit) where
  exec := exec P
  code := Label.code P ca

end Server
end ZeroTrust
