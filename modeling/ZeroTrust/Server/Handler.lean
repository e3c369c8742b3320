import ZeroTrust.Common.FileCrypto
import ZeroTrust.Common.Signed
import ZeroTrust.Server.Replay

/-!
# The request handlers

The handlers of `server/handler.py`, with the paths of `server/storage_layout.py`.  A
handler is a program over the operations of the store; everything between two operations
is a pure function of the session, the envelope and the answers so far.

Audit lines are left out: they are written beside the replies and nothing reads them.

* `handleGetPubkey`, `handleListPending`, `handleUploadRequest`, `handleDownloadRequest`,
  `handleDownloadAck`, `handleRevokeRequest`: the handlers.
* `authoriseDownload`: the chokepoint of download access.
* `dispatch`: the choice of the handler by the envelope's type.
-/

namespace ZeroTrust
namespace Server

open Python Effects

/-- What the handshake leaves behind for the handlers.  The CA issues certificates for
subjects that are texts only. -/
structure Session where
  /-- `session["peer_subject"]`. -/
  peerSubject : PyStr
  /-- `session["peer_cert"]`. -/
  peerCert : Obj
  deriving DecidableEq

/-! ## Paths -/

/-- The characters of a username on disk. -/
def usernameChar (c : PyChar) : Bool :=
  (97 ≤ c.val ∧ c.val ≤ 122) ∨ (65 ≤ c.val ∧ c.val ≤ 90) ∨ (48 ≤ c.val ∧ c.val ≤ 57) ∨
    c.val = 95 ∨ c.val = 45

/-- `valid_username`. -/
def validUsername : Json → Bool
  | .str s => 1 ≤ s.length ∧ s.length ≤ 32 ∧ s.all usernameChar
  | _ => false

/-- `pubkey_path_for`. -/
def pubkeyPathFor (username : Json) : Option Path :=
  if validUsername username then username.asStr.map fun s => ⟨.pubkeys, s ++ py ".json"⟩
  else none

theorem dir_of_pubkeyPathFor {username : Json} {path : Path}
    (h : pubkeyPathFor username = some path) : path.dir = .pubkeys := by
  unfold pubkeyPathFor at h
  split_ifs at h
  obtain ⟨s, -, rfl⟩ := Option.map_eq_some_iff.mp h
  rfl

/-- `file_blob_path_for`. -/
def fileBlobPathFor (fileId : PyStr) : Path := ⟨.files, fileId ++ py ".bin"⟩

/-- `final_path.parent / f"{final_path.name}.tmp"`. -/
def tmpPathFor (fileId : PyStr) : Path := ⟨.files, fileId ++ py ".bin" ++ py ".tmp"⟩

variable (P : Primitives) (ca : Bytes)

/-! ## Replies -/

/-- `send_message(sock, make_envelope(type, payload))`. -/
def sendMessage (type : MessageType) (payload : Obj) : ServerM Unit := act (Op.send type payload)

/-- The payload of an `ERROR`. -/
def errorPayload (code : String) : Obj := [(py "code", .str (py code))]

/-- `_send_error`. -/
def sendError (code : String) : ServerM Unit := sendMessage .ERROR (errorPayload code)

/-! ## The public key directory -/

/-- `_read_json`. -/
def readJson (path : Path) : ServerM Obj := do
  let data ← act (Op.readBytes path)
  match utf8Decode data with
  | none => throw .unicodeDecodeError
  | some text =>
      match ← raising (P.jsonLoads text) with
      | .obj o => return o
      | _ => throw (.protocolError (py "must contain a JSON object"))

/-- `_load_verified_pubkey_cert`. -/
def loadVerifiedPubkeyCert (username : Json) : ServerM (Option Obj) :=
  match pubkeyPathFor username with
  | none => return none
  | some path => do
      if ← act (Op.isFile path) then
        match ← attempt (readJson P path) with
        | .ok cert =>
            if ← verifyCertificate P (act Op.time) (.obj cert) ca username.asStr then
              return some cert
            else return none
        | .error .osError | .error .jsonDecodeError | .error (.protocolError _) => return none
        | .error e => throw e
      else return none

/-- `_handle_get_pubkey`. -/
def handleGetPubkey (env : Envelope) : ServerM Unit := do
  match ← loadVerifiedPubkeyCert P ca ((dictGet env.payload "username").getD .null) with
  | none => sendError "NOT_FOUND"
  | some cert => sendMessage .PUBKEY_RESPONSE [(py "cert", .obj cert)]

/-! ## Listing -/

/-- The listing of one row. -/
def pendingEntry (row : FileRow) (size : Json) : Json :=
  .obj [(py "file_id", .str row.fileId), (py "sender_id", .str row.senderId),
    (py "upload_timestamp", .int row.uploadTimestamp), (py "expiration", .int row.expiration),
    (py "ciphertext_size", size)]

/-- The size of a row's blob, or `None`. -/
def ciphertextSize (row : FileRow) : ServerM Json := do
  match ← attempt (act (Op.statSize (fileBlobPathFor row.fileId))) with
  | .ok size => return .int size
  | .error .osError => return .null
  | .error e => throw e

/-- The listings of rows. -/
def pendingEntries : List FileRow → ServerM (List Json)
  | [] => return []
  | row :: rows => do
      let size ← ciphertextSize row
      return pendingEntry row size :: (← pendingEntries rows)

/-- `list_pending_for`. -/
def listPendingFor (recipient : PyStr) : ServerM (List FileRow) := do
  let now ← act .time
  act (Op.listPending recipient now)

/-- `_handle_list_pending`. -/
def handleListPending (session : Session) : ServerM Unit := do
  let rows ← listPendingFor session.peerSubject
  let files ← pendingEntries rows
  sendMessage .PENDING_LIST [(py "files", .arr files)]

/-! ## The replay gate -/

/-- The first step of four handlers: the envelope's nonce is decoded and recorded. -/
def replayGate (env : Envelope) (body : ServerM Unit) : ServerM Unit :=
  match b64decode env.nonce with
  | none => sendError "MALFORMED"
  | some nonce => do
      if ← checkAndRecord nonce env.timestamp then body
      else sendError "STALE"

/-- `(KeyError, ValueError, ProtocolError)`. -/
def isMalformed (e : PyExn) : Bool := e = .keyError ∨ e.isValueError ∨ e.isProtocolError

/-- `isinstance(value, int)`. -/
def requireInt (msg : String) (v : Json) : Except PyExn ℤ :=
  match v.asInt with
  | some i => .ok i
  | none => .error (.protocolError (py msg))

theorem requireInt_eq_ok {msg : String} {v : Json} {i : ℤ} :
    requireInt msg v = .ok i ↔ v.asInt = some i := by
  unfold requireInt
  cases v.asInt <;> simp

/-- `str(uuid.UUID(file_id)) == file_id`, of a value of any type. -/
def parseFileId : Json → Except PyExn PyStr
  | .str s =>
      match uuidUUID s with
      | none => .error .valueError
      | some n =>
          if uuidStr n = s then .ok s else .error (.protocolError (py "invalid file_id"))
  | _ => .error (.protocolError (py "invalid file_id"))

theorem parseFileId_eq_ok {v : Json} {s : PyStr} :
    parseFileId v = .ok s ↔ v = .str s ∧ isCanonicalUuid s = true := by
  constructor
  · intro h
    unfold parseFileId at h
    split at h
    · split at h
      · exact nomatch h
      · next n hn =>
        split_ifs at h with hs
        obtain rfl := Except.ok.inj h
        exact ⟨rfl, by simp [isCanonicalUuid, hn, hs]⟩
    · exact nomatch h
  · rintro ⟨rfl, h⟩
    unfold isCanonicalUuid at h
    split at h
    · next n hn => simp [parseFileId, hn, of_decide_eq_true h]
    · exact absurd h Bool.false_ne_true

/-! ## Uploads -/

/-- The fields of an upload. -/
structure Upload where
  fileId : PyStr
  recipient : PyStr
  /-- As they came: integers or booleans. -/
  timestamp : Json
  expiration : Json
  timestampInt : ℤ
  expirationInt : ℤ
  ciphertext : Bytes
  aesNonce : Bytes
  wrappedKey : Bytes
  signature : Bytes

/-- `valid_username(recipient)`, of a value of any type. -/
def parseRecipient : Json → Except PyExn PyStr
  | .str s =>
      if validUsername (.str s) then .ok s
      else .error (.protocolError (py "invalid recipient"))
  | _ => .error (.protocolError (py "invalid recipient"))

theorem parseRecipient_eq_ok {v : Json} {s : PyStr} :
    parseRecipient v = .ok s ↔ v = .str s ∧ validUsername (.str s) = true := by
  constructor
  · intro h
    unfold parseRecipient at h
    split at h
    · split_ifs at h with hs
      obtain rfl := Except.ok.inj h
      exact ⟨rfl, hs⟩
    · exact nomatch h
  · rintro ⟨rfl, h⟩
    exact if_pos h

/-- The reading of an upload's payload. -/
def parseUpload (payload : Obj) : Except PyExn Upload := do
  let fileId ← dictItem payload "file_id"
  let recipient ← dictItem payload "recipient"
  let timestamp ← dictItem payload "timestamp"
  let expiration ← dictItem payload "expiration"
  let fileId ← parseFileId fileId
  let recipient ← parseRecipient recipient
  let timestampInt ← requireInt "timestamp/expiration must be int" timestamp
  let expirationInt ← requireInt "timestamp/expiration must be int" expiration
  let ciphertext ← decodeB64Field payload "ciphertext"
  let aesNonce ← decodeB64Field payload "nonce"
  let wrappedKey ← decodeB64Field payload "wrapped_key"
  let signature ← decodeB64Field payload "signature"
  return { fileId, recipient, timestamp, expiration, timestampInt, expirationInt, ciphertext,
           aesNonce, wrappedKey, signature }

/-- What was checked of each field of an upload that was read from a payload. -/
structure Upload.ReadFrom (payload : Obj) (up : Upload) : Prop where
  fileId : dictGet payload "file_id" = some (.str up.fileId)
  canonical : isCanonicalUuid up.fileId = true
  recipient : dictGet payload "recipient" = some (.str up.recipient)
  username : validUsername (.str up.recipient) = true
  timestamp : dictGet payload "timestamp" = some up.timestamp
  timestampInt : up.timestamp.asInt = some up.timestampInt
  expiration : dictGet payload "expiration" = some up.expiration
  expirationInt : up.expiration.asInt = some up.expirationInt
  ciphertext : decodeB64Field payload "ciphertext" = .ok up.ciphertext
  aesNonce : decodeB64Field payload "nonce" = .ok up.aesNonce
  wrappedKey : decodeB64Field payload "wrapped_key" = .ok up.wrappedKey
  signature : decodeB64Field payload "signature" = .ok up.signature

theorem readFrom_of_parseUpload {payload : Obj} {up : Upload}
    (h : parseUpload payload = .ok up) : up.ReadFrom payload := by
  unfold parseUpload at h
  obtain ⟨fileId, h1, h⟩ := bind_eq_ok.mp h
  obtain ⟨recipient, h2, h⟩ := bind_eq_ok.mp h
  obtain ⟨timestamp, h3, h⟩ := bind_eq_ok.mp h
  obtain ⟨expiration, h4, h⟩ := bind_eq_ok.mp h
  obtain ⟨fileIdText, h5, h⟩ := bind_eq_ok.mp h
  obtain ⟨recipientText, h6, h⟩ := bind_eq_ok.mp h
  obtain ⟨timestampInt, h7, h⟩ := bind_eq_ok.mp h
  obtain ⟨expirationInt, h8, h⟩ := bind_eq_ok.mp h
  obtain ⟨ciphertext, h9, h⟩ := bind_eq_ok.mp h
  obtain ⟨aesNonce, h10, h⟩ := bind_eq_ok.mp h
  obtain ⟨wrappedKey, h11, h⟩ := bind_eq_ok.mp h
  obtain ⟨signature, h12, h⟩ := bind_eq_ok.mp h
  obtain rfl := pure_eq_ok.mp h
  obtain ⟨rfl, hcanon⟩ := parseFileId_eq_ok.mp h5
  obtain ⟨rfl, hname⟩ := parseRecipient_eq_ok.mp h6
  exact ⟨dictItem_eq_ok.mp h1, hcanon, dictItem_eq_ok.mp h2, hname, dictItem_eq_ok.mp h3,
    requireInt_eq_ok.mp h7, dictItem_eq_ok.mp h4, requireInt_eq_ok.mp h8, h9, h10, h11, h12⟩

theorem parseUpload_of_readFrom {payload : Obj} {up : Upload} (h : up.ReadFrom payload) :
    parseUpload payload = .ok up := by
  simp only [parseUpload, dictItem_eq_ok.mpr h.fileId, dictItem_eq_ok.mpr h.recipient,
    dictItem_eq_ok.mpr h.timestamp, dictItem_eq_ok.mpr h.expiration,
    ok_bind, parseFileId_eq_ok.mpr ⟨rfl, h.canonical⟩,
    parseRecipient_eq_ok.mpr ⟨rfl, h.username⟩, requireInt_eq_ok.mpr h.timestampInt,
    requireInt_eq_ok.mpr h.expirationInt, h.ciphertext, h.aesNonce, h.wrappedKey, h.signature]
  rfl

/-- The origin struct that the server rebuilds from an upload. -/
def Upload.origin (up : Upload) (sender : PyStr) : Origin where
  sender := sender
  recipient := up.recipient
  fileId := up.fileId
  ciphertextSha256 := sha256Hex P up.ciphertext
  wrappedKeySha256 := sha256Hex P up.wrappedKey
  timestamp := up.timestamp
  expiration := up.expiration

/-- `_aad`. -/
def aadBytes (fileId sender recipient : PyStr) : Except PyExn Bytes :=
  encodeText (aadText fileId sender recipient)

/-- The row that an upload inserts. -/
def Upload.row (up : Upload) (session : Session) (aad : Bytes) : FileRow where
  fileId := up.fileId
  senderId := session.peerSubject
  recipientId := up.recipient
  uploadTimestamp := up.timestampInt
  expiration := up.expirationInt
  status := .pending
  ciphertextPath := up.fileId ++ py ".bin"
  ciphertextSha256 := sha256Hex P up.ciphertext
  wrappedKey := up.wrappedKey
  aesNonce := up.aesNonce
  aesAad := aad
  senderSignature := up.signature
  senderCertJson := dumps P storedOptions (.obj session.peerCert)

/-- The `try` block of an upload: temporary file, move, row. -/
def storeUpload (session : Session) (up : Upload) : ServerM Unit := do
  act (Op.writeTmp (tmpPathFor up.fileId) up.ciphertext)
  act (Op.replace (tmpPathFor up.fileId) (fileBlobPathFor up.fileId))
  let aad ← raising (aadBytes up.fileId session.peerSubject up.recipient)
  act (Op.insertFile (up.row P session aad))

/-- The payload of `UPLOAD_ACK`. -/
def Upload.ackPayload (up : Upload) : Obj :=
  [(py "file_id", .str up.fileId), (py "expiration", up.expiration)]

/-- An upload from its origin signature on. -/
def acceptUpload (session : Session) (up : Upload) : ServerM Unit := do
  if ← raising (verifyOriginStruct P session.peerCert up.signature
      (up.origin P session.peerSubject)) then
    match ← loadVerifiedPubkeyCert P ca (.str up.recipient) with
    | none => sendError "NOT_FOUND"
    | some _ =>
        act Op.mkdirFiles
        match ← attempt (storeUpload P session up) with
        | .ok _ => sendMessage .UPLOAD_ACK up.ackPayload
        | .error .osError => sendError "INTERNAL_ERROR"
        | .error e => throw e
  else sendError "AUTH_FAILED"

/-- `_handle_upload_request`. -/
def handleUploadRequest (session : Session) (env : Envelope) : ServerM Unit :=
  replayGate env do
    if ← verifyCertificate P (act Op.time) (.obj session.peerCert) ca
        (some session.peerSubject) then
      match parseUpload env.payload with
      | .ok up => acceptUpload P ca session up
      | .error e => if isMalformed e then sendError "MALFORMED" else throw e
    else sendError "AUTH_FAILED"

/-! ## Downloads -/

/-- `_authorise_download`: the row, or the code of the refusal. -/
def authoriseDownload (session : Session) (fileId : Json) : ServerM (Except String FileRow) := do
  match ← act (Op.getFile fileId) with
  | none => return .error "NOT_FOUND"
  | some row =>
      if row.recipientId ≠ session.peerSubject then return .error "AUTH_FAILED"
      else
        let now ← act Op.time
        if row.expiration ≤ now then
          if row.status = .pending then act (Op.markStatus fileId .expired)
          return .error "EXPIRED"
        else
          match row.status with
          | .pending => return .ok row
          | .expired => return .error "EXPIRED"
          | .revoked => return .error "REVOKED"
          | .downloaded => return .error "ALREADY_DOWNLOADED"
          | .other _ => return .error "INTERNAL_ERROR"

/-- The payload of `DOWNLOAD_RESPONSE`. -/
def downloadPayload (fileId : Json) (row : FileRow) (ciphertext : Bytes) : Obj :=
  [(py "file_id", fileId), (py "sender_id", .str row.senderId),
    (py "timestamp", .int row.uploadTimestamp), (py "expiration", .int row.expiration),
    (py "ciphertext", .str (b64encode ciphertext)),
    (py "wrapped_key", .str (b64encode row.wrappedKey)),
    (py "aes_nonce", .str (b64encode row.aesNonce)),
    (py "aes_aad", .str (b64encode row.aesAad)),
    (py "sender_signature", .str (b64encode row.senderSignature)),
    (py "sender_cert_json", .str row.senderCertJson)]

/-- A download from its authorisation on. -/
def serveDownload (fileId : Json) (row : FileRow) : ServerM Unit := do
  let path := fileBlobPathFor (strOf P fileId)
  if ← act (Op.isFile path) then
    match ← attempt (act (Op.readBytes path)) with
    | .ok ciphertext => sendMessage .DOWNLOAD_RESPONSE (downloadPayload fileId row ciphertext)
    | .error .osError => sendError "INTERNAL_ERROR"
    | .error e => throw e
  else sendError "INTERNAL_ERROR"

/-- `_handle_download_request`. -/
def handleDownloadRequest (session : Session) (env : Envelope) : ServerM Unit :=
  replayGate env do
    match dictGet env.payload "file_id" with
    | none => sendError "MALFORMED"
    | some fileId =>
        match ← authoriseDownload session fileId with
        | .error code => sendError code
        | .ok row => serveDownload P fileId row

/-! ## Signed requests about a stored file -/

/-- The fields of an acknowledgement and of a revocation. -/
structure SignedRequest where
  fileId : PyStr
  /-- As it came: an integer or a boolean. -/
  timestamp : Json
  timestampInt : ℤ
  signature : Bytes

/-- The reading of the payload of an acknowledgement or a revocation. -/
def parseSignedRequest (payload : Obj) : Except PyExn SignedRequest := do
  let fileId ← dictItem payload "file_id"
  let timestamp ← dictItem payload "timestamp"
  let fileId ← parseFileId fileId
  let timestampInt ← requireInt "timestamp must be int" timestamp
  let signature ← decodeB64Field payload "signature"
  return { fileId, timestamp, timestampInt, signature }

/-- What was checked of each field of a signed request that was read from a payload. -/
structure SignedRequest.ReadFrom (payload : Obj) (req : SignedRequest) : Prop where
  fileId : dictGet payload "file_id" = some (.str req.fileId)
  canonical : isCanonicalUuid req.fileId = true
  timestamp : dictGet payload "timestamp" = some req.timestamp
  timestampInt : req.timestamp.asInt = some req.timestampInt
  signature : decodeB64Field payload "signature" = .ok req.signature

theorem readFrom_of_parseSignedRequest {payload : Obj} {req : SignedRequest}
    (h : parseSignedRequest payload = .ok req) : req.ReadFrom payload := by
  unfold parseSignedRequest at h
  obtain ⟨fileId, h1, h⟩ := bind_eq_ok.mp h
  obtain ⟨timestamp, h2, h⟩ := bind_eq_ok.mp h
  obtain ⟨fileIdText, h3, h⟩ := bind_eq_ok.mp h
  obtain ⟨timestampInt, h4, h⟩ := bind_eq_ok.mp h
  obtain ⟨signature, h5, h⟩ := bind_eq_ok.mp h
  obtain rfl := pure_eq_ok.mp h
  obtain ⟨rfl, hcanon⟩ := parseFileId_eq_ok.mp h3
  exact ⟨dictItem_eq_ok.mp h1, hcanon, dictItem_eq_ok.mp h2, requireInt_eq_ok.mp h4, h5⟩

/-- `insert_ack`: a second acknowledgement of a file is ignored. -/
def insertAck (row : AckRow) : ServerM Unit := do
  match ← attempt (act (Op.insertAck row)) with
  | .ok _ => return ()
  | .error .integrityError => return ()
  | .error e => throw e

/-- The status is written, and the reply tells of it. -/
def markAndReply (fileId : PyStr) (st : Status) (type : MessageType) (payload : Obj) :
    ServerM Unit := do
  match ← attempt (act (Op.markStatus (.str fileId) st)) with
  | .ok _ => sendMessage type payload
  | .error e =>
      if e.isSqliteError ∨ e.isValueError then sendError "INTERNAL_ERROR" else throw e

/-- The verification of an acknowledgement's signature. -/
def verifyAck (cert : Obj) (req : SignedRequest) : Except PyExn Bool := do
  let pem ← certPem cert
  let canonical ← ackCanonical P req.fileId req.timestamp
  rsaVerify P pem canonical req.signature

/-- The payload of `ACK_OK`. -/
def ackOkPayload (fileId : PyStr) : Obj := [(py "file_id", .str fileId)]

/-- An acknowledgement from its signature on.  The refusal stands inside the `try` block,
so where it cannot be sent it is sent again. -/
def acceptAck (session : Session) (req : SignedRequest) : ServerM Unit :=
  match verifyAck P session.peerCert req with
  | .ok true => do
      insertAck ⟨req.fileId, req.signature, req.timestampInt⟩
      markAndReply req.fileId .downloaded .ACK_OK (ackOkPayload req.fileId)
  | .ok false => do
      match ← attempt (sendError "AUTH_FAILED") with
      | .ok _ => return ()
      | .error _ => sendError "AUTH_FAILED"
  | .error _ => sendError "AUTH_FAILED"

/-- `_handle_download_ack`. -/
def handleDownloadAck (session : Session) (env : Envelope) : ServerM Unit :=
  replayGate env do
    match parseSignedRequest env.payload with
    | .error e => if isMalformed e then sendError "MALFORMED" else throw e
    | .ok req =>
        match ← act (Op.getFile (.str req.fileId)) with
        | none => sendError "NOT_FOUND"
        | some row =>
            if row.recipientId ≠ session.peerSubject then sendError "NOT_AUTHORIZED"
            else if ← verifyCertificate P (act Op.time) (.obj session.peerCert) ca
                (some session.peerSubject) then
              acceptAck P session req
            else sendError "AUTH_FAILED"

/-- The payload of `REVOKE_ACK`. -/
def revokeAckPayload (fileId : PyStr) : Obj :=
  [(py "file_id", .str fileId), (py "status", .str (py "revoked"))]

/-- A revocation from its signature on, by the status of the row that was read. -/
def acceptRevoke (session : Session) (req : SignedRequest) (row : FileRow) : ServerM Unit := do
  if ← raising (verifyRevokeStruct P session.peerCert req.signature session.peerSubject
      req.fileId req.timestamp) then
    match row.status with
    | .revoked => sendMessage .REVOKE_ACK (revokeAckPayload req.fileId)
    | .downloaded => sendError "ALREADY_DOWNLOADED"
    | .expired => sendError "EXPIRED"
    | .other _ => sendError "INTERNAL_ERROR"
    | .pending => markAndReply req.fileId .revoked .REVOKE_ACK (revokeAckPayload req.fileId)
  else sendError "AUTH_FAILED"

/-- `_handle_revoke_request`. -/
def handleRevokeRequest (session : Session) (env : Envelope) : ServerM Unit :=
  replayGate env do
    match parseSignedRequest env.payload with
    | .error e => if isMalformed e then sendError "MALFORMED" else throw e
    | .ok req =>
        match ← act (Op.getFile (.str req.fileId)) with
        | none => sendError "NOT_FOUND"
        | some row =>
            if row.senderId ≠ session.peerSubject then sendError "NOT_AUTHORIZED"
            else if ← verifyCertificate P (act Op.time) (.obj session.peerCert) ca
                (some session.peerSubject) then
              acceptRevoke P session req row
            else sendError "AUTH_FAILED"

/-! ## The receive loop -/

/-- The body of the loop of `serve_connection`, after an envelope has come. -/
def dispatch (session : Session) (env : Envelope) : ServerM Unit :=
  match env.type with
  | .GET_PUBKEY => handleGetPubkey P ca env
  | .LIST_PENDING => handleListPending session
  | .UPLOAD_REQUEST => handleUploadRequest P ca session env
  | .DOWNLOAD_REQUEST => handleDownloadRequest P session env
  | .DOWNLOAD_ACK => handleDownloadAck P ca session env
  | .REVOKE_REQUEST => handleRevokeRequest P ca session env
  | _ => sendError "MALFORMED"

end Server
end ZeroTrust
