import ZeroTrust.Client.Upload

/-!
# Downloading

`client/download.py`: the recipient trusts nothing that the server says.

* `parseDownload`, `Response.ReadFrom`: the fields of a `DOWNLOAD_RESPONSE`.
* `openResponse`: origin signature, AAD, unwrapping and decryption, once the certificate has
  been verified.
* `downloadFile`: request, verify and decrypt, acknowledge, write.
-/

namespace ZeroTrust
namespace Client

open Python Effects Endpoint

variable (P : Primitives) (session : Session)

/-- `list_pending`. -/
def listPending : EndpointM (List Json) := do
  let reply ← request P .LIST_PENDING [] .PENDING_LIST
  match dictGet reply "files" with
  | some (.arr files) =>
      if files.all fun row => row.asObj.isSome then return files
      else throw (.protocolError (py "PENDING_LIST files must be a list"))
  | _ => throw (.protocolError (py "PENDING_LIST files must be a list"))

/-! ## The response -/

/-- `hmac.compare_digest` of two `str`: text that is not ASCII raises `TypeError`. -/
def compareDigestText (a b : PyStr) : Except PyExn Bool :=
  if a.all (fun c => c.val < 0x80) ∧ b.all (fun c => c.val < 0x80) then .ok (a = b)
  else .error .typeError

/-- `_load_sender_cert`. -/
def loadSenderCert (payload : Obj) : Except PyExn Obj :=
  match (dictGet payload "sender_cert_json").bind Json.asStr with
  | none => .error (.protocolError (py "missing sender_cert_json"))
  | some raw =>
      match P.jsonLoads raw with
      | .ok (.obj cert) => .ok cert
      | .ok _ => .error (.protocolError (py "sender_cert_json must be a JSON object"))
      | .error .jsonDecodeError =>
          .error (.protocolError (py "sender_cert_json is not valid JSON"))
      | .error e => .error e

/-- `_file_aad`. -/
def downloadAad (fileId sender recipient : PyStr) : Except PyExn Bytes :=
  encodeText (aadText fileId sender recipient)

/-- The fields of a `DOWNLOAD_RESPONSE`. -/
structure Response where
  fileId : PyStr
  sender : PyStr
  /-- As they came: integers or booleans. -/
  timestamp : Json
  expiration : Json
  ciphertext : Bytes
  wrappedKey : Bytes
  aesNonce : Bytes
  sentAad : Bytes
  signature : Bytes
  senderCert : Obj

/-- The routing fields of a response, against the file id that was asked for: the response's
own one where none was. -/
def parseRouting (payload : Obj) (fileId : Option PyStr) :
    Except PyExn (PyStr × PyStr × Json × Json) :=
  match (dictGet payload "file_id").bind Json.asStr with
  | none => .error (.protocolError (py "malformed DOWNLOAD_RESPONSE"))
  | some responseFileId => do
      let expected := fileId.getD responseFileId
      if ← compareDigestText responseFileId expected then
        match (dictGet payload "sender_id").bind Json.asStr, dictGet payload "timestamp",
          dictGet payload "expiration" with
        | some sender, some timestamp, some expiration =>
            if timestamp.asInt.isSome ∧ expiration.asInt.isSome then
              return (expected, sender, timestamp, expiration)
            else throw (.protocolError (py "malformed DOWNLOAD_RESPONSE"))
        | _, _, _ => throw (.protocolError (py "malformed DOWNLOAD_RESPONSE"))
      else throw (.protocolError (py "malformed DOWNLOAD_RESPONSE"))

/-- The reading of a response, up to the verification of the certificate in it. -/
def parseDownload (payload : Obj) (fileId : Option PyStr) : Except PyExn Response := do
  let (fileId, sender, timestamp, expiration) ← parseRouting payload fileId
  let ciphertext ← decodeB64Field payload "ciphertext"
  let wrappedKey ← decodeB64Field payload "wrapped_key"
  let aesNonce ← decodeB64Field payload "aes_nonce"
  let sentAad ← decodeB64Field payload "aes_aad"
  let signature ← decodeB64Field payload "sender_signature"
  let senderCert ← loadSenderCert P payload
  return { fileId, sender, timestamp, expiration, ciphertext, wrappedKey, aesNonce, sentAad,
           signature, senderCert }

/-- The origin struct that the recipient rebuilds from a response. -/
def Response.origin (resp : Response) (recipient : PyStr) : Origin where
  sender := resp.sender
  recipient := recipient
  fileId := resp.fileId
  ciphertextSha256 := sha256Hex P resp.ciphertext
  wrappedKeySha256 := sha256Hex P resp.wrappedKey
  timestamp := resp.timestamp
  expiration := resp.expiration

/-- The checks of a response after that of its certificate, and its decryption. -/
def openResponse (resp : Response) : Except PyExn Bytes := do
  if ← verifyOriginStruct P resp.senderCert resp.signature (resp.origin P session.username) then
    let expectedAad ← downloadAad resp.fileId resp.sender session.username
    if resp.sentAad ≠ expectedAad then throw (.cryptoError (py "AES-GCM AAD mismatch"))
    else
      let aesKey ← unwrapAesKey P session.clientPrivPem session.clientPassword resp.wrappedKey
      decryptFileBlob P aesKey resp.aesNonce resp.ciphertext resp.fileId resp.sender
        session.username
  else throw (.authError (py "AUTH_FAILED"))

/-- `verify_and_decrypt_download`. -/
def verifyAndDecryptDownload (payload : Obj) (fileId : Option PyStr) : EndpointM Bytes := do
  let resp ← raising (parseDownload P payload fileId)
  if ← verifyCertificate P (act Op.time) (.obj resp.senderCert) session.caPubkeyPem
      (some resp.sender) then
    raising (openResponse P session resp)
  else throw (.authError (py "AUTH_FAILED"))

/-! ## Downloads -/

/-- `_download_path`. -/
def downloadPath (username fileId : PyStr) : LocalPath :=
  [py "client_" ++ username, py "downloads", fileId]

/-- `path.with_name(f"{path.name}.tmp")` of a download. -/
def downloadTmpPath (username fileId : PyStr) : LocalPath :=
  [py "client_" ++ username, py "downloads", fileId ++ py ".tmp"]

/-- The `try` block of `_atomic_write`. -/
def writeAndReplace (tmp path : LocalPath) (data : Bytes) : EndpointM Unit := do
  act (Op.writeFile tmp data)
  act (Op.replace tmp path)

/-- The `except OSError` block of `_atomic_write`. -/
def discardTmp (tmp : LocalPath) : EndpointM Unit := do
  match ← attempt (act (Op.unlink tmp)) with
  | .ok _ | .error .osError => throw .osError
  | .error e => throw e

/-- `_atomic_write`. -/
def atomicWrite (tmp path : LocalPath) (data : Bytes) : EndpointM Unit := do
  act (Op.makeParent path)
  match ← attempt (writeAndReplace tmp path data) with
  | .ok _ => return ()
  | .error .osError => discardTmp tmp
  | .error e => throw e

/-- The acknowledgement of a download, and the wait for its reply, whatever it is. -/
def acknowledge (fileId : PyStr) : EndpointM Unit := do
  let ts ← act Op.time
  let canonical ← raising (ackCanonical P fileId (.int ts))
  let signature ← act (Op.sign session.clientPrivPem session.clientPassword canonical)
  sendMessage .DOWNLOAD_ACK (signedPayload fileId ts signature)
  let _ ← recvEnvelope
  return ()

/-- `download_file`. -/
def downloadFile (fileId : PyStr) : EndpointM LocalPath := do
  let payload ← request P .DOWNLOAD_REQUEST [(py "file_id", .str fileId)] .DOWNLOAD_RESPONSE
  let plaintext ← verifyAndDecryptDownload P session payload (some fileId)
  acknowledge P session fileId
  let outputPath := downloadPath session.username fileId
  atomicWrite (downloadTmpPath session.username fileId) outputPath plaintext
  return outputPath

end Client
end ZeroTrust
