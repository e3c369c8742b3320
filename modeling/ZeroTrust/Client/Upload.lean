import ZeroTrust.Common.Endpoint
import ZeroTrust.Common.Signed

/-!
# Uploading

`fetch_peer_cert` of `client/peer.py`, `upload_file` of `client/upload.py` and `revoke_file`
of `client/revoke.py`.

* `Session`: what `connected_session` yields.
* `Package`: an upload before it is signed.
* `uploadFile`: a file is encrypted under a fresh key, the key is wrapped for the recipient
  whose certificate has been fetched and verified, and the whole is signed.
-/

namespace ZeroTrust
namespace Client

open Python Effects Endpoint

/-- A live session: what `connected_session` merges into the handshake's result.  The
functions check that each item is there and has its type, which it always does. -/
structure Session where
  username : PyStr
  clientCert : Obj
  clientPrivPem : Bytes
  clientPassword : Bytes
  caPubkeyPem : Bytes

variable (P : Primitives) (session : Session)

/-- `fetch_peer_cert`. -/
def fetchPeerCert (username : PyStr) : EndpointM Obj := do
  let reply ← request P .GET_PUBKEY [(py "username", .str username)] .PUBKEY_RESPONSE
  match dictGet reply "cert" with
  | some (.obj cert) =>
      if ← verifyCertificate P (act Op.time) (.obj cert) session.caPubkeyPem (some username) then
        return cert
      else throw (.authError (py "recipient cert verification failed"))
  | _ => throw (.protocolError (py "PUBKEY_RESPONSE missing cert"))

/-- An upload before it is signed. -/
structure Package where
  fileId : PyStr
  recipient : PyStr
  nonce : Bytes
  ciphertext : Bytes
  wrappedKey : Bytes
  timestamp : ℤ
  expiration : ℤ

/-- The origin struct that the sender signs. -/
def Package.origin (pkg : Package) (sender : PyStr) : Origin where
  sender := sender
  recipient := pkg.recipient
  fileId := pkg.fileId
  ciphertextSha256 := sha256Hex P pkg.ciphertext
  wrappedKeySha256 := sha256Hex P pkg.wrappedKey
  timestamp := .int pkg.timestamp
  expiration := .int pkg.expiration

/-- The building of the package for a recipient whose certificate has been verified. -/
def buildPackage (recipientCert : Obj) (recipientUsername : PyStr) (plaintext : Bytes)
    (expirationSeconds : ℤ) : EndpointM Package := do
  let fileId ← act Op.uuid4
  let (nonce, ciphertext, aesKey) ←
    encryptFileBlob P plaintext fileId session.username recipientUsername
  let wrappedKey ← wrapAesKeyFor recipientCert aesKey
  let timestamp ← act Op.time
  return { fileId, recipient := recipientUsername, nonce, ciphertext, wrappedKey, timestamp,
           expiration := timestamp + expirationSeconds }

/-- `upload_file`. -/
def uploadFile (recipientUsername : PyStr) (filePath : LocalPath) (expirationSeconds : ℤ) :
    EndpointM Obj := do
  if !(← act (Op.isFile filePath)) then throw .osError
  if MAX_MESSAGE_BYTES < (← act (Op.statSize filePath)) then
    throw (.protocolError (py "MESSAGE_TOO_LARGE"))
  let recipientCert ← fetchPeerCert P session recipientUsername
  let plaintext ← act (Op.readFile filePath)
  let pkg ← buildPackage P session recipientCert recipientUsername plaintext expirationSeconds
  let canonical ← raising (originCanonical P (pkg.origin P session.username))
  let signature ← act (Op.sign session.clientPrivPem session.clientPassword canonical)
  request P .UPLOAD_REQUEST
    (uploadPayload pkg.fileId pkg.recipient pkg.ciphertext pkg.nonce pkg.wrappedKey signature
      pkg.timestamp pkg.expiration) .UPLOAD_ACK

/-- `revoke_file`. -/
def revokeFile (fileId : PyStr) : EndpointM Obj := do
  if fileId = [] then throw (.protocolError (py "file_id must be a non-empty string"))
  let timestamp ← act Op.time
  let canonical ← raising (revokeCanonical P session.username fileId (.int timestamp))
  let signature ← act (Op.sign session.clientPrivPem session.clientPassword canonical)
  request P .REVOKE_REQUEST (signedPayload fileId timestamp signature) .REVOKE_ACK

end Client
end ZeroTrust
