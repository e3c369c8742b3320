import ZeroTrust.Common.Handshake

/-!
# The server's end of the handshake

`perform_server_handshake`.  Every check that fails ends in `_fail`: a generic `AUTH_FAILED`
goes to the peer, and `AuthError` is raised.
-/

namespace ZeroTrust
namespace Server

open Python Effects Endpoint

/-- The payload of the generic error. -/
def authFailedPayload : Obj := [(py "code", .str (py "AUTH_FAILED"))]

/-- `_fail`: `_send_error` swallows the errors of the socket. -/
def fail {α : Type} (reason : PyStr) : EndpointM α := do
  match ← attempt (sendMessage .ERROR authFailedPayload) with
  | .ok _ | .error .osError => throw (.authError reason)
  | .error x => throw x

/-- A message of the given type, or `_fail`. -/
def receiveOrFail (type : MessageType) (what : String) : EndpointM Obj := do
  match ← attempt recvEnvelope with
  | .ok env =>
      if env.type ≠ type then
        fail (py "expected " ++ type.name ++ py ", got '" ++ env.type.name ++ py "'")
      else return env.payload
  | .error (.protocolError msg) => fail (py "malformed " ++ py what ++ py ": " ++ msg)
  | .error x => throw x

variable (P : Primitives) (me : Party)

/-- Steps 1 and 2: the client's `HELLO` and its certificate, which any subject may hold. -/
def greetClient : EndpointM (Bytes × Peer) := do
  let payload ← receiveOrFail .HELLO "client HELLO"
  match parseHello "client" payload with
  | .error reason => fail reason
  | .ok (clientCert, nonceC) => do
      if ← verifyCertificate P (act Op.time) clientCert me.caPubkeyPem none then
        let peer ← raising (peerOf clientCert)
        return (nonceC, peer)
      else fail (py "client cert verification failed")

/-- Steps 3 and 4: the server's `HELLO`, and the pre-master. -/
def takePreMaster (nonceC : Bytes) : EndpointM Exchange := do
  let nonceS ← act (Op.urandom NONCE_BYTES)
  sendMessage .HELLO (helloPayload me.cert nonceS)
  let payload ← receiveOrFail .KEY_EXCHANGE "KEY_EXCHANGE"
  match b64Item payload "pre_master_ct" with
  | none => fail (py "pre_master_ct not valid base64")
  | some preMasterCt =>
      match rsaOaepDecrypt P me.privPem me.password preMasterCt with
      | .error (.cryptoError _) => fail (py "pre_master OAEP decryption failed")
      | .error x => throw x
      | .ok preMaster =>
          if preMaster.length ≠ PRE_MASTER_BYTES then
            fail (py "pre_master wrong length: " ++ intRepr preMaster.length)
          else return { nonceC, nonceS, preMasterCt, preMaster }

/-- Steps 5 and 6: the transcript, and the client's proof. -/
def awaitClient (peer : Peer) (e : Exchange) : EndpointM Bytes := do
  let transcript ← raising (buildTranscriptHash P e.nonceC e.nonceS e.preMasterCt)
  let payload ← receiveOrFail .AUTH_RESPONSE "AUTH_RESPONSE"
  match b64Item payload "signature" with
  | none => fail (py "client signature not valid base64")
  | some clientSig => do
      if ← raising (rsaVerify P peer.pem transcript clientSig) then return transcript
      else fail (py "client_pop_signature_invalid")

/-- Steps 7 to 9: the keys, and the server's proof. -/
def proveToClient (peer : Peer) (e : Exchange) (transcript : Bytes) : EndpointM SessionState := do
  let state ← raising (deriveSession P peer e transcript)
  let serverSig ← act (Op.sign me.privPem me.password transcript)
  sendMessage .SESSION_OK (proofPayload serverSig)
  return state

/-- `perform_server_handshake`. -/
def performServerHandshake : EndpointM SessionState := do
  let (nonceC, peer) ← greetClient P me
  let e ← takePreMaster P me nonceC
  let transcript ← awaitClient P peer e
  proveToClient P me peer e transcript

end Server
end ZeroTrust
