import ZeroTrust.Common.Handshake

/-!
# The client's end of the handshake

`perform_client_handshake`, in the order of its steps: the `HELLO`s, the pre-master under the
server's key, the client's proof, and the server's.  The pre-master is not drawn before the
server's certificate has verified.
-/

namespace ZeroTrust
namespace Client

open Python Effects Endpoint

variable (P : Primitives) (me : Party)

/-- Steps 1 and 2: the two `HELLO`s, and the verification of the server's certificate. -/
def greetServer (expectedServerSubject : Option PyStr) : EndpointM (Bytes × Bytes × Peer) := do
  let nonceC ← act (Op.urandom NONCE_BYTES)
  sendMessage .HELLO (helloPayload me.cert nonceC)
  let serverHello ← recvEnvelope
  if serverHello.type ≠ .HELLO then
    throw (.authError (py "expected HELLO from server, got '" ++ serverHello.type.name ++ py "'"))
  else
    match parseHello "server" serverHello.payload with
    | .error reason => throw (.protocolError reason)
    | .ok (serverCert, nonceS) => do
        if ← verifyCertificate P (act Op.time) serverCert me.caPubkeyPem expectedServerSubject then
          let peer ← raising (peerOf serverCert)
          return (nonceC, nonceS, peer)
        else throw (.authError (py "server cert verification failed"))

/-- Steps 3 to 5: the pre-master under the server's key, and the signed transcript. -/
def proveToServer (nonceC nonceS : Bytes) (peer : Peer) : EndpointM (Exchange × Bytes) := do
  let preMaster ← act (Op.urandom PRE_MASTER_BYTES)
  let preMasterCt ← act (Op.oaepEncrypt peer.pem preMaster)
  sendMessage .KEY_EXCHANGE (keyExchangePayload preMasterCt)
  let transcript ← raising (buildTranscriptHash P nonceC nonceS preMasterCt)
  let clientSig ← act (Op.sign me.privPem me.password transcript)
  sendMessage .AUTH_RESPONSE (proofPayload clientSig)
  return ({ nonceC, nonceS, preMasterCt, preMaster }, transcript)

/-- Step 6, with the server's reply at hand. -/
def checkSessionOk (peer : Peer) (transcript : Bytes) (sessionOk : Envelope) :
    Except PyExn Unit := do
  if sessionOk.type ≠ .SESSION_OK then
    throw (.authError (py "expected SESSION_OK, got '" ++ sessionOk.type.name ++ py "'"))
  else
    match b64Item sessionOk.payload "signature" with
    | none => throw (.protocolError (py "server signature not valid base64"))
    | some serverSig =>
        if ← rsaVerify P peer.pem transcript serverSig then return ()
        else throw (.authError (py "server PoP signature invalid"))

/-- Steps 6 and 7: the server's proof, and the keys. -/
def awaitServer (peer : Peer) (e : Exchange) (transcript : Bytes) : EndpointM SessionState := do
  match ← attempt recvEnvelope with
  | .ok sessionOk => do
      raising (checkSessionOk P peer transcript sessionOk)
      raising (deriveSession P peer e transcript)
  | .error .osError | .error (.protocolError _) => throw (.authError (py "handshake failed"))
  | .error x => throw x

/-- `perform_client_handshake`. -/
def performClientHandshake (expectedServerSubject : Option PyStr) : EndpointM SessionState := do
  let (nonceC, nonceS, peer) ← greetServer P me expectedServerSubject
  let (e, transcript) ← proveToServer P me nonceC nonceS peer
  awaitServer P peer e transcript

end Client
end ZeroTrust
