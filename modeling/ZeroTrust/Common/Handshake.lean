import ZeroTrust.Common.Endpoint
import ZeroTrust.Common.Signed

/-!
# What the two ends of the handshake share

The constants that `client/handshake.py` and `server/handshake.py` both define, the payloads of
the five messages, and the session that both return.

* `Party`: what either end is given.
* `parseHello`, `peerOf`: the reading of the other end's `HELLO`.
* `Exchange`: the two nonces and the pre-master of one handshake, its transcript and its keys.
-/

namespace ZeroTrust

open Python Effects Endpoint

/-- `HKDF_INFO`. -/
def HKDF_INFO : Bytes := "zerotrust-v1".toUTF8.data.toList

/-- `HKDF_OUTPUT_BYTES`. -/
def HKDF_OUTPUT_BYTES : ℕ := 64

/-- `SESSION_KEY_BYTES`. -/
def SESSION_KEY_BYTES : ℕ := 32

/-- `PRE_MASTER_BYTES`. -/
def PRE_MASTER_BYTES : ℕ := 32

/-- What either end of a handshake is given. -/
structure Party where
  /-- The certificate that is sent in `HELLO`. -/
  cert : Obj
  /-- The private key, encrypted under the password. -/
  privPem : Bytes
  password : Bytes
  /-- The trust anchor. -/
  caPubkeyPem : Bytes

/-- The session that a handshake returns. -/
structure SessionState where
  /-- `cert["subject"]`, of whatever type it is. -/
  peerSubject : Json
  peerCert : Obj
  c2sKey : Bytes
  s2cKey : Bytes
  transcriptHash : Bytes

/-! ## Payloads -/

/-- The payload of a `HELLO`. -/
def helloPayload (cert : Obj) (nonce : Bytes) : Obj :=
  [(py "cert", .obj cert), (py "nonce", .str (b64encode nonce))]

/-- The payload of a `KEY_EXCHANGE`. -/
def keyExchangePayload (preMasterCt : Bytes) : Obj :=
  [(py "pre_master_ct", .str (b64encode preMasterCt))]

/-- The payload of an `AUTH_RESPONSE` and of a `SESSION_OK`. -/
def proofPayload (signature : Bytes) : Obj := [(py "signature", .str (b64encode signature))]

/-- `base64.b64decode(payload[name], validate=True)`; `none` is the exception it raises,
whichever it is. -/
def b64Item (payload : Obj) (name : String) : Option Bytes :=
  ((dictGet payload name).bind Json.asStr).bind b64decode

/-- The reading of a `HELLO`: the certificate and the nonce, or what is wrong with it. -/
def parseHello (peer : String) (payload : Obj) : Except PyStr (Json × Bytes) :=
  match dictGet payload "cert", dictGet payload "nonce" with
  | some cert, some _ =>
      match b64Item payload "nonce" with
      | none => .error (py peer ++ py " nonce not valid base64")
      | some nonce =>
          if nonce.length ≠ NONCE_BYTES then
            .error (py peer ++ py " nonce wrong length: " ++ intRepr nonce.length)
          else .ok (cert, nonce)
  | _, _ => .error (py peer ++ py " HELLO payload missing cert/nonce")

theorem length_of_parseHello {peer : String} {payload : Obj} {cert : Json} {nonce : Bytes}
    (h : parseHello peer payload = .ok (cert, nonce)) : nonce.length = NONCE_BYTES := by
  unfold parseHello at h
  split at h
  · split at h
    · cases h
    · split_ifs at h with hl
      cases h
      exact not_not.mp hl
  · cases h

/-- The other end, once its certificate has been verified. -/
structure Peer where
  subject : Json
  cert : Obj
  /-- `cert["public_key_pem"].encode("ascii")`. -/
  pem : Bytes

/-- What the program reads off a verified certificate. -/
def peerOf : Json → Except PyExn Peer
  | .obj cert => do
      let subject ← dictItem cert "subject"
      let pem ← certPem cert
      return { subject, cert, pem }
  | _ => throw .typeError

theorem peerOf_eq_ok {v : Json} {peer : Peer} (h : peerOf v = .ok peer) :
    v = .obj peer.cert ∧ dictGet peer.cert "subject" = some peer.subject ∧
      certPem peer.cert = .ok peer.pem := by
  cases v with
  | obj cert =>
    obtain ⟨subject, hs, h⟩ := bind_eq_ok.mp h
    obtain ⟨pem, hp, h⟩ := bind_eq_ok.mp h
    obtain rfl := pure_eq_ok.mp h
    exact ⟨rfl, dictItem_eq_ok.mp hs, hp⟩
  | _ => cases h

/-! ## Keys -/

variable (P : Primitives)

/-- The public key of a certificate. -/
def certKey (cert : Obj) : Except PyExn RsaPublicKey := certPem cert >>= loadPublic P

/-- `hkdf_derive`. -/
def hkdfDerive (ikm salt info : Bytes) (length : ℕ) : Except PyExn Bytes :=
  if length = 0 then .error .valueError else .ok (P.hkdf ikm salt info length)

/-- What one handshake is about. -/
structure Exchange where
  nonceC : Bytes
  nonceS : Bytes
  preMasterCt : Bytes
  preMaster : Bytes

namespace Exchange

variable (e : Exchange)

/-- What the transcript hash is the hash of. -/
def transcriptInput : Bytes := e.nonceC ++ e.nonceS ++ e.preMasterCt

/-- The key material of the session. -/
def okm : Bytes := P.hkdf e.preMaster (e.nonceC ++ e.nonceS) HKDF_INFO HKDF_OUTPUT_BYTES

/-- The session that comes out of a handshake with a peer. -/
def state (peer : Peer) : SessionState where
  peerSubject := peer.subject
  peerCert := peer.cert
  c2sKey := (e.okm P).take SESSION_KEY_BYTES
  s2cKey := (e.okm P).drop SESSION_KEY_BYTES
  transcriptHash := P.sha256 e.transcriptInput

end Exchange

/-- The end of a handshake: the keys are derived and the session is returned. -/
def deriveSession (peer : Peer) (e : Exchange) (transcript : Bytes) :
    Except PyExn SessionState := do
  let okm ← hkdfDerive P e.preMaster (e.nonceC ++ e.nonceS) HKDF_INFO HKDF_OUTPUT_BYTES
  return { peerSubject := peer.subject, peerCert := peer.cert,
           c2sKey := okm.take SESSION_KEY_BYTES, s2cKey := okm.drop SESSION_KEY_BYTES,
           transcriptHash := transcript }

theorem deriveSession_eq_ok {peer : Peer} {e : Exchange} {transcript : Bytes}
    (h : buildTranscriptHash P e.nonceC e.nonceS e.preMasterCt = .ok transcript) :
    deriveSession P peer e transcript = .ok (e.state P peer) := by
  obtain ⟨-, -, -, rfl⟩ := (buildTranscriptHash_eq_ok P).mp h
  rfl

end ZeroTrust
