import ZeroTrust.Ca.Cert

/-!
# What users sign

The byte strings that users' keys sign, each with its verifier: the origin struct of
an upload (`common/origin.py`), the revoke struct (`common/revoke.py`), the
acknowledgement struct of `download_file` and `_handle_download_ack`, and the
transcript hash of the handshake (`common/transcript.py`).
-/

namespace ZeroTrust

open Python

/-- The fields of the origin struct. -/
structure Origin where
  sender : PyStr
  recipient : PyStr
  fileId : PyStr
  ciphertextSha256 : PyStr
  wrappedKeySha256 : PyStr
  /-- An integer or a boolean: what `isinstance(value, int)` lets through. -/
  timestamp : Json
  expiration : Json

/-- The `dict` that `origin._build_canonical` serialises. -/
def Origin.toJson (s : Origin) : Json :=
  .obj [(py "sender", .str s.sender), (py "recipient", .str s.recipient),
    (py "file_id", .str s.fileId), (py "ciphertext_sha256", .str s.ciphertextSha256),
    (py "wrapped_key_sha256", .str s.wrappedKeySha256), (py "timestamp", s.timestamp),
    (py "expiration", s.expiration)]

/-- The `dict` that `revoke._build_canonical` serialises. -/
def revokeJson (sender fileId : PyStr) (timestamp : Json) : Json :=
  .obj [(py "action", .str (py "revoke")), (py "file_id", .str fileId),
    (py "sender", .str sender), (py "timestamp", timestamp)]

/-- The `dict` that a recipient signs to acknowledge a download. -/
def ackJson (fileId : PyStr) (timestamp : Json) : Json :=
  .obj [(py "file_id", .str fileId), (py "status", .str (py "received")),
    (py "timestamp", timestamp)]

/-- The payload of an `UPLOAD_REQUEST`, as `upload_file` builds it. -/
def uploadPayload (fileId recipient : PyStr) (ciphertext nonce wrappedKey signature : Bytes)
    (timestamp expiration : ℤ) : Obj :=
  [(py "file_id", .str fileId), (py "recipient", .str recipient),
    (py "ciphertext", .str (b64encode ciphertext)), (py "nonce", .str (b64encode nonce)),
    (py "wrapped_key", .str (b64encode wrappedKey)),
    (py "signature", .str (b64encode signature)), (py "timestamp", .int timestamp),
    (py "expiration", .int expiration)]

/-- The payload of a `DOWNLOAD_ACK` and of a `REVOKE_REQUEST`, as the client builds it. -/
def signedPayload (fileId : PyStr) (timestamp : ℤ) (signature : Bytes) : Obj :=
  [(py "file_id", .str fileId), (py "timestamp", .int timestamp),
    (py "signature", .str (b64encode signature))]

/-- `transcript.NONCE_BYTES`. -/
def NONCE_BYTES : ℕ := 16

variable (P : Primitives)

/-- `origin._build_canonical`. -/
def originCanonical (s : Origin) : Except PyExn Bytes := canonicalJson P s.toJson

/-- `revoke._build_canonical`. -/
def revokeCanonical (sender fileId : PyStr) (timestamp : Json) : Except PyExn Bytes :=
  canonicalJson P (revokeJson sender fileId timestamp)

/-- The canonical JSON of an acknowledgement. -/
def ackCanonical (fileId : PyStr) (timestamp : Json) : Except PyExn Bytes :=
  canonicalJson P (ackJson fileId timestamp)

/-- `build_transcript_hash`. -/
def buildTranscriptHash (nonceC nonceS preMasterCt : Bytes) : Except PyExn Bytes :=
  if nonceC.length ≠ NONCE_BYTES then .error .valueError
  else if nonceS.length ≠ NONCE_BYTES then .error .valueError
  else if preMasterCt.length = 0 then .error .valueError
  else .ok (P.sha256 (nonceC ++ nonceS ++ preMasterCt))

/-- The exceptions that `verify_origin_struct` and `verify_revoke_struct` turn into
`False`. -/
def failsClosed : PyExn → Bool
  | .attributeError | .keyError | .typeError | .unicodeEncodeError | .cryptoError _ => true
  | _ => false

/-- The common body of the two verifiers: the certificate's key over the canonical
bytes of a struct. -/
def verifyStruct (cert : Obj) (canonical : Except PyExn Bytes) (signature : Bytes) :
    Except PyExn Bool :=
  let verdict : Except PyExn Bool := do
    let pem ← certPem cert
    let data ← canonical
    rsaVerify P pem data signature
  match verdict with
  | .ok b => .ok b
  | .error e => if failsClosed e then .ok false else .error e

/-- `verify_origin_struct`. -/
def verifyOriginStruct (cert : Obj) (signature : Bytes) (s : Origin) : Except PyExn Bool :=
  verifyStruct P cert (originCanonical P s) signature

/-- `verify_revoke_struct`. -/
def verifyRevokeStruct (cert : Obj) (signature : Bytes) (sender fileId : PyStr)
    (timestamp : Json) : Except PyExn Bool :=
  verifyStruct P cert (revokeCanonical P sender fileId timestamp) signature

/-- A verifier's `True` is a signature of the certificate's key over the struct. -/
theorem verifyStruct_eq_ok_true {cert : Obj} {canonical : Except PyExn Bytes}
    {signature : Bytes} :
    verifyStruct P cert canonical signature = .ok true ↔
      ∃ pem data, certPem cert = .ok pem ∧ canonical = .ok data ∧
        rsaVerify P pem data signature = .ok true := by
  unfold verifyStruct
  cases hp : certPem cert with
  | error e => simp only [bind, Except.bind]; split_ifs <;> simp
  | ok pem =>
    cases hc : canonical with
    | error e => simp only [bind, Except.bind]; split_ifs <;> simp
    | ok data =>
      cases hr : rsaVerify P pem data signature with
      | error e => simp only [bind, Except.bind, hr]; split_ifs <;> simp [hr]
      | ok b => simp [bind, Except.bind, hr]

theorem buildTranscriptHash_eq_ok {nonceC nonceS preMasterCt h : Bytes} :
    buildTranscriptHash P nonceC nonceS preMasterCt = .ok h ↔
      nonceC.length = NONCE_BYTES ∧ nonceS.length = NONCE_BYTES ∧ preMasterCt.length ≠ 0 ∧
        P.sha256 (nonceC ++ nonceS ++ preMasterCt) = h := by
  unfold buildTranscriptHash
  split_ifs with h1 h2 h3
  · simp [h1]
  · simp [h2]
  · simp [h3]
  · rw [not_not] at h1 h2
    simp [h1, h2, h3]

end ZeroTrust
