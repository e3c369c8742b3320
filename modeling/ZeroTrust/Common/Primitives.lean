import ZeroTrust.Python.Value

/-!
# The primitives under the program

What the program calls and does not define: the `cryptography` package, the hash and
key derivation functions, `json.loads`, and `repr` of a `float`.  They are one
structure of functions, so that every result says which of their properties it rests
on.  Random choices that a primitive makes by itself (the salt of a PSS signature,
the seed of an OAEP encryption) are arguments.

The wrappers of `crypto_primitives.py` stand over the structure, with the program's
own checks and its own exceptions.
-/

namespace ZeroTrust

open Python

/-- An RSA public key. -/
structure RsaPublicKey where
  modulus : ℕ
  exponent : ℕ
  deriving DecidableEq

/-- An RSA private key, with the public key it belongs to. -/
structure RsaPrivateKey where
  pub : RsaPublicKey
  secret : ℕ
  deriving DecidableEq

/-- The functions of the libraries under the program. -/
structure Primitives where
  /-- `float.__repr__`, as the JSON encoder uses it. -/
  floatRepr : PyFloat → PyStr
  /-- `repr` of a list or a dict. -/
  containerRepr : Json → PyStr
  /-- The text SQLite compares a `REAL` as, against a `TEXT` column. -/
  realText : PyFloat → PyStr
  /-- SQLite prints a `REAL` with at most 17 digits, a sign, a point and an exponent. -/
  realText_short : ∀ x, (realText x).length < 36
  /-- `json.loads`. -/
  jsonLoads : PyStr → Except PyExn Json
  /-- `hashlib.sha256(data).digest()`. -/
  sha256 : Bytes → Bytes
  /-- `HKDF(SHA256, length, salt, info).derive(ikm)`, as `ikm salt info length`. -/
  hkdf : Bytes → Bytes → Bytes → ℕ → Bytes
  /-- `load_pem_public_key`; `none` is a key that is not an RSA key. -/
  loadPemPublicKey : Bytes → Except PyExn (Option RsaPublicKey)
  /-- `load_pem_private_key` of a PEM and a password. -/
  loadPemPrivateKey : Bytes → Bytes → Except PyExn (Option RsaPrivateKey)
  /-- `key.sign(data, PSS, SHA256)`, as `key data salt`. -/
  pssSign : RsaPrivateKey → Bytes → Bytes → Bytes
  /-- `key.verify(signature, data, PSS, SHA256)`, as `key data signature`. -/
  pssVerify : RsaPublicKey → Bytes → Bytes → Bool
  /-- `key.encrypt(data, OAEP)`, as `key data seed`. -/
  oaepEncrypt : RsaPublicKey → Bytes → Bytes → Bytes
  /-- `key.decrypt(data, OAEP)`; `none` is the `ValueError`. -/
  oaepDecrypt : RsaPrivateKey → Bytes → Option Bytes
  /-- `AESGCM(key).encrypt(nonce, plaintext, aad)`. -/
  aesGcmEncrypt : Bytes → Bytes → Bytes → Bytes → Bytes
  /-- `AESGCM(key).decrypt(nonce, ciphertext, aad)`; `none` is `InvalidTag`. -/
  aesGcmDecrypt : Bytes → Bytes → Bytes → Bytes → Option Bytes

/-- `crypto_primitives.AES_KEY_BYTES`. -/
def AES_KEY_BYTES : ℕ := 32

/-- `crypto_primitives.AES_NONCE_BYTES`. -/
def AES_NONCE_BYTES : ℕ := 12

/-- What holds of a key that belongs to its public key: what it signs verifies, and what is
wrapped for it unwraps. -/
structure Primitives.Matching (P : Primitives) (key : RsaPrivateKey) : Prop where
  verify_sign : ∀ data salt, P.pssVerify key.pub data (P.pssSign key data salt) = true
  decrypt_encrypt : ∀ data seed, data.length = AES_KEY_BYTES →
    P.oaepDecrypt key (P.oaepEncrypt key.pub data seed) = some data

/-- Authenticated decryption undoes encryption. -/
def Primitives.DecryptsGcm (P : Primitives) : Prop :=
  ∀ key nonce plaintext aad,
    P.aesGcmDecrypt key nonce (P.aesGcmEncrypt key nonce plaintext aad) aad = some plaintext

/-- **Authenticated encryption is ideal**: a ciphertext decrypts, and only under the key, the
nonce and the AAD it was made with. -/
structure Primitives.IdealAead (P : Primitives) : Prop where
  decrypts : P.DecryptsGcm
  opens_only : ∀ key nonce plaintext aad key' nonce' aad' out,
    P.aesGcmDecrypt key' nonce' (P.aesGcmEncrypt key nonce plaintext aad) aad' = some out →
      key' = key ∧ nonce' = nonce ∧ aad' = aad

theorem Primitives.IdealAead.eq_plaintext {P : Primitives} (h : P.IdealAead)
    {key nonce plaintext aad key' nonce' aad' out : Bytes}
    (hdec : P.aesGcmDecrypt key' nonce' (P.aesGcmEncrypt key nonce plaintext aad) aad' =
      some out) : out = plaintext := by
  obtain ⟨rfl, rfl, rfl⟩ := h.opens_only _ _ _ _ _ _ _ _ hdec
  exact Option.some.inj (hdec.symm.trans (h.decrypts ..))

variable (P : Primitives)

/-- `str(v)`, and `f"{v}"`. -/
def strOf : Json → PyStr
  | .str s => s
  | .int i => intRepr i
  | .bool b => if b then py "True" else py "False"
  | .float .nan => py "nan"
  | .float .posInf => py "inf"
  | .float .negInf => py "-inf"
  | .float x => P.floatRepr x
  | .null => py "None"
  | v => P.containerRepr v

/-- `hashlib.sha256(data).hexdigest()`. -/
def sha256Hex (data : Bytes) : PyStr := hexdigest (P.sha256 data)

/-- `_load_public`: `ValueError` and `TypeError` become `CryptoError`. -/
def loadPublic (pem : Bytes) : Except PyExn RsaPublicKey :=
  match P.loadPemPublicKey pem with
  | .ok (some key) => .ok key
  | .ok none => .error (.cryptoError (py "loaded key is not an RSA public key"))
  | .error e =>
      if e.isValueError ∨ e = .typeError then
        .error (.cryptoError (py "failed to load public key"))
      else .error e

/-- `_load_private`. -/
def loadPrivate (pem password : Bytes) : Except PyExn RsaPrivateKey :=
  match P.loadPemPrivateKey pem password with
  | .ok (some key) => .ok key
  | .ok none => .error (.cryptoError (py "loaded key is not an RSA private key"))
  | .error e =>
      if e.isValueError ∨ e = .typeError then
        .error (.cryptoError (py "failed to load private key"))
      else .error e

/-- `rsa_sign`, with the salt that PSS draws. -/
def rsaSign (pem password data salt : Bytes) : Except PyExn Bytes := do
  let key ← loadPrivate P pem password
  return P.pssSign key data salt

/-- `rsa_verify`: `False` on a wrong signature, an exception on a bad key. -/
def rsaVerify (pem data signature : Bytes) : Except PyExn Bool := do
  let key ← loadPublic P pem
  return P.pssVerify key data signature

/-- `rsa_oaep_encrypt`, with the seed that OAEP draws. -/
def rsaOaepEncrypt (pem data seed : Bytes) : Except PyExn Bytes := do
  let key ← loadPublic P pem
  return P.oaepEncrypt key data seed

/-- `rsa_oaep_decrypt`. -/
def rsaOaepDecrypt (pem password data : Bytes) : Except PyExn Bytes := do
  let key ← loadPrivate P pem password
  match P.oaepDecrypt key data with
  | some out => return out
  | none => throw (.cryptoError (py "RSA-OAEP decryption failed"))

/-- `aes_gcm_decrypt`. -/
def aesGcmDecrypt (key nonce ciphertext aad : Bytes) : Except PyExn Bytes :=
  if key.length ≠ AES_KEY_BYTES then .error .valueError
  else if nonce.length ≠ AES_NONCE_BYTES then .error .valueError
  else
    match P.aesGcmDecrypt key nonce ciphertext aad with
    | some out => .ok out
    | none => .error (.cryptoError (py "AES-GCM authentication failed"))

theorem rsaVerify_eq_ok_true {pem data signature : Bytes} :
    rsaVerify P pem data signature = .ok true ↔
      ∃ key, loadPublic P pem = .ok key ∧ P.pssVerify key data signature = true := by
  rw [rsaVerify]
  cases h : loadPublic P pem with
  | error e => simp [bind, Except.bind]
  | ok key => simp [bind, Except.bind, pure, Except.pure]

theorem rsaOaepDecrypt_eq_ok {pem password data out : Bytes} :
    rsaOaepDecrypt P pem password data = .ok out ↔
      ∃ key, loadPrivate P pem password = .ok key ∧ P.oaepDecrypt key data = some out := by
  rw [rsaOaepDecrypt]
  cases h : loadPrivate P pem password with
  | error e => simp [bind, Except.bind]
  | ok key =>
    cases h' : P.oaepDecrypt key data with
    | none => simp [bind, Except.bind, h', throw, throwThe, MonadExceptOf.throw]
    | some out' => simp [bind, Except.bind, h', pure, Except.pure]

theorem aesGcmDecrypt_eq_ok {key nonce ciphertext aad out : Bytes} :
    aesGcmDecrypt P key nonce ciphertext aad = .ok out ↔
      key.length = AES_KEY_BYTES ∧ nonce.length = AES_NONCE_BYTES ∧
        P.aesGcmDecrypt key nonce ciphertext aad = some out := by
  unfold aesGcmDecrypt
  split_ifs with h1 h2
  · simp [h1]
  · simp [h2]
  · rw [not_not] at h1 h2
    cases h : P.aesGcmDecrypt key nonce ciphertext aad <;> simp [h1, h2]

end ZeroTrust
