import ZeroTrust.Ca.Cert

/-!
# Primitives that can be evaluated

An instance of the primitives in which a signature shows what it signs and a ciphertext
shows what it hides, each under the number of its key.  It keeps no secret, but what the
program does on honest inputs it does here: what is signed verifies, what is wrapped or
encrypted comes back, and nothing verifies or decrypts as anything else.  So runs of the
program can be computed in it.

A key's PEM is the one octet of its number, and `json.loads` knows the given texts.
-/

namespace ZeroTrust

open Python

/-- The public key of a number. -/
def RsaPublicKey.numbered (n : UInt8) : RsaPublicKey := ⟨n.toNat, 65537⟩

/-- The private key of a number. -/
def RsaPrivateKey.numbered (n : UInt8) : RsaPrivateKey := ⟨.numbered n, n.toNat⟩

/-- What a signature and a ciphertext of a key begin with: an octet for each kind, and the
key's number. -/
def RsaPublicKey.tag (key : RsaPublicKey) (kind : UInt8) : Bytes := [kind, UInt8.ofNat key.modulus]

/-! ## Framing -/

/-- Data after its length in unary. -/
def frame (data : Bytes) : Bytes := List.replicate data.length 1 ++ 0 :: data

/-- A unary number ends where its first zero stands. -/
theorem unary_append_inj {m n : ℕ} {a b : Bytes}
    (h : List.replicate m 1 ++ (0 : UInt8) :: a = List.replicate n 1 ++ 0 :: b) :
    m = n ∧ a = b := by
  induction m generalizing n with
  | zero =>
    cases n with
    | zero => exact ⟨rfl, (List.cons.inj h).2⟩
    | succ n => exact absurd (List.cons.inj h).1 (by decide)
  | succ m ih =>
    cases n with
    | zero => exact absurd (List.cons.inj h).1 (by decide)
    | succ n =>
      obtain ⟨hm, hb⟩ := ih (List.cons.inj h).2
      exact ⟨congrArg (· + 1) hm, hb⟩

/-- A frame is cut off a text in one way only. -/
theorem frame_append_inj {x y u v : Bytes} (h : frame x ++ u = frame y ++ v) :
    x = y ∧ u = v := by
  rw [frame, frame, List.append_assoc, List.append_assoc, List.cons_append, List.cons_append] at h
  obtain ⟨hl, hd⟩ := unary_append_inj h
  exact List.append_inj hd hl

/-- Cut a prefix off. -/
def cutPrefix (pre data : Bytes) : Option Bytes :=
  if pre.isPrefixOf data then some (data.drop pre.length) else none

theorem cutPrefix_eq_some {pre data rest : Bytes} :
    cutPrefix pre data = some rest ↔ data = pre ++ rest := by
  unfold cutPrefix
  split_ifs with h
  · obtain ⟨tail, rfl⟩ := List.isPrefixOf_iff_prefix.mp h
    simp
  · refine iff_of_false nofun ?_
    rintro rfl
    exact h (by simp)

/-! ## The primitives -/

/-- What an encrypted file shows before its content. -/
def gcmHeader (key nonce aad : Bytes) : Bytes := frame key ++ frame nonce ++ frame aad

/-- The transparent primitives, with the texts that `json.loads` knows. -/
def Primitives.transparent (texts : List (PyStr × Json)) : Primitives where
  floatRepr _ := py "0.0"
  containerRepr _ := []
  realText _ := py "0.0"
  realText_short _ := by decide
  jsonLoads text := match texts.lookup text with
    | some v => .ok v
    | none => .error .jsonDecodeError
  sha256 data := (data.reverse ++ List.replicate 32 0).take 32
  hkdf ikm salt info length := (info ++ salt ++ ikm ++ List.replicate length 0).take length
  loadPemPublicKey
    | [n] => .ok (some (.numbered n))
    | _ => .error .valueError
  loadPemPrivateKey
    | [n], _ => .ok (some (.numbered n))
    | _, _ => .error .valueError
  pssSign key data _ := key.pub.tag 83 ++ data
  pssVerify key data signature := decide (signature = key.tag 83 ++ data)
  oaepEncrypt key data _ := key.tag 69 ++ data
  oaepDecrypt key data := cutPrefix (key.pub.tag 69) data
  aesGcmEncrypt key nonce plaintext aad := gcmHeader key nonce aad ++ plaintext
  aesGcmDecrypt key nonce ciphertext aad := cutPrefix (gcmHeader key nonce aad) ciphertext

section

variable (texts : List (PyStr × Json))

theorem transparent_matching (key : RsaPrivateKey) :
    (Primitives.transparent texts).Matching key where
  verify_sign _ _ := decide_eq_true rfl
  decrypt_encrypt _ _ _ := cutPrefix_eq_some.mpr rfl

theorem transparent_decryptsGcm : (Primitives.transparent texts).DecryptsGcm :=
  fun _ _ _ _ => cutPrefix_eq_some.mpr rfl

variable {texts}

/-- A signature verifies over one text only. -/
theorem transparent_verify_inj {key : RsaPublicKey} {data data' signature : Bytes}
    (h : (Primitives.transparent texts).pssVerify key data signature = true)
    (h' : (Primitives.transparent texts).pssVerify key data' signature = true) : data = data' :=
  List.append_cancel_left ((of_decide_eq_true h).symm.trans (of_decide_eq_true h'))

/-- A ciphertext decrypts only under the key, the nonce and the AAD it was made with. -/
theorem transparent_decrypt_inj {key nonce aad plaintext key' nonce' aad' plaintext' : Bytes}
    (h : (Primitives.transparent texts).aesGcmDecrypt key' nonce'
      ((Primitives.transparent texts).aesGcmEncrypt key nonce plaintext aad) aad' =
        some plaintext') :
    key' = key ∧ nonce' = nonce ∧ aad' = aad ∧ plaintext' = plaintext := by
  have h : gcmHeader key nonce aad ++ plaintext = gcmHeader key' nonce' aad' ++ plaintext' :=
    cutPrefix_eq_some.mp h
  simp only [gcmHeader, List.append_assoc] at h
  obtain ⟨hkey, h⟩ := frame_append_inj h
  obtain ⟨hnonce, h⟩ := frame_append_inj h
  obtain ⟨haad, hplaintext⟩ := frame_append_inj h
  exact ⟨hkey.symm, hnonce.symm, haad.symm, hplaintext.symm⟩

theorem transparent_idealAead : (Primitives.transparent texts).IdealAead where
  decrypts := transparent_decryptsGcm texts
  opens_only _ _ _ _ _ _ _ _ h :=
    ⟨(transparent_decrypt_inj h).1, (transparent_decrypt_inj h).2.1,
      (transparent_decrypt_inj h).2.2.1⟩

end

/-! ## Certificates -/

/-- The certificate that the CA with key 1 issues at time 0 for a year. -/
def certFor (subject pem : PyStr) : Obj :=
  match issueCertificate (.transparent []) subject pem [1] [] 0 365 (py "0") [] with
  | .ok cert => cert
  | .error _ => []

end ZeroTrust
