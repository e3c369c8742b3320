import ZeroTrust.Common.Canonical
import ZeroTrust.Effects.Program

/-!
# Certificates

`verify_certificate` of `ca/cert.py`.  A certificate is a JSON object; the CA's
signature covers the canonical JSON of the object without its `signature` item.

The function reads the clock, and only after the signature has verified, so it is a
program over a given way to read the clock; `CertCheck` says what a `True` means.
-/

namespace ZeroTrust

open Python Effects

/-- `_strip_signature`. -/
def stripSignature (cert : Obj) : Obj := cert.filter fun x => x.1 ≠ py "signature"

/-- The fields `verify_certificate` requires. -/
def requiredCertFields : List String :=
  ["subject", "public_key_pem", "issuer", "valid_from", "valid_until", "serial", "signature"]

/-- `v <= now` for a value of any type; comparing a non-number raises `TypeError`. -/
def Python.Json.leInt (now : ℤ) : Json → Except PyExn Bool
  | .int i => .ok (i ≤ now)
  | .bool b => .ok ((b.toNat : ℤ) ≤ now)
  | .float .nan => .ok false
  | .float .posInf => .ok false
  | .float .negInf => .ok true
  | .float .negZero => .ok (0 ≤ now)
  | .float (.finite q) => .ok (q ≤ now)
  | _ => .error .typeError

/-- `now <= v` for a value of any type. -/
def Python.Json.geInt (now : ℤ) : Json → Except PyExn Bool
  | .int i => .ok (now ≤ i)
  | .bool b => .ok (now ≤ (b.toNat : ℤ))
  | .float .nan => .ok false
  | .float .posInf => .ok true
  | .float .negInf => .ok false
  | .float .negZero => .ok (now ≤ 0)
  | .float (.finite q) => .ok (now ≤ q)
  | _ => .error .typeError

variable (P : Primitives)

/-- The checks of `verify_certificate` up to the signature. -/
def certSignatureOk (cert : Obj) (caPubkeyPem : Bytes) : Except PyExn Bool :=
  if requiredCertFields.any fun k => (dictGet cert k).isNone then .ok false
  else
    match ((dictGet cert "signature").bind Json.asStr).bind b64decode with
    | none => .ok false
    | some sig => do
        let body ← canonicalJson P (.obj (stripSignature cert))
        rsaVerify P caPubkeyPem body sig

/-- `cert["valid_from"] <= now <= cert["valid_until"]`. -/
def certInDate (cert : Obj) (now : ℤ) : Except PyExn Bool := do
  let validFrom ← dictItem cert "valid_from"
  if ← validFrom.leInt now then
    let validUntil ← dictItem cert "valid_until"
    validUntil.geInt now
  else return false

/-- `expected_subject is not None and cert["subject"] != expected_subject`, negated. -/
def certSubjectOk (cert : Obj) : Option PyStr → Bool
  | none => true
  | some subject => dictGet cert "subject" = some (.str subject)

variable {E : Type} {R : E → Type}

/-- `verify_certificate(cert, ca_pubkey_pem, expected_subject)`. -/
def verifyCertificate (clock : ExceptT PyExn (Prog E R) ℤ) (cert : Json)
    (caPubkeyPem : Bytes) (expectedSubject : Option PyStr) : ExceptT PyExn (Prog E R) Bool :=
  match cert.asObj with
  | none => return false
  | some cert => do
      if ← raising (certSignatureOk P cert caPubkeyPem) then
        let now ← clock
        if ← raising (certInDate cert now) then
          return certSubjectOk cert expectedSubject
        else return false
      else return false

/-- `public_key_pem` of a certificate, as `cert["public_key_pem"].encode("ascii")`. -/
def certPem (cert : Obj) : Except PyExn Bytes := do
  match ← dictItem cert "public_key_pem" with
  | .str pem =>
      match asciiEncode pem with
      | some b => return b
      | none => throw .unicodeEncodeError
  | _ => throw .attributeError

/-! ## Issuing -/

/-- `ISSUER_NAME`. -/
def ISSUER_NAME : PyStr := py "ZeroTrustCA"

/-- The `dict` that `issue_certificate` signs. -/
def certBody (subject pem : PyStr) (now validityDays : ℤ) (serial : PyStr) : Obj :=
  [(py "subject", .str subject), (py "public_key_pem", .str pem),
    (py "issuer", .str ISSUER_NAME), (py "valid_from", .int now),
    (py "valid_until", .int (now + validityDays * 86400)), (py "serial", .str serial)]

/-- The certificate with a given body and signature. -/
def signedBody (body : Obj) (sig : PyStr) : Obj := body ++ [(py "signature", .str sig)]

/-- `issue_certificate` after its checks, with the clock, the serial number and the salt
that it reads. -/
def issueCertificate (subject pem : PyStr) (caPrivPem caPassword : Bytes)
    (now validityDays : ℤ) (serial : PyStr) (salt : Bytes) : Except PyExn Obj := do
  let body := certBody subject pem now validityDays serial
  let data ← canonicalJson P (.obj body)
  let sig ← rsaSign P caPrivPem caPassword data salt
  return signedBody body (b64encode sig)

/-! ## What a `True` means -/

/-- What a `True` of `verify_certificate` at the time `now` means. -/
structure CertCheck (caPubkeyPem : Bytes) (cert : Obj) (now : ℤ)
    (expectedSubject : Option PyStr) : Prop where
  signed : certSignatureOk P cert caPubkeyPem = .ok true
  inDate : certInDate cert now = .ok true
  subject : certSubjectOk cert expectedSubject = true

/-- `verify_certificate` after its reading of the clock. -/
def certVerdict (cert : Obj) (now : ℤ) (expectedSubject : Option PyStr) : Except PyExn Bool := do
  if ← certInDate cert now then return certSubjectOk cert expectedSubject else return false

theorem certVerdict_eq_ok_true {cert : Obj} {now : ℤ} {expectedSubject : Option PyStr} :
    certVerdict cert now expectedSubject = .ok true ↔
      certInDate cert now = .ok true ∧ certSubjectOk cert expectedSubject = true := by
  unfold certVerdict
  cases certInDate cert now with
  | error e => simp [bind, Except.bind]
  | ok b => cases b <;> simp [bind, Except.bind, pure, Except.pure]

section

variable {subject pem serial : PyStr} {issued validityDays : ℤ} {sig : PyStr}

theorem stripSignature_signedBody :
    stripSignature (signedBody (certBody subject pem issued validityDays serial) sig) =
      certBody subject pem issued validityDays serial := by
  have hne : ∀ k ∈ requiredCertFields.dropLast, py k ≠ py "signature" := by decide +kernel
  simp only [requiredCertFields, List.dropLast, List.forall_mem_cons] at hne
  obtain ⟨h1, h2, h3, h4, h5, h6, -⟩ := hne
  simp [stripSignature, signedBody, certBody, h1, h2, h3, h4, h5, h6]

theorem dictGet_signedBody :
    (requiredCertFields.any fun k => (dictGet (signedBody (certBody subject pem issued
      validityDays serial) sig) k).isNone) = false ∧
    dictGet (signedBody (certBody subject pem issued validityDays serial) sig) "signature" =
      some (.str sig) ∧
    dictGet (signedBody (certBody subject pem issued validityDays serial) sig) "valid_from" =
      some (.int issued) ∧
    dictGet (signedBody (certBody subject pem issued validityDays serial) sig) "valid_until" =
      some (.int (issued + validityDays * 86400)) ∧
    dictGet (signedBody (certBody subject pem issued validityDays serial) sig) "subject" =
      some (.str subject) := by
  refine ⟨?_, ?_, ?_, ?_, ?_⟩
  · simp [requiredCertFields, certBody, dictGet, signedBody]
  · rfl
  · rfl
  · rfl
  · rfl

end

/-- **An issued certificate is good until it runs out.** -/
theorem certCheck_of_issueCertificate {P : Primitives} {key : RsaPrivateKey}
    {caPem caPrivPem caPassword salt : Bytes} {subject pem serial : PyStr}
    {issued validityDays now : ℤ} {cert : Obj} (hkey : P.Matching key)
    (hpub : loadPublic P caPem = .ok key.pub)
    (hpriv : loadPrivate P caPrivPem caPassword = .ok key)
    (h : issueCertificate P subject pem caPrivPem caPassword issued validityDays serial salt =
      .ok cert)
    (hfrom : issued ≤ now) (huntil : now ≤ issued + validityDays * 86400) :
    CertCheck P caPem cert now (some subject) := by
  obtain ⟨data, hdata, h⟩ := bind_eq_ok.mp h
  obtain ⟨sig, hsig, h⟩ := bind_eq_ok.mp h
  obtain ⟨key', hkey', hsig⟩ := bind_eq_ok.mp hsig
  obtain rfl := Except.ok.inj (hpriv.symm.trans hkey')
  obtain rfl := pure_eq_ok.mp hsig
  obtain rfl := pure_eq_ok.mp h
  obtain ⟨hfields, hsignature, hvalidFrom, hvalidUntil, hsubject⟩ := @dictGet_signedBody
    subject pem serial issued validityDays (b64encode (P.pssSign key data salt))
  refine ⟨?_, ?_, ?_⟩
  · show certSignatureOk P (signedBody _ _) caPem = _
    rw [certSignatureOk, hfields, if_neg Bool.false_ne_true, hsignature, Option.bind_some,
      Json.asStr_str, Option.bind_some, b64decode_b64encode]
    dsimp only
    rw [stripSignature_signedBody, hdata, ok_bind, rsaVerify_eq_ok_true]
    exact ⟨_, hpub, hkey.verify_sign data salt⟩
  · show certInDate (signedBody _ _) now = _
    rw [certInDate, dictItem_eq_ok.mpr hvalidFrom, ok_bind, Json.leInt, ok_bind,
      decide_eq_true hfrom, if_pos rfl, dictItem_eq_ok.mpr hvalidUntil, ok_bind, Json.geInt,
      decide_eq_true huntil]
  · exact decide_eq_true hsubject

section

variable {P} {clock : ExceptT PyExn (Prog E R) ℤ} {ca : Bytes} {subject : Option PyStr}

/-- Where the signature is good, the rest depends on the clock. -/
theorem verifyCertificate_of_signed {cert : Obj} (h : certSignatureOk P cert ca = .ok true) :
    verifyCertificate P clock (.obj cert) ca subject =
      clock >>= fun now => raising (certVerdict cert now subject) := by
  show (raising (certSignatureOk P cert ca) >>= _) = _
  rw [h]
  show (clock >>= _) = _
  refine bind_congr fun now => ?_
  unfold certVerdict
  cases certInDate cert now with
  | error e => rfl
  | ok b => cases b <;> rfl

/-- **What there is to show of a call of `verify_certificate`**: it may end before it reads
the clock, but not with `True`. -/
theorem wpE_verifyCertificate {τ : Type} {M : Semantics E R τ} {cert : Json} {t : τ}
    {Q : τ → Except PyExn Bool → Prop} (hearly : ∀ r, r ≠ .ok true → Q t r)
    (hclock : ∀ c, cert = .obj c → certSignatureOk P c ca = .ok true →
      wpE M clock t fun t' r =>
        match r with
        | .ok now => Q t' (certVerdict c now subject)
        | .error x => Q t' (.error x)) :
    wpE M (verifyCertificate P clock cert ca subject) t Q := by
  cases cert with
  | obj c =>
    cases hs : certSignatureOk P c ca with
    | error e =>
      show wpE M (raising (certSignatureOk P c ca) >>= _) t Q
      rw [wpE_bind, hs]
      exact hearly _ nofun
    | ok b =>
      cases b with
      | false =>
        show wpE M (raising (certSignatureOk P c ca) >>= _) t Q
        rw [wpE_bind, hs]
        exact hearly _ nofun
      | true =>
        rw [verifyCertificate_of_signed hs, wpE_bind]
        refine wpE_mono M (hclock c rfl hs) fun t' r hr => ?_
        cases r with
        | error x => exact hr
        | ok now => exact hr
  | _ => exact hearly (.ok false) nofun

end

end ZeroTrust
