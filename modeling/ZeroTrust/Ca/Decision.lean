import ZeroTrust.Common.Transparent

/-!
# What `verify_certificate` decides

The specification of the check is three conditions: the CA's signature over the canonical
body, the validity window `valid_from <= now < valid_until`, and the subject.  A certificate
comes from a peer that nobody has authenticated yet, so its fields hold values of any type.

* `CertSpec`: the specification.
* `certOutcome`: what the function returns or raises, once the clock has been read.
* `CertRaises`: where it raises; `certOutcome_eq_true`: where it returns `True`.
* `decidesCert_iff`: where it decides the specification.
-/

namespace ZeroTrust

open Python Effects

/-! ## Comparisons -/

/-- A value that can be compared with an integer. -/
def Python.Json.isNumber : Json → Bool
  | .int _ | .bool _ | .float _ => true
  | _ => false

/-- `now < v`. -/
def Python.Json.gtInt (now : ℤ) : Json → Bool
  | .int i => now < i
  | .bool b => now < (b.toNat : ℤ)
  | .float .posInf => true
  | .float .negZero => now < 0
  | .float (.finite q) => now < q
  | _ => false

/-- `v == now`. -/
def Python.Json.eqInt (now : ℤ) : Json → Bool
  | .int i => i = now
  | .bool b => (b.toNat : ℤ) = now
  | .float .negZero => now = 0
  | .float (.finite q) => q = now
  | _ => false

theorem Python.Json.leInt_cases (now : ℤ) (v : Json) :
    (∃ b, v.leInt now = .ok b) ∧ v.isNumber = true ∨
      v.leInt now = .error .typeError ∧ v.isNumber = false := by
  cases v with
  | float x => cases x <;> exact .inl ⟨⟨_, rfl⟩, rfl⟩
  | int | bool => exact .inl ⟨⟨_, rfl⟩, rfl⟩
  | _ => exact .inr ⟨rfl, rfl⟩

theorem Python.Json.geInt_cases (now : ℤ) (v : Json) :
    (∃ b, v.geInt now = .ok b) ∧ v.isNumber = true ∨
      v.geInt now = .error .typeError ∧ v.isNumber = false := by
  cases v with
  | float x => cases x <;> exact .inl ⟨⟨_, rfl⟩, rfl⟩
  | int | bool => exact .inl ⟨⟨_, rfl⟩, rfl⟩
  | _ => exact .inr ⟨rfl, rfl⟩

/-- What is not below the clock is above it or equal to it. -/
theorem Python.Json.geInt_eq_true {now : ℤ} {v : Json} :
    v.geInt now = .ok true ↔ v.gtInt now = true ∨ v.eqInt now = true := by
  cases v with
  | int i =>
    simp only [geInt, gtInt, eqInt, Except.ok.injEq, decide_eq_true_eq]
    omega
  | bool b =>
    simp only [geInt, gtInt, eqInt, Except.ok.injEq, decide_eq_true_eq]
    omega
  | float x =>
    cases x with
    | negZero =>
      simp only [geInt, gtInt, eqInt, Except.ok.injEq, decide_eq_true_eq]
      omega
    | finite q =>
      simp only [geInt, gtInt, eqInt, Except.ok.injEq, decide_eq_true_eq]
      rw [Rat.le_iff_lt_or_eq, @eq_comm _ q]
    | _ => simp [geInt, gtInt, eqInt]
  | _ => simp [geInt, gtInt, eqInt]

/-- What equals the clock is a number that is not above it. -/
theorem Python.Json.gtInt_of_eqInt {now : ℤ} {v : Json} (h : v.eqInt now = true) :
    v.gtInt now = false := by
  cases v with
  | float x => cases x <;> simp_all [gtInt, eqInt]
  | int | bool => simp_all [gtInt, eqInt]
  | _ => rfl

/-! ## The signature -/

/-- The CA has signed the certificate: all fields are there, the signature is Base64, and it
verifies over the canonical JSON of the rest. -/
def CertSigned (P : Primitives) (ca : Bytes) (cert : Obj) : Prop :=
  (∀ k ∈ requiredCertFields, (dictGet cert k).isSome) ∧
    ∃ text sig body, dictGet cert "signature" = some (.str text) ∧ b64decode text = some sig ∧
      canonicalJson P (.obj (stripSignature cert)) = .ok body ∧ rsaVerify P ca body sig = .ok true

/-- The signature is there, and what it should cover has no canonical JSON. -/
def Unencodable (P : Primitives) (cert : Obj) : Prop :=
  (∀ k ∈ requiredCertFields, (dictGet cert k).isSome) ∧
    (∃ text sig, dictGet cert "signature" = some (.str text) ∧ b64decode text = some sig) ∧
      canonicalJson P (.obj (stripSignature cert)) = .error .unicodeEncodeError

section

variable {P : Primitives} {ca : Bytes} {cert : Obj}

theorem canonicalJson_cases (v : Json) :
    (∃ body, canonicalJson P v = .ok body) ∨ canonicalJson P v = .error .unicodeEncodeError := by
  unfold canonicalJson encodeText
  cases utf8Encode (dumps P canonicalOptions v) with
  | some body => exact .inl ⟨body, rfl⟩
  | none => exact .inr rfl

theorem Unencodable.not_signed (h : Unencodable P cert) : ¬ CertSigned P ca cert := by
  rintro ⟨-, text, sig, body, -, -, hbody, -⟩
  cases h.2.2.symm.trans hbody

/-- **The checks up to the signature**, for a CA key that can be loaded. -/
theorem certSignatureOk_cases {key : RsaPublicKey} (hkey : loadPublic P ca = .ok key) :
    certSignatureOk P cert ca = .ok true ∧ CertSigned P ca cert ∨
      certSignatureOk P cert ca = .ok false ∧ ¬ CertSigned P ca cert ∧ ¬ Unencodable P cert ∨
      certSignatureOk P cert ca = .error .unicodeEncodeError ∧ Unencodable P cert := by
  have hverify : ∀ body sig, rsaVerify P ca body sig = .ok (P.pssVerify key body sig) := by
    intro body sig
    rw [rsaVerify, hkey]
    rfl
  unfold certSignatureOk
  split_ifs with hmissing
  · have hno : ¬ ∀ k ∈ requiredCertFields, (dictGet cert k).isSome := by
      simpa [List.any_eq_true, Option.isSome_iff_ne_none, Option.isNone_iff_eq_none] using hmissing
    exact .inr (.inl ⟨rfl, fun h => hno h.1, fun h => hno h.1⟩)
  · have hpresent : ∀ k ∈ requiredCertFields, (dictGet cert k).isSome := by
      simpa [List.any_eq_true, Option.isSome_iff_ne_none, Option.isNone_iff_eq_none] using hmissing
    cases hsig : ((dictGet cert "signature").bind Json.asStr).bind b64decode with
    | none =>
      have hno : ¬ ∃ text sig, dictGet cert "signature" = some (.str text) ∧
          b64decode text = some sig := by
        rintro ⟨text, sig, hget, hdec⟩
        rw [hget, Option.bind_some, Json.asStr_str, Option.bind_some, hdec] at hsig
        cases hsig
      refine .inr (.inl ⟨rfl, ?_, fun h => hno h.2.1⟩)
      rintro ⟨-, text, sig, -, hget, hdec, -⟩
      exact hno ⟨text, sig, hget, hdec⟩
    | some sig =>
      obtain ⟨text, hget, hdec⟩ := Option.bind_eq_some_iff.mp hsig
      obtain ⟨v, hv, hstr⟩ := Option.bind_eq_some_iff.mp hget
      obtain rfl := Json.asStr_eq_some.mp hstr
      dsimp only
      rcases canonicalJson_cases (P := P) (.obj (stripSignature cert)) with ⟨body, hbody⟩ | hbody
      · rw [hbody, ok_bind, hverify]
        have hiff : CertSigned P ca cert ↔ P.pssVerify key body sig = true := by
          constructor
          · rintro ⟨-, text', sig', body', hget', hdec', hbody', hok⟩
            obtain rfl : text = text' := by simpa using hv.symm.trans hget'
            obtain rfl := Option.some.inj (hdec.symm.trans hdec')
            obtain rfl := Except.ok.inj (hbody.symm.trans hbody')
            exact Except.ok.inj ((hverify body sig).symm.trans hok)
          · intro hok
            exact ⟨hpresent, text, sig, body, hv, hdec, hbody, by rw [hverify, hok]⟩
        have hfine : ¬ Unencodable P cert := fun h => by cases h.2.2.symm.trans hbody
        cases hok : P.pssVerify key body sig with
        | true => exact .inl ⟨rfl, hiff.mpr hok⟩
        | false => exact .inr (.inl ⟨rfl, fun h => Bool.false_ne_true (hok.symm.trans (hiff.mp h)), hfine⟩)
      · rw [hbody]
        exact .inr (.inr ⟨rfl, hpresent, ⟨text, sig, hv, hdec⟩, hbody⟩)

end

/-! ## The outcome -/

/-- The specification of `verify_certificate`. -/
structure CertSpec (P : Primitives) (ca : Bytes) (cert : Obj) (now : ℤ)
    (subject : Option PyStr) : Prop where
  signed : CertSigned P ca cert
  started : ∃ v, dictGet cert "valid_from" = some v ∧ v.leInt now = .ok true
  running : ∃ v, dictGet cert "valid_until" = some v ∧ v.gtInt now = true
  subject : ∀ s, subject = some s → dictGet cert "subject" = some (.str s)

/-- What the function returns or raises, once the clock has been read. -/
def certOutcome (P : Primitives) (ca : Bytes) (cert : Obj) (now : ℤ) (subject : Option PyStr) :
    Except PyExn Bool := do
  if ← certSignatureOk P cert ca then certVerdict cert now subject else return false

/-- Where the function raises: what it should verify has no octets, or a date that it looks at
is no number. -/
inductive CertRaises (P : Primitives) (ca : Bytes) (cert : Obj) (now : ℤ) : Prop where
  | body : Unencodable P cert → CertRaises P ca cert now
  | start {v : Json} : CertSigned P ca cert → dictGet cert "valid_from" = some v →
      v.isNumber = false → CertRaises P ca cert now
  | stop {v w : Json} : CertSigned P ca cert → dictGet cert "valid_from" = some v →
      v.leInt now = .ok true → dictGet cert "valid_until" = some w → w.isNumber = false →
      CertRaises P ca cert now

/-- The last instant: all but the end of the window is as it should be, and the window ends
now. -/
structure LastInstant (P : Primitives) (ca : Bytes) (cert : Obj) (now : ℤ)
    (subject : Option PyStr) : Prop where
  signed : CertSigned P ca cert
  started : ∃ v, dictGet cert "valid_from" = some v ∧ v.leInt now = .ok true
  ending : ∃ v, dictGet cert "valid_until" = some v ∧ v.eqInt now = true
  subject : ∀ s, subject = some s → dictGet cert "subject" = some (.str s)

section

variable {P : Primitives} {ca : Bytes} {cert : Obj} {now : ℤ} {subject : Option PyStr}
  {E : Type} {R : E → Type}

/-- The function, with the clock given. -/
theorem verifyCertificate_pure :
    (verifyCertificate P (pure now) (.obj cert) ca subject : ExceptT PyExn (Prog E R) Bool) =
      raising (certOutcome P ca cert now subject) := by
  by_cases hs : certSignatureOk P cert ca = .ok true
  · rw [verifyCertificate_of_signed hs, pure_bind, certOutcome, hs, ok_bind, if_pos rfl]
  · show (raising (certSignatureOk P cert ca) >>= _) = _
    rw [certOutcome]
    cases h : certSignatureOk P cert ca with
    | error e => rfl
    | ok b =>
      cases b with
      | false => rfl
      | true => exact absurd h hs

theorem certSubjectOk_eq_true :
    certSubjectOk cert subject = true ↔
      ∀ s, subject = some s → dictGet cert "subject" = some (.str s) := by
  cases subject <;> simp [certSubjectOk]

/-- A window that has both ends. -/
theorem certInDate_of_get {v w : Json} (hfrom : dictGet cert "valid_from" = some v)
    (huntil : dictGet cert "valid_until" = some w) :
    certInDate cert now = v.leInt now >>= fun b => if b then w.geInt now else .ok false := by
  rw [certInDate, dictItem_eq_ok.mpr hfrom, ok_bind]
  refine bind_congr fun b => ?_
  rw [dictItem_eq_ok.mpr huntil, ok_bind]
  rfl

/-- The function returns `True`: the signature, both ends of the window, and the subject. -/
theorem certOutcome_eq_true {key : RsaPublicKey} (hkey : loadPublic P ca = .ok key) :
    certOutcome P ca cert now subject = .ok true ↔
      CertSpec P ca cert now subject ∨ LastInstant P ca cert now subject := by
  have hparts : certOutcome P ca cert now subject = .ok true ↔ CertSigned P ca cert ∧
      certVerdict cert now subject = .ok true := by
    rw [certOutcome]
    rcases certSignatureOk_cases hkey with ⟨hs, hsigned⟩ | ⟨hs, hsigned, -⟩ | ⟨hs, hbad⟩
    · rw [hs, ok_bind, if_pos rfl]
      exact (and_iff_right hsigned).symm
    · rw [hs, ok_bind, if_neg Bool.false_ne_true]
      exact iff_of_false (by simp) fun h => hsigned h.1
    · rw [hs]
      exact iff_of_false (by simp [bind, Except.bind]) fun h => hbad.not_signed h.1
  rw [hparts, certVerdict_eq_ok_true, certSubjectOk_eq_true]
  constructor
  · rintro ⟨hsigned, hdate, hsubject⟩
    obtain ⟨v, hfrom⟩ := Option.isSome_iff_exists.mp
      (hsigned.1 "valid_from" (by simp [requiredCertFields]))
    obtain ⟨w, huntil⟩ := Option.isSome_iff_exists.mp
      (hsigned.1 "valid_until" (by simp [requiredCertFields]))
    rw [certInDate_of_get hfrom huntil] at hdate
    obtain ⟨started, hstarted, hdate⟩ := bind_eq_ok.mp hdate
    cases started with
    | false => cases hdate
    | true =>
      rcases Json.geInt_eq_true.mp hdate with hrun | hend
      · exact .inl ⟨hsigned, ⟨v, hfrom, hstarted⟩, ⟨w, huntil, hrun⟩, hsubject⟩
      · exact .inr ⟨hsigned, ⟨v, hfrom, hstarted⟩, ⟨w, huntil, hend⟩, hsubject⟩
  · have hback : ∀ {v w : Json}, CertSigned P ca cert → dictGet cert "valid_from" = some v →
        v.leInt now = .ok true → dictGet cert "valid_until" = some w → w.geInt now = .ok true →
        (∀ s, subject = some s → dictGet cert "subject" = some (.str s)) →
        CertSigned P ca cert ∧ certInDate cert now = .ok true ∧
          ∀ s, subject = some s → dictGet cert "subject" = some (.str s) := by
      intro v w hsigned hfrom hstarted huntil hrun hsubject
      refine ⟨hsigned, ?_, hsubject⟩
      rw [certInDate_of_get hfrom huntil, hstarted, ok_bind, if_pos rfl, hrun]
    rintro (⟨hsigned, ⟨v, hfrom, hstarted⟩, ⟨w, huntil, hrun⟩, hsubject⟩ |
      ⟨hsigned, ⟨v, hfrom, hstarted⟩, ⟨w, huntil, hend⟩, hsubject⟩)
    · exact hback hsigned hfrom hstarted huntil (Json.geInt_eq_true.mpr (.inl hrun)) hsubject
    · exact hback hsigned hfrom hstarted huntil (Json.geInt_eq_true.mpr (.inr hend)) hsubject

/-- **Where the function raises.** -/
theorem certOutcome_raises {key : RsaPublicKey} (hkey : loadPublic P ca = .ok key) :
    (∃ e, certOutcome P ca cert now subject = .error e) ↔ CertRaises P ca cert now := by
  rw [certOutcome]
  rcases certSignatureOk_cases hkey with ⟨hs, hsigned⟩ | ⟨hs, hsigned, hfine⟩ | ⟨hs, hbad⟩
  · rw [hs, ok_bind, if_pos rfl]
    have hbody : ¬ Unencodable P cert := fun h => h.not_signed hsigned
    obtain ⟨v, hfrom⟩ := Option.isSome_iff_exists.mp
      (hsigned.1 "valid_from" (by simp [requiredCertFields]))
    obtain ⟨w, huntil⟩ := Option.isSome_iff_exists.mp
      (hsigned.1 "valid_until" (by simp [requiredCertFields]))
    rw [certVerdict, certInDate_of_get hfrom huntil]
    rcases v.leInt_cases now with ⟨⟨started, hstarted⟩, hnumber⟩ | ⟨hstarted, hnumber⟩
    · rw [hstarted, ok_bind]
      cases started with
      | false =>
        refine iff_of_false (by simp [bind, Except.bind, pure, Except.pure]) ?_
        rintro (h | @⟨v', -, hv', hno⟩ | @⟨v', w', -, hv', hle, -⟩)
        · exact hbody h
        · obtain rfl := Option.some.inj (hfrom.symm.trans hv')
          exact Bool.false_ne_true (hno.symm.trans hnumber)
        · obtain rfl := Option.some.inj (hfrom.symm.trans hv')
          cases hstarted.symm.trans hle
      | true =>
        rw [if_pos rfl]
        rcases w.geInt_cases now with ⟨⟨running, hrunning⟩, hnumber'⟩ | ⟨hrunning, hnumber'⟩
        · rw [hrunning, ok_bind]
          refine iff_of_false (by cases running <;> simp [pure, Except.pure]) ?_
          rintro (h | @⟨v', -, hv', hno⟩ | @⟨v', w', -, -, -, hw', hno⟩)
          · exact hbody h
          · obtain rfl := Option.some.inj (hfrom.symm.trans hv')
            exact Bool.false_ne_true (hno.symm.trans hnumber)
          · obtain rfl := Option.some.inj (huntil.symm.trans hw')
            exact Bool.false_ne_true (hno.symm.trans hnumber')
        · rw [hrunning]
          exact iff_of_true ⟨_, rfl⟩ (.stop hsigned hfrom hstarted huntil hnumber')
    · rw [hstarted]
      exact iff_of_true ⟨_, rfl⟩ (.start hsigned hfrom hnumber)
  · rw [hs, ok_bind, if_neg Bool.false_ne_true]
    refine iff_of_false (by simp [pure, Except.pure]) ?_
    rintro (h | ⟨h, -⟩ | ⟨h, -⟩)
    · exact hfine h
    · exact hsigned h
    · exact hsigned h
  · rw [hs]
    exact iff_of_true ⟨_, rfl⟩ (.body hbad)

/-! ## Where it decides the specification -/

/-- The function returns, and returns `True` exactly on the specification. -/
def DecidesCert (P : Primitives) (ca : Bytes) (cert : Obj) (now : ℤ) (subject : Option PyStr) :
    Prop :=
  ∃ b : Bool, (verifyCertificate P (pure now) (.obj cert) ca subject :
      ExceptT PyExn (Prog Empty fun _ => Unit) Bool) = pure b ∧
    (b = true ↔ CertSpec P ca cert now subject)

/-- A value that is given is returned. -/
theorem raising_eq_pure {α : Type} {x : Except PyExn α} {a : α} :
    (raising x : ExceptT PyExn (Prog E R) α) = pure a ↔ x = .ok a := by
  constructor
  · intro h
    exact Prog.pure.inj h
  · rintro rfl
    rfl

/-- The last instant is outside the window. -/
theorem LastInstant.not_spec (h : LastInstant P ca cert now subject) :
    ¬ CertSpec P ca cert now subject := by
  intro hspec
  obtain ⟨v, hv, hend⟩ := h.ending
  obtain ⟨w, hw, hrun⟩ := hspec.running
  obtain rfl := Option.some.inj (hv.symm.trans hw)
  exact Bool.false_ne_true ((Json.gtInt_of_eqInt hend).symm.trans hrun)

/-- **The specification is decided** but for two kinds of certificates: those on which the
function raises, and those that are good and end this very second. -/
theorem decidesCert_iff {key : RsaPublicKey} (hkey : loadPublic P ca = .ok key) :
    DecidesCert P ca cert now subject ↔
      ¬ CertRaises P ca cert now ∧ ¬ LastInstant P ca cert now subject := by
  simp only [DecidesCert, verifyCertificate_pure, raising_eq_pure]
  have htrue := @certOutcome_eq_true P ca cert now subject key hkey
  have hraise := @certOutcome_raises P ca cert now subject key hkey
  cases hout : certOutcome P ca cert now subject with
  | error e =>
    refine iff_of_false (by simp) fun h => h.1 (hraise.mp ⟨e, hout⟩)
  | ok b =>
    have hcalm : ¬ CertRaises P ca cert now := by
      intro h
      obtain ⟨e, he⟩ := hraise.mpr h
      cases hout.symm.trans he
    rw [hout, Except.ok.injEq] at htrue
    constructor
    · rintro ⟨b', hb', hspec⟩
      obtain rfl := Except.ok.inj hb'
      refine ⟨hcalm, fun hlast => hlast.not_spec (hspec.mp (htrue.mpr (.inr hlast)))⟩
    · rintro ⟨-, hlast⟩
      exact ⟨b, rfl, htrue.trans (or_iff_left hlast)⟩

end

/-- The certificate of `alice` is decided in the middle of its time. -/
theorem certFor_decided :
    DecidesCert (.transparent []) [1] (certFor (py "alice") (py "A")) 100 none := by
  have hkey : loadPublic (.transparent []) [1] = .ok (.numbered 1) := rfl
  have hout : certOutcome (.transparent []) [1] (certFor (py "alice") (py "A")) 100 none =
      .ok true := by decide +kernel
  refine (decidesCert_iff hkey).mpr ⟨fun hraises => ?_, fun hlast => ?_⟩
  · obtain ⟨e, he⟩ := (certOutcome_raises hkey).mpr hraises
    cases hout.symm.trans he
  · obtain ⟨v, hv, hend⟩ := hlast.ending
    obtain rfl := Option.some.inj (hv.symm.trans rfl)
    exact absurd hend (by decide)

/-- A certificate whose subject is a lone surrogate. -/
def surrogateCert : Obj :=
  [(py "subject", .str [chr 0xD800]), (py "public_key_pem", .null), (py "issuer", .null),
    (py "valid_from", .null), (py "valid_until", .null), (py "serial", .null),
    (py "signature", .str [])]

/-- It raises `UnicodeEncodeError`. -/
theorem surrogateCert_not_decided :
    ¬ DecidesCert (.transparent []) [1] surrogateCert 0 none := by
  have hraise : certSignatureOk (.transparent []) surrogateCert [1] =
      .error .unicodeEncodeError := by decide
  rintro ⟨b, hb, -⟩
  rw [verifyCertificate_pure, raising_eq_pure, certOutcome, hraise] at hb
  cases hb

end ZeroTrust
