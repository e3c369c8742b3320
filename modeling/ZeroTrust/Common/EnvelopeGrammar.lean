import ZeroTrust.Common.Protocol

/-!
# The grammar of an envelope

What `validate_envelope` accepts, against the grammar of the message format: an object with
the six fields, the version 1, a type of the list, an object for a payload, a nonce of 16
octets and an integer for a timestamp.  The tests of the source are wider in two places, where
an equality and an `isinstance` do not look at the type, and raise the wrong exception in one,
where a value is looked up in a set that no set can hold.

* `Shaped`: the six fields, with the test of the version and that of the timestamp left open.
* `validateEnvelope_cases`: what the function does, by the shape of the object.
* `validMessage_iff`: where it decides the grammar.
-/

namespace ZeroTrust

open Python

/-- The fields of an envelope are there and have their forms; `version` and `timestamp` are
what is asked of these two. -/
structure Shaped (version timestamp : Json → Prop) (fields : Obj) : Prop where
  present : ∀ k ∈ envelopeFields, (dictGet fields k).isSome
  version : ∃ v, dictGet fields "version" = some v ∧ version v
  type : ∃ t : MessageType, dictGet fields "type" = some (.str t.name)
  payload : ∃ payload, dictGet fields "payload" = some (.obj payload)
  nonce : ∃ text octets, dictGet fields "nonce" = some (.str text) ∧
    b64decode text = some octets ∧ octets.length = 16
  timestamp : ∃ v, dictGet fields "timestamp" = some v ∧ timestamp v

/-- An integer that is not a boolean. -/
def Python.Json.IsInt (v : Json) : Prop := ∃ i, v = .int i

/-- The grammar of an envelope. -/
def IsEnvelope (v : Json) : Prop := ∃ fields, v = .obj fields ∧ Shaped (· = .int 1) Json.IsInt fields

/-- What the tests of the source let pass. -/
def Passes (fields : Obj) : Prop := Shaped (·.isOne = true) (·.asInt.isSome = true) fields

/-- A value that no set can hold. -/
def Python.Json.Unhashable : Json → Prop
  | .arr _ | .obj _ => True
  | _ => False

/-- The type of the message is looked up, and is no value that can be. -/
structure BadType (fields : Obj) : Prop where
  present : ∀ k ∈ envelopeFields, (dictGet fields k).isSome
  version : ∃ v, dictGet fields "version" = some v ∧ v.isOne = true
  type : ∃ v, dictGet fields "type" = some v ∧ v.Unhashable

theorem MessageType.ofName_eq_some {s : PyStr} {t : MessageType} :
    ofName s = some t ↔ s = t.name := by
  constructor
  · intro h
    have hname : t.name = s := by simpa using List.find?_some h
    exact hname.symm
  · rintro rfl
    exact ofName_name t

/-- The look-up of the type, by the value. -/
theorem messageTypeOf_cases (v : Json) :
    (∃ t, messageTypeOf v = .ok (some t) ∧ v = .str t.name) ∨
      (messageTypeOf v = .ok none ∧ (∀ t : MessageType, v ≠ .str t.name) ∧ ¬ v.Unhashable) ∨
      (messageTypeOf v = .error .typeError ∧ v.Unhashable) := by
  cases v with
  | str s =>
    cases h : MessageType.ofName s with
    | some t => exact .inl ⟨t, congrArg Except.ok h, by rw [MessageType.ofName_eq_some.mp h]⟩
    | none =>
      refine .inr (.inl ⟨congrArg Except.ok h, fun t ht => ?_, id⟩)
      rw [MessageType.ofName_eq_some.mpr (Json.str.inj ht)] at h
      cases h
  | arr xs => exact .inr (.inr ⟨rfl, trivial⟩)
  | obj o => exact .inr (.inr ⟨rfl, trivial⟩)
  | _ => exact .inr (.inl ⟨rfl, by simp, id⟩)

theorem BadType.not_passes {fields : Obj} (h : BadType fields) : ¬ Passes fields := by
  intro hpass
  obtain ⟨v, hv, hbad⟩ := h.type
  obtain ⟨t, ht⟩ := hpass.type
  obtain rfl := Option.some.inj (hv.symm.trans ht)
  exact hbad

/-- The first test: no field is missing. -/
theorem any_isNone_eq_true {fields : Obj} :
    (envelopeFields.any fun k => (dictGet fields k).isNone) = true ↔
      ¬ ∀ k ∈ envelopeFields, (dictGet fields k).isSome := by
  simp [List.any_eq_true, Option.isSome_iff_ne_none, Option.isNone_iff_eq_none]

/-- The second test: the version equals 1. -/
theorem any_isOne_eq_true {fields : Obj} :
    (dictGet fields "version").any Json.isOne = true ↔
      ∃ v, dictGet fields "version" = some v ∧ v.isOne = true := by
  cases dictGet fields "version" <;> simp

section

variable {fields : Obj} (hpresent : ∀ k ∈ envelopeFields, (dictGet fields k).isSome)
  (hversion : ∃ v, dictGet fields "version" = some v ∧ v.isOne = true)

include hpresent hversion

/-- The look-up of the type may fail or raise. -/
theorem validateEnvelope_untyped {v : Json} (htype : dictGet fields "type" = some v) :
    (messageTypeOf v = .ok none → ∃ msg, validateEnvelope (.obj fields) = .error (.protocolError msg)) ∧
      ∀ e, messageTypeOf v = .error e → validateEnvelope (.obj fields) = .error e := by
  unfold validateEnvelope
  dsimp only
  rw [if_neg fun h => any_isNone_eq_true.mp h hpresent,
    if_neg (not_not.mpr (any_isOne_eq_true.mpr hversion)), htype, Option.getD_some]
  constructor
  · intro hlook
    rw [hlook, ok_bind]
    exact ⟨_, rfl⟩
  · intro e hlook
    rw [hlook]
    rfl

/-- The tests after the look-up of the type. -/
theorem validateEnvelope_typed {type : MessageType}
    (htype : dictGet fields "type" = some (.str type.name)) :
    (∃ env, validateEnvelope (.obj fields) = .ok env) ∧ Passes fields ∨
      (∃ msg, validateEnvelope (.obj fields) = .error (.protocolError msg)) ∧ ¬ Passes fields := by
  have hlook : messageTypeOf ((dictGet fields "type").getD .null) = .ok (some type) := by
    rw [htype]
    exact congrArg Except.ok (MessageType.ofName_name type)
  unfold validateEnvelope
  dsimp only
  rw [if_neg fun h => any_isNone_eq_true.mp h hpresent,
    if_neg (not_not.mpr (any_isOne_eq_true.mpr hversion)), hlook, ok_bind]
  dsimp only
  cases hpayload : (dictGet fields "payload").bind Json.asObj with
  | none =>
    refine .inr ⟨⟨_, rfl⟩, fun h => ?_⟩
    obtain ⟨payload, hget⟩ := h.payload
    simp [hget] at hpayload
  | some payload =>
    dsimp only
    cases hnonce : (dictGet fields "nonce").bind Json.asStr with
    | none =>
      refine .inr ⟨⟨_, rfl⟩, fun h => ?_⟩
      obtain ⟨text, octets, hget, -⟩ := h.nonce
      simp [hget] at hnonce
    | some nonce =>
      dsimp only
      obtain ⟨v, hv, hstr⟩ := Option.bind_eq_some_iff.mp hnonce
      obtain rfl := Json.asStr_eq_some.mp hstr
      have hread : ∀ {text octets}, dictGet fields "nonce" = some (.str text) →
          b64decode text = some octets → b64decode nonce = some octets := by
        intro text octets hget hdec
        obtain rfl : nonce = text := by simpa using hv.symm.trans hget
        exact hdec
      split
      · next hnone =>
        refine .inr ⟨⟨_, rfl⟩, fun h => ?_⟩
        obtain ⟨text, octets, hget, hdec, -⟩ := h.nonce
        cases hnone.symm.trans (hread hget hdec)
      · next octets hdec =>
        split_ifs with hlen
        · cases htimestamp : (dictGet fields "timestamp").bind Json.asInt with
          | none =>
            refine .inr ⟨⟨_, rfl⟩, fun h => ?_⟩
            obtain ⟨v, hget, hint⟩ := h.timestamp
            rw [hget, Option.bind_some] at htimestamp
            rw [htimestamp] at hint
            cases hint
          | some timestamp =>
            obtain ⟨w, hw, hint⟩ := Option.bind_eq_some_iff.mp htimestamp
            obtain ⟨o, ho, hobj⟩ := Option.bind_eq_some_iff.mp hpayload
            obtain rfl := Json.asObj_eq_some.mp hobj
            exact .inl ⟨⟨_, rfl⟩, hpresent, hversion, ⟨type, htype⟩, ⟨_, ho⟩,
              ⟨_, octets, hv, hdec, hlen⟩, ⟨w, hw, by rw [hint]; rfl⟩⟩
        · refine .inr ⟨⟨_, rfl⟩, fun h => hlen ?_⟩
          obtain ⟨text, octets', hget, hdec', hlen'⟩ := h.nonce
          obtain rfl := Option.some.inj (hdec.symm.trans (hread hget hdec'))
          exact hlen'

end

/-- **What the function does**, by the shape of the object. -/
theorem validateEnvelope_cases (fields : Obj) :
    (∃ env, validateEnvelope (.obj fields) = .ok env) ∧ Passes fields ∨
      (∃ msg, validateEnvelope (.obj fields) = .error (.protocolError msg)) ∧
        ¬ Passes fields ∧ ¬ BadType fields ∨
      validateEnvelope (.obj fields) = .error .typeError ∧ BadType fields := by
  by_cases hpresent : ∀ k ∈ envelopeFields, (dictGet fields k).isSome
  · by_cases hversion : ∃ v, dictGet fields "version" = some v ∧ v.isOne = true
    · obtain ⟨v, htype⟩ := Option.isSome_iff_exists.mp (hpresent "type" (by simp [envelopeFields]))
      obtain ⟨hnone, hraise⟩ := validateEnvelope_untyped hpresent hversion htype
      rcases messageTypeOf_cases v with ⟨t, -, rfl⟩ | ⟨hlook, hname, hhash⟩ | ⟨hlook, hbad⟩
      · have hgood : ¬ BadType fields := by
          rintro ⟨-, -, w, hw, hbad⟩
          obtain rfl := Option.some.inj (htype.symm.trans hw)
          exact hbad
        rcases validateEnvelope_typed hpresent hversion htype with h | h
        · exact .inl h
        · exact .inr (.inl ⟨h.1, h.2, hgood⟩)
      · refine .inr (.inl ⟨hnone hlook, fun h => ?_, fun h => ?_⟩)
        · obtain ⟨t, ht⟩ := h.type
          exact hname t (Option.some.inj (htype.symm.trans ht))
        · obtain ⟨w, hw, hbad⟩ := h.type
          obtain rfl := Option.some.inj (htype.symm.trans hw)
          exact hhash hbad
      · exact .inr (.inr ⟨hraise _ hlook, hpresent, hversion, v, htype, hbad⟩)
    · refine .inr (.inl ⟨⟨py "unsupported protocol version", ?_⟩, fun h => hversion h.version,
        fun h => hversion h.version⟩)
      unfold validateEnvelope
      dsimp only
      rw [if_neg fun h => any_isNone_eq_true.mp h hpresent,
        if_pos fun h => hversion (any_isOne_eq_true.mp h)]
  · refine .inr (.inl ⟨⟨py "envelope missing fields", ?_⟩, fun h => hpresent h.present,
      fun h => hpresent h.present⟩)
    unfold validateEnvelope
    dsimp only
    rw [if_pos (any_isNone_eq_true.mpr hpresent)]

/-! ## Where it decides the grammar -/

/-- `validate_envelope`, with what it returns: its argument. -/
def validMessage (msg : Json) : Except PyExn Json := do
  let _ ← validateEnvelope msg
  return msg

/-- Exactly the envelopes are accepted, and everything else is refused with `ProtocolError`. -/
def DecidesEnvelope (v : Json) : Prop :=
  (validMessage v = .ok v ↔ IsEnvelope v) ∧
    (¬ IsEnvelope v → ∃ msg, validMessage v = .error (.protocolError msg))

/-- A version or a timestamp that only looks like an integer. -/
def LooseNumber (fields : Obj) : Prop :=
  Passes fields ∧ (dictGet fields "version" ≠ some (.int 1) ∨
    ∃ b, dictGet fields "timestamp" = some (.bool b))

theorem isEnvelope_obj {fields : Obj} :
    IsEnvelope (.obj fields) ↔ Shaped (· = .int 1) Json.IsInt fields := by
  simp [IsEnvelope]

/-- **What passes is an envelope, or has a loose number.** -/
theorem passes_iff {fields : Obj} :
    Passes fields ↔ IsEnvelope (.obj fields) ∨ LooseNumber fields := by
  rw [isEnvelope_obj]
  constructor
  · intro h
    by_cases hloose : LooseNumber fields
    · exact .inr hloose
    · obtain ⟨w, hw, hint⟩ := h.timestamp
      have hone : dictGet fields "version" = some (.int 1) :=
        not_not.mp fun hne => hloose ⟨h, .inl hne⟩
      refine .inl ⟨h.present, ⟨_, hone, rfl⟩, h.type, h.payload, h.nonce, w, hw, ?_⟩
      cases w with
      | int i => exact ⟨i, rfl⟩
      | bool b => exact absurd ⟨h, .inr ⟨b, hw⟩⟩ hloose
      | _ => cases hint
  · rintro (h | h)
    · obtain ⟨v, hv, rfl⟩ := h.version
      obtain ⟨w, hw, i, rfl⟩ := h.timestamp
      exact ⟨h.present, ⟨_, hv, rfl⟩, h.type, h.payload, h.nonce, _, hw, rfl⟩
    · exact h.1

/-- No envelope has a loose number. -/
theorem LooseNumber.not_isEnvelope {fields : Obj} (h : LooseNumber fields) :
    ¬ IsEnvelope (.obj fields) := by
  intro henv
  rw [isEnvelope_obj] at henv
  obtain ⟨v, hv, rfl⟩ := henv.version
  obtain ⟨w, hw, i, rfl⟩ := henv.timestamp
  rcases h.2 with hne | ⟨b, hb⟩
  · exact hne hv
  · simp [hw] at hb

/-- **The grammar is decided** on every value but two kinds of objects: those whose type, looked
up after the version, is a list or an object, and those that are envelopes but for a version
`True` or `1.0`, or a boolean timestamp. -/
theorem decidesEnvelope_iff (v : Json) :
    DecidesEnvelope v ↔ ∀ fields, v = .obj fields → ¬ BadType fields ∧ ¬ LooseNumber fields := by
  cases v with
  | obj fields =>
    simp only [Json.obj.injEq, forall_eq']
    rcases validateEnvelope_cases fields with ⟨⟨env, hok⟩, hpass⟩ | ⟨⟨msg, herr⟩, hpass, hgood⟩ |
      ⟨herr, hbad⟩
    · have hvalid : validMessage (.obj fields) = .ok (.obj fields) := by
        rw [validMessage, hok, ok_bind]
        rfl
      constructor
      · exact fun h => ⟨fun hbad => hbad.not_passes hpass,
          fun hloose => hloose.not_isEnvelope (h.1.mp hvalid)⟩
      · rintro ⟨-, hloose⟩
        have henv : IsEnvelope (.obj fields) := (passes_iff.mp hpass).resolve_right hloose
        exact ⟨iff_of_true hvalid henv, fun hno => absurd henv hno⟩
    · have hvalid : validMessage (.obj fields) = .error (.protocolError msg) := by
        rw [validMessage, herr]
        rfl
      have hno : ¬ IsEnvelope (.obj fields) := fun henv => hpass (passes_iff.mpr (.inl henv))
      refine iff_of_true ⟨iff_of_false ?_ hno, fun _ => ⟨msg, hvalid⟩⟩
        ⟨hgood, fun hloose => hpass hloose.1⟩
      rw [hvalid]
      simp
    · have hvalid : validMessage (.obj fields) = .error .typeError := by
        rw [validMessage, herr]
        rfl
      have hno : ¬ IsEnvelope (.obj fields) :=
        fun henv => hbad.not_passes (passes_iff.mpr (.inl henv))
      refine iff_of_false (fun h => ?_) fun h => h.1 hbad
      obtain ⟨msg, hmsg⟩ := h.2 hno
      rw [hvalid] at hmsg
      cases hmsg
  | _ =>
    refine iff_of_true ⟨iff_of_false ?_ ?_, fun _ => ⟨py "envelope must be a dict", rfl⟩⟩ (by simp)
    · simp [validMessage, validateEnvelope, bind, Except.bind]
    · simp [IsEnvelope]

/-- An envelope with a list for a type. -/
def listTyped : Json :=
  .obj [(py "type", .arr []), (py "version", .int 1),
    (py "nonce", .str (b64encode (List.replicate 16 0))), (py "timestamp", .int 0),
    (py "request_id", .str []), (py "payload", .obj [])]

/-- It raises `TypeError`. -/
theorem listTyped_not_decided : ¬ DecidesEnvelope listTyped := by
  have hraise : validMessage listTyped = .error .typeError := by decide
  have hno : ¬ IsEnvelope listTyped := by
    rintro ⟨fields, hfields, henv⟩
    obtain ⟨t, ht⟩ := henv.type
    obtain rfl := Json.obj.inj hfields
    cases ht
  intro h
  obtain ⟨msg, hmsg⟩ := h.2 hno
  rw [hraise] at hmsg
  cases hmsg

end ZeroTrust
