import ZeroTrust.Python.Text

/-!
# Python values and exceptions

The values `json.loads` can produce, and the exceptions the program raises or
distinguishes.

A `dict` is the list of its items in insertion order.  `json.loads` gives every key
once; where a key does occur twice, the first one is looked up.
-/

namespace ZeroTrust
namespace Python

/-- A Python `float`: the special values, and the finite ones by their exact value. -/
inductive PyFloat where
  | nan
  | posInf
  | negInf
  | negZero
  | finite (q : Rat)
  deriving DecidableEq

/-- A value `json.loads` can produce. -/
inductive Json where
  | null
  | bool (b : Bool)
  | int (i : ℤ)
  | float (x : PyFloat)
  | str (s : PyStr)
  | arr (xs : List Json)
  | obj (fields : List (PyStr × Json))

mutual

/-- Equality of values is decided along their structure. -/
def Json.decEq : (a b : Json) → Decidable (a = b)
  | .null, .null => .isTrue rfl
  | .bool a, .bool b => decidable_of_iff (a = b) (by simp)
  | .int a, .int b => decidable_of_iff (a = b) (by simp)
  | .float a, .float b => decidable_of_iff (a = b) (by simp)
  | .str a, .str b => decidable_of_iff (a = b) (by simp)
  | .arr a, .arr b => @decidable_of_iff _ (a = b) (by simp) (Json.decEqList a b)
  | .obj a, .obj b => @decidable_of_iff _ (a = b) (by simp) (Json.decEqFields a b)
  | .null, .bool _ | .null, .int _ | .null, .float _ | .null, .str _ | .null, .arr _
  | .null, .obj _ | .bool _, .null | .bool _, .int _ | .bool _, .float _ | .bool _, .str _
  | .bool _, .arr _ | .bool _, .obj _ | .int _, .null | .int _, .bool _ | .int _, .float _
  | .int _, .str _ | .int _, .arr _ | .int _, .obj _ | .float _, .null | .float _, .bool _
  | .float _, .int _ | .float _, .str _ | .float _, .arr _ | .float _, .obj _ | .str _, .null
  | .str _, .bool _ | .str _, .int _ | .str _, .float _ | .str _, .arr _ | .str _, .obj _
  | .arr _, .null | .arr _, .bool _ | .arr _, .int _ | .arr _, .float _ | .arr _, .str _
  | .arr _, .obj _ | .obj _, .null | .obj _, .bool _ | .obj _, .int _ | .obj _, .float _
  | .obj _, .str _ | .obj _, .arr _ => .isFalse nofun

/-- Equality of arrays. -/
def Json.decEqList : (a b : List Json) → Decidable (a = b)
  | [], [] => .isTrue rfl
  | [], _ :: _ => .isFalse nofun
  | _ :: _, [] => .isFalse nofun
  | a :: as, b :: bs =>
    @decidable_of_iff _ (a = b ∧ as = bs) (by simp)
      (@instDecidableAnd _ _ (Json.decEq a b) (Json.decEqList as bs))

/-- Equality of objects, item by item. -/
def Json.decEqFields : (a b : List (PyStr × Json)) → Decidable (a = b)
  | [], [] => .isTrue rfl
  | [], _ :: _ => .isFalse nofun
  | _ :: _, [] => .isFalse nofun
  | (k, a) :: as, (l, b) :: bs =>
    @decidable_of_iff _ (k = l ∧ a = b ∧ as = bs) (by simp [and_assoc])
      (@instDecidableAnd _ _ (instDecidableEqList k l)
        (@instDecidableAnd _ _ (Json.decEq a b) (Json.decEqFields as bs)))

end

instance : DecidableEq Json := Json.decEq

/-- The items of a `dict`. -/
abbrev Obj := List (PyStr × Json)

/-- `d.get(key)`, with `none` where Python gives the default `None`. -/
def dictGet (o : Obj) (key : String) : Option Json := o.lookup (py key)

/-- `isinstance(v, int)`, and the integer it is: Python's booleans are integers. -/
def Json.asInt : Json → Option ℤ
  | .int i => some i
  | .bool b => some b.toNat
  | _ => none

/-- `isinstance(v, str)`, and the text it is. -/
def Json.asStr : Json → Option PyStr
  | .str s => some s
  | _ => none

/-- `isinstance(v, dict)`, and its items. -/
def Json.asObj : Json → Option Obj
  | .obj o => some o
  | _ => none

@[simp] theorem Json.asInt_int (i : ℤ) : (Json.int i).asInt = some i := rfl

@[simp] theorem Json.asStr_str (s : PyStr) : (Json.str s).asStr = some s := rfl

@[simp] theorem Json.asObj_obj (o : Obj) : (Json.obj o).asObj = some o := rfl

theorem Json.asStr_eq_some {v : Json} {s : PyStr} : v.asStr = some s ↔ v = .str s := by
  cases v <;> simp [Json.asStr]

theorem Json.asObj_eq_some {v : Json} {o : Obj} : v.asObj = some o ↔ v = .obj o := by
  cases v <;> simp [Json.asObj]

/-- The exceptions that the program raises, catches or lets through. -/
inductive PyExn where
  | osError
  | keyError
  | typeError
  | attributeError
  | valueError
  | unicodeEncodeError
  | unicodeDecodeError
  | jsonDecodeError
  | overflowError
  | recursionError
  | protocolError (msg : PyStr)
  | authError (msg : PyStr)
  | cryptoError (msg : PyStr)
  | integrityError
  | operationalError
  | programmingError
  | other
  deriving DecidableEq

namespace PyExn

/-- `isinstance(exc, ValueError)`. -/
def isValueError : PyExn → Bool
  | valueError | unicodeEncodeError | unicodeDecodeError | jsonDecodeError => true
  | _ => false

/-- `isinstance(exc, ProtocolError)`. -/
def isProtocolError : PyExn → Bool
  | protocolError _ => true
  | _ => false

/-- `isinstance(exc, CryptoError)`. -/
def isCryptoError : PyExn → Bool
  | cryptoError _ => true
  | _ => false

/-- `isinstance(exc, sqlite3.Error)`. -/
def isSqliteError : PyExn → Bool
  | integrityError | operationalError | programmingError => true
  | _ => false

end PyExn

/-- A sequence of two steps returns when both do. -/
theorem bind_eq_ok {ε α β : Type} {x : Except ε α} {f : α → Except ε β} {b : β} :
    x >>= f = .ok b ↔ ∃ a, x = .ok a ∧ f a = .ok b := by
  cases x <;> simp [bind, Except.bind]

@[simp] theorem ok_bind {ε α β : Type} (a : α) (f : α → Except ε β) :
    (.ok a : Except ε α) >>= f = f a := rfl

@[simp] theorem pure_eq_ok {ε α : Type} {a b : α} :
    (pure a : Except ε α) = .ok b ↔ a = b := by
  simp [pure, Except.pure]

/-- `s.encode()`. -/
def encodeText (s : PyStr) : Except PyExn Bytes :=
  match utf8Encode s with
  | some b => .ok b
  | none => .error .unicodeEncodeError

theorem encodeText_eq_ok {s : PyStr} {b : Bytes} : encodeText s = .ok b ↔ utf8Encode s = some b := by
  unfold encodeText
  cases utf8Encode s <;> simp

/-- The reading of a required key, `d[key]`. -/
def dictItem (o : Obj) (key : String) : Except PyExn Json :=
  match dictGet o key with
  | some v => .ok v
  | none => .error .keyError

theorem dictItem_eq_ok {o : Obj} {key : String} {v : Json} :
    dictItem o key = .ok v ↔ dictGet o key = some v := by
  unfold dictItem
  cases dictGet o key <;> simp

end Python
end ZeroTrust
