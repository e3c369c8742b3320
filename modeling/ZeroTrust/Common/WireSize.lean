import ZeroTrust.Common.Protocol
import Mathlib.Algebra.Order.BigOperators.Group.List
import Mathlib.Algebra.Order.Ring.Nat

/-!
# How long a message is

The body of a message is ASCII, so its length in octets is the number of its characters, and
that is a sum over its items.  Base64 and the texts of the program are written as they are;
any other text is escaped, with at most twelve characters for each of its own.

* `textLength`: the length of a string on the wire; `textLength_of_isPlain`,
  `textLength_le`.
* `b64Length`, `textLength_b64encode`: the length of octets in Base64.
* `wireLength_obj`: the length of an object.
* `wireLength_makeEnvelope`: the length of an envelope around a payload.
* `packMessage_eq_ok`: what is not too long is packed.
-/

namespace ZeroTrust

open Python

/-! ## Strings -/

/-- The length of a string on the wire, with its quotes. -/
def textLength (s : PyStr) : ℕ := (dumpsStr true s).length

/-- A character that a JSON string shows as it is. -/
def isPlain (c : PyChar) : Bool := 32 ≤ c.val ∧ c.val ≤ 126 ∧ c.val ≠ 34 ∧ c.val ≠ 92

theorem escapeChar_of_isPlain {c : PyChar} (h : isPlain c = true) : escapeChar true c = [c] := by
  obtain ⟨hlow, hhigh, hquote, hslash⟩ := of_decide_eq_true h
  have hne : ∀ n, n ≤ 126 → c.val ≠ n → c ≠ chr n := by
    rintro n hn hc rfl
    exact hc (Nat.mod_eq_of_lt (by omega))
  rw [escapeChar, if_neg (hne 34 (by omega) hquote), if_neg (hne 92 (by omega) hslash),
    if_neg (hne 10 (by omega) (by omega)), if_neg (hne 13 (by omega) (by omega)),
    if_neg (hne 9 (by omega) (by omega)), if_neg (hne 12 (by omega) (by omega)),
    if_neg (hne 8 (by omega) (by omega)), if_neg (by omega), Bool.true_and,
    if_neg (by simpa using hhigh)]

theorem length_hex4 (n : ℕ) : (hex4 n).length = 4 := length_hexFixed 4 n

/-- At most two escapes of six characters stand for one. -/
theorem length_escapeChar_le (c : PyChar) : (escapeChar true c).length ≤ 12 := by
  have hu : (py "\\u").length = 2 := rfl
  have hshort : ∀ t ∈ ["\\n", "\\r", "\\t", "\\f", "\\b"], (py t).length = 2 := by decide
  unfold escapeChar
  split_ifs <;> simp [List.length_append, length_hex4, hu, hshort]

/-- **A plain string has two characters more than its text.** -/
theorem textLength_of_isPlain {s : PyStr} (h : s.all isPlain = true) :
    textLength s = s.length + 2 := by
  have hbody : s.flatMap (escapeChar true) = s := by
    induction s with
    | nil => rfl
    | cons c s ih =>
      rw [List.all_cons, Bool.and_eq_true] at h
      rw [List.flatMap_cons, escapeChar_of_isPlain h.1, ih h.2, List.singleton_append]
  rw [textLength, dumpsStr, hbody, List.length_cons, List.length_append, List.length_singleton]

theorem textLength_le (s : PyStr) : textLength s ≤ 12 * s.length + 2 := by
  have hbody : (s.flatMap (escapeChar true)).length ≤ 12 * s.length := by
    induction s with
    | nil => exact Nat.le_refl 0
    | cons c s ih =>
      have := length_escapeChar_le c
      rw [List.flatMap_cons, List.length_append, List.length_cons]
      omega
  rw [textLength, dumpsStr, List.length_cons, List.length_append, List.length_singleton]
  omega

/-! ### Base64 -/

/-- The number of Base64 characters of `n` octets. -/
def b64Length (n : ℕ) : ℕ := 4 * ((n + 2) / 3)

theorem length_b64encode (bs : Bytes) : (b64encode bs).length = b64Length bs.length := by
  fun_induction b64encode bs with
  | case1 => rfl
  | case2 a => simp [b64Length]
  | case3 a b => simp [b64Length]
  | case4 a b c rest ih =>
    simp only [List.length_cons, b64Length] at ih ⊢
    omega

theorem isPlain_b64Char : ∀ n < 64, isPlain (b64Char n) = true := by decide +kernel

theorem isPlain_b64encode (bs : Bytes) : (b64encode bs).all isPlain = true := by
  have hpad : isPlain b64Pad = true := by decide
  fun_induction b64encode bs with
  | case1 => rfl
  | case2 a =>
    have ha := a.toNat_lt
    simp [hpad, isPlain_b64Char (a.toNat / 4) (by omega),
      isPlain_b64Char (a.toNat % 4 * 16) (by omega)]
  | case3 a b =>
    have ha := a.toNat_lt
    have hb := b.toNat_lt
    simp [hpad, isPlain_b64Char (a.toNat / 4) (by omega),
      isPlain_b64Char (a.toNat % 4 * 16 + b.toNat / 16) (by omega),
      isPlain_b64Char (b.toNat % 16 * 4) (by omega)]
  | case4 a b c rest ih =>
    have ha := a.toNat_lt
    have hb := b.toNat_lt
    have hc := c.toNat_lt
    simp only [List.all_cons, isPlain_b64Char (a.toNat / 4) (by omega),
      isPlain_b64Char (a.toNat % 4 * 16 + b.toNat / 16) (by omega),
      isPlain_b64Char (b.toNat % 16 * 4 + c.toNat / 64) (by omega),
      isPlain_b64Char (c.toNat % 64) (by omega), ih, Bool.and_self]

theorem textLength_b64encode (bs : Bytes) : textLength (b64encode bs) = b64Length bs.length + 2 := by
  rw [textLength_of_isPlain (isPlain_b64encode bs), length_b64encode]

/-! ### UUIDs -/

theorem isPlain_hexDigit (n : ℕ) : isPlain (hexDigit n) = true := by
  have hall : ∀ m < 16, isPlain (hexAlphabet.getD m 0) = true := by decide +kernel
  exact hall _ (Nat.mod_lt _ (by omega))

theorem isPlain_hexFixed (k n : ℕ) : ∀ c ∈ hexFixed k n, isPlain c = true := by
  induction k generalizing n with
  | zero => exact List.forall_mem_nil _
  | succ k ih =>
    rw [hexFixed, List.forall_mem_append]
    exact ⟨ih _, List.forall_mem_singleton.mpr (isPlain_hexDigit n)⟩

theorem isPlain_uuidStr (n : ℕ) : (uuidStr n).all isPlain = true := by
  have hdash : ∀ c ∈ py "-", isPlain c = true := by
    rw [show py "-" = [chr 45] from rfl, List.forall_mem_singleton]
    decide
  have htake : ∀ i j, ∀ c ∈ ((hexFixed 32 n).drop i).take j, isPlain c = true :=
    fun i j c hc => isPlain_hexFixed 32 n c (List.mem_of_mem_drop (List.mem_of_mem_take hc))
  rw [List.all_eq_true, uuidStr]
  simp only [List.forall_mem_append]
  refine ⟨⟨⟨⟨⟨⟨⟨⟨?_, hdash⟩, htake _ _⟩, hdash⟩, htake _ _⟩, hdash⟩, htake _ _⟩, hdash⟩, ?_⟩
  · exact fun c hc => isPlain_hexFixed 32 n c (List.mem_of_mem_take hc)
  · exact fun c hc => isPlain_hexFixed 32 n c (List.mem_of_mem_drop hc)

theorem textLength_uuidStr (n : ℕ) : textLength (uuidStr n) = 38 := by
  rw [textLength_of_isPlain (isPlain_uuidStr n), length_uuidStr]

/-! ## Values -/

variable (P : Primitives)

/-- The length of a value on the wire. -/
def wireLength (v : Json) : ℕ := (dumps P wireOptions v).length

@[simp] theorem wireLength_str (s : PyStr) : wireLength P (.str s) = textLength s := by
  rw [wireLength, dumps]
  rfl

@[simp] theorem wireLength_int (i : ℤ) : wireLength P (.int i) = (intRepr i).length := by
  rw [wireLength, dumps]

theorem length_join (sep : PyStr) (hsep : sep.length = 1) (x : PyStr) (xs : List PyStr) :
    (join sep (x :: xs)).length = x.length + (xs.map fun y => 1 + y.length).sum := by
  induction xs generalizing x with
  | nil => rw [join, List.map_nil, List.sum_nil, Nat.add_zero]
  | cons y xs ih =>
    rw [join, List.length_append, List.length_append, ih, hsep, List.map_cons, List.sum_cons]
    omega

/-- What an item of an object takes, with its colon and the comma or bracket after it. -/
def itemLength (x : PyStr × Json) : ℕ := textLength x.1 + wireLength P x.2 + 2

/-- **The length of an object is the sum over its items.** -/
theorem wireLength_obj (x : PyStr × Json) (fields : Obj) :
    wireLength P (.obj (x :: fields)) = 1 + ((x :: fields).map (itemLength P)).sum := by
  have hitem : ∀ y : PyStr × Json,
      (dumpsStr true y.1 ++ py ":" ++ dumps P wireOptions y.2).length + 1 = itemLength P y := by
    intro y
    have hcolon : (py ":").length = 1 := rfl
    rw [List.length_append, List.length_append, hcolon, itemLength, textLength, wireLength]
    omega
  have hrest : ((fields.map fun y => dumpsStr true y.1 ++ py ":" ++ dumps P wireOptions y.2).map
      fun y => 1 + y.length).sum = (fields.map (itemLength P)).sum := by
    rw [List.map_map]
    refine congrArg List.sum (List.map_congr_left fun y _ => ?_)
    rw [Function.comp_apply, ← hitem y, Nat.add_comm]
  have hdumps : dumps P wireOptions (.obj (x :: fields)) =
      chr 123 :: (join (py ",") ((x :: fields).map fun y =>
        dumpsStr true y.1 ++ py ":" ++ dumps P wireOptions y.2) ++ [chr 125]) := by
    have horder : ∀ items, orderItems wireOptions items = items := fun _ => rfl
    rw [dumps, dumpsObject, dumpsFields_eq_map, horder, List.map_map]
    rfl
  rw [wireLength, hdumps, List.length_cons, List.length_append, List.map_cons,
    length_join _ rfl, hrest, List.length_singleton, List.map_cons, List.sum_cons, ← hitem x]
  omega

/-! ## Envelopes -/

/-- The keys of the program are plain. -/
theorem textLength_keys : textLength (py "type") = 6 ∧ textLength (py "version") = 9 ∧
    textLength (py "nonce") = 7 ∧ textLength (py "timestamp") = 11 ∧
    textLength (py "request_id") = 12 ∧ textLength (py "payload") = 9 := by
  decide +kernel

theorem textLength_name (type : MessageType) : textLength type.name ≤ 19 := by
  cases type <;> decide +kernel

/-- **The length of an envelope.** -/
theorem wireLength_makeEnvelope (type : MessageType) (payload : Obj) {nonce : Bytes} (now : ℤ)
    (requestId : ℕ) (hnonce : nonce.length = 16) :
    wireLength P (makeEnvelope type payload nonce now (uuidStr requestId)) =
      textLength type.name + (intRepr now).length + wireLength P (.obj payload) + 132 := by
  obtain ⟨h1, h2, h3, h4, h5, h6⟩ := textLength_keys
  have hone : (intRepr 1).length = 1 := by decide
  rw [makeEnvelope, wireLength_obj]
  simp only [List.map_cons, List.map_nil, List.sum_cons, List.sum_nil, itemLength, h1, h2, h3, h4,
    h5, h6, wireLength_str, wireLength_int, textLength_b64encode, hnonce, textLength_uuidStr, hone,
    b64Length]
  omega

/-- A message is packed where its body is not too long. -/
theorem packMessage_eq_ok {msg : Json} :
    (∃ body, packMessage P msg = .ok body) ↔ wireLength P msg ≤ MAX_MESSAGE_BYTES := by
  unfold packMessage wireLength
  dsimp only
  split_ifs with h
  · exact iff_of_false (fun ⟨_, hb⟩ => nomatch hb) (by omega)
  · exact iff_of_true ⟨_, rfl⟩ (by omega)

end ZeroTrust
