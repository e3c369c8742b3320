import ZeroTrust.Common.Signed
import ZeroTrust.Common.Transparent
import ZeroTrust.Data.PrefixCode

/-!
# Canonical JSON is a faithful encoding

`canonical_json` writes two values without floats in the same way exactly if they are the
same value up to the order of the items of their objects.  Each kind of value begins with a
letter of its own; a string ends at the first quote that no backslash escapes, an integer at
the first letter that is no digit, an array and an object at their closing bracket.

* `Json.Built`: the values of the signed content, `Json.Same`: the same value.
* `dumps_inj`: a value is read off the front of the text that begins with it.
* `canonicalJson_faithful`: the encoding determines the value.
-/

namespace ZeroTrust

open Python

/-! ## Letters -/

theorem isPrefixOf_escapeChar : ∀ a < 93, ∀ b < 93,
    (escapeChar false (chr a)).isPrefixOf (escapeChar false (chr b)) = true → a = b := by
  decide +kernel

theorem head_escapeChar_lt : ∀ a < 93, ∃ c w, escapeChar false (chr a) = c :: w ∧
    c.val < 93 ∧ c ≠ chr 34 := by
  have h : ∀ a < 93, (escapeChar false (chr a)).head?.any
      (fun c => decide (c.val < 93) && decide (c ≠ chr 34)) = true := by decide +kernel
  intro a ha
  have h := h a ha
  cases he : escapeChar false (chr a) with
  | nil => rw [he] at h; cases h
  | cons c w =>
    rw [he, List.head?_cons, Option.any_some, Bool.and_eq_true, decide_eq_true_eq,
      decide_eq_true_eq] at h
    exact ⟨c, w, rfl, h.1, h.2⟩

/-- From the backslash on, only the letters that must be are escaped. -/
theorem escapeChar_of_le {c : PyChar} (h : 93 ≤ c.val) : escapeChar false c = [c] := by
  have hne : ∀ n < 93, c ≠ chr n := by
    rintro n hn rfl
    have : (chr n).val = n := Nat.mod_eq_of_lt (by omega)
    omega
  unfold escapeChar
  rw [if_neg (hne 34 (by omega)), if_neg (hne 92 (by omega)), if_neg (hne 10 (by omega)),
    if_neg (hne 13 (by omega)), if_neg (hne 9 (by omega)), if_neg (hne 12 (by omega)),
    if_neg (hne 8 (by omega)), if_neg (by omega)]
  rfl

/-- No escape begins with another. -/
theorem escapeChar_prefix (a b : PyChar) (h : escapeChar false a <+: escapeChar false b) :
    a = b := by
  by_cases ha : a.val < 93
  · by_cases hb : b.val < 93
    · rw [← chr_val a, ← chr_val b]
      rw [← chr_val a, ← chr_val b] at h
      rw [isPrefixOf_escapeChar a.val ha b.val hb (List.isPrefixOf_iff_prefix.mpr h)]
    · rw [escapeChar_of_le (Nat.not_lt.mp hb)] at h
      obtain ⟨c, w, hc, hlt, -⟩ := head_escapeChar_lt a.val ha
      rw [chr_val] at hc
      rw [hc, List.cons_prefix_cons] at h
      rw [h.1] at hlt
      omega
  · rw [escapeChar_of_le (Nat.not_lt.mp ha)] at h
    by_cases hb : b.val < 93
    · obtain ⟨c, w, hc, hlt, -⟩ := head_escapeChar_lt b.val hb
      rw [chr_val] at hc
      rw [hc, List.cons_prefix_cons] at h
      rw [← h.1] at hlt
      omega
    · rw [escapeChar_of_le (Nat.not_lt.mp hb), List.cons_prefix_cons] at h
      exact h.1

/-- No escape begins with the closing quote. -/
theorem escapeChar_ne_quote (a : PyChar) (w v : PyStr) :
    escapeChar false a ++ w ≠ chr 34 :: v := by
  intro h
  by_cases ha : a.val < 93
  · obtain ⟨c, w', hc, -, hne⟩ := head_escapeChar_lt a.val ha
    rw [chr_val] at hc
    rw [hc, List.cons_append] at h
    exact hne (List.cons.inj h).1
  · rw [escapeChar_of_le (by omega), List.singleton_append] at h
    have hq : a.val = 34 := by rw [(List.cons.inj h).1]; rfl
    omega

/-- **A string is read off the front of a text.** -/
theorem dumpsStr_inj {s t u v : PyStr} (h : dumpsStr false s ++ u = dumpsStr false t ++ v) :
    s = t ∧ u = v := by
  rw [dumpsStr, dumpsStr, List.cons_append, List.cons_append, List.append_assoc,
    List.append_assoc] at h
  obtain ⟨rfl, huv⟩ := Data.flatMap_inj
    (fun a _ b _ u v hab => Data.code_inj escapeChar_prefix hab)
    (fun b _ w hw => escapeChar_ne_quote b w u hw.symm)
    (fun a _ w hw => escapeChar_ne_quote a w v hw) (List.cons.inj h).2
  exact ⟨rfl, (List.cons.inj huv).2⟩

/-- A letter of an integer. -/
def IsNumeral (c : PyChar) : Prop := c = chr 45 ∨ 48 ≤ c.val ∧ c.val ≤ 57

instance (c : PyChar) : Decidable (IsNumeral c) :=
  inferInstanceAs (Decidable (c = chr 45 ∨ 48 ≤ c.val ∧ c.val ≤ 57))

theorem mem_digits {n : ℕ} {c : PyChar}
    (h : c ∈ (Nat.toDigits 10 n).map fun c => chr c.toNat) : 48 ≤ c.val ∧ c.val ≤ 57 := by
  obtain ⟨d, hd, rfl⟩ := List.mem_map.mp h
  have hdigit := Nat.isDigit_of_mem_toDigits (by omega) (by omega) hd
  rw [Char.isDigit, Bool.and_eq_true, decide_eq_true_eq, decide_eq_true_eq, ge_iff_le,
    UInt32.le_iff_toNat_le, UInt32.le_iff_toNat_le] at hdigit
  have hval : (chr d.toNat).val = d.toNat :=
    Nat.mod_eq_of_lt (Nat.lt_of_le_of_lt hdigit.2 (by decide))
  rw [hval]
  exact hdigit

theorem isNumeral_of_mem {i : ℤ} {c : PyChar} (h : c ∈ intRepr i) : IsNumeral c := by
  rw [intRepr, List.mem_append] at h
  rcases h with h | h
  · split at h
    · exact .inl (List.mem_singleton.mp h)
    · cases h
  · exact .inr (mem_digits h)

theorem map_chr_inj {xs ys : List Char}
    (h : xs.map (fun c => chr c.toNat) = ys.map fun c => chr c.toNat) : xs = ys := by
  refine List.map_injective_iff.mpr (fun a b hab => ?_) h
  have hval : ∀ c : Char, (chr c.toNat).val = c.toNat := fun c => by
    refine Nat.mod_eq_of_lt ?_
    rcases c.valid with hc | hc
    · exact Nat.lt_trans hc (by decide)
    · exact hc.2
  have := congrArg Fin.val hab
  rw [hval, hval] at this
  exact Char.ext (UInt32.toNat_inj.mp this)

theorem digits_inj {m n : ℕ}
    (h : (Nat.toDigits 10 m).map (fun c => chr c.toNat) =
      (Nat.toDigits 10 n).map fun c => chr c.toNat) : m = n := by
  calc m = Nat.ofDigitChars 10 (Nat.toDigits 10 m) 0 := Nat.ofDigitChars_ten_toDigits.symm
    _ = Nat.ofDigitChars 10 (Nat.toDigits 10 n) 0 := by rw [map_chr_inj h]
    _ = n := Nat.ofDigitChars_ten_toDigits

/-- The decimal form determines the integer: the sign is its first letter or is not there. -/
theorem intRepr_inj {i j : ℤ} (h : intRepr i = intRepr j) : i = j := by
  have hsign : ∀ (n : ℕ) (w : PyStr),
      (Nat.toDigits 10 n).map (fun c => chr c.toNat) ≠ chr 45 :: w := by
    intro n w hw
    have := (@mem_digits n (chr 45) (hw ▸ List.mem_cons_self)).1
    exact absurd this (by decide)
  rw [intRepr, intRepr] at h
  by_cases hi : i < 0
  · by_cases hj : j < 0
    · rw [if_pos hi, if_pos hj] at h
      have := digits_inj (List.append_cancel_left h)
      omega
    · rw [if_pos hi, if_neg hj] at h
      exact absurd h.symm (hsign _ _)
  · by_cases hj : j < 0
    · rw [if_neg hi, if_pos hj] at h
      exact absurd h (hsign _ _)
    · rw [if_neg hi, if_neg hj] at h
      have := digits_inj (List.append_cancel_left h)
      omega

/-! ## Values -/

namespace Python

/-- Induction over a value: an array knows about its elements, an object about the values of
its items. -/
@[elab_as_elim]
theorem Json.induction {motive : Json → Prop} (null : motive .null)
    (bool : ∀ b, motive (.bool b)) (int : ∀ i, motive (.int i)) (float : ∀ x, motive (.float x))
    (str : ∀ s, motive (.str s)) (arr : ∀ xs, (∀ x ∈ xs, motive x) → motive (.arr xs))
    (obj : ∀ fields, (∀ x ∈ fields, motive x.2) → motive (.obj fields)) (v : Json) : motive v :=
  @Json.rec motive (fun xs => ∀ x ∈ xs, motive x) (fun fields => ∀ x ∈ fields, motive x.2)
    (fun x => motive x.2) null bool int float str arr obj (List.forall_mem_nil _)
    (fun _ _ hx hxs => List.forall_mem_cons.mpr ⟨hx, hxs⟩) (List.forall_mem_nil _)
    (fun _ _ hx hxs => List.forall_mem_cons.mpr ⟨hx, hxs⟩) (fun _ _ h => h) v

/-- A value that is built from objects, arrays, strings, integers, booleans and `None`, over
texts of a certain kind; an object has each key once. -/
inductive Json.Built (text : PyStr → Prop) : Json → Prop
  | null : Json.Built text .null
  | bool (b : Bool) : Json.Built text (.bool b)
  | int (i : ℤ) : Json.Built text (.int i)
  | str {s : PyStr} (h : text s) : Json.Built text (.str s)
  | arr {xs : List Json} (h : ∀ x ∈ xs, Json.Built text x) : Json.Built text (.arr xs)
  | obj {fields : Obj} (hkeys : (fields.map Prod.fst).Nodup) (htext : ∀ x ∈ fields, text x.1)
      (hvals : ∀ x ∈ fields, Json.Built text x.2) : Json.Built text (.obj fields)

/-- The same value: the order in which an object has its items does not matter. -/
inductive Json.Same : Json → Json → Prop
  | null : Json.Same .null .null
  | bool (b : Bool) : Json.Same (.bool b) (.bool b)
  | int (i : ℤ) : Json.Same (.int i) (.int i)
  | float (x : PyFloat) : Json.Same (.float x) (.float x)
  | str (s : PyStr) : Json.Same (.str s) (.str s)
  | arr {xs ys : List Json} (h : List.Forall₂ Json.Same xs ys) : Json.Same (.arr xs) (.arr ys)
  | obj {fields fields' items items' : Obj} (hleft : fields.Perm items)
      (hkeys : items.map Prod.fst = items'.map Prod.fst)
      (hvals : List.Forall₂ Json.Same (items.map Prod.snd) (items'.map Prod.snd))
      (hright : items'.Perm fields') : Json.Same (.obj fields) (.obj fields')

end Python

/-- What a text of canonical JSON begins with. -/
inductive Lead where
  | null
  | bool
  | number
  | string
  | array
  | object
  deriving DecidableEq

/-- The kind of value that begins with a letter. -/
def leadOf (c : PyChar) : Option Lead :=
  if c = chr 110 then some .null
  else if c = chr 116 ∨ c = chr 102 then some .bool
  else if IsNumeral c then some .number
  else if c = chr 34 then some .string
  else if c = chr 91 then some .array
  else if c = chr 123 then some .object
  else none

/-- The kind of a value, floats aside. -/
def leadOfJson : Json → Option Lead
  | .null => some .null
  | .bool _ => some .bool
  | .int _ => some .number
  | .float _ => none
  | .str _ => some .string
  | .arr _ => some .array
  | .obj _ => some .object

theorem leadOf_of_isNumeral {c : PyChar} (h : IsNumeral c) : leadOf c = some .number := by
  have hne : ∀ n, 57 < n → n < 128 → c ≠ chr n := by
    rintro n hn hlt rfl
    have hval : (chr n).val = n := Nat.mod_eq_of_lt (by omega)
    rcases h with h | h
    · have := congrArg Fin.val h
      rw [hval] at this
      have : n = 45 := this
      omega
    · omega
  unfold leadOf
  rw [if_neg (hne 110 (by omega) (by omega)), 
    if_neg (not_or.mpr ⟨hne 116 (by omega) (by omega), hne 102 (by omega) (by omega)⟩), if_pos h]

theorem intRepr_ne_nil (i : ℤ) : intRepr i ≠ [] := by
  intro h
  rw [intRepr, List.append_eq_nil_iff, List.map_eq_nil_iff] at h
  exact Nat.toDigits_ne_nil h.2

section

variable {P : Primitives} {text : PyStr → Prop}

/-- A value's text begins with the letter of its kind. -/
theorem exists_dumps_eq_cons {a : Json} (ha : a.Built text) :
    ∃ c w, dumps P canonicalOptions a = c :: w ∧ leadOf c = leadOfJson a ∧
      (leadOfJson a).isSome = true := by
  cases ha with
  | null => exact ⟨chr 110, py "ull", by simp only [dumps]; decide, by decide, rfl⟩
  | bool b =>
    cases b with
    | true => exact ⟨chr 116, py "rue", by simp only [dumps]; decide, by decide, rfl⟩
    | false => exact ⟨chr 102, py "alse", by simp only [dumps]; decide, by decide, rfl⟩
  | int i =>
    cases h : intRepr i with
    | nil => exact absurd h (intRepr_ne_nil i)
    | cons c w =>
      refine ⟨c, w, by rw [dumps, h], ?_, rfl⟩
      exact leadOf_of_isNumeral (@isNumeral_of_mem i c (h ▸ List.mem_cons_self))
  | str _ => exact ⟨chr 34, _, by rw [dumps, dumpsStr], (by decide : leadOf (chr 34) = some .string), rfl⟩
  | arr _ => exact ⟨chr 91, _, by rw [dumps], (by decide : leadOf (chr 91) = some .array), rfl⟩
  | obj _ _ _ => exact ⟨chr 123, _, by rw [dumps, dumpsObject], (by decide : leadOf (chr 123) = some .object), rfl⟩

/-- Values whose texts begin alike are of one kind. -/
theorem leadOfJson_eq {a b : Json} (ha : a.Built text) (hb : b.Built text) {u v : PyStr}
    (h : dumps P canonicalOptions a ++ u = dumps P canonicalOptions b ++ v) :
    leadOfJson a = leadOfJson b := by
  obtain ⟨c, w, hc, hla, -⟩ := @exists_dumps_eq_cons P text a ha
  obtain ⟨d, w', hd, hlb, -⟩ := @exists_dumps_eq_cons P text b hb
  rw [hc, hd, List.cons_append, List.cons_append] at h
  rw [← hla, ← hlb, (List.cons.inj h).1]

/-- No value's text begins with a closing bracket. -/
theorem dumps_ne_close {a : Json} (ha : a.Built text) {c : PyChar} (hc : leadOf c = none)
    (u v : PyStr) : dumps P canonicalOptions a ++ u ≠ c :: v := by
  intro h
  obtain ⟨d, w, hd, hlead, hsome⟩ := @exists_dumps_eq_cons P text a ha
  rw [hd, List.cons_append] at h
  rw [(List.cons.inj h).1, hc] at hlead
  rw [← hlead] at hsome
  cases hsome

/-! ## Sequences -/

/-- An item of an object. -/
def dumpsItem (P : Primitives) (x : PyStr × Json) : PyStr :=
  dumpsStr false x.1 ++ (chr 58 :: dumps P canonicalOptions x.2)

/-- The items of an object by their keys. -/
def sortFields (fields : Obj) : Obj := fields.insertionSort fun x y => strLe x.1 y.1 = true

theorem perm_sortFields (fields : Obj) : (sortFields fields).Perm fields :=
  List.perm_insertionSort _ _

theorem dumps_arr (xs : List Json) :
    dumps P canonicalOptions (.arr xs) =
      chr 91 :: ([chr 44].intercalate (xs.map (dumps P canonicalOptions)) ++ [chr 93]) := by
  rw [dumps, join_eq_intercalate, dumpsList_eq_map]
  rfl

theorem dumps_obj (fields : Obj) :
    dumps P canonicalOptions (.obj fields) =
      chr 123 :: ([chr 44].intercalate ((sortFields fields).map (dumpsItem P)) ++ [chr 125]) := by
  have hsort : orderItems canonicalOptions (dumpsFields P canonicalOptions fields) =
      (sortFields fields).map fun x => (x.1, dumps P canonicalOptions x.2) := by
    rw [dumpsFields_eq_map]
    exact (List.map_insertionSort (fun x y : PyStr × Json => strLe x.1 y.1 = true)
      (fun x y : PyStr × PyStr => strLe x.1 y.1 = true) _ _ fun _ _ _ _ => Iff.rfl).symm
  rw [dumps, dumpsObject, join_eq_intercalate, hsort, List.map_map]
  congr 4
  exact funext fun x => List.append_assoc _ _ _

/-- **A value is read off the front of a text**, if what follows it does not go on as an
integer does. -/
theorem dumps_inj {a b : Json} (ha : a.Built text) (hb : b.Built text) {u v : PyStr}
    (hu : ∀ c ∈ u.head?, ¬ IsNumeral c) (hv : ∀ c ∈ v.head?, ¬ IsNumeral c)
    (h : dumps P canonicalOptions a ++ u = dumps P canonicalOptions b ++ v) :
    a.Same b ∧ u = v := by
  have hstop : ∀ {n m : ℕ} {w : PyStr}, ¬ IsNumeral (chr n) → ¬ IsNumeral (chr m) →
      (∀ c ∈ w.head?, c = chr n ∨ c = chr m) → ∀ c ∈ w.head?, ¬ IsNumeral c := by
    intro n m w hn hm hw c hc
    rcases hw c hc with rfl | rfl
    · exact hn
    · exact hm
  induction a using Json.induction generalizing b u v with
  | null =>
    have hlead := leadOfJson_eq ha hb h
    cases hb with
    | null => exact ⟨.null, List.append_cancel_left h⟩
    | _ => cases hlead
  | bool c =>
    have hlead := leadOfJson_eq ha hb h
    cases hb with
    | bool d =>
      obtain rfl : c = d := by
        by_contra hne
        rw [Bool.eq_not_of_ne hne, dumps, dumps] at h
        cases d <;> exact absurd (List.cons.inj h).1 (by decide)
      exact ⟨.bool c, List.append_cancel_left h⟩
    | _ => cases hlead
  | int i =>
    have hlead := leadOfJson_eq ha hb h
    cases hb with
    | int j =>
      rw [dumps, dumps] at h
      obtain ⟨hij, huv⟩ := Data.span_inj (fun _ => isNumeral_of_mem) (fun _ => isNumeral_of_mem)
        hu hv h
      rw [intRepr_inj hij]
      exact ⟨.int j, huv⟩
    | _ => cases hlead
  | float x => cases ha
  | str s =>
    have hlead := leadOfJson_eq ha hb h
    cases hb with
    | str _ =>
      rw [dumps, dumps] at h
      obtain ⟨rfl, huv⟩ := dumpsStr_inj h
      exact ⟨.str s, huv⟩
    | _ => cases hlead
  | arr xs ih =>
    have hlead := leadOfJson_eq ha hb h
    cases hb with
    | @arr ys hys =>
      cases ha with
      | arr hxs =>
        rw [dumps_arr, dumps_arr, List.cons_append, List.cons_append, List.append_assoc,
          List.append_assoc] at h
        obtain ⟨hsame, huv⟩ := @Data.intercalate_inj _ _ Json.Same (dumps P canonicalOptions)
          (chr 44) (chr 93) (by decide) xs ys u v
          (fun a ha => dumps_ne_close (ha.elim (hxs a) (hys a)) (by decide))
          (fun a ha b hb u v hu hv => ih a ha (hxs a ha) (hys b hb)
            (hstop (by decide) (by decide) hu) (hstop (by decide) (by decide) hv))
          (List.cons.inj h).2
        exact ⟨.arr hsame, huv⟩
    | _ => cases hlead
  | obj fields ih =>
    have hlead := leadOfJson_eq ha hb h
    cases hb with
    | @obj fields' _ _ hvals' =>
      cases ha with
      | obj _ _ hvals =>
        rw [dumps_obj, dumps_obj, List.cons_append, List.cons_append, List.append_assoc,
          List.append_assoc] at h
        have hmem : ∀ {fs : Obj} {x : PyStr × Json}, x ∈ sortFields fs → x ∈ fs :=
          fun hx => (perm_sortFields _).mem_iff.mp hx
        obtain ⟨hsame, huv⟩ := @Data.intercalate_inj _ _
          (fun x y => x.1 = y.1 ∧ x.2.Same y.2) (dumpsItem P)
          (chr 44) (chr 125) (by decide) (sortFields fields) (sortFields fields') u v
          (fun x _ w w' hw => absurd (List.cons.inj hw).1 (by decide))
          (fun x hx y hy u v hu hv hxy => by
            rw [dumpsItem, dumpsItem, List.append_assoc, List.append_assoc] at hxy
            obtain ⟨hkey, hrest⟩ := dumpsStr_inj hxy
            obtain ⟨hval, huv⟩ := ih x (hmem hx) (hvals x (hmem hx)) (hvals' y (hmem hy))
              (hstop (by decide) (by decide) hu) (hstop (by decide) (by decide) hv)
              (List.cons.inj hrest).2
            exact ⟨⟨hkey, hval⟩, huv⟩)
          (List.cons.inj h).2
        refine ⟨.obj (perm_sortFields _).symm ?_ ?_ (perm_sortFields _), huv⟩
        · exact List.forall₂_eq_eq_eq ▸ List.forall₂_map_left_iff.mpr
            (List.forall₂_map_right_iff.mpr (hsame.imp fun _ _ h => h.1))
        · exact List.forall₂_map_left_iff.mpr
            (List.forall₂_map_right_iff.mpr (hsame.imp fun _ _ h => h.2))
    | _ => cases hlead

end

/-! ## The order of the items -/

theorem strLe_total (s t : PyStr) : strLe s t = true ∨ strLe t s = true := by
  induction s generalizing t with
  | nil => exact .inl (by rw [strLe])
  | cons a s ih =>
    cases t with
    | nil => exact .inr (by rw [strLe])
    | cons b t =>
      simp only [strLe, Bool.or_eq_true, Bool.and_eq_true, decide_eq_true_eq]
      rcases lt_trichotomy a b with hab | rfl | hab
      · exact .inl (.inl hab)
      · exact (ih t).imp (fun h => .inr ⟨rfl, h⟩) fun h => .inr ⟨rfl, h⟩
      · exact .inr (.inl hab)

theorem strLe_trans {s t w : PyStr} (h : strLe s t = true) (h' : strLe t w = true) :
    strLe s w = true := by
  induction s generalizing t w with
  | nil => rw [strLe]
  | cons a s ih =>
    cases t with
    | nil => rw [strLe] at h; cases h
    | cons b t =>
      cases w with
      | nil => rw [strLe] at h'; cases h'
      | cons c w =>
        simp only [strLe, Bool.or_eq_true, Bool.and_eq_true, decide_eq_true_eq] at h h' ⊢
        rcases h with hab | ⟨rfl, hst⟩
        · rcases h' with hbc | ⟨rfl, -⟩
          · exact .inl (hab.trans hbc)
          · exact .inl hab
        · rcases h' with hbc | ⟨rfl, htw⟩
          · exact .inl hbc
          · exact .inr ⟨rfl, ih hst htw⟩

theorem strLe_antisymm {s t : PyStr} (h : strLe s t = true) (h' : strLe t s = true) : s = t := by
  induction s generalizing t with
  | nil =>
    cases t with
    | nil => rfl
    | cons b t => rw [strLe] at h'; cases h'
  | cons a s ih =>
    cases t with
    | nil => rw [strLe] at h; cases h
    | cons b t =>
      simp only [strLe, Bool.or_eq_true, Bool.and_eq_true, decide_eq_true_eq] at h h'
      rcases h with hab | ⟨rfl, hst⟩
      · rcases h' with hba | ⟨rfl, -⟩
        · exact absurd hba (lt_asymm hab)
        · exact absurd hab (lt_irrefl _)
      · rcases h' with hba | ⟨-, hts⟩
        · exact absurd hba (lt_irrefl _)
        · rw [ih hst hts]

/-- Sorted keys leave nothing of the order in which an object has its items. -/
theorem dumpsObject_perm {o : DumpOptions} (ho : o.sortKeys = true)
    {items items' : List (PyStr × PyStr)} (h : items.Perm items')
    (hkeys : (items.map Prod.fst).Nodup) : dumpsObject o items = dumpsObject o items' := by
  have : Std.Total fun x y : PyStr × PyStr => strLe x.1 y.1 = true := ⟨fun _ _ => strLe_total _ _⟩
  have : IsTrans (PyStr × PyStr) fun x y => strLe x.1 y.1 = true := ⟨fun _ _ _ => strLe_trans⟩
  have hsort : orderItems o items = orderItems o items' := by
    rw [orderItems, orderItems, if_pos ho, if_pos ho]
    refine List.Perm.eq_of_pairwise (fun x y hx hy hxy hyx => ?_) (List.pairwise_insertionSort _ _)
      (List.pairwise_insertionSort _ _) (((List.perm_insertionSort _ _).trans h).trans
        (List.perm_insertionSort _ _).symm)
    exact List.inj_on_of_nodup_map hkeys ((List.perm_insertionSort _ _).mem_iff.mp hx)
      (h.mem_iff.mpr ((List.perm_insertionSort _ _).mem_iff.mp hy)) (strLe_antisymm hxy hyx)
  rw [dumpsObject, dumpsObject, hsort]

theorem map_eq_of_forall₂ {α β : Type} {R : α → α → Prop} {f : α → β} {xs ys : List α}
    (h : List.Forall₂ R xs ys) (hf : ∀ x ∈ xs, ∀ y, R x y → f x = f y) :
    xs.map f = ys.map f := by
  induction h with
  | nil => rfl
  | @cons x y xs ys hxy _ ih =>
    rw [List.map_cons, List.map_cons, hf x List.mem_cons_self y hxy,
      ih fun a ha => hf a (List.mem_cons_of_mem _ ha)]

/-- The same value is written in the same way. -/
theorem dumps_eq_of_same {P : Primitives} {o : DumpOptions} (ho : o.sortKeys = true)
    {text : PyStr → Prop} {a b : Json} (ha : a.Built text) (h : a.Same b) :
    dumps P o a = dumps P o b := by
  induction a using Json.induction generalizing b with
  | arr xs ih =>
    cases h with
    | arr hsame =>
      cases ha with
      | arr hxs =>
        rw [dumps, dumps, dumpsList_eq_map, dumpsList_eq_map,
          map_eq_of_forall₂ hsame fun x hx y hxy => ih x hx (hxs x hx) hxy]
  | obj fields ih =>
    cases h with
    | @obj _ fields' items items' hleft hkeys hvals hright =>
      cases ha with
      | obj hnodup _ hbuilt =>
        have hvals : (items.map Prod.snd).map (dumps P o) = (items'.map Prod.snd).map (dumps P o) :=
          map_eq_of_forall₂ hvals fun v hv w hvw => by
            obtain ⟨x, hx, rfl⟩ := List.mem_map.mp hv
            have hx := hleft.mem_iff.mpr hx
            exact ih x hx (hbuilt x hx) hvw
        have hitems : items.map (fun x => (x.1, dumps P o x.2)) =
            items'.map fun x => (x.1, dumps P o x.2) := by
          have hzip := congrArg₂ List.zip hkeys hvals
          rwa [List.map_map, List.map_map, List.zip_map', List.zip_map'] at hzip
        rw [dumps, dumps, dumpsFields_eq_map, dumpsFields_eq_map]
        refine dumpsObject_perm ho ?_ ?_
        · refine (hleft.map _).trans ?_
          rw [hitems]
          exact hright.map _
        · rw [List.map_map]
          exact hnodup
  | _ => cases h; rfl

/-! ## The items of an object -/

theorem lookup_eq_some_iff_mem {fields : Obj} (hkeys : (fields.map Prod.fst).Nodup) {k : PyStr}
    {v : Json} : fields.lookup k = some v ↔ (k, v) ∈ fields := by
  rw [List.lookup_eq_some_iff]
  constructor
  · rintro ⟨l₁, l₂, rfl, -⟩
    exact List.mem_append_right _ List.mem_cons_self
  · intro h
    obtain ⟨l₁, l₂, rfl⟩ := List.append_of_mem h
    refine ⟨l₁, l₂, rfl, fun x hx => ?_⟩
    rw [List.map_append, List.map_cons, List.nodup_middle, List.nodup_cons, List.mem_append,
      not_or] at hkeys
    exact bne_iff_ne.mpr fun hk => hkeys.1.1 (List.mem_map.mpr ⟨x, hx, hk.symm⟩)

theorem lookup_perm {fields fields' : Obj} (h : fields.Perm fields')
    (hkeys : (fields.map Prod.fst).Nodup) (k : PyStr) : fields.lookup k = fields'.lookup k := by
  ext v
  rw [lookup_eq_some_iff_mem hkeys,
    lookup_eq_some_iff_mem ((h.map _).nodup_iff.mp hkeys), h.mem_iff]

theorem lookup_rel {items items' : Obj} (hkeys : items.map Prod.fst = items'.map Prod.fst)
    (hvals : List.Forall₂ Json.Same (items.map Prod.snd) (items'.map Prod.snd)) (k : PyStr) :
    Option.Rel Json.Same (items.lookup k) (items'.lookup k) := by
  induction items generalizing items' with
  | nil =>
    obtain rfl := List.map_eq_nil_iff.mp hkeys.symm
    exact .none
  | cons x items ih =>
    obtain ⟨y, items', rfl⟩ : ∃ y l, items' = y :: l := by
      cases items' with
      | nil => cases hkeys
      | cons y l => exact ⟨y, l, rfl⟩
    rw [List.map_cons, List.map_cons] at hkeys
    obtain ⟨hkey, hkeys⟩ := List.cons.inj hkeys
    obtain ⟨hval, hvals⟩ := List.forall₂_cons.mp hvals
    rw [List.lookup_cons, List.lookup_cons, hkey]
    cases k == y.1 with
    | true => exact .some hval
    | false => exact ih hkeys hvals

/-- Objects that are the same value have the same keys. -/
theorem Python.Json.Same.keys {fields fields' : Obj} (h : (Json.obj fields).Same (.obj fields')) :
    (fields.map Prod.fst).Perm (fields'.map Prod.fst) := by
  cases h with
  | obj hleft hkeys _ hright =>
    refine (hleft.map _).trans ?_
    rw [hkeys]
    exact hright.map _

/-- Objects that are the same value have the same value at each key. -/
theorem Python.Json.Same.lookup {fields fields' : Obj} (h : (Json.obj fields).Same (.obj fields'))
    (hnodup : (fields.map Prod.fst).Nodup) (k : PyStr) :
    Option.Rel Json.Same (fields.lookup k) (fields'.lookup k) := by
  have hnodup' := h.keys.nodup_iff.mp hnodup
  cases h with
  | obj hleft hkeys hvals hright =>
    rw [lookup_perm hleft hnodup, ← lookup_perm hright ((hright.map _).nodup_iff.mpr hnodup')]
    exact lookup_rel hkeys hvals k

theorem Python.Json.Same.refl (a : Json) : a.Same a := by
  have hlist : ∀ xs : List Json, (∀ x ∈ xs, x.Same x) → List.Forall₂ Json.Same xs xs := by
    intro xs h
    induction xs with
    | nil => exact .nil
    | cons x xs ih =>
      obtain ⟨hx, hxs⟩ := List.forall_mem_cons.mp h
      exact .cons hx (ih hxs)
  induction a using Json.induction with
  | null => exact .null
  | bool b => exact .bool b
  | int i => exact .int i
  | float x => exact .float x
  | str s => exact .str s
  | arr xs ih => exact .arr (hlist xs ih)
  | obj fields ih =>
    refine .obj (.refl _) rfl (hlist _ fun v hv => ?_) (.refl _)
    obtain ⟨x, hx, rfl⟩ := List.mem_map.mp hv
    exact ih x hx

/-- The order of the items does not matter. -/
theorem Python.Json.same_of_perm {fields fields' : Obj} (h : fields.Perm fields') :
    (Json.obj fields).Same (.obj fields') := by
  cases Json.Same.refl (.obj fields') with
  | obj hleft hkeys hvals hright => exact .obj (h.trans hleft) hkeys hvals hright

/-! ## The bytes -/

/-- A text without lone surrogates. -/
def Encodable (s : PyStr) : Prop := ∀ c ∈ s, isSurrogate c = false

theorem encodable_append {s t : PyStr} : Encodable (s ++ t) ↔ Encodable s ∧ Encodable t :=
  List.forall_mem_append

theorem encodable_cons {c : PyChar} {s : PyStr} :
    Encodable (c :: s) ↔ isSurrogate c = false ∧ Encodable s :=
  List.forall_mem_cons

theorem encodable_nil : Encodable [] := List.forall_mem_nil _

theorem encodable_of_all {s : PyStr} (h : s.all (fun c => !isSurrogate c) = true) : Encodable s :=
  fun c hc => by simpa using List.all_eq_true.mp h c hc

theorem encodable_intercalate {sep : PyStr} (hsep : Encodable sep) {xs : List PyStr}
    (h : ∀ x ∈ xs, Encodable x) : Encodable (sep.intercalate xs) := by
  rw [← join_eq_intercalate]
  fun_induction join sep xs with
  | case1 => exact encodable_nil
  | case2 x => exact h x List.mem_cons_self
  | case3 x y xs ih =>
    obtain ⟨hx, hxs⟩ := List.forall_mem_cons.mp h
    exact encodable_append.mpr ⟨encodable_append.mpr ⟨hx, hsep⟩, ih hxs⟩

/-- What is part of a part is part of the sequence. -/
theorem mem_intercalate {sep x : PyStr} {xs : List PyStr} {c : PyChar} (hx : x ∈ xs)
    (hc : c ∈ x) : c ∈ sep.intercalate xs := by
  rw [← join_eq_intercalate]
  fun_induction join sep xs with
  | case1 => cases hx
  | case2 y =>
    obtain rfl := List.mem_singleton.mp hx
    exact hc
  | case3 y z ys ih =>
    rcases List.mem_cons.mp hx with rfl | hx
    · exact List.mem_append_left _ (List.mem_append_left _ hc)
    · exact List.mem_append_right _ (ih hx)

theorem encodable_dumpsStr {s : PyStr} (h : Encodable s) : Encodable (dumpsStr false s) := by
  have hlow : ∀ n < 93, (escapeChar false (chr n)).all (fun c => !isSurrogate c) = true := by
    decide +kernel
  refine encodable_cons.mpr ⟨by decide, encodable_append.mpr ⟨fun d hd => ?_,
    encodable_cons.mpr ⟨by decide, encodable_nil⟩⟩⟩
  obtain ⟨c, hc, hd⟩ := List.mem_flatMap.mp hd
  by_cases hlt : c.val < 93
  · rw [← chr_val c] at hd
    exact encodable_of_all (hlow c.val hlt) d hd
  · rw [escapeChar_of_le (Nat.not_lt.mp hlt), List.mem_singleton] at hd
    rw [hd]
    exact h c hc

/-- An escaped string is ASCII. -/
theorem encodable_dumpsStr_ascii (s : PyStr) : Encodable (dumpsStr true s) := by
  have hhex : ∀ n, Encodable (hex4 n) := by
    have hdigit : ∀ n < 16, isSurrogate (hexAlphabet.getD n 0) = false := by decide +kernel
    have hfixed : ∀ k n, Encodable (hexFixed k n) := by
      intro k
      induction k with
      | zero => exact fun _ => encodable_nil
      | succ k ih =>
        exact fun n => encodable_append.mpr ⟨ih _, encodable_cons.mpr
          ⟨hdigit _ (Nat.mod_lt _ (by omega)), encodable_nil⟩⟩
    exact hfixed 4
  have hlit : ∀ t ∈ ["\\n", "\\r", "\\t", "\\f", "\\b", "\\u"], Encodable (py t) := by
    have hall : ∀ t ∈ ["\\n", "\\r", "\\t", "\\f", "\\b", "\\u"],
        (py t).all (fun c => !isSurrogate c) = true := by decide
    exact fun t ht => encodable_of_all (hall t ht)
  have hquote : Encodable [chr 92, chr 34] := encodable_of_all (by decide)
  have hslash : Encodable [chr 92, chr 92] := encodable_of_all (by decide)
  refine encodable_cons.mpr ⟨by decide, encodable_append.mpr ⟨fun d hd => ?_,
    encodable_cons.mpr ⟨by decide, encodable_nil⟩⟩⟩
  obtain ⟨c, -, hd⟩ := List.mem_flatMap.mp hd
  refine (show Encodable (escapeChar true c) from ?_) d hd
  unfold escapeChar
  split_ifs with _ _ _ _ _ _ _ _ hhigh
  · exact hquote
  · exact hslash
  · exact hlit _ (by simp)
  · exact hlit _ (by simp)
  · exact hlit _ (by simp)
  · exact hlit _ (by simp)
  · exact hlit _ (by simp)
  · exact encodable_append.mpr ⟨hlit _ (by simp), hhex _⟩
  · exact encodable_append.mpr ⟨hlit _ (by simp), hhex _⟩
  · exact encodable_append.mpr ⟨encodable_append.mpr ⟨encodable_append.mpr
      ⟨hlit _ (by simp), hhex _⟩, hlit _ (by simp)⟩, hhex _⟩
  · refine encodable_cons.mpr ⟨?_, encodable_nil⟩
    rw [Bool.true_and, decide_eq_true_eq] at hhigh
    rw [isSurrogate, decide_eq_false (by omega), Bool.false_and]

theorem encodable_intRepr (i : ℤ) : Encodable (intRepr i) := by
  intro c hc
  rcases isNumeral_of_mem hc with rfl | ⟨hle, hge⟩
  · decide
  · rw [isSurrogate, decide_eq_false (by omega), Bool.false_and]

theorem encodable_dumps {P : Primitives} {a : Json} (ha : a.Built Encodable) :
    Encodable (dumps P canonicalOptions a) := by
  induction a using Json.induction with
  | null => rw [dumps]; exact encodable_of_all (by decide)
  | bool b =>
    rw [dumps]
    cases b with
    | true => exact encodable_of_all (by decide)
    | false => exact encodable_of_all (by decide)
  | int i => rw [dumps]; exact encodable_intRepr i
  | float x => cases ha
  | str s =>
    cases ha with
    | str hs => rw [dumps]; exact encodable_dumpsStr hs
  | arr xs ih =>
    cases ha with
    | arr hxs =>
      rw [dumps_arr]
      refine encodable_cons.mpr ⟨by decide, encodable_append.mpr
        ⟨encodable_intercalate (encodable_cons.mpr ⟨by decide, encodable_nil⟩) fun t ht => ?_,
          encodable_cons.mpr ⟨by decide, encodable_nil⟩⟩⟩
      obtain ⟨x, hx, rfl⟩ := List.mem_map.mp ht
      exact ih x hx (hxs x hx)
  | obj fields ih =>
    cases ha with
    | obj _ htext hvals =>
      rw [dumps_obj]
      refine encodable_cons.mpr ⟨by decide, encodable_append.mpr
        ⟨encodable_intercalate (encodable_cons.mpr ⟨by decide, encodable_nil⟩) fun t ht => ?_,
          encodable_cons.mpr ⟨by decide, encodable_nil⟩⟩⟩
      obtain ⟨x, hx, rfl⟩ := List.mem_map.mp ht
      have hx := (perm_sortFields fields).mem_iff.mp hx
      exact encodable_append.mpr ⟨encodable_dumpsStr (htext x hx),
        encodable_cons.mpr ⟨by decide, ih x hx (hvals x hx)⟩⟩

/-- The canonical JSON of a value without floats and lone surrogates exists. -/
theorem exists_canonicalJson {P : Primitives} {a : Json} (ha : a.Built Encodable) :
    ∃ data, canonicalJson P a = .ok data := by
  refine ⟨(dumps P canonicalOptions a).flatMap utf8Char, (canonicalJson_eq_ok P).mpr ?_⟩
  rw [utf8Encode, if_neg]
  rw [List.any_eq_true]
  rintro ⟨c, hc, hs⟩
  rw [encodable_dumps ha c hc] at hs
  cases hs

/-- What is part of the canonical JSON can be encoded. -/
theorem encodable_of_canonicalJson {P : Primitives} {fields : Obj} {data : Bytes}
    (h : canonicalJson P (.obj fields) = .ok data) {k s : PyStr} (hx : (k, .str s) ∈ fields) :
    Encodable s := by
  have hany : (dumps P canonicalOptions (.obj fields)).any isSurrogate = false := by
    have hdata := (canonicalJson_eq_ok P).mp h
    unfold utf8Encode at hdata
    split_ifs at hdata with hs
    exact Bool.not_eq_true _ ▸ hs
  intro c hc
  by_contra hsurr
  have hge : 93 ≤ c.val := by
    rw [isSurrogate, Bool.not_eq_false, Bool.and_eq_true, decide_eq_true_eq] at hsurr
    omega
  have hitem : c ∈ dumpsItem P (k, .str s) := by
    rw [dumpsItem, dumps, List.mem_append, List.mem_cons]
    refine .inr (.inr (List.mem_cons_of_mem _ (List.mem_append_left _ ?_)))
    exact List.mem_flatMap.mpr ⟨c, hc, by rw [canonicalOptions, escapeChar_of_le hge]; simp⟩
  have hall : ∀ d ∈ dumps P canonicalOptions (.obj fields), isSurrogate d = false := by
    simpa using hany
  refine hsurr (hall c ?_)
  rw [dumps_obj, List.mem_cons, List.mem_append]
  refine .inr (.inl (mem_intercalate ?_ hitem))
  exact List.mem_map_of_mem ((perm_sortFields fields).mem_iff.mpr hx)

/-- Where everything is escaped, the text of any value can be encoded. -/
theorem encodable_dumps_ascii {P : Primitives} {o : DumpOptions} (ho : o.ensureAscii = true)
    (hitem : Encodable o.itemSep) (hkey : Encodable o.keySep)
    (hfloat : ∀ x, Encodable (P.floatRepr x)) (a : Json) : Encodable (dumps P o a) := by
  have hstr : ∀ s, Encodable (dumpsStr o.ensureAscii s) := fun s => by
    rw [ho]
    exact encodable_dumpsStr_ascii s
  have hjoin : ∀ xs : List PyStr, (∀ x ∈ xs, Encodable x) → Encodable (join o.itemSep xs) :=
    fun xs hxs => by
      rw [join_eq_intercalate]
      exact encodable_intercalate hitem hxs
  induction a using Json.induction with
  | null => rw [dumps]; exact encodable_of_all (by decide)
  | bool b =>
    rw [dumps]
    cases b with
    | true => exact encodable_of_all (by decide)
    | false => exact encodable_of_all (by decide)
  | int i => rw [dumps]; exact encodable_intRepr i
  | float x => rw [dumps]; exact hfloat x
  | str s => rw [dumps]; exact hstr s
  | arr xs ih =>
    rw [dumps, dumpsList_eq_map]
    refine encodable_cons.mpr ⟨by decide, encodable_append.mpr ⟨hjoin _ fun t ht => ?_,
      encodable_cons.mpr ⟨by decide, encodable_nil⟩⟩⟩
    obtain ⟨x, hx, rfl⟩ := List.mem_map.mp ht
    exact ih x hx
  | obj fields ih =>
    rw [dumps, dumpsObject, dumpsFields_eq_map]
    refine encodable_cons.mpr ⟨by decide, encodable_append.mpr ⟨hjoin _ fun t ht => ?_,
      encodable_cons.mpr ⟨by decide, encodable_nil⟩⟩⟩
    obtain ⟨x, hx, rfl⟩ := List.mem_map.mp ht
    have hmem : x ∈ fields.map fun x => (x.1, dumps P o x.2) := by
      unfold orderItems at hx
      split_ifs at hx
      · exact (List.perm_insertionSort _ _).mem_iff.mp hx
      · exact hx
    obtain ⟨y, hy, rfl⟩ := List.mem_map.mp hmem
    exact encodable_append.mpr ⟨encodable_append.mpr ⟨hstr _, hkey⟩, ih y hy⟩

/-- Values with the same signed bytes are the same value. -/
theorem same_of_canonicalJson {P : Primitives} {text : PyStr → Prop} {a b : Json} {data : Bytes}
    (ha : a.Built text) (hb : b.Built text) (hda : canonicalJson P a = .ok data)
    (hdb : canonicalJson P b = .ok data) : a.Same b := by
  have hda := utf8Decode_utf8Encode ((canonicalJson_eq_ok P).mp hda)
  have hdb := utf8Decode_utf8Encode ((canonicalJson_eq_ok P).mp hdb)
  refine (@dumps_inj P text a b ha hb [] [] (fun _ hc => ?_) (fun _ hc => ?_) ?_).1
  · cases hc
  · cases hc
  · rw [Option.some.inj (hda.symm.trans hdb)]

/-- The values that the sender's origin struct is built from: texts that can be encoded, and
what `isinstance(value, int)` lets through. -/
structure Origin.Proper (s : Origin) : Prop where
  sender : Encodable s.sender
  recipient : Encodable s.recipient
  fileId : Encodable s.fileId
  ciphertextSha256 : Encodable s.ciphertextSha256
  wrappedKeySha256 : Encodable s.wrappedKeySha256
  timestamp : s.timestamp.asInt.isSome = true
  expiration : s.expiration.asInt.isSome = true

theorem built_of_asInt {text : PyStr → Prop} {v : Json} (h : v.asInt.isSome = true) :
    v.Built text := by
  cases v with
  | bool b => exact .bool b
  | int i => exact .int i
  | _ => cases h

theorem eq_of_same_of_asInt {v w : Json} (hv : v.asInt.isSome = true) (h : v.Same w) :
    v = w := by
  cases h with
  | bool _ => rfl
  | int _ => rfl
  | _ => cases hv

theorem nodup_originKeys : (["sender", "recipient", "file_id", "ciphertext_sha256",
    "wrapped_key_sha256", "timestamp", "expiration"].map py).Nodup := by decide +kernel

theorem Origin.built {text : PyStr → Prop} {s : Origin} (htext : ∀ k ∈ ["sender", "recipient",
    "file_id", "ciphertext_sha256", "wrapped_key_sha256", "timestamp", "expiration"], text (py k))
    (hvals : ∀ v ∈ [s.sender, s.recipient, s.fileId, s.ciphertextSha256, s.wrappedKeySha256], text v)
    (htimestamp : s.timestamp.asInt.isSome = true) (hexpiration : s.expiration.asInt.isSome = true) :
    s.toJson.Built text := by
  simp only [List.forall_mem_cons] at htext hvals
  obtain ⟨k1, k2, k3, k4, k5, k6, k7, -⟩ := htext
  obtain ⟨v1, v2, v3, v4, v5, -⟩ := hvals
  refine .obj nodup_originKeys ?_ ?_
  · simp only [List.forall_mem_cons]
    exact ⟨k1, k2, k3, k4, k5, k6, k7, List.forall_mem_nil _⟩
  · simp only [List.forall_mem_cons]
    exact ⟨.str v1, .str v2, .str v3, .str v4, .str v5, built_of_asInt htimestamp,
      built_of_asInt hexpiration, List.forall_mem_nil _⟩

theorem Origin.Proper.built {s : Origin} (h : s.Proper) : s.toJson.Built Encodable := by
  refine Origin.built ?_ ?_ h.timestamp h.expiration
  · simp only [List.forall_mem_cons]
    exact ⟨encodable_of_all (by decide), encodable_of_all (by decide),
      encodable_of_all (by decide), encodable_of_all (by decide), encodable_of_all (by decide),
      encodable_of_all (by decide), encodable_of_all (by decide), List.forall_mem_nil _⟩
  · simp only [List.forall_mem_cons]
    exact ⟨h.sender, h.recipient, h.fileId, h.ciphertextSha256, h.wrappedKeySha256,
      List.forall_mem_nil _⟩

/-- Origin structs that are the same value have the same fields. -/
theorem Origin.eq_of_same {s t : Origin} (htimestamp : s.timestamp.asInt.isSome = true)
    (hexpiration : s.expiration.asInt.isSome = true) (h : s.toJson.Same t.toJson) : s = t := by
  have hitem := fun k => h.lookup nodup_originKeys (py k)
  have hstr : ∀ {k : String} {a b : PyStr} {fs gs : Obj}, s.toJson = .obj fs → t.toJson = .obj gs →
      fs.lookup (py k) = some (.str a) → gs.lookup (py k) = some (.str b) → a = b := by
    intro k a b fs gs hfs hgs ha hb
    have hab := hitem k
    obtain rfl := Json.obj.inj hfs
    obtain rfl := Json.obj.inj hgs
    rw [ha, hb] at hab
    cases hab with
    | some hsame => cases hsame; rfl
  have hint : ∀ {k : String} {a b : Json} {fs gs : Obj}, s.toJson = .obj fs → t.toJson = .obj gs →
      fs.lookup (py k) = some a → gs.lookup (py k) = some b → a.asInt.isSome = true → a = b := by
    intro k a b fs gs hfs hgs ha hb hi
    have hab := hitem k
    obtain rfl := Json.obj.inj hfs
    obtain rfl := Json.obj.inj hgs
    rw [ha, hb] at hab
    cases hab with
    | some hsame => exact eq_of_same_of_asInt hi hsame
  obtain ⟨sender, recipient, fileId, sha, keySha, timestamp, expiration⟩ := s
  obtain ⟨sender', recipient', fileId', sha', keySha', timestamp', expiration'⟩ := t
  obtain rfl : sender = sender' := @hstr "sender" _ _ _ _ rfl rfl rfl rfl
  obtain rfl : recipient = recipient' := @hstr "recipient" _ _ _ _ rfl rfl rfl rfl
  obtain rfl : fileId = fileId' := @hstr "file_id" _ _ _ _ rfl rfl rfl rfl
  obtain rfl : sha = sha' := @hstr "ciphertext_sha256" _ _ _ _ rfl rfl rfl rfl
  obtain rfl : keySha = keySha' := @hstr "wrapped_key_sha256" _ _ _ _ rfl rfl rfl rfl
  obtain rfl : timestamp = timestamp' := @hint "timestamp" _ _ _ _ rfl rfl rfl rfl htimestamp
  obtain rfl : expiration = expiration' := @hint "expiration" _ _ _ _ rfl rfl rfl rfl hexpiration
  rfl

theorem built_stripSignature {text : PyStr → Prop} {cert : Obj} (h : (Json.obj cert).Built text) :
    (Json.obj (stripSignature cert)).Built text := by
  cases h with
  | obj hkeys htext hvals =>
    exact .obj (hkeys.sublist (List.filter_sublist.map _))
      (fun x hx => htext x (List.mem_of_mem_filter hx))
      fun x hx => hvals x (List.mem_of_mem_filter hx)

/-- **Canonical JSON is a faithful encoding.**  Two values have the same signed bytes exactly
if they are the same value.  So reordering items never changes the bytes, and origin structs,
certificate bodies, or any other objects that differ in a field never have the same bytes. -/
theorem canonicalJson_faithful (P : Primitives) :
    (∀ a b : Json, a.Built Encodable → b.Built Encodable →
      (canonicalJson P a = canonicalJson P b ↔ a.Same b)) ∧
    (∀ fields fields' : Obj, (Json.obj fields).Built Encodable → fields.Perm fields' →
      canonicalJson P (.obj fields) = canonicalJson P (.obj fields')) ∧
    (∀ s t : Origin, s.Proper → t.Proper → originCanonical P s = originCanonical P t → s = t) ∧
    ∀ (cert cert' : Obj) (key : PyStr), (Json.obj cert).Built Encodable →
      (Json.obj cert').Built Encodable →
      ¬ Option.Rel Json.Same ((stripSignature cert).lookup key)
        ((stripSignature cert').lookup key) →
      canonicalJson P (.obj (stripSignature cert)) ≠
        canonicalJson P (.obj (stripSignature cert')) := by
  have hsame : ∀ a b : Json, a.Built Encodable → b.Built Encodable →
      canonicalJson P a = canonicalJson P b → a.Same b := by
    intro a b ha hb h
    obtain ⟨data, hdata⟩ := @exists_canonicalJson P a ha
    exact same_of_canonicalJson ha hb hdata (h ▸ hdata)
  have heq : ∀ a b : Json, a.Built Encodable → a.Same b →
      canonicalJson P a = canonicalJson P b := by
    intro a b ha h
    rw [canonicalJson, canonicalJson, dumps_eq_of_same rfl ha h]
  refine ⟨fun a b ha hb => ⟨hsame a b ha hb, heq a b ha⟩, ?_, ?_, ?_⟩
  · intro fields fields' hf hperm
    exact heq _ _ hf (Json.same_of_perm hperm)
  · intro s t hs ht h
    exact Origin.eq_of_same hs.timestamp hs.expiration (hsame _ _ hs.built ht.built h)
  · intro cert cert' key hc hc' hne h
    have hbuilt := built_stripSignature hc
    refine hne ((hsame _ _ hbuilt (built_stripSignature hc') h).lookup ?_ key)
    cases hbuilt with
    | obj hkeys _ _ => exact hkeys

/-- What `alice` signs for a file that she sends. -/
def originFor (recipient : PyStr) : Origin where
  sender := py "alice"
  recipient := recipient
  fileId := py "f"
  ciphertextSha256 := py "00"
  wrappedKeySha256 := py "01"
  timestamp := .int 5
  expiration := .int 9

theorem originFor_proper {recipient : PyStr} (h : Encodable recipient) :
    (originFor recipient).Proper where
  sender := show Encodable (py "alice") from encodable_of_all (by decide)
  recipient := h
  fileId := show Encodable (py "f") from encodable_of_all (by decide)
  ciphertextSha256 := show Encodable (py "00") from encodable_of_all (by decide)
  wrappedKeySha256 := show Encodable (py "01") from encodable_of_all (by decide)
  timestamp := rfl
  expiration := rfl

/-- What she signs for `bob` is not what she signs for `carol`. -/
theorem originCanonical_originFor_ne :
    originCanonical (.transparent []) (originFor (py "bob")) ≠
      originCanonical (.transparent []) (originFor (py "carol")) := by
  obtain ⟨-, -, horigin, -⟩ := canonicalJson_faithful (.transparent [])
  intro h
  have hsame := horigin _ _ (originFor_proper (encodable_of_all (by decide)))
    (originFor_proper (encodable_of_all (by decide))) h
  exact absurd (congrArg Origin.recipient hsame) (by decide)

end ZeroTrust
