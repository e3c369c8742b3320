import Mathlib.Algebra.Order.Ring.Int
import Mathlib.Data.List.Basic
import Mathlib.Tactic.Common

/-!
# Python text and bytes

A Python `str` is a sequence of code points, lone surrogates included, so it is not
a Lean `String`; `bytes` is a sequence of octets.  This file has the two types, the
encodings between them, and the few string functions of the standard library that
the program applies to peer-controlled text.

* `utf8Encode`: `str.encode("utf-8")`, which raises on a lone surrogate;
  `asciiEncode`: `str.encode("ascii")`.
* `hexdigest`: lowercase hexadecimal, two digits for each byte.
* `b64encode`, `b64decode`: `base64.b64encode(...)` and
  `base64.b64decode(..., validate=True)`.
* `uuidUUID`, `uuidStr`: `uuid.UUID(text)` and `str(uuid)`.

An interpreter raises `ValueError` where an integer has too many decimal digits (4300, unless it is
told otherwise); that limit is left out, and `intRepr` writes every integer.
-/

namespace ZeroTrust
namespace Python

/-- A code point, lone surrogates included. -/
abbrev PyChar := Fin 0x110000

/-- A Python `str`. -/
abbrev PyStr := List PyChar

/-- A Python `bytes`. -/
abbrev Bytes := List UInt8

/-- The code point of a number below the end of the code space. -/
def chr (n : ℕ) : PyChar := Fin.ofNat 0x110000 n

/-- A string literal of the source; they are all ASCII. -/
def py (s : String) : PyStr := s.toUTF8.data.toList.map fun b => chr b.toNat

/-! ## Encodings of text -/

/-- A code point that no Unicode encoding accepts. -/
def isSurrogate (c : PyChar) : Bool := 0xD800 ≤ c.val && c.val ≤ 0xDFFF

/-- The UTF-8 octets of a code point. -/
def utf8Char (c : PyChar) : Bytes :=
  if c.val < 0x80 then [UInt8.ofNat c.val]
  else if c.val < 0x800 then
    [UInt8.ofNat (0xC0 + c.val / 0x40), UInt8.ofNat (0x80 + c.val % 0x40)]
  else if c.val < 0x10000 then
    [UInt8.ofNat (0xE0 + c.val / 0x1000), UInt8.ofNat (0x80 + c.val / 0x40 % 0x40),
      UInt8.ofNat (0x80 + c.val % 0x40)]
  else
    [UInt8.ofNat (0xF0 + c.val / 0x40000), UInt8.ofNat (0x80 + c.val / 0x1000 % 0x40),
      UInt8.ofNat (0x80 + c.val / 0x40 % 0x40), UInt8.ofNat (0x80 + c.val % 0x40)]

/-- `s.encode("utf-8")`; `none` is the `UnicodeEncodeError` of a lone surrogate. -/
def utf8Encode (s : PyStr) : Option Bytes :=
  if s.any isSurrogate then none else some (s.flatMap utf8Char)

/-- A continuation octet's six bits. -/
def utf8Tail (x : UInt8) : Option ℕ :=
  if 0x80 ≤ x.toNat ∧ x.toNat < 0xC0 then some (x.toNat - 0x80) else none

/-- `b.decode("utf-8")`; `none` is the `UnicodeDecodeError` of an overlong, truncated or
surrogate sequence. -/
def utf8Decode : Bytes → Option PyStr
  | [] => some []
  | a :: rest =>
      if a.toNat < 0x80 then (utf8Decode rest).map (chr a.toNat :: ·)
      else match rest with
        | [] => none
        | b :: rest =>
          if 0xC2 ≤ a.toNat ∧ a.toNat < 0xE0 then do
            let y ← utf8Tail b
            let tail ← utf8Decode rest
            some (chr ((a.toNat - 0xC0) * 0x40 + y) :: tail)
          else match rest with
            | [] => none
            | c :: rest =>
              if 0xE0 ≤ a.toNat ∧ a.toNat < 0xF0 then do
                let y ← utf8Tail b
                let z ← utf8Tail c
                let n := ((a.toNat - 0xE0) * 0x40 + y) * 0x40 + z
                if n < 0x800 ∨ (0xD800 ≤ n ∧ n < 0xE000) then none
                else do
                  let tail ← utf8Decode rest
                  some (chr n :: tail)
              else match rest with
                | [] => none
                | d :: rest =>
                  if 0xF0 ≤ a.toNat ∧ a.toNat < 0xF5 then do
                    let y ← utf8Tail b
                    let z ← utf8Tail c
                    let w ← utf8Tail d
                    let n := (((a.toNat - 0xF0) * 0x40 + y) * 0x40 + z) * 0x40 + w
                    if n < 0x10000 ∨ 0x110000 ≤ n then none
                    else do
                      let tail ← utf8Decode rest
                      some (chr n :: tail)
                  else none

theorem toNat_ofNat_of_lt {n : ℕ} (h : n < 256) : (UInt8.ofNat n).toNat = n :=
  Nat.mod_eq_of_lt h

theorem utf8Tail_ofNat {n : ℕ} (h : n < 0x40) : utf8Tail (UInt8.ofNat (0x80 + n)) = some n := by
  rw [utf8Tail, toNat_ofNat_of_lt (by omega), if_pos (by omega), Nat.add_sub_cancel_left]

theorem chr_val (c : PyChar) : chr c.val = c :=
  Fin.ext (Nat.mod_eq_of_lt c.isLt)

/-- The octets of a code point are read back.  The cases are the four lengths. -/
theorem utf8Decode_utf8Char_append {c : PyChar} (hc : isSurrogate c = false) (rest : Bytes) :
    utf8Decode (utf8Char c ++ rest) = (utf8Decode rest).map (c :: ·) := by
  have hlt := c.isLt
  have hsurr : ¬ (0xD800 ≤ c.val ∧ c.val < 0xE000) := by
    intro h
    rw [isSurrogate, decide_eq_true h.1, Bool.true_and] at hc
    exact of_decide_eq_false hc (by omega)
  unfold utf8Char
  split_ifs with h1 h2 h3
  · rw [List.singleton_append, utf8Decode.eq_def]
    dsimp only
    rw [toNat_ofNat_of_lt (by omega), if_pos h1, chr_val]
  · rw [List.cons_append, List.singleton_append, utf8Decode.eq_def]
    dsimp only
    rw [toNat_ofNat_of_lt (by omega), if_neg (by omega), if_pos (by omega), utf8Tail_ofNat (by omega)]
    have hn : (0xC0 + c.val / 0x40 - 0xC0) * 0x40 + c.val % 0x40 = c.val := by omega
    dsimp only [Option.bind_eq_bind, Option.bind_some]
    rw [hn, chr_val]
    cases hr : utf8Decode rest with
    | none => rfl
    | some s => rfl
  · rw [List.cons_append, List.cons_append, List.singleton_append, utf8Decode.eq_def]
    dsimp only
    rw [toNat_ofNat_of_lt (by omega), if_neg (by omega), if_neg (by omega), if_pos (by omega), utf8Tail_ofNat (by omega), utf8Tail_ofNat (by omega)]
    have hn : ((0xE0 + c.val / 0x1000 - 0xE0) * 0x40 + c.val / 0x40 % 0x40) * 0x40 +
        c.val % 0x40 = c.val := by omega
    dsimp only [Option.bind_eq_bind, Option.bind_some]
    rw [hn, if_neg (by omega), chr_val]
    cases hr : utf8Decode rest with
    | none => rfl
    | some s => rfl
  · rw [List.cons_append, List.cons_append, List.cons_append, List.singleton_append, utf8Decode.eq_def]
    dsimp only
    rw [toNat_ofNat_of_lt (by omega), if_neg (by omega), if_neg (by omega), if_neg (by omega), if_pos (by omega), utf8Tail_ofNat (by omega),
      utf8Tail_ofNat (by omega), utf8Tail_ofNat (by omega)]
    have hn : (((0xF0 + c.val / 0x40000 - 0xF0) * 0x40 + c.val / 0x1000 % 0x40) * 0x40 +
        c.val / 0x40 % 0x40) * 0x40 + c.val % 0x40 = c.val := by omega
    dsimp only [Option.bind_eq_bind, Option.bind_some]
    rw [hn, if_neg (by omega), chr_val]
    cases hr : utf8Decode rest with
    | none => rfl
    | some s => rfl

/-- **UTF-8 round trip.** -/
theorem utf8Decode_utf8Encode {s : PyStr} {b : Bytes} (h : utf8Encode s = some b) :
    utf8Decode b = some s := by
  unfold utf8Encode at h
  split_ifs at h with hs
  obtain rfl := Option.some.inj h
  induction s with
  | nil => simp [utf8Decode]
  | cons c s ih =>
    rw [List.any_cons, Bool.or_eq_true, not_or, Bool.not_eq_true] at hs
    rw [List.flatMap_cons, utf8Decode_utf8Char_append hs.1, ih hs.2 rfl, Option.map_some]

/-- ASCII is encoded octet by octet. -/
theorem utf8Encode_of_ascii {s : PyStr} (h : ∀ c ∈ s, c.val < 0x80) :
    utf8Encode s = some (s.map fun c => UInt8.ofNat c.val) := by
  have hnone : ¬ s.any isSurrogate = true := by
    rw [List.any_eq_true]
    rintro ⟨c, hc, hs⟩
    have := h c hc
    simp only [isSurrogate, Bool.and_eq_true, decide_eq_true_eq] at hs
    omega
  have hoctets : s.flatMap utf8Char = s.map fun c => UInt8.ofNat c.val := by
    rw [← List.flatMap_pure_eq_map]
    exact List.flatMap_congr fun c hc => if_pos (h c hc)
  rw [utf8Encode, if_neg hnone, hoctets]

/-- Texts with the same octets are the same. -/
theorem utf8Encode_inj {s t : PyStr} {b : Bytes} (hs : utf8Encode s = some b)
    (ht : utf8Encode t = some b) : s = t :=
  Option.some.inj ((utf8Decode_utf8Encode hs).symm.trans (utf8Decode_utf8Encode ht))

/-- `s.encode("ascii")`; `none` is the `UnicodeEncodeError`. -/
def asciiEncode (s : PyStr) : Option Bytes :=
  if s.all (fun c => c.val < 0x80) then some (s.map fun c => UInt8.ofNat c.val) else none

/-! ## Numbers in text -/

/-- The lowercase hexadecimal digits. -/
def hexAlphabet : PyStr := py "0123456789abcdef"

/-- One hexadecimal digit. -/
def hexDigit (n : ℕ) : PyChar := hexAlphabet.getD (n % 16) 0

/-- `digest.hexdigest()`: two digits for each byte. -/
def hexdigest (b : Bytes) : PyStr :=
  b.flatMap fun x => [hexDigit (x.toNat / 16), hexDigit x.toNat]

theorem hexDigit_inj {m n : ℕ} (h : hexDigit m = hexDigit n) : m % 16 = n % 16 := by
  have hdigits : ∀ a < 16, ∀ b < 16, hexAlphabet.getD a 0 = hexAlphabet.getD b 0 → a = b := by
    decide
  exact hdigits _ (Nat.mod_lt m (by omega)) _ (Nat.mod_lt n (by omega)) h

/-- A digest can be read off its digits. -/
theorem hexdigest_inj {a b : Bytes} (h : hexdigest a = hexdigest b) : a = b := by
  induction a generalizing b with
  | nil =>
    cases b with
    | nil => rfl
    | cons y b => cases h
  | cons x a ih =>
    cases b with
    | nil => cases h
    | cons y b =>
      obtain ⟨hhigh, h⟩ := List.cons.inj h
      obtain ⟨hlow, h⟩ := List.cons.inj h
      have hx := x.toNat_lt
      have hy := y.toNat_lt
      have := hexDigit_inj hhigh
      have := hexDigit_inj hlow
      have hxy : x = y := UInt8.toNat_inj.mp (by omega)
      rw [hxy, ih h]

/-- `str(i)` for an integer. -/
def intRepr (i : ℤ) : PyStr :=
  (if i < 0 then py "-" else []) ++ (Nat.toDigits 10 i.natAbs).map fun c => chr c.toNat

/-- A 64-bit integer has at most 19 digits, and perhaps a sign. -/
theorem length_intRepr_lt {i : ℤ} (h : -2 ^ 63 ≤ i ∧ i < 2 ^ 63) : (intRepr i).length < 36 := by
  have hd : (Nat.toDigits 10 i.natAbs).length ≤ 19 :=
    (Nat.length_toDigits_le_iff (by omega) (by omega)).mpr (by omega)
  have hs : (if i < 0 then py "-" else []).length ≤ 1 := by
    split
    · exact Nat.le_refl 1
    · exact Nat.zero_le 1
  rw [intRepr, List.length_append, List.length_map]
  omega

/-! ## Base64 -/

/-- The alphabet of standard Base64. -/
def b64Alphabet : PyStr :=
  py "ABCDEFGHIJKLMNOPQRSTUVWXYZabcdefghijklmnopqrstuvwxyz0123456789+/"

/-- The padding character. -/
def b64Pad : PyChar := chr 61

/-- The digit for a six-bit value. -/
def b64Char (n : ℕ) : PyChar := b64Alphabet.getD n b64Pad

/-- The six-bit value of a digit. -/
def b64Val (c : PyChar) : Option ℕ :=
  if c ∈ b64Alphabet then some (b64Alphabet.idxOf c) else none

/-- `base64.b64encode(data).decode("ascii")`. -/
def b64encode : Bytes → PyStr
  | [] => []
  | [a] => [b64Char (a.toNat / 4), b64Char (a.toNat % 4 * 16), b64Pad, b64Pad]
  | [a, b] =>
      [b64Char (a.toNat / 4), b64Char (a.toNat % 4 * 16 + b.toNat / 16),
        b64Char (b.toNat % 16 * 4), b64Pad]
  | a :: b :: c :: rest =>
      b64Char (a.toNat / 4) :: b64Char (a.toNat % 4 * 16 + b.toNat / 16) ::
        b64Char (b.toNat % 16 * 4 + c.toNat / 64) :: b64Char (c.toNat % 64) :: b64encode rest

/-- `base64.b64decode(text, validate=True)`; `none` is the exception it raises on text
that is not ASCII, not over the alphabet, or not padded to whole groups.  Surplus padding after
whole groups is refused, as strict decoding is documented; CPython 3.10 to 3.12 let some of it
through. -/
def b64decode : PyStr → Option Bytes
  | [] => some []
  | [_] => none
  | [_, _] => none
  | [_, _, _] => none
  | a :: b :: c :: d :: rest => do
      let x ← b64Val a
      let y ← b64Val b
      if c = b64Pad then
        if d = b64Pad ∧ rest = [] then some [UInt8.ofNat (x * 4 + y / 16)] else none
      else
        let z ← b64Val c
        if d = b64Pad then
          if rest = [] then
            some [UInt8.ofNat (x * 4 + y / 16), UInt8.ofNat (y % 16 * 16 + z / 4)]
          else none
        else
          let w ← b64Val d
          let tail ← b64decode rest
          some (UInt8.ofNat (x * 4 + y / 16) :: UInt8.ofNat (y % 16 * 16 + z / 4) ::
            UInt8.ofNat (z % 4 * 64 + w) :: tail)

theorem b64Val_b64Char : ∀ n < 64, b64Val (b64Char n) = some n := by decide +kernel

theorem b64Char_ne_b64Pad : ∀ n < 64, b64Char n ≠ b64Pad := by decide +kernel

/-- **Base64 round trip.**  The cases are those of the encoder: a last group of no,
one or two bytes, and a whole group before the rest. -/
theorem b64decode_b64encode (bs : Bytes) : b64decode (b64encode bs) = some bs := by
  fun_induction b64encode bs with
  | case1 => rfl
  | case2 a =>
    have ha := a.toNat_lt
    have h : a.toNat / 4 * 4 + a.toNat % 4 * 16 / 16 = a.toNat := by omega
    simp only [b64decode, b64Val_b64Char (a.toNat / 4) (by omega),
      b64Val_b64Char (a.toNat % 4 * 16) (by omega), Option.bind_eq_bind, Option.bind_some,
      and_self, if_true, h, UInt8.ofNat_toNat]
  | case3 a b =>
    have ha := a.toNat_lt
    have hb := b.toNat_lt
    have h1 : a.toNat / 4 * 4 + (a.toNat % 4 * 16 + b.toNat / 16) / 16 = a.toNat := by omega
    have h2 : (a.toNat % 4 * 16 + b.toNat / 16) % 16 * 16 + b.toNat % 16 * 4 / 4 =
        b.toNat := by omega
    simp only [b64decode, b64Val_b64Char (a.toNat / 4) (by omega),
      b64Val_b64Char (a.toNat % 4 * 16 + b.toNat / 16) (by omega),
      b64Val_b64Char (b.toNat % 16 * 4) (by omega), Option.bind_eq_bind, Option.bind_some,
      if_neg (b64Char_ne_b64Pad (b.toNat % 16 * 4) (by omega)), if_true, h1, h2,
      UInt8.ofNat_toNat]
  | case4 a b c rest ih =>
    have ha := a.toNat_lt
    have hb := b.toNat_lt
    have hc := c.toNat_lt
    have h1 : a.toNat / 4 * 4 + (a.toNat % 4 * 16 + b.toNat / 16) / 16 = a.toNat := by omega
    have h2 : (a.toNat % 4 * 16 + b.toNat / 16) % 16 * 16 +
        (b.toNat % 16 * 4 + c.toNat / 64) / 4 = b.toNat := by omega
    have h3 : (b.toNat % 16 * 4 + c.toNat / 64) % 4 * 64 + c.toNat % 64 = c.toNat := by omega
    simp only [b64decode, b64Val_b64Char (a.toNat / 4) (by omega),
      b64Val_b64Char (a.toNat % 4 * 16 + b.toNat / 16) (by omega),
      b64Val_b64Char (b.toNat % 16 * 4 + c.toNat / 64) (by omega),
      b64Val_b64Char (c.toNat % 64) (by omega), Option.bind_eq_bind, Option.bind_some,
      if_neg (b64Char_ne_b64Pad (b.toNat % 16 * 4 + c.toNat / 64) (by omega)),
      if_neg (b64Char_ne_b64Pad (c.toNat % 64) (by omega)), ih, h1, h2, h3,
      UInt8.ofNat_toNat]

/-! ## UUIDs -/

/-- `text.replace(pat, "")`: occurrences are removed from left to right; `skip` counts
what is left of an occurrence being removed. -/
def removeAll (pat : PyStr) : ℕ → PyStr → PyStr
  | _, [] => []
  | skip + 1, _ :: cs => removeAll pat skip cs
  | 0, c :: cs =>
      if pat.isPrefixOf (c :: cs) then removeAll pat (pat.length - 1) cs
      else c :: removeAll pat 0 cs

/-- `text.strip(chars)`. -/
def strip (p : PyChar → Bool) (s : PyStr) : PyStr :=
  ((s.dropWhile p).reverse.dropWhile p).reverse

/-- The value of a hexadecimal digit of either case. -/
def hexVal (c : PyChar) : Option ℕ :=
  if c ∈ hexAlphabet then some (hexAlphabet.idxOf c)
  else if c ∈ py "ABCDEF" then some (10 + (py "ABCDEF").idxOf c)
  else none

/-- The digits of `int(text, 16)` after its prefix: single underscores may stand
between two digits. -/
def hexDigits : ℕ → PyStr → Option ℕ
  | acc, [] => some acc
  | acc, [c] => (hexVal c).map (acc * 16 + ·)
  | acc, c :: d :: cs =>
      match hexVal c with
      | none => none
      | some v =>
          if d = chr 95 then
            match cs with
            | [] => none
            | e :: cs => (hexVal e).bind fun w => hexDigits ((acc * 16 + v) * 16 + w) cs
          else hexDigits (acc * 16 + v) (d :: cs)

/-- `int(text, 16)` on ASCII text: blanks around it, a sign, the prefix `0x`, digits.
Python also reads the decimal digits of other scripts; no text with such a digit is
the canonical form of a UUID, so for `uuidStr (uuidUUID s) = s` they are as good as a
`ValueError`. -/
def intBase16 (s : PyStr) : Option ℤ :=
  let s := strip (fun c => c = chr 32 ∨ (9 ≤ c.val ∧ c.val ≤ 13)) s
  let (neg, s) := match s with
    | c :: cs => if c = chr 45 then (true, cs) else if c = chr 43 then (false, cs) else (false, s)
    | [] => (false, [])
  let s := match s with
    | a :: b :: cs =>
        if a = chr 48 ∧ (b = chr 120 ∨ b = chr 88) then
          match cs with
          | c :: cs' => if c = chr 95 then cs' else cs
          | [] => []
        else s
    | _ => s
  if s = [] then none
  else (hexDigits 0 s).map fun n => if neg then -n else n

/-- `uuid.UUID(text)`; `none` is the `ValueError`. -/
def uuidUUID (s : PyStr) : Option ℕ :=
  let hex := removeAll (py "uuid:") 0 (removeAll (py "urn:") 0 s)
  let hex := removeAll (py "-") 0 (strip (fun c => c ∈ py "\x7b\x7d") hex)
  if hex.length ≠ 32 then none
  else (intBase16 hex).bind fun i => if 0 ≤ i ∧ i < 2 ^ 128 then some i.toNat else none

/-- The last `k` hexadecimal digits of a number, most significant first. -/
def hexFixed : ℕ → ℕ → PyStr
  | 0, _ => []
  | k + 1, n => hexFixed k (n / 16) ++ [hexDigit n]

/-- `str(uuid)`: groups of 8, 4, 4, 4 and 12 lowercase hexadecimal digits. -/
def uuidStr (n : ℕ) : PyStr :=
  let hex := hexFixed 32 n
  hex.take 8 ++ py "-" ++ (hex.drop 8).take 4 ++ py "-" ++ (hex.drop 12).take 4 ++ py "-" ++
    (hex.drop 16).take 4 ++ py "-" ++ hex.drop 20

theorem length_hexFixed (k n : ℕ) : (hexFixed k n).length = k := by
  induction k generalizing n with
  | zero => rfl
  | succ k ih => rw [hexFixed, List.length_append, ih, List.length_singleton]

theorem length_uuidStr (n : ℕ) : (uuidStr n).length = 36 := by
  have hd : (py "-").length = 1 := rfl
  simp only [uuidStr, List.length_append, List.length_take, List.length_drop, length_hexFixed, hd]
  rfl

/-- `str(uuid.UUID(text)) == text`, where a `ValueError` counts as a failure. -/
def isCanonicalUuid (s : PyStr) : Bool :=
  match uuidUUID s with
  | some n => uuidStr n = s
  | none => false

theorem length_of_isCanonicalUuid {s : PyStr} (h : isCanonicalUuid s = true) :
    s.length = 36 := by
  unfold isCanonicalUuid at h
  split at h
  · next n _ => rw [← of_decide_eq_true h, length_uuidStr]
  · exact absurd h Bool.false_ne_true

example : isCanonicalUuid (py "0b0e7c4e-2f6a-4b59-9c33-5a1d1f0e9a77") = true := by decide +kernel

end Python
end ZeroTrust
