import ZeroTrust.Common.Primitives
import Mathlib.Data.List.Sort

/-!
# JSON text

`json.dumps` with the options the program uses, and `canonical_json`, the bytes that
are signed.  One encoder serves all three places the program serialises: the signed
content (sorted keys, compact, raw UTF-8), the wire (compact, ASCII) and the stored
sender certificate (sorted keys, default separators, ASCII).

The interpreter's own limits are left out: `dumps` does not raise `RecursionError` on a value that
is nested too deeply, nor `ValueError` on an integer with too many digits.
-/

namespace ZeroTrust

open Python

/-- The options of `json.dumps` that the program sets. -/
structure DumpOptions where
  ensureAscii : Bool
  sortKeys : Bool
  itemSep : PyStr
  keySep : PyStr

/-- `sort_keys=True, separators=(",", ":"), ensure_ascii=False`. -/
def canonicalOptions : DumpOptions := ⟨false, true, py ",", py ":"⟩

/-- `separators=(",", ":")`. -/
def wireOptions : DumpOptions := ⟨true, false, py ",", py ":"⟩

/-- `sort_keys=True`. -/
def storedOptions : DumpOptions := ⟨true, true, py ", ", py ": "⟩

/-- Four hexadecimal digits. -/
def hex4 (n : ℕ) : PyStr := hexFixed 4 n

/-- One character inside a JSON string. -/
def escapeChar (ascii : Bool) (c : PyChar) : PyStr :=
  if c = chr 34 then [chr 92, chr 34]
  else if c = chr 92 then [chr 92, chr 92]
  else if c = chr 10 then py "\\n"
  else if c = chr 13 then py "\\r"
  else if c = chr 9 then py "\\t"
  else if c = chr 12 then py "\\f"
  else if c = chr 8 then py "\\b"
  else if c.val < 32 then py "\\u" ++ hex4 c.val
  else if ascii && 126 < c.val then
    if c.val < 0x10000 then py "\\u" ++ hex4 c.val
    else py "\\u" ++ hex4 (0xD800 + (c.val - 0x10000) / 0x400) ++
      py "\\u" ++ hex4 (0xDC00 + (c.val - 0x10000) % 0x400)
  else [c]

/-- A JSON string. -/
def dumpsStr (ascii : Bool) (s : PyStr) : PyStr :=
  chr 34 :: (s.flatMap (escapeChar ascii) ++ [chr 34])

/-- The order of `str`: lexicographic by code point. -/
def strLe : PyStr → PyStr → Bool
  | [], _ => true
  | _ :: _, [] => false
  | a :: as, b :: bs => a < b || (a = b && strLe as bs)

/-- `sep.join(parts)`. -/
def join (sep : PyStr) : List PyStr → PyStr
  | [] => []
  | [x] => x
  | x :: y :: xs => x ++ sep ++ join sep (y :: xs)

theorem join_eq_intercalate (sep : PyStr) (xs : List PyStr) : join sep xs = sep.intercalate xs := by
  fun_induction join sep xs with
  | case1 => rfl
  | case2 x => rw [List.intercalate_singleton]
  | case3 x y xs ih => rw [ih, List.intercalate_cons_cons]

variable (P : Primitives) (o : DumpOptions)

/-- The order in which an object's items are written. -/
def orderItems (items : List (PyStr × PyStr)) : List (PyStr × PyStr) :=
  if o.sortKeys then items.insertionSort (fun a b => strLe a.1 b.1 = true) else items

/-- An object's items, each already rendered. -/
def dumpsObject (items : List (PyStr × PyStr)) : PyStr :=
  chr 123 :: (join o.itemSep ((orderItems o items).map fun x =>
    dumpsStr o.ensureAscii x.1 ++ o.keySep ++ x.2) ++ [chr 125])

mutual

/-- `json.dumps(value)`. -/
def dumps : Json → PyStr
  | .null => py "null"
  | .bool b => if b then py "true" else py "false"
  | .int i => intRepr i
  | .float x => P.floatRepr x
  | .str s => dumpsStr o.ensureAscii s
  | .arr xs => chr 91 :: (join o.itemSep (dumpsList xs) ++ [chr 93])
  | .obj fields => dumpsObject o (dumpsFields fields)

/-- The rendered elements of an array. -/
def dumpsList : List Json → List PyStr
  | [] => []
  | x :: xs => dumps x :: dumpsList xs

/-- The rendered items of an object. -/
def dumpsFields : List (PyStr × Json) → List (PyStr × PyStr)
  | [] => []
  | (k, v) :: xs => (k, dumps v) :: dumpsFields xs

end

/-- `canonical_json(obj)`. -/
def canonicalJson (v : Json) : Except PyExn Bytes :=
  encodeText (dumps P canonicalOptions v)

theorem canonicalJson_eq_ok {v : Json} {b : Bytes} :
    canonicalJson P v = .ok b ↔ utf8Encode (dumps P canonicalOptions v) = some b :=
  encodeText_eq_ok

theorem dumpsFields_eq_map (fields : List (PyStr × Json)) :
    dumpsFields P o fields = fields.map fun x => (x.1, dumps P o x.2) := by
  induction fields with
  | nil => simp [dumpsFields]
  | cons x xs ih =>
    obtain ⟨k, v⟩ := x
    rw [dumpsFields, ih, List.map_cons]

theorem dumpsList_eq_map (xs : List Json) :
    dumpsList P o xs = xs.map (dumps P o) := by
  induction xs with
  | nil => simp [dumpsList]
  | cons x xs ih => rw [dumpsList, ih, List.map_cons]

end ZeroTrust
