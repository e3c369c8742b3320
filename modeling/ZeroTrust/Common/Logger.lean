import ZeroTrust.Common.Transparent
import ZeroTrust.Data.Words

/-!
# The audit log

The message of an audit line, from `common/logger.py`: the event and the fields, joined with
blanks.  What a peer has sent stands in the values, so the values are rendered without what
the grammar of the line uses: blanks, line ends and the sign `=`.  Not every blank of Unicode
is rendered away.

* `safeValue`, `auditMessage`: the functions of the source.
* `LineParses`: the message is one line and is cut into the event and the fields.
* `audit_parses_iff`: when it is.
-/

namespace ZeroTrust

open Python Data

/-! ## Text -/

/-- `c.isspace()`, which is what `str.split()` cuts at. -/
def isSpace (c : PyChar) : Bool :=
  (9 ≤ c.val ∧ c.val ≤ 13) ∨ (28 ≤ c.val ∧ c.val ≤ 32) ∨ c.val = 0x85 ∨ c.val = 0xA0 ∨
    c.val = 0x1680 ∨ (0x2000 ≤ c.val ∧ c.val ≤ 0x200A) ∨ c.val = 0x2028 ∨ c.val = 0x2029 ∨
    c.val = 0x202F ∨ c.val = 0x205F ∨ c.val = 0x3000

/-- What `str.splitlines()` cuts at. -/
def isLineSeparator (c : PyChar) : Bool :=
  (10 ≤ c.val ∧ c.val ≤ 13) ∨ (28 ≤ c.val ∧ c.val ≤ 30) ∨ c.val = 0x85 ∨ c.val = 0x2028 ∨
    c.val = 0x2029

theorem isSpace_of_isLineSeparator {c : PyChar} (h : isLineSeparator c = true) :
    isSpace c = true := by
  simp only [isLineSeparator, decide_eq_true_eq] at h
  simp only [isSpace, decide_eq_true_eq]
  omega

/-- `text.split()`. -/
def split (text : PyStr) : List PyStr := words isSpace text

/-- `text.replace(c, w)` for a single character. -/
def replaceChar (c : PyChar) (w text : PyStr) : PyStr := text.flatMap fun d => if d = c then w else [d]

/-- `c.lower()`, as far as membership in a set of ASCII texts goes: no other character becomes
ASCII text than the capitals and the Kelvin sign. -/
def lowerChar (c : PyChar) : PyChar :=
  if 65 ≤ c.val ∧ c.val ≤ 90 then chr (c.val + 32)
  else if c.val = 0x212A then chr 107
  else c

/-! ## Rendering -/

/-- `_FORBIDDEN_FIELDS`. -/
def FORBIDDEN_FIELDS : List PyStr :=
  [py "private_key", py "priv_pem", py "private_pem", py "priv_key", py "plaintext",
    py "file_plaintext", py "plain", py "pre_master", py "premaster", py "pre_master_secret",
    py "c2s_key", py "s2c_key", py "session_key", py "aes_key", py "file_key",
    py "transcript_hash", py "transcript", py "password", py "passphrase", py "signature",
    py "ciphertext", py "wrapped_key", py "public_key_pem", py "cert_pem", py "pem"]

/-- `key.lower() in _FORBIDDEN_FIELDS`. -/
def isForbidden (key : PyStr) : Bool := FORBIDDEN_FIELDS.contains (key.map lowerChar)

/-- `_MAX_FIELD_LEN`. -/
def MAX_FIELD_LEN : ℕ := 256

/-- The value of a field: octets, or a value that `str` renders. -/
inductive FieldValue where
  | bytes (data : Bytes)
  | value (v : Json)

variable (P : Primitives)

/-- `fingerprint`. -/
def fingerprint (data : Bytes) : PyStr := (sha256Hex P data).take 16

/-- The truncation of a long text. -/
def truncate (text : PyStr) : PyStr :=
  if MAX_FIELD_LEN < text.length then text.take MAX_FIELD_LEN ++ py "...[truncated]" else text

/-- The replacements, in their order. -/
def escapeValue (text : PyStr) : PyStr :=
  replaceChar (chr 61) (py "%3D") <| replaceChar (chr 32) (py "_") <|
    replaceChar (chr 13) (py "\\r") <| replaceChar (chr 10) (py "\\n") text

/-- `_safe_value`. -/
def safeValue : FieldValue → PyStr
  | .bytes data => py "fp=" ++ fingerprint P data
  | .value .null => py "-"
  | .value v => escapeValue (truncate (strOf P v))

/-- A field as it is shown. -/
def shownValue (field : PyStr × FieldValue) : PyStr :=
  if isForbidden field.1 then py "<redacted>" else safeValue P field.2

/-- A field and its value. -/
def fieldPart (field : PyStr × FieldValue) : PyStr := field.1 ++ py "=" ++ shownValue P field

/-- The parts of a message. -/
def auditParts (event : PyStr) (fields : List (PyStr × FieldValue)) : List PyStr :=
  (py "event=" ++ event) :: fields.map (fieldPart P)

/-- The message that `audit` logs. -/
def auditMessage (event : PyStr) (fields : List (PyStr × FieldValue)) : PyStr :=
  join (py " ") (auditParts P event fields)

/-- A token cut at its first `=`. -/
def cutToken (token : PyStr) : PyStr × PyStr :=
  (token.takeWhile (· ≠ chr 61), (token.dropWhile (· ≠ chr 61)).drop 1)

/-! ## Parsing -/

/-- The message is one line, its tokens are the parts it was made of, and each token is cut into
the name of a field and its value. -/
structure LineParses (event : PyStr) (fields : List (PyStr × FieldValue)) : Prop where
  oneLine : ∀ c ∈ auditMessage P event fields, isLineSeparator c = false
  tokens : split (auditMessage P event fields) = auditParts P event fields
  count : (split (auditMessage P event fields)).length = 1 + fields.length
  cut : (split (auditMessage P event fields)).map cutToken =
    (py "event", event) :: fields.map fun field => (field.1, shownValue P field)

/-- No blanks but those that are replaced, as far as the text is shown. -/
def Tame (text : PyStr) : Prop :=
  ∀ c ∈ text.take MAX_FIELD_LEN, isSpace c = true → c = chr 10 ∨ c = chr 13 ∨ c = chr 32

/-- A value that is rendered without blanks. -/
def FieldValue.Tame : FieldValue → Prop
  | .bytes _ => True
  | .value .null => True
  | .value v => ZeroTrust.Tame (strOf P v)

theorem mem_replaceChar {c d : PyChar} {w text : PyStr} :
    d ∈ replaceChar c w text ↔ d ∈ text ∧ d ≠ c ∨ c ∈ text ∧ d ∈ w := by
  rw [replaceChar, List.mem_flatMap]
  constructor
  · rintro ⟨e, he, hd⟩
    split_ifs at hd with hec
    · exact .inr ⟨hec ▸ he, hd⟩
    · obtain rfl := List.mem_singleton.mp hd
      exact .inl ⟨he, hec⟩
  · rintro (⟨hd, hne⟩ | ⟨hc, hd⟩)
    · exact ⟨d, hd, by rw [if_neg hne]; exact List.mem_singleton_self d⟩
    · exact ⟨c, hc, by rwa [if_pos rfl]⟩

theorem not_blank_of_all {s : PyStr} (h : (s.all fun c => !isSpace c) = true) :
    ∀ c ∈ s, isSpace c = false :=
  fun c hc => by simpa using List.all_eq_true.mp h c hc

/-- **The replacements** take away three blanks and bring in none. -/
theorem escapeValue_blank {c : PyChar} {text : PyStr} (hc : isSpace c = true) :
    c ∈ escapeValue text ↔ c ∈ text ∧ c ≠ chr 10 ∧ c ≠ chr 13 ∧ c ≠ chr 32 := by
  have hliteral : ∀ w ∈ ["%3D", "_", "\\r", "\\n"], ((py w).all fun d => !isSpace d) = true := by
    decide
  have hout : ∀ w ∈ ["%3D", "_", "\\r", "\\n"], c ∉ py w := by
    intro w hw hmem
    exact Bool.false_ne_true ((not_blank_of_all (hliteral w hw) c hmem).symm.trans hc)
  have hsign : c ≠ chr 61 := by
    rintro rfl
    exact absurd hc (by decide)
  simp only [List.forall_mem_cons] at hout
  obtain ⟨h1, h2, h3, h4, -⟩ := hout
  simp only [escapeValue, mem_replaceChar, h1, h2, h3, h4, and_false, or_false, and_assoc]
  tauto

/-- The marker of a truncation brings in no blank. -/
theorem truncate_blank {c : PyChar} {text : PyStr} (hc : isSpace c = true) :
    c ∈ truncate text ↔ c ∈ text.take MAX_FIELD_LEN := by
  have hmarker : ∀ d ∈ py "...[truncated]", isSpace d = false := not_blank_of_all (by decide)
  unfold truncate
  split_ifs with hlen
  · rw [List.mem_append]
    refine or_iff_left fun hmem => ?_
    exact Bool.false_ne_true ((hmarker c hmem).symm.trans hc)
  · rw [List.take_of_length_le (by omega)]

theorem not_blank_fingerprint {P : Primitives} {data : Bytes} :
    ∀ c ∈ fingerprint P data, isSpace c = false := by
  have hdigits : ∀ n < 16, isSpace (hexAlphabet.getD n 0) = false := by decide
  have hdigit : ∀ n, isSpace (hexDigit n) = false := fun n => hdigits _ (Nat.mod_lt n (by omega))
  intro c hc
  obtain ⟨x, -, hc⟩ := List.mem_flatMap.mp (List.mem_of_mem_take hc)
  rcases List.mem_cons.mp hc with rfl | hc
  · exact hdigit _
  · obtain rfl := List.mem_singleton.mp hc
    exact hdigit _

section

variable {P} {event : PyStr} {fields fields' : List (PyStr × FieldValue)}

/-- **The tame values are those that are rendered without blanks.** -/
theorem safeValue_iff {value : FieldValue} :
    (∀ c ∈ safeValue P value, isSpace c = false) ↔ value.Tame P := by
  have htext : ∀ text : PyStr, (∀ c ∈ escapeValue (truncate text), isSpace c = false) ↔ Tame text := by
    intro text
    constructor
    · intro h c hc hspace
      by_contra hnot
      rw [not_or, not_or] at hnot
      have hmem := (escapeValue_blank hspace).mpr ⟨(truncate_blank hspace).mpr hc, hnot⟩
      exact Bool.false_ne_true ((h c hmem).symm.trans hspace)
    · intro h c hc
      by_contra hnot
      rw [Bool.not_eq_false] at hnot
      obtain ⟨hmem, h1, h2, h3⟩ := (escapeValue_blank hnot).mp hc
      rcases h c ((truncate_blank hnot).mp hmem) hnot with h | h | h
      · exact h1 h
      · exact h2 h
      · exact h3 h
  cases value with
  | bytes data =>
    refine iff_of_true (fun c hc => ?_) trivial
    rcases List.mem_append.mp hc with hc | hc
    · exact not_blank_of_all (s := py "fp=") (by decide) c hc
    · exact not_blank_fingerprint c hc
  | value v =>
    cases v with
    | null => exact iff_of_true (not_blank_of_all (s := py "-") (by decide)) trivial
    | _ => exact htext _

/-- A name without blanks and without the sign `=`. -/
def Plain (name : PyStr) : Prop := ∀ c ∈ name, isSpace c = false ∧ c ≠ chr 61

theorem plain_of_all {name : PyStr}
    (h : (name.all fun c => !isSpace c && decide (c ≠ chr 61)) = true) : Plain name :=
  fun c hc => by simpa using List.all_eq_true.mp h c hc

theorem not_blank_append {s s' : PyStr} :
    (∀ c ∈ s ++ s', isSpace c = false) ↔
      (∀ c ∈ s, isSpace c = false) ∧ ∀ c ∈ s', isSpace c = false :=
  List.forall_mem_append

/-- A part is cut where its name ends. -/
theorem cutToken_append {name value : PyStr} (hname : Plain name) :
    cutToken (name ++ py "=" ++ value) = (name, value) := by
  have hsign : py "=" = [chr 61] := rfl
  have hpos : ∀ c ∈ name, decide (c ≠ chr 61) = true := fun c hc => decide_eq_true (hname c hc).2
  rw [cutToken, hsign, List.append_assoc, List.singleton_append, List.takeWhile_append_of_pos hpos,
    List.dropWhile_append_of_pos hpos]
  simp

/-- A field is rendered without blanks if its value is tame or is not shown. -/
theorem fieldPart_iff {field : PyStr × FieldValue} (hname : Plain field.1) :
    (∀ c ∈ fieldPart P field, isSpace c = false) ↔
      (isForbidden field.1 = false → field.2.Tame P) := by
  have hnamed : ∀ c ∈ field.1 ++ py "=", isSpace c = false :=
    not_blank_append.mpr ⟨fun c hc => (hname c hc).1, not_blank_of_all (by decide)⟩
  rw [fieldPart, not_blank_append, and_iff_right hnamed, shownValue]
  cases isForbidden field.1 with
  | true =>
    rw [if_pos rfl]
    exact iff_of_true (not_blank_of_all (by decide)) (by simp)
  | false =>
    rw [if_neg Bool.false_ne_true, safeValue_iff]
    simp

theorem auditParts_iff (hevent : Plain event) (hnames : ∀ field ∈ fields, Plain field.1) :
    (∀ part ∈ auditParts P event fields, ∀ c ∈ part, isSpace c = false) ↔
      ∀ field ∈ fields, isForbidden field.1 = false → field.2.Tame P := by
  have hfirst : ∀ c ∈ py "event=" ++ event, isSpace c = false :=
    not_blank_append.mpr ⟨not_blank_of_all (by decide), fun c hc => (hevent c hc).1⟩
  rw [auditParts, List.forall_mem_cons, and_iff_right hfirst, List.forall_mem_map]
  exact forall₂_congr fun field hfield => fieldPart_iff (hnames field hfield)

/-- The tokens of a message are its parts exactly if the parts hold no blanks. -/
theorem split_auditMessage :
    split (auditMessage P event fields) = auditParts P event fields ↔
      ∀ part ∈ auditParts P event fields, ∀ c ∈ part, isSpace c = false := by
  have hblank : isSpace (chr 32) = true := by decide
  have hsep : py " " = [chr 32] := rfl
  have hne : ∀ part ∈ auditParts P event fields, part ≠ [] := by
    have hsign : py "=" = [chr 61] := rfl
    have hevent : py "event=" = py "event" ++ [chr 61] := rfl
    rw [auditParts, List.forall_mem_cons, List.forall_mem_map]
    exact ⟨by simp [hevent], fun field _ => by simp [fieldPart, hsign]⟩
  rw [split, auditMessage, join_eq_intercalate, hsep]
  exact words_intercalate_iff hblank hne

/-- What stands in a message stands in a part, or is a blank between two. -/
theorem mem_auditMessage {c : PyChar} (h : c ∈ auditMessage P event fields) :
    c = chr 32 ∨ ∃ part ∈ auditParts P event fields, c ∈ part := by
  have hsep : py " " = [chr 32] := rfl
  rw [auditMessage, hsep] at h
  generalize auditParts P event fields = parts at h
  fun_induction join [chr 32] parts with
  | case1 => cases h
  | case2 part => exact .inr ⟨part, List.mem_singleton_self part, h⟩
  | case3 part part' parts ih =>
    rcases List.mem_append.mp h with h | h
    · rcases List.mem_append.mp h with h | h
      · exact .inr ⟨part, List.mem_cons_self, h⟩
      · exact .inl (List.mem_singleton.mp h)
    · rcases ih h with h | ⟨part'', hpart, h⟩
      · exact .inl h
      · exact .inr ⟨part'', List.mem_cons_of_mem _ hpart, h⟩

/-- Fields that agree on what is not forbidden. -/
def SameShown (fields fields' : List (PyStr × FieldValue)) : Prop :=
  List.Forall₂ (fun field field' => field.1 = field'.1 ∧
    (isForbidden field.1 = false → field.2 = field'.2)) fields fields'

/-- **The values of forbidden fields do not show.** -/
theorem auditMessage_of_sameShown (h : SameShown fields fields') :
    auditMessage P event fields = auditMessage P event fields' := by
  have hparts : fields.map (fieldPart P) = fields'.map (fieldPart P) := by
    induction h with
    | nil => rfl
    | @cons field field' fields fields' hfield _ ih =>
      obtain ⟨hname, hvalue⟩ := hfield
      have hpart : fieldPart P field = fieldPart P field' := by
        rw [fieldPart, fieldPart, shownValue, shownValue, ← hname]
        cases hf : isForbidden field.1 with
        | true => rfl
        | false => rw [hvalue hf]
      rw [List.map_cons, List.map_cons, hpart, ih]
  rw [auditMessage, auditMessage, auditParts, auditParts, hparts]

/-- **A line is parsed as it was made** if and only if the values that it shows are tame; and it
is the same line whatever the values of forbidden fields are. -/
theorem audit_parses_iff (hevent : Plain event) (hnames : ∀ field ∈ fields, Plain field.1) :
    (LineParses P event fields ↔ ∀ field ∈ fields, isForbidden field.1 = false → field.2.Tame P) ∧
      ∀ fields', SameShown fields fields' →
        auditMessage P event fields = auditMessage P event fields' := by
  refine ⟨?_, fun fields' h => auditMessage_of_sameShown h⟩
  rw [← auditParts_iff hevent hnames, ← split_auditMessage]
  constructor
  · exact fun h => h.tokens
  · intro h
    have hparts := split_auditMessage.mp h
    refine ⟨fun c hc => ?_, h, ?_, ?_⟩
    · by_contra hline
      rw [Bool.not_eq_false] at hline
      rcases mem_auditMessage hc with rfl | ⟨part, hpart, hc⟩
      · exact absurd hline (by decide)
      · have hspace := isSpace_of_isLineSeparator hline
        exact Bool.false_ne_true ((hparts part hpart c hc).symm.trans hspace)
    · rw [h, auditParts, List.length_cons, List.length_map, Nat.add_comm]
    · have hname : Plain (py "event") := plain_of_all (by decide)
      have hevent : py "event=" ++ event = py "event" ++ py "=" ++ event := rfl
      rw [h, auditParts, List.map_cons, hevent, cutToken_append hname, List.map_map]
      refine congrArg (List.cons _) (List.map_congr_left fun field hfield => ?_)
      exact cutToken_append (hnames field hfield)

end

/-- A miss in the directory, with the username that was asked for. -/
def lookupFields (username : PyStr) : List (PyStr × FieldValue) :=
  [(py "requested", .value (.str username)), (py "signature", .bytes [1])]

/-- A blank and a sign in the username are rendered away. -/
theorem lookupFields_parses :
    LineParses (.transparent []) (py "pubkey_lookup_miss") (lookupFields (py "a b=c")) := by
  have hnames : ∀ field ∈ lookupFields (py "a b=c"), Plain field.1 := by
    simp only [lookupFields, List.forall_mem_cons]
    exact ⟨plain_of_all (by decide), plain_of_all (by decide), List.forall_mem_nil _⟩
  refine (audit_parses_iff (plain_of_all (by decide)) hnames).1.mpr ?_
  have htame : (((py "a b=c").take MAX_FIELD_LEN).all fun c =>
      !isSpace c || c = chr 10 || c = chr 13 || c = chr 32) = true := by decide
  simp only [lookupFields, List.forall_mem_cons]
  refine ⟨fun _ c hc hspace => ?_, fun _ => trivial, List.forall_mem_nil _⟩
  simpa [hspace, or_assoc] using List.all_eq_true.mp htame c hc

/-- A tab in the username cuts a token in two. -/
theorem lookupFields_tab_not_parses :
    ¬ LineParses (.transparent []) (py "pubkey_lookup_miss") (lookupFields (py "a\tb")) := by
  have hcount : (split (auditMessage (.transparent []) (py "pubkey_lookup_miss")
      (lookupFields (py "a\tb")))).length = 4 := by decide
  intro h
  have := hcount.symm.trans h.count
  rw [lookupFields] at this
  simp at this

end ZeroTrust
