import ZeroTrust.Server.Access

/-!
# Which files the handlers touch

`file_blob_path_for` takes its text as it comes.  An upload has tested the text before, a
listing takes it from a row, and a download goes on only after a row was found under it; and
every row was filed by an upload.  So no text but the canonical form of a UUID gets into a
blob's path, and none but a valid username into a certificate's.

* `UuidForm`, `UsernameForm`: the two forms, `Confined`: the paths made of them.
* `PathsFrom`: where each program has its paths from.
* `paths_confined`: every path of every run is confined.
-/

namespace ZeroTrust
namespace Server

open Python Effects Data

/-- Lowercase hexadecimal digits, a given number of them. -/
structure IsHex (n : ℕ) (s : PyStr) : Prop where
  length : s.length = n
  digits : ∀ c ∈ s, c ∈ py "0123456789abcdef"

/-- Groups of 8, 4, 4, 4 and 12 lowercase hexadecimal digits with hyphens between them. -/
def UuidForm (s : PyStr) : Prop :=
  ∃ a b c d e, IsHex 8 a ∧ IsHex 4 b ∧ IsHex 4 c ∧ IsHex 4 d ∧ IsHex 12 e ∧
    s = a ++ py "-" ++ b ++ py "-" ++ c ++ py "-" ++ d ++ py "-" ++ e

/-- One to 32 of the letters, digits, the underscore and the hyphen. -/
structure UsernameForm (s : PyStr) : Prop where
  nonempty : 1 ≤ s.length
  short : s.length ≤ 32
  letters : ∀ c ∈ s,
    c ∈ py "abcdefghijklmnopqrstuvwxyzABCDEFGHIJKLMNOPQRSTUVWXYZ0123456789_-"

/-- A blob, its temporary file, or a certificate of the directory. -/
def Confined (p : Path) : Prop :=
  (∃ f, UuidForm f ∧ (p = ⟨.files, f ++ py ".bin"⟩ ∨ p = ⟨.files, f ++ py ".bin.tmp"⟩)) ∨
    ∃ u, UsernameForm u ∧ p = ⟨.pubkeys, u ++ py ".json"⟩

/-- The paths that an operation is given. -/
def Op.paths : Op → List Path
  | .isFile path | .readBytes path | .statSize path | .writeTmp path _ => [path]
  | .replace src dst => [src, dst]
  | _ => []

/-! ## The two tests -/

theorem hexDigit_mem (n : ℕ) : hexDigit n ∈ py "0123456789abcdef" := by
  have h : ∀ m < 16, hexAlphabet.getD m 0 ∈ py "0123456789abcdef" := by decide +kernel
  exact h _ (Nat.mod_lt _ (by omega))

theorem hexFixed_digits (k n : ℕ) : ∀ c ∈ hexFixed k n, c ∈ py "0123456789abcdef" := by
  induction k generalizing n with
  | zero => exact List.forall_mem_nil _
  | succ k ih =>
    intro c hc
    rw [hexFixed, List.mem_append, List.mem_singleton] at hc
    rcases hc with hc | rfl
    · exact ih _ c hc
    · exact hexDigit_mem n

theorem uuidForm_uuidStr (n : ℕ) : UuidForm (uuidStr n) := by
  have hlen := length_hexFixed 32 n
  have hmem : ∀ {m : ℕ} {s : PyStr}, s ⊆ hexFixed 32 n → s.length = m → IsHex m s :=
    fun hs hl => ⟨hl, fun c hc => hexFixed_digits 32 n c (hs hc)⟩
  have hmid : ∀ i, i + 4 ≤ 32 → IsHex 4 (((hexFixed 32 n).drop i).take 4) := fun i hi =>
    hmem (List.Subset.trans (List.take_subset _ _) (List.drop_subset _ _)) (by
      rw [List.length_take, List.length_drop, hlen]
      omega)
  refine ⟨_, _, _, _, _, hmem (List.take_subset 8 _) (by rw [List.length_take, hlen]; rfl),
    hmid 8 (by omega), hmid 12 (by omega), hmid 16 (by omega),
    hmem (List.drop_subset 20 _) (by rw [List.length_drop, hlen]), rfl⟩

/-- What passes the test of a file id has the form of one. -/
theorem uuidForm_of_isCanonicalUuid {s : PyStr} (h : isCanonicalUuid s = true) : UuidForm s := by
  unfold isCanonicalUuid at h
  split at h
  · next n _ =>
    rw [← of_decide_eq_true h]
    exact uuidForm_uuidStr n
  · cases h

theorem mem_of_usernameChar {c : PyChar} (h : usernameChar c = true) :
    c ∈ py "abcdefghijklmnopqrstuvwxyzABCDEFGHIJKLMNOPQRSTUVWXYZ0123456789_-" := by
  have hlow : ∀ n < 123, usernameChar (chr n) = true →
      chr n ∈ py "abcdefghijklmnopqrstuvwxyzABCDEFGHIJKLMNOPQRSTUVWXYZ0123456789_-" := by
    decide +kernel
  have hlt : c.val < 123 := by
    have h := of_decide_eq_true h
    omega
  rw [← chr_val c] at h ⊢
  exact hlow c.val hlt h

/-- What passes the test of a username has the form of one. -/
theorem confined_of_pubkeyPathFor {username : Json} {path : Path}
    (h : pubkeyPathFor username = some path) : Confined path := by
  unfold pubkeyPathFor at h
  split_ifs at h with hname
  obtain ⟨u, hu, rfl⟩ := Option.map_eq_some_iff.mp h
  obtain rfl := Json.asStr_eq_some.mp hu
  obtain ⟨hpos, hshort, hall⟩ := of_decide_eq_true hname
  exact .inr ⟨u, ⟨hpos, hshort, fun c hc => mem_of_usernameChar (List.all_eq_true.mp hall c hc)⟩,
    rfl⟩

theorem confined_fileBlobPathFor {f : PyStr} (h : isCanonicalUuid f = true) :
    Confined (fileBlobPathFor f) :=
  .inl ⟨f, uuidForm_of_isCanonicalUuid h, .inl rfl⟩

theorem confined_tmpPathFor {f : PyStr} (h : isCanonicalUuid f = true) :
    Confined (tmpPathFor f) := by
  refine .inl ⟨f, uuidForm_of_isCanonicalUuid h, .inr ?_⟩
  rw [tmpPathFor, List.append_assoc]
  rfl

/-! ## Where the paths come from -/

variable {P : Primitives} {ca : Bytes} {s₀ s : ServerState} {t later earlier : List ServerItem}
  {js : List (Job Op Op.Res Label (Except PyExn Unit))} {x : ServerItem}

/-- Where a program has a path from: a username it has tested, a file id it has tested, a row
it was granted, or a row it has listed. -/
inductive PathsFrom (P : Primitives) : List Ev → Path → Prop where
  | username {username : Json} {path : Path} {h : List Ev} :
      pubkeyPathFor username = some path → PathsFrom P h path
  | blob {f : PyStr} {h : List Ev} : isCanonicalUuid f = true → PathsFrom P h (fileBlobPathFor f)
  | tmp {f : PyStr} {h : List Ev} : isCanonicalUuid f = true → PathsFrom P h (tmpPathFor f)
  | granted {k : Json} {row : FileRow} {newer older : List Ev} :
      PathsFrom P (newer ++ ⟨.getFile k, .ok (some row)⟩ :: older) (fileBlobPathFor (strOf P k))
  | listed {recipient : PyStr} {now : ℤ} {rows : List FileRow} {row : FileRow}
      {newer older : List Ev} : row ∈ rows →
      PathsFrom P (newer ++ ⟨.listPending recipient now, .ok rows⟩ :: older)
        (fileBlobPathFor row.fileId)

theorem pathsFrom_of_lookup {username : Json} {h h' : List Ev} {e : Op} {path : Path}
    (hl : LookupStep username h e) (hp : path ∈ e.paths) : PathsFrom P h' path := by
  cases hl with
  | isFile hu =>
    obtain rfl := List.mem_singleton.mp hp
    exact .username hu
  | readBytes hu =>
    obtain rfl := List.mem_singleton.mp hp
    exact .username hu
  | time => cases hp

theorem pathsFrom_of_authorised {session : Session} {k : Json} {row : FileRow}
    {newer g older : List Ev} (ha : Authorised session k row g) :
    PathsFrom P (newer ++ (g ++ older)) (fileBlobPathFor (strOf P k)) := by
  cases ha with
  | @intro now _ _ _ =>
    have h := @PathsFrom.granted P k row (newer ++ [⟨.time, .ok now⟩]) older
    rwa [List.append_assoc] at h

theorem isCanonicalUuid_of_admitted {session : Session} {env : Envelope} {up : Upload}
    {g : List Ev} (h : Admitted P ca session env up g) : isCanonicalUuid up.fileId = true := by
  obtain ⟨⟨-, hparse, -⟩, -⟩ := h
  exact (readFrom_of_parseUpload hparse).canonical

/-- Every path of every program comes from one of these places.  The cases are the programs
that touch files. -/
theorem pathsFrom_of_step {l : Label} {h : List Ev} {e : Op} (hs : Step P ca l h e) {path : Path}
    (hp : path ∈ e.paths) : PathsFrom P h path := by
  cases hs with
  | pubkey _ hb =>
    cases hb with
    | lookup hl => exact pathsFrom_of_lookup hl hp
    | found _ | error _ => cases hp
  | list _ hb =>
    cases hb with
    | @statSize rows row now g hrow =>
      obtain rfl := List.mem_singleton.mp hp
      exact .listed hrow
    | time | listPending | reply _ => cases hp
  | upload _ hg =>
    cases hg with
    | time | insertNonce _ | refuse _ => cases hp
    | body _ hb =>
      cases hb with
      | lookup _ hl => exact pathsFrom_of_lookup hl hp
      | writeTmp hadm =>
        obtain rfl := List.mem_singleton.mp hp
        exact .tmp (isCanonicalUuid_of_admitted hadm)
      | replace hadm =>
        rcases List.mem_pair.mp hp with rfl | rfl
        · exact .tmp (isCanonicalUuid_of_admitted hadm)
        · exact .blob (isCanonicalUuid_of_admitted hadm)
      | time | mkdirFiles _ | insertFile _ _ | accept _ _ | error _ => cases hp
  | download _ hg =>
    cases hg with
    | time | insertNonce _ | refuse _ => cases hp
    | body _ hb =>
      cases hb with
      | authorise _ ha => cases ha <;> cases hp
      | isFile _ ha =>
        obtain rfl := List.mem_singleton.mp hp
        exact @pathsFrom_of_authorised P _ _ _ [] _ _ ha
      | @readBytes k row g _ ha =>
        obtain rfl := List.mem_singleton.mp hp
        exact @pathsFrom_of_authorised P _ _ _ [_] _ _ ha
      | respond _ _ | error _ => cases hp
  | ack _ hg =>
    cases hg with
    | time | insertNonce _ | refuse _ => cases hp
    | body _ hb => cases hb <;> cases hp
  | revoke _ hg =>
    cases hg with
    | time | insertNonce _ | refuse _ => cases hp
    | body _ hb => cases hb <;> cases hp
  | malformed _ => cases hp
  | cleanup hc => cases hc <;> cases hp

/-- A listed row was in the table. -/
theorem listed_of_exec {recipient : PyStr} {now : ℤ} {rows : List FileRow} {i : Input}
    {s s' : ServerState} (h : exec P (.listPending recipient now) i s = (.ok rows, s')) :
    ∀ row ∈ rows, s.files.find? row.fileId = some row := by
  intro row hrow
  obtain ⟨-, -, h⟩ := bind_eq_ok.mp (of_reading h)
  obtain ⟨-, -, h⟩ := bind_eq_ok.mp h
  obtain rfl := pure_eq_ok.mp h
  exact Table.find?_eq_some_iff.mpr ⟨List.mem_of_mem_filter hrow, rfl⟩

/-- A path that comes from one of these places is confined, while every row is filed under
the canonical text of a UUID. -/
theorem confined_of_pathsFrom (hr : Run P ca s₀ t js s) (hids : CanonicalIds s₀)
    (ht : t = later ++ x :: earlier) {path : Path} (hp : PathsFrom P x.past path) :
    Confined path := by
  generalize hpast : x.past = past at hp
  cases hp with
  | username hu => exact confined_of_pubkeyPathFor hu
  | blob hf => exact confined_fileBlobPathFor hf
  | tmp hf => exact confined_tmpPathFor hf
  | @granted k row newer older =>
    obtain ⟨since, y, before, rfl, -, -, hev, -⟩ := hr.exists_of_past_append ht hpast
    have hty : t = (later ++ x :: since) ++ y :: before := by simp [ht]
    have hread := reads_of_getFile hr hids hty hev
    have hkey : Json.str row.fileId = k :=
      Op.getFile.inj (congrArg Event.op (hread.1.symm.trans hev))
    rw [← hkey]
    exact confined_fileBlobPathFor (Run.canonicalIds hr hids hty _ _ hread.2)
  | @listed recipient now rows row newer older hrow =>
    obtain ⟨since, y, before, rfl, -, -, hev, -⟩ := hr.exists_of_past_append ht hpast
    have hty : t = (later ++ x :: since) ++ y :: before := by simp [ht]
    have hexec := hr.exec_eq (show y ∈ t by simp [ht])
    rw [hev] at hexec
    have hfound := @listed_of_exec P _ _ _ _ _ _ hexec row hrow
    exact confined_fileBlobPathFor (Run.canonicalIds hr hids hty _ _ hfound)

/-- **Filesystem confinement.**  In every run from an empty table of files, every path that a
handler touches is a blob, a temporary file or a certificate of the directory, and its name
is made of a UUID in canonical form or of a valid username. -/
theorem paths_confined (hr : Run P ca s₀ t js s) (hempty : s₀.files = .empty) :
    ∀ x ∈ t, ∀ path ∈ x.ev.op.paths, Confined path := by
  have hids : CanonicalIds s₀ := by
    intro f row h
    rw [hempty, Table.find?_empty] at h
    cases h
  intro x hx path hp
  obtain ⟨later, earlier, ht⟩ := List.append_of_mem hx
  exact confined_of_pathsFrom hr hids ht (pathsFrom_of_step (hr.guarantee code_guarantee hx) hp)

/-- `alice` uploads, and `bob` downloads. -/
def sampleDelivered : Config Op Op.Res Input ServerState Label (Except PyExn Unit) :=
  samplePlay sampleInit (Move.alone (sampleUpload 1 [7]) 0 11 (.quiet 100) ++
    Move.alone (sampleDownload 2) 1 7 (.quiet 100))

/-- An upload and a download touch seven paths, all confined. -/
theorem paths_confined_sampleDelivered :
    (sampleDelivered.trace.flatMap fun x => x.ev.op.paths).length = 7 ∧
      ∀ x ∈ sampleDelivered.trace, ∀ path ∈ x.ev.op.paths, Confined path :=
  ⟨by decide +kernel, paths_confined (run_samplePlay _ _) rfl⟩

end Server
end ZeroTrust
