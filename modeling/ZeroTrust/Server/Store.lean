import ZeroTrust.Common.Canonical
import ZeroTrust.Common.Protocol
import ZeroTrust.Data.Table
import ZeroTrust.Effects.Program
import Mathlib.Logic.Function.Basic

/-!
# The server's store

The database of `server/store.py` and `server/replay.py`, the blob and key directories
of `server/storage_layout.py`, and the operations the handlers apply to them.  An
operation is one SQL transaction or one system call, and is atomic; everything the
handlers do in between is theirs alone.

* `ServerState`: the three tables and the files.
* `Op`, `Op.Res`: the operations and their answers.
* `exec`: what an operation does, given what the environment supplies: the clock, an
  exception raised in place of the operation, and the random parts of an envelope.
* `Change`, `change_of_exec`: all that an operation can do to the state.
* `row_of_change`, `nonces_of_change`, `disk_of_change`: the same, for one row of `files`,
  for the nonces and for one file.
-/

namespace ZeroTrust
namespace Server

open Python Effects Data

/-- `files.status`.  The program writes the first four values only. -/
inductive Status where
  | pending
  | downloaded
  | expired
  | revoked
  | other (text : PyStr)
  deriving DecidableEq

/-- The text of a status. -/
def Status.text : Status → PyStr
  | pending => py "pending"
  | downloaded => py "downloaded"
  | expired => py "expired"
  | revoked => py "revoked"
  | other text => text

/-- A row of `files`. -/
structure FileRow where
  fileId : PyStr
  senderId : PyStr
  recipientId : PyStr
  uploadTimestamp : ℤ
  expiration : ℤ
  status : Status
  ciphertextPath : PyStr
  ciphertextSha256 : PyStr
  wrappedKey : Bytes
  aesNonce : Bytes
  aesAad : Bytes
  senderSignature : Bytes
  senderCertJson : PyStr
  deriving DecidableEq

/-- A row of `seen_nonces`. -/
structure NonceRow where
  nonce : Bytes
  seenAt : ℤ
  deriving DecidableEq

/-- A row of `acks`. -/
structure AckRow where
  fileId : PyStr
  ackSignature : Bytes
  ackTimestamp : ℤ
  deriving DecidableEq

/-- The two directories under the storage root. -/
inductive Dir where
  | files
  | pubkeys
  deriving DecidableEq

/-- A file the handlers name: a directory, and a name under it. -/
structure Path where
  dir : Dir
  name : PyStr
  deriving DecidableEq

/-- The database and the files. -/
structure ServerState where
  files : Table FileRow PyStr FileRow.fileId
  nonces : Table NonceRow Bytes NonceRow.nonce
  acks : Table AckRow PyStr AckRow.fileId
  /-- The files on disk. -/
  disk : Path → Option Bytes

/-- The state after `init_schema`, with the public keys on disk that were put there. -/
def ServerState.init (pubkeys : PyStr → Option Bytes) : ServerState where
  files := .empty
  nonces := .empty
  acks := .empty
  disk p := if p.dir = .pubkeys then pubkeys p.name else none

/-- What the environment supplies to an operation. -/
structure Input where
  /-- `int(time.time())`. -/
  now : ℤ
  /-- An exception raised in place of the operation. -/
  fault : Option PyExn
  /-- How many octets of a failing write still reach the disk, if the file was opened. -/
  written : Option ℕ
  /-- The nonce that `make_envelope` draws. -/
  nonce : Bytes
  /-- The request id that `make_envelope` draws. -/
  requestId : PyStr

/-- The input of an operation that nothing disturbs. -/
def Input.quiet (now : ℤ) : Input where
  now := now
  fault := none
  written := none
  nonce := List.replicate 16 0
  requestId := []

/-- The operations of the handlers. -/
inductive Op where
  | time
  | insertNonce (nonce : Bytes) (seenAt : ℤ)
  | purgeNonces (cutoff : ℤ)
  | getFile (fileId : Json)
  | listPending (recipient : PyStr) (now : ℤ)
  | insertFile (row : FileRow)
  | markStatus (fileId : Json) (status : Status)
  | markExpired (cutoff : ℤ)
  | insertAck (row : AckRow)
  | isFile (path : Path)
  | readBytes (path : Path)
  | statSize (path : Path)
  | mkdirFiles
  | writeTmp (path : Path) (data : Bytes)
  | replace (src dst : Path)
  | send (type : MessageType) (payload : Obj)
  deriving DecidableEq

/-- What an operation answers with. -/
abbrev Op.Ans : Op → Type
  | .time => ℤ
  | .insertNonce _ _ => Unit
  | .purgeNonces _ => ℕ
  | .getFile _ => Option FileRow
  | .listPending _ _ => List FileRow
  | .insertFile _ => Unit
  | .markStatus _ _ => Unit
  | .markExpired _ => ℕ
  | .insertAck _ => Unit
  | .isFile _ => Bool
  | .readBytes _ => Bytes
  | .statSize _ => ℕ
  | .mkdirFiles => Unit
  | .writeTmp _ _ => Unit
  | .replace _ _ => Unit
  | .send _ _ => Unit

instance : (e : Op) → DecidableEq e.Ans
  | .time => inferInstanceAs (DecidableEq ℤ)
  | .getFile _ => inferInstanceAs (DecidableEq (Option FileRow))
  | .listPending _ _ => inferInstanceAs (DecidableEq (List FileRow))
  | .isFile _ => inferInstanceAs (DecidableEq Bool)
  | .readBytes _ => inferInstanceAs (DecidableEq Bytes)
  | .purgeNonces _ | .markExpired _ | .statSize _ => inferInstanceAs (DecidableEq ℕ)
  | .insertNonce _ _ | .insertFile _ | .markStatus _ _ | .insertAck _ | .mkdirFiles
  | .writeTmp _ _ | .replace _ _ | .send _ _ => inferInstanceAs (DecidableEq Unit)

/-- An operation answers or raises. -/
abbrev Op.Res (e : Op) : Type := Except PyExn e.Ans

/-! ## Binding parameters -/

/-- Bind a `str`: SQLite stores UTF-8. -/
def bindText (s : PyStr) : Except PyExn Unit :=
  if s.any isSurrogate then .error .unicodeEncodeError else .ok ()

/-- Bind an `int`: SQLite stores 64 bits. -/
def bindInt (i : ℤ) : Except PyExn Unit :=
  if -2 ^ 63 ≤ i ∧ i < 2 ^ 63 then .ok () else .error .overflowError

/-- Bind a value of any type where a `TEXT` column is compared with it: a number is
compared as its text, and `None` and a NaN equal no row. -/
def bindKey (P : Primitives) : Json → Except PyExn (Option PyStr)
  | .null => .ok none
  | .bool b => .ok (some (intRepr b.toNat))
  | .int i => do bindInt i; return some (intRepr i)
  | .float .nan => .ok none
  | .float x => .ok (some (P.realText x))
  | .str s => do bindText s; return some s
  | .arr _ => .error .programmingError
  | .obj _ => .error .programmingError

/-- Bind the columns of a new row of `files`. -/
def bindFileRow (row : FileRow) : Except PyExn Unit := do
  bindText row.fileId
  bindText row.senderId
  bindText row.recipientId
  bindInt row.uploadTimestamp
  bindInt row.expiration
  bindText row.status.text
  bindText row.ciphertextPath
  bindText row.ciphertextSha256
  bindText row.senderCertJson

/-! ## What the operations do -/

/-- The row with a status written over its own. -/
def FileRow.withStatus (st : Status) (row : FileRow) : FileRow := { row with status := st }

@[simp] theorem FileRow.withStatus_fileId (st : Status) (row : FileRow) :
    (row.withStatus st).fileId = row.fileId := rfl

@[simp] theorem FileRow.withStatus_status (st : Status) (row : FileRow) :
    (row.withStatus st).status = st := rfl

namespace ServerState

variable (P : Primitives) (s : ServerState)

/-- `UPDATE files SET status = ?` on the rows that satisfy a condition. -/
def setStatus (p : FileRow → Bool) (st : Status) : ServerState :=
  { s with files := s.files.update p (FileRow.withStatus st) (FileRow.withStatus_fileId st) }

/-- `INSERT INTO seen_nonces`. -/
def insertNonce (row : NonceRow) : Except PyExn ServerState := do
  bindInt row.seenAt
  match s.nonces.insert? row with
  | some nonces => return { s with nonces }
  | none => throw .integrityError

/-- `DELETE FROM seen_nonces WHERE seen_at < ?`. -/
def purgeNonces (cutoff : ℤ) : Except PyExn ServerState := do
  bindInt cutoff
  return { s with nonces := s.nonces.delete fun row => row.seenAt < cutoff }

/-- `SELECT * FROM files WHERE file_id = ?`. -/
def getFile (fileId : Json) : Except PyExn (Option FileRow) := do
  return (← bindKey P fileId).bind s.files.find?

/-- `SELECT * FROM files WHERE recipient_id = ? AND status = 'pending' AND expiration > ?`. -/
def listPending (recipient : PyStr) (now : ℤ) : Except PyExn (List FileRow) := do
  bindText recipient
  bindInt now
  return s.files.rows.filter fun row =>
    row.recipientId = recipient ∧ row.status = .pending ∧ now < row.expiration

/-- `INSERT INTO files`. -/
def insertFile (row : FileRow) : Except PyExn ServerState := do
  bindFileRow row
  match s.files.insert? row with
  | some files => return { s with files }
  | none => throw .integrityError

/-- `mark_status`. -/
def markStatus (fileId : Json) (st : Status) : Except PyExn ServerState :=
  match st with
  | .other _ => throw .valueError
  | st => do
      let key ← bindKey P fileId
      return s.setStatus (fun row => some row.fileId = key) st

/-- The rows `mark_expired` touches. -/
def expiredBy (cutoff : ℤ) (row : FileRow) : Bool :=
  row.status = .pending ∧ row.expiration < cutoff

/-- `mark_expired`. -/
def markExpired (cutoff : ℤ) : Except PyExn ServerState := do
  bindInt cutoff
  return s.setStatus (expiredBy cutoff) .expired

/-- `INSERT INTO acks`. -/
def insertAck (row : AckRow) : Except PyExn ServerState := do
  bindText row.fileId
  bindInt row.ackTimestamp
  match s.acks.insert? row with
  | some acks => return { s with acks }
  | none => throw .integrityError

/-- `read_bytes`. -/
def readBytes (path : Path) : Except PyExn Bytes :=
  match s.disk path with
  | some data => .ok data
  | none => .error .osError

/-- A whole file written. -/
def write (path : Path) (data : Bytes) : ServerState :=
  { s with disk := Function.update s.disk path (some data) }

/-- `os.replace`. -/
def replace (src dst : Path) : Except PyExn ServerState :=
  match s.disk src with
  | some data =>
      .ok { s with disk := Function.update (Function.update s.disk src none) dst (some data) }
  | none => .error .osError

end ServerState

section

variable {α : Type} (i : Input) (s : ServerState)

/-- An operation that reads: the environment may raise in its place. -/
def reading (x : Except PyExn α) : Except PyExn α × ServerState :=
  match i.fault with
  | some e => (.error e, s)
  | none => (x, s)

/-- An operation that writes: it commits as a whole or raises and changes nothing. -/
def writing (answer : α) (x : Except PyExn ServerState) : Except PyExn α × ServerState :=
  match i.fault, x with
  | some e, _ => (.error e, s)
  | none, .error e => (.error e, s)
  | none, .ok s' => (.ok answer, s')

/-- The writing of a file: where it raises, part of the file may be there. -/
def writingPart (path : Path) (data : Bytes) : Except PyExn Unit × ServerState :=
  match i.fault, i.written with
  | some e, some n => (.error e, s.write path (data.take n))
  | some e, none => (.error e, s)
  | none, _ => (.ok (), s.write path data)

end

/-- What an operation answers and does. -/
def exec (P : Primitives) : Exec Op Op.Res Input ServerState
  | .time, i, s => (.ok i.now, s)
  | .insertNonce nonce seenAt, i, s => writing i s () (s.insertNonce ⟨nonce, seenAt⟩)
  | .purgeNonces cutoff, i, s =>
      writing i s (s.nonces.rows.countP fun row => row.seenAt < cutoff) (s.purgeNonces cutoff)
  | .getFile fileId, i, s => reading i s (s.getFile P fileId)
  | .listPending recipient now, i, s => reading i s (s.listPending recipient now)
  | .insertFile row, i, s => writing i s () (s.insertFile row)
  | .markStatus fileId st, i, s => writing i s () (s.markStatus P fileId st)
  | .markExpired cutoff, i, s =>
      writing i s (s.files.rows.countP (ServerState.expiredBy cutoff)) (s.markExpired cutoff)
  | .insertAck row, i, s => writing i s () (s.insertAck row)
  | .isFile path, i, s => reading i s (.ok (s.disk path).isSome)
  | .readBytes path, i, s => reading i s (s.readBytes path)
  | .statSize path, i, s => reading i s ((s.readBytes path).map List.length)
  | .mkdirFiles, i, s => reading i s (.ok ())
  | .writeTmp path data, i, s => writingPart i s path data
  | .replace src dst, i, s => writing i s () (s.replace src dst)
  | .send type payload, i, s =>
      reading i s ((packMessage P (makeEnvelope type payload i.nonce i.now i.requestId)).map fun _ => ())

/-! ## What one operation can do -/

/-- An executed operation. -/
abbrev Ev := Event Op Op.Res

/-- The operations that never change the state. -/
def Op.isRead : Op → Bool
  | .time | .getFile _ | .listPending _ _ | .isFile _ | .readBytes _ | .statSize _
  | .mkdirFiles | .send _ _ => true
  | _ => false

/-- **All that an operation can do to the state.**  An operation that only reads, and one
that raises, changes nothing, except that a failing write may leave part of a file. -/
inductive Change (P : Primitives) (s : ServerState) : Ev → ServerState → Prop where
  | read {op : Op} (r : op.Res) : op.isRead = true → Change P s ⟨op, r⟩ s
  | raised (op : Op) (e : PyExn) : Change P s ⟨op, .error e⟩ s
  | insertNonce {row : NonceRow} {nonces : Table NonceRow Bytes NonceRow.nonce} :
      s.nonces.insert? row = some nonces →
      Change P s ⟨.insertNonce row.nonce row.seenAt, .ok ()⟩ { s with nonces }
  | purgeNonces (cutoff : ℤ) (n : ℕ) :
      Change P s ⟨.purgeNonces cutoff, .ok n⟩
        { s with nonces := s.nonces.delete fun row => row.seenAt < cutoff }
  | insertFile {row : FileRow} {files : Table FileRow PyStr FileRow.fileId} :
      s.files.insert? row = some files →
      Change P s ⟨.insertFile row, .ok ()⟩ { s with files }
  | markStatus {k : Json} {key : Option PyStr} (st : Status) :
      bindKey P k = .ok key →
      Change P s ⟨.markStatus k st, .ok ()⟩ (s.setStatus (fun row => some row.fileId = key) st)
  | markExpired (cutoff : ℤ) (n : ℕ) :
      Change P s ⟨.markExpired cutoff, .ok n⟩ (s.setStatus (ServerState.expiredBy cutoff) .expired)
  | insertAck {row : AckRow} {acks : Table AckRow PyStr AckRow.fileId} :
      s.acks.insert? row = some acks →
      Change P s ⟨.insertAck row, .ok ()⟩ { s with acks }
  | writeTmp (path : Path) (data : Bytes) :
      Change P s ⟨.writeTmp path data, .ok ()⟩ (s.write path data)
  | writePart (path : Path) (data part : Bytes) (e : PyExn) :
      Change P s ⟨.writeTmp path data, .error e⟩ (s.write path part)
  | replace {src dst : Path} {data : Bytes} :
      s.disk src = some data →
      Change P s ⟨.replace src dst, .ok ()⟩
        { s with disk := Function.update (Function.update s.disk src none) dst (some data) }

section

variable {P : Primitives} {op : Op} {r : op.Res} {i : Input} {s s' : ServerState}

theorem reading_snd {α : Type} {x : Except PyExn α} {a : Except PyExn α}
    (h : reading i s x = (a, s')) : s' = s := by
  unfold reading at h
  split at h <;> exact (Prod.mk.inj h).2.symm

/-- A read that answers has not raised. -/
theorem of_reading {α : Type} {x : Except PyExn α} {a : α}
    (h : reading i s x = (.ok a, s')) : x = .ok a := by
  unfold reading at h
  split at h
  · exact nomatch (Prod.mk.inj h).1
  · exact (Prod.mk.inj h).1

/-- A write either raises and changes nothing, or is the whole write. -/
theorem writing_cases {α : Type} {answer : α} {x : Except PyExn ServerState}
    {a : Except PyExn α} (h : writing i s answer x = (a, s')) :
    s' = s ∧ (∃ e, a = .error e) ∨ x = .ok s' ∧ a = .ok answer := by
  unfold writing at h
  split at h <;> obtain ⟨rfl, rfl⟩ := Prod.mk.inj h
  · exact .inl ⟨rfl, _, rfl⟩
  · exact .inl ⟨rfl, _, rfl⟩
  · exact .inr ⟨rfl, rfl⟩

/-- Where the operation is a write, it is enough to look at the write itself. -/
theorem change_of_writing {answer : op.Ans} {x : Except PyExn ServerState}
    (hx : ∀ s', x = .ok s' → Change P s ⟨op, .ok answer⟩ s')
    (h : writing i s answer x = (r, s')) : Change P s ⟨op, r⟩ s' := by
  rcases writing_cases h with ⟨rfl, e, rfl⟩ | ⟨hw, rfl⟩
  · exact .raised op e
  · exact hx s' hw

theorem change_of_reading {x : Except PyExn op.Ans} (hop : op.isRead = true)
    (h : reading i s x = (r, s')) : Change P s ⟨op, r⟩ s' := by
  rw [reading_snd h]
  exact .read r hop

theorem change_insertNonce {nonce : Bytes} {seenAt : ℤ}
    (h : s.insertNonce ⟨nonce, seenAt⟩ = .ok s') :
    Change P s ⟨.insertNonce nonce seenAt, .ok ()⟩ s' := by
  obtain ⟨-, -, h⟩ := bind_eq_ok.mp h
  split at h
  · next hn =>
    obtain rfl := pure_eq_ok.mp h
    exact .insertNonce hn
  · exact nomatch h

theorem change_insertFile {row : FileRow} (h : s.insertFile row = .ok s') :
    Change P s ⟨.insertFile row, .ok ()⟩ s' := by
  obtain ⟨-, -, h⟩ := bind_eq_ok.mp h
  split at h
  · next hf =>
    obtain rfl := pure_eq_ok.mp h
    exact .insertFile hf
  · exact nomatch h

theorem change_insertAck {row : AckRow} (h : s.insertAck row = .ok s') :
    Change P s ⟨.insertAck row, .ok ()⟩ s' := by
  obtain ⟨-, -, h⟩ := bind_eq_ok.mp h
  obtain ⟨-, -, h⟩ := bind_eq_ok.mp h
  split at h
  · next ha =>
    obtain rfl := pure_eq_ok.mp h
    exact .insertAck ha
  · exact nomatch h

theorem change_markStatus {k : Json} {st : Status} (h : s.markStatus P k st = .ok s') :
    Change P s ⟨.markStatus k st, .ok ()⟩ s' := by
  unfold ServerState.markStatus at h
  split at h
  · exact nomatch h
  · obtain ⟨key, hkey, h⟩ := bind_eq_ok.mp h
    obtain rfl := pure_eq_ok.mp h
    exact .markStatus _ hkey

theorem change_replace {src dst : Path} (h : s.replace src dst = .ok s') :
    Change P s ⟨.replace src dst, .ok ()⟩ s' := by
  unfold ServerState.replace at h
  split at h
  · next hd =>
    obtain rfl := Except.ok.inj h
    exact .replace hd
  · exact nomatch h

theorem change_writingPart {path : Path} {data : Bytes} {a : Except PyExn Unit}
    (h : writingPart i s path data = (a, s')) : Change P s ⟨.writeTmp path data, a⟩ s' := by
  unfold writingPart at h
  split at h <;> obtain ⟨rfl, rfl⟩ := Prod.mk.inj h
  · exact .writePart path data _ _
  · exact .raised _ _
  · exact .writeTmp path data

/-- **Every operation does one of the changes.** -/
theorem change_of_exec (h : exec P op i s = (r, s')) : Change P s ⟨op, r⟩ s' := by
  cases op with
  | insertNonce nonce seenAt => exact change_of_writing (fun _ => change_insertNonce) h
  | insertFile row => exact change_of_writing (fun _ => change_insertFile) h
  | insertAck row => exact change_of_writing (fun _ => change_insertAck) h
  | markStatus k st => exact change_of_writing (fun _ => change_markStatus) h
  | replace src dst => exact change_of_writing (fun _ => change_replace) h
  | purgeNonces cutoff =>
    refine change_of_writing (fun s' hw => ?_) h
    obtain ⟨-, -, hw⟩ := bind_eq_ok.mp hw
    obtain rfl := pure_eq_ok.mp hw
    exact .purgeNonces cutoff _
  | markExpired cutoff =>
    refine change_of_writing (fun s' hw => ?_) h
    obtain ⟨-, -, hw⟩ := bind_eq_ok.mp hw
    obtain rfl := pure_eq_ok.mp hw
    exact .markExpired cutoff _
  | writeTmp path data => exact change_writingPart h
  | time =>
    obtain ⟨-, rfl⟩ := Prod.mk.inj h
    exact .read r rfl
  | getFile | listPending | isFile | readBytes | statSize | mkdirFiles | send =>
    exact change_of_reading rfl h

/-! ### One row, one nonce, one file -/

/-- The event writes the status `st` over the row. -/
def Marks (P : Primitives) (ev : Ev) (row : FileRow) (st : Status) : Prop :=
  (∃ k, ev = ⟨.markStatus k st, .ok ()⟩ ∧ bindKey P k = .ok (some row.fileId)) ∨
    ∃ cutoff n, ev = ⟨.markExpired cutoff, .ok n⟩ ∧ st = .expired ∧ row.status = .pending ∧
      row.expiration < cutoff

theorem find?_setStatus (s : ServerState) (p : FileRow → Bool) (st : Status) (f : PyStr) :
    (s.setStatus p st).files.find? f =
      (s.files.find? f).map fun row => if p row then row.withStatus st else row :=
  Table.find?_update s.files p _ (FileRow.withStatus_fileId st) f

/-- A row after one operation: as it was, or new, or with another status. -/
theorem row_of_change {ev : Ev} (h : Change P s ev s') (f : PyStr) :
    s'.files.find? f = s.files.find? f ∨
    (∃ row, ev = ⟨.insertFile row, .ok ()⟩ ∧ row.fileId = f ∧ s.files.find? f = none ∧
      s'.files.find? f = some row) ∨
    ∃ row st, Marks P ev row st ∧ s.files.find? f = some row ∧
      s'.files.find? f = some (row.withStatus st) := by
  cases h with
  | @insertFile row files hf =>
    have hfind := Table.find?_insert? hf f
    by_cases hk : f = row.fileId
    · refine .inr (.inl ⟨row, rfl, hk.symm, ?_, ?_⟩)
      · exact hk ▸ Table.insert?_isNew hf
      · rw [hfind, if_pos hk]
    · exact .inl (by rw [hfind, if_neg hk])
  | @markStatus k key st hkey =>
    have hfind := find?_setStatus s (fun row => some row.fileId = key) st f
    cases hrow : s.files.find? f with
    | none => exact .inl (by rw [hfind, hrow]; rfl)
    | some row =>
      rw [hrow, Option.map_some] at hfind
      by_cases hk : some row.fileId = key
      · refine .inr (.inr ⟨row, st, .inl ⟨k, rfl, hk ▸ hkey⟩, rfl, ?_⟩)
        rw [hfind, if_pos (by simpa using hk)]
      · exact .inl (by rw [hfind, if_neg (by simpa using hk)])
  | markExpired cutoff n =>
    have hfind := find?_setStatus s (ServerState.expiredBy cutoff) .expired f
    cases hrow : s.files.find? f with
    | none => exact .inl (by rw [hfind, hrow]; rfl)
    | some row =>
      rw [hrow, Option.map_some] at hfind
      by_cases hk : ServerState.expiredBy cutoff row = true
      · have hk' := hk
        simp only [ServerState.expiredBy, decide_eq_true_eq] at hk'
        refine .inr (.inr ⟨row, .expired, .inr ⟨cutoff, n, rfl, rfl, hk'.1, hk'.2⟩, rfl, ?_⟩)
        rw [hfind, if_pos hk]
      · exact .inl (by rw [hfind, if_neg hk])
  | _ => exact .inl rfl

/-- A row that is marked has the new status. -/
theorem row_of_marks {ev : Ev} (h : Change P s ev s') {f : PyStr} {row : FileRow} {st : Status}
    (hrow : s.files.find? f = some row) (hm : Marks P ev row st) :
    s'.files.find? f = some (row.withStatus st) := by
  rcases hm with ⟨k, rfl, hk⟩ | ⟨cutoff, n, rfl, rfl, hst, hexp⟩
  · cases h with
    | read _ hop => exact absurd hop Bool.false_ne_true
    | markStatus _ hkey =>
      obtain rfl := Except.ok.inj (hkey.symm.trans hk)
      rw [find?_setStatus, hrow, Option.map_some, if_pos (by simp)]
  · cases h with
    | read _ hop => exact absurd hop Bool.false_ne_true
    | markExpired _ _ =>
      rw [find?_setStatus, hrow, Option.map_some,
        if_pos (by simp [ServerState.expiredBy, hst, hexp])]

/-- The nonces after one operation: as they were, or with a new one, or without the old
ones. -/
theorem nonces_of_change {ev : Ev} (h : Change P s ev s') :
    s'.nonces = s.nonces ∨
    (∃ row, ev = ⟨.insertNonce row.nonce row.seenAt, .ok ()⟩ ∧
      s.nonces.insert? row = some s'.nonces) ∨
    ∃ cutoff n, ev = ⟨.purgeNonces cutoff, .ok n⟩ ∧
      s'.nonces = s.nonces.delete fun row => row.seenAt < cutoff := by
  cases h with
  | insertNonce hn => exact .inr (.inl ⟨_, rfl, hn⟩)
  | purgeNonces cutoff n => exact .inr (.inr ⟨cutoff, n, rfl, rfl⟩)
  | _ => exact .inl rfl

/-- A nonce that is recorded was not there before. -/
theorem of_insertNonce {nonce : Bytes} {seenAt : ℤ}
    (h : Change P s ⟨.insertNonce nonce seenAt, .ok ()⟩ s') :
    s.nonces.find? nonce = none ∧ s'.nonces.find? nonce = some ⟨nonce, seenAt⟩ := by
  cases h with
  | read _ hop => exact absurd hop Bool.false_ne_true
  | insertNonce hins =>
    exact ⟨Table.insert?_isNew hins, (Table.find?_insert? hins _).trans (if_pos rfl)⟩

/-- A file after one operation: as it was, or written, or moved. -/
theorem disk_of_change {ev : Ev} (h : Change P s ev s') (p : Path) :
    s'.disk p = s.disk p ∨
    (∃ data r, ev = ⟨.writeTmp p data, r⟩ ∧ (r = .ok () → s'.disk p = some data)) ∨
    (∃ src data, ev = ⟨.replace src p, .ok ()⟩ ∧ s.disk src = some data ∧
      s'.disk p = some data) ∨
    ∃ dst, ev = ⟨.replace p dst, .ok ()⟩ := by
  cases h with
  | writeTmp path data =>
    by_cases hp : p = path
    · subst hp
      exact .inr (.inl ⟨data, _, rfl, fun _ => Function.update_self ..⟩)
    · exact .inl (Function.update_of_ne hp ..)
  | writePart path data part e =>
    by_cases hp : p = path
    · subst hp
      exact .inr (.inl ⟨data, _, rfl, nofun⟩)
    · exact .inl (Function.update_of_ne hp ..)
  | @replace src dst data hd =>
    by_cases hp : p = dst
    · subst hp
      exact .inr (.inr (.inl ⟨src, data, rfl, hd, Function.update_self ..⟩))
    · by_cases hs : p = src
      · subst hs
        exact .inr (.inr (.inr ⟨dst, rfl⟩))
      · refine .inl ?_
        show Function.update (Function.update s.disk src none) dst (some data) p = _
        rw [Function.update_of_ne hp, Function.update_of_ne hs]
  | _ => exact .inl rfl

/-! ### Answers -/

theorem bindText_eq_ok {t : PyStr} {u : Unit} :
    bindText t = .ok u ↔ t.any isSurrogate = false := by
  unfold bindText
  split_ifs with h <;> simp_all

theorem bindInt_eq_ok {n : ℤ} {u : Unit} : bindInt n = .ok u ↔ -2 ^ 63 ≤ n ∧ n < 2 ^ 63 := by
  unfold bindInt
  split_ifs with h
  · exact iff_of_true rfl h
  · exact iff_of_false nofun h

/-- A text is compared as itself. -/
theorem bindKey_str {t : PyStr} {key : Option PyStr} (h : bindKey P (.str t) = .ok key) :
    key = some t := by
  obtain ⟨-, -, h⟩ := bind_eq_ok.mp h
  exact (pure_eq_ok.mp h).symm

/-- Only a text is compared equal to the canonical text of a UUID: a number's text is
shorter. -/
theorem eq_str_of_bindKey {k : Json} {f : PyStr} (h : bindKey P k = .ok (some f))
    (hf : isCanonicalUuid f = true) : k = .str f := by
  have hlen := length_of_isCanonicalUuid hf
  unfold bindKey at h
  split at h
  · simp at h
  · next b =>
    obtain rfl : intRepr b.toNat = f := by simpa using h
    have hb : -2 ^ 63 ≤ (b.toNat : ℤ) ∧ (b.toNat : ℤ) < 2 ^ 63 := by cases b <;> decide
    have := length_intRepr_lt hb
    omega
  · obtain ⟨u, hu, h⟩ := bind_eq_ok.mp h
    obtain rfl := Option.some.inj (pure_eq_ok.mp h)
    have := length_intRepr_lt (bindInt_eq_ok.mp hu)
    omega
  · simp at h
  · next x _ =>
    obtain rfl : P.realText x = f := by simpa using h
    have := P.realText_short x
    omega
  · obtain ⟨-, -, h⟩ := bind_eq_ok.mp h
    rw [Option.some.inj (pure_eq_ok.mp h)]
  · exact nomatch h
  · exact nomatch h

/-- `get_file` answers with the row that has the bound key. -/
theorem of_exec_getFile {k : Json} {row : FileRow}
    (h : exec P (.getFile k) i s = (.ok (some row), s')) :
    bindKey P k = .ok (some row.fileId) ∧ s.files.find? row.fileId = some row := by
  obtain ⟨key, hkey, h⟩ := bind_eq_ok.mp (of_reading h)
  obtain ⟨f, rfl, hf⟩ := Option.bind_eq_some_iff.mp (pure_eq_ok.mp h)
  obtain rfl := Table.key_of_find? hf
  exact ⟨hkey, hf⟩

end

end Server
end ZeroTrust
