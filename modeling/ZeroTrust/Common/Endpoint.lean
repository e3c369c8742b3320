import ZeroTrust.Ca.Cert
import ZeroTrust.Common.FileCrypto
import ZeroTrust.Common.Protocol
import Mathlib.Logic.Function.Basic

/-!
# One end of a connection

The operations of a party that talks over one socket: the client's functions and the two
handshakes.  What the party receives, and whether an operation fails, is up to the
environment; so a party alone with its environment is a party that faces an arbitrary peer.

A signature and an OAEP encryption draw randomness of their own, so they are operations too;
verification and decryption draw none and are functions.

* `Op`, `Op.Ans`: the operations and their answers.
* `exec`: what an operation does, given the environment's input and the local files.
* `request`: one request and its reply, as every client function makes it.
-/

namespace ZeroTrust
namespace Endpoint

open Python Effects

/-- A local file, by the components of its path. -/
abbrev LocalPath := List PyStr

/-- The operations of one end of a connection. -/
inductive Op where
  | time
  | urandom (n : ℕ)
  | uuid4
  | sign (pem password data : Bytes)
  | oaepEncrypt (pem data : Bytes)
  | send (type : MessageType) (payload : Obj)
  | recv
  | isFile (path : LocalPath)
  | statSize (path : LocalPath)
  | readFile (path : LocalPath)
  | makeParent (path : LocalPath)
  | writeFile (path : LocalPath) (data : Bytes)
  | replace (src dst : LocalPath)
  | unlink (path : LocalPath)
  deriving DecidableEq

/-- What an operation answers with. -/
abbrev Op.Ans : Op → Type
  | .time => ℤ
  | .urandom _ => Bytes
  | .uuid4 => PyStr
  | .sign _ _ _ => Bytes
  | .oaepEncrypt _ _ => Bytes
  | .send _ _ => Unit
  | .recv => Obj
  | .isFile _ => Bool
  | .statSize _ => ℕ
  | .readFile _ => Bytes
  | .makeParent _ => Unit
  | .writeFile _ _ => Unit
  | .replace _ _ => Unit
  | .unlink _ => Unit

instance : (e : Op) → DecidableEq e.Ans
  | .time => inferInstanceAs (DecidableEq ℤ)
  | .urandom _ | .sign _ _ _ | .oaepEncrypt _ _ | .readFile _ =>
    inferInstanceAs (DecidableEq Bytes)
  | .uuid4 => inferInstanceAs (DecidableEq PyStr)
  | .recv => inferInstanceAs (DecidableEq Obj)
  | .isFile _ => inferInstanceAs (DecidableEq Bool)
  | .statSize _ => inferInstanceAs (DecidableEq ℕ)
  | .send _ _ | .makeParent _ | .writeFile _ _ | .replace _ _ | .unlink _ =>
    inferInstanceAs (DecidableEq Unit)

/-- An operation answers or raises. -/
abbrev Op.Res (e : Op) : Type := Except PyExn e.Ans

/-- An executed operation. -/
abbrev Ev := Event Op Op.Res

/-- A program of one end: it issues operations, and may raise. -/
abbrev EndpointM := ExceptT PyExn (Prog Op Op.Res)

/-! ## What the operations do -/

/-- The local files. -/
abbrev Files := LocalPath → Option Bytes

/-- What the environment supplies to an operation. -/
structure Input where
  /-- `int(time.time())`. -/
  now : ℤ
  /-- An exception raised in place of the operation. -/
  fault : Option PyExn
  /-- How many octets of a failing write still reach the disk, if the file was opened. -/
  written : Option ℕ
  /-- The octets that `os.urandom` draws. -/
  random : ℕ → UInt8
  /-- The UUID that `uuid.uuid4` draws, and the request id of an envelope. -/
  uuid : ℕ
  /-- What `recv_message` returns or raises. -/
  message : Except PyExn Obj

/-- `os.urandom(n)`. -/
def Input.octets (i : Input) (n : ℕ) : Bytes := (List.range n).map i.random

@[simp] theorem Input.length_octets (i : Input) (n : ℕ) : (i.octets n).length = n := by
  rw [octets, List.length_map, List.length_range]

section

variable {α : Type} (i : Input) (s : Files)

/-- An operation that leaves the files alone: the environment may raise in its place. -/
def reading (x : Except PyExn α) : Except PyExn α × Files :=
  match i.fault with
  | some e => (.error e, s)
  | none => (x, s)

/-- An operation on the files: it is done as a whole, or raises and changes nothing. -/
def writing (x : Except PyExn Files) : Except PyExn Unit × Files :=
  match i.fault, x with
  | some e, _ => (.error e, s)
  | none, .error e => (.error e, s)
  | none, .ok s' => (.ok (), s')

/-- The writing of a file: where it raises, part of the file may be there. -/
def writingPart (path : LocalPath) (data : Bytes) : Except PyExn Unit × Files :=
  match i.fault, i.written with
  | some e, some n => (.error e, Function.update s path (some (data.take n)))
  | some e, none => (.error e, s)
  | none, _ => (.ok (), Function.update s path (some data))

/-- The content of a file that is there. -/
def readPath (path : LocalPath) : Except PyExn Bytes :=
  match s path with
  | some data => .ok data
  | none => .error .osError

/-- `os.replace`. -/
def replacePath (src dst : LocalPath) : Except PyExn Files :=
  match s src with
  | some data => .ok (Function.update (Function.update s src none) dst (some data))
  | none => .error .osError

end

/-- What an operation answers and does. -/
def exec (P : Primitives) : Exec Op Op.Res Input Files
  | .time, i, s => (.ok i.now, s)
  | .urandom n, i, s => (.ok (i.octets n), s)
  | .uuid4, i, s => (.ok (uuidStr i.uuid), s)
  | .sign pem password data, i, s => (rsaSign P pem password data (i.octets 32), s)
  | .oaepEncrypt pem data, i, s => (rsaOaepEncrypt P pem data (i.octets 32), s)
  | .send type payload, i, s =>
      reading i s ((packMessage P (makeEnvelope type payload (i.octets 16) i.now
        (uuidStr i.uuid))).map fun _ => ())
  | .recv, i, s => reading i s i.message
  | .isFile path, i, s => reading i s (.ok (s path).isSome)
  | .statSize path, i, s => reading i s ((readPath s path).map List.length)
  | .readFile path, i, s => reading i s (readPath s path)
  | .makeParent _, i, s => reading i s (.ok ())
  | .writeFile path data, i, s => writingPart i s path data
  | .replace src dst, i, s => writing i s (replacePath s src dst)
  | .unlink path, i, s => writing i s (.ok (Function.update s path none))

/-! ## Requests -/

/-- `send_message(sock, make_envelope(type, payload))`. -/
def sendMessage (type : MessageType) (payload : Obj) : EndpointM Unit := act (Op.send type payload)

/-- `validate_envelope(recv_message(sock))`. -/
def recvEnvelope : EndpointM Envelope := do
  let msg ← act Op.recv
  raising (validateEnvelope (.obj msg))

/-- A request, its reply, and the two checks that every client function makes of the
reply's type.  The reply's payload is returned. -/
def request (P : Primitives) (type : MessageType) (payload : Obj) (expected : MessageType) :
    EndpointM Obj := do
  sendMessage type payload
  let reply ← recvEnvelope
  if reply.type = .ERROR then
    throw (.protocolError (strOf P ((dictGet reply.payload "code").getD (.str (py "ERROR")))))
  else if reply.type ≠ expected then
    throw (.protocolError (py "expected " ++ expected.name ++ py ", got '" ++ reply.type.name ++
      py "'"))
  else return reply.payload

/-! ## Rules -/

/-- Whether an operation signs. -/
def Op.isSign : Op → Bool
  | .sign _ _ _ => true
  | _ => false

/-- A history in which nothing has been signed. -/
def Unsigned (h : List Ev) : Prop := ∀ ev ∈ h, ev.op.isSign = false

theorem unsigned_nil : Unsigned [] := List.forall_mem_nil _

theorem unsigned_cons {ev : Ev} {h : List Ev} :
    Unsigned (ev :: h) ↔ ev.op.isSign = false ∧ Unsigned h := List.forall_mem_cons

theorem unsigned_append {g h : List Ev} : Unsigned (g ++ h) ↔ Unsigned g ∧ Unsigned h :=
  List.forall_mem_append

section

variable {P : Primitives} {α : Type} {A : List Ev → Op → Prop} {h : List Ev}

/-- A message is awaited: it comes and is an envelope, or something is raised. -/
theorem wpE_recvEnvelope {Q : List Ev → Except PyExn Envelope → Prop} (hA : A h .recv)
    (hok : ∀ msg env, validateEnvelope (.obj msg) = .ok env → Q (⟨.recv, .ok msg⟩ :: h) (.ok env))
    (hraise : ∀ r x, Q (⟨.recv, r⟩ :: h) (.error x)) : wpE (.isolated A) recvEnvelope h Q := by
  rw [recvEnvelope, wpE_act_bind]
  refine ⟨hA, fun x => hraise _ x, fun msg => ?_⟩
  rw [wpE_raising]
  cases hv : validateEnvelope (.obj msg) with
  | error x => exact hraise _ x
  | ok env => exact hok msg env hv

/-- A request that is answered as expected has sent its message and received its reply. -/
theorem wpE_request {type expected : MessageType} {payload : Obj}
    {Q : List Ev → Except PyExn Obj → Prop} (hsend : A h (.send type payload))
    (hrecv : A (⟨.send type payload, .ok ()⟩ :: h) .recv)
    (hok : ∀ msg env, validateEnvelope (.obj msg) = .ok env → env.type = expected →
      Q (⟨.recv, .ok msg⟩ :: ⟨.send type payload, .ok ()⟩ :: h) (.ok env.payload))
    (hraise : ∀ g x, Q g (.error x)) :
    wpE (.isolated A) (request P type payload expected) h Q := by
  rw [request, sendMessage, wpE_act_bind]
  refine ⟨hsend, fun x => hraise _ x, fun _ => ?_⟩
  rw [wpE_bind]
  refine wpE_recvEnvelope hrecv (fun msg env henv => ?_) fun r x => hraise _ x
  dsimp only
  by_cases herr : env.type = .ERROR
  · rw [if_pos herr]
    exact hraise _ _
  · rw [if_neg herr]
    by_cases hne : env.type = expected
    · rw [if_neg (not_not.mpr hne)]
      exact hok msg env henv hne
    · rw [if_pos hne]
      exact hraise _ _

/-- A certificate is checked: the program goes on with `True` only after a check at the time
it has read. -/
theorem wpE_verify {cert : Json} {ca : Bytes} {subject : Option PyStr}
    {f : Bool → EndpointM α} {Q : List Ev → Except PyExn α → Prop} (hA : A h .time)
    (htrue : ∀ c now, cert = .obj c → CertCheck P ca c now subject →
      wpE (.isolated A) (f true) (⟨.time, .ok now⟩ :: h) Q)
    (hfalse : ∀ g, g = h ∨ (∃ r, g = ⟨.time, r⟩ :: h) → wpE (.isolated A) (f false) g Q)
    (hraise : ∀ g x, g = h ∨ (∃ r, g = ⟨.time, r⟩ :: h) → Q g (.error x)) :
    wpE (.isolated A) (verifyCertificate P (act Op.time) cert ca subject >>= f) h Q := by
  rw [wpE_bind]
  refine wpE_verifyCertificate (fun r hr => ?_) fun c hc hs => ?_
  · rcases r with x | (_ | _)
    · exact hraise h x (.inl rfl)
    · exact hfalse h (.inl rfl)
    · exact absurd rfl hr
  · refine wpE_act.mpr ⟨hA, fun r => ?_⟩
    rcases r with x | now
    · exact hraise _ x (.inr ⟨_, rfl⟩)
    · dsimp only
      rcases hv : certVerdict c now subject with x | (_ | _)
      · exact hraise _ x (.inr ⟨_, rfl⟩)
      · exact hfalse _ (.inr ⟨_, rfl⟩)
      · obtain ⟨hd, hsub⟩ := certVerdict_eq_ok_true.mp hv
        exact htrue c now hc ⟨hs, hd, hsub⟩

end

/-! ## Encryption -/

/-- `aes_gcm_encrypt`: the nonce that it draws, and the ciphertext with its tag. -/
def aesGcmEncrypt (P : Primitives) (key plaintext aad : Bytes) : EndpointM (Bytes × Bytes) :=
  if key.length ≠ AES_KEY_BYTES then throw .valueError
  else do
    let nonce ← act (Op.urandom AES_NONCE_BYTES)
    return (nonce, P.aesGcmEncrypt key nonce plaintext aad)

/-- `encrypt_file_blob`: the nonce, the ciphertext and the key. -/
def encryptFileBlob (P : Primitives) (plaintext : Bytes) (fileId sender recipient : PyStr) :
    EndpointM (Bytes × Bytes × Bytes) := do
  let aesKey ← act (Op.urandom AES_KEY_BYTES)
  let aad ← raising (fileAad fileId sender recipient)
  let (nonce, ciphertext) ← aesGcmEncrypt P aesKey plaintext aad
  return (nonce, ciphertext, aesKey)

/-- `wrap_aes_key_for`. -/
def wrapAesKeyFor (recipientCert : Obj) (aesKey : Bytes) : EndpointM Bytes :=
  if aesKey.length ≠ AES_KEY_BYTES then throw .valueError
  else do
    let pubPem ← raising (certPem recipientCert)
    act (Op.oaepEncrypt pubPem aesKey)

end Endpoint
end ZeroTrust
