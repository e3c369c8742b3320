import ZeroTrust.Common.Protocol
import ZeroTrust.Common.Transparent
import ZeroTrust.Data.Segments

/-!
# Framing

The two lowest functions of `common/protocol.py`: a message on the wire is the length of its
body in four octets, most significant first, and the body, which is JSON.  A socket delivers
the octets in pieces that have nothing to do with the frames.

* `recvall`, `packFrame`, `recvMessage`: the functions of the source.
* `recvLoop_eq`: what `recvall` returns, whatever the pieces are.
* `framing`: what is sent is received, and nothing of the next frame is touched.
-/

namespace ZeroTrust

open Python Data

/-- What a socket still has to deliver before the peer closes the connection. -/
abbrev Socket := Segmented UInt8

/-! ## Octets of a length -/

/-- `struct.pack(">I", n)`. -/
def packLength (n : ℕ) : Bytes :=
  [UInt8.ofNat (n / 0x1000000), UInt8.ofNat (n / 0x10000 % 0x100), UInt8.ofNat (n / 0x100 % 0x100),
    UInt8.ofNat (n % 0x100)]

/-- `struct.unpack(">I", header)`. -/
def unpackLength (header : Bytes) : ℕ := header.foldl (fun n x => n * 0x100 + x.toNat) 0

/-- `_LENGTH_HEADER.size`. -/
def LENGTH_HEADER_SIZE : ℕ := 4

theorem length_packLength (n : ℕ) : (packLength n).length = LENGTH_HEADER_SIZE := rfl

/-- A length of 32 bits is read back. -/
theorem unpackLength_packLength {n : ℕ} (h : n < 2 ^ 32) : unpackLength (packLength n) = n := by
  simp only [unpackLength, packLength, List.foldl_cons, List.foldl_nil]
  rw [toNat_ofNat_of_lt (by omega), toNat_ofNat_of_lt (by omega), toNat_ofNat_of_lt (by omega),
    toNat_ofNat_of_lt (by omega)]
  omega

/-! ## Reading -/

/-- The message about a connection that ends too early. -/
def connectionClosed (got n : ℕ) : PyStr :=
  py "connection closed after " ++ intRepr got ++ py " of " ++ intRepr n ++ py " bytes"

/-- A piece that is not empty leaves fewer octets to come. -/
theorem sub_length_append_lt {n : ℕ} {buf piece : Bytes} (hlt : buf.length < n) (hne : piece ≠ []) :
    n - (buf ++ piece).length < n - buf.length := by
  have hpos := List.length_pos_iff.mpr hne
  rw [List.length_append]
  omega

/-- The loop of `recvall`. -/
def recvLoop (n : ℕ) (buf : Bytes) (s : Socket) : Except PyExn Bytes × Socket :=
  if hlt : buf.length < n then
    if hne : (s.recv (n - buf.length)).1 = [] then
      (.error (.protocolError (connectionClosed buf.length n)), (s.recv (n - buf.length)).2)
    else
      have := sub_length_append_lt hlt hne
      recvLoop n (buf ++ (s.recv (n - buf.length)).1) (s.recv (n - buf.length)).2
  else (.ok buf, s)
termination_by n - buf.length
decreasing_by exact this

/-- `recvall`. -/
def recvall (n : ℤ) (s : Socket) : Except PyExn Bytes × Socket :=
  if n < 0 then (.error .valueError, s) else recvLoop n.toNat [] s

/-- One turn of the loop. -/
theorem recvLoop_turn {n : ℕ} {buf : Bytes} {s : Socket} (hlt : buf.length < n)
    (hne : (s.recv (n - buf.length)).1 ≠ []) :
    recvLoop n buf s =
      recvLoop n (buf ++ (s.recv (n - buf.length)).1) (s.recv (n - buf.length)).2 := by
  rw [recvLoop, dif_pos hlt, dif_neg hne]

/-- **Enough octets are there**: they are collected, and what follows them is left.  The induction
is on the octets still to come. -/
theorem recvLoop_enough {n : ℕ} {buf data rest : Bytes} {s : Socket}
    (hs : s.unread = data ++ rest) (hn : buf.length + data.length = n) :
    ∃ calls ≤ data.length,
      recvLoop n buf s = (.ok (buf ++ data), ⟨rest, fun i => s.cut (i + calls)⟩) := by
  induction hlen : data.length using Nat.strong_induction_on generalizing buf data s with
  | _ m ih =>
    by_cases hlt : buf.length < n
    · have hne : (s.recv (n - buf.length)).1 ≠ [] := by
        rw [Ne, Segmented.recv_eq_nil (by omega), hs]
        intro hnil
        rw [(List.append_eq_nil_iff.mp hnil).1, List.length_nil] at hn
        omega
      have happend := (Segmented.recv_append (n - buf.length) s).trans hs
      have hle := Segmented.length_recv_le (n - buf.length) s
      have hcut := Segmented.recv_cut (n - buf.length) s
      rw [recvLoop_turn hlt hne]
      generalize s.recv (n - buf.length) = r at *
      obtain ⟨piece, s'⟩ := r
      dsimp only at happend hle hcut hne ⊢
      -- the piece is the beginning of the octets still to come
      obtain ⟨data', rfl⟩ : piece <+: data :=
        List.prefix_of_prefix_length_le ⟨_, happend⟩ (List.prefix_append ..) (by omega)
      rw [List.append_assoc] at happend
      have hrest : s'.unread = data' ++ rest := List.append_cancel_left happend
      have hpos := List.length_pos_iff.mpr hne
      rw [List.length_append] at hn hlen
      obtain ⟨calls, hcalls, hloop⟩ := @ih data'.length (by omega) (buf ++ piece) data' s' hrest
        (by rw [List.length_append]; omega) rfl
      refine ⟨calls + 1, by omega, ?_⟩
      rw [hloop, List.append_assoc, hcut]
      rfl
    · have hnil : data = [] := List.length_eq_zero_iff.mp (by omega)
      refine ⟨0, by omega, ?_⟩
      rw [recvLoop, dif_neg hlt, hnil, List.append_nil]
      rw [hnil, List.nil_append] at hs
      obtain ⟨unread, cut⟩ := s
      subst hs
      rfl

/-- **Too few octets are there**: the connection is closed early. -/
theorem recvLoop_short {n : ℕ} {buf : Bytes} {s : Socket} (hn : buf.length + s.unread.length < n) :
    ∃ calls ≤ s.unread.length + 1, recvLoop n buf s =
      (.error (.protocolError (connectionClosed (buf.length + s.unread.length) n)),
        ⟨[], fun i => s.cut (i + calls)⟩) := by
  induction hlen : s.unread.length using Nat.strong_induction_on generalizing buf s with
  | _ m ih =>
    have hlt : buf.length < n := by omega
    by_cases hnil : s.unread = []
    · have hpiece : (s.recv (n - buf.length)).1 = [] :=
        (Segmented.recv_eq_nil (by omega)).mpr hnil
      have happend := Segmented.recv_append (n - buf.length) s
      rw [hpiece, List.nil_append, hnil] at happend
      rw [hnil, List.length_nil] at hlen
      refine ⟨1, by omega, ?_⟩
      rw [recvLoop, dif_pos hlt, dif_pos hpiece, ← hlen, Nat.add_zero]
      refine Prod.ext rfl ?_
      show Segmented.mk (s.recv (n - buf.length)).2.unread _ = _
      rw [happend]
    · have hne : (s.recv (n - buf.length)).1 ≠ [] := by
        rw [Ne, Segmented.recv_eq_nil (by omega)]
        exact hnil
      have happend := congrArg List.length (Segmented.recv_append (n - buf.length) s)
      have hcut := Segmented.recv_cut (n - buf.length) s
      have hpos := List.length_pos_iff.mpr hne
      rw [List.length_append] at happend
      rw [recvLoop_turn hlt hne]
      obtain ⟨calls, hcalls, hloop⟩ := @ih (s.recv (n - buf.length)).2.unread.length (by omega)
        (buf ++ (s.recv (n - buf.length)).1) _ (by rw [List.length_append]; omega) rfl
      refine ⟨calls + 1, by omega, ?_⟩
      rw [hloop, hcut, List.length_append]
      have hgot : buf.length + (s.recv (n - buf.length)).1.length +
          (s.recv (n - buf.length)).2.unread.length = buf.length + m := by omega
      rw [hgot]
      rfl

theorem recvall_natCast (n : ℕ) (s : Socket) : recvall n s = recvLoop n [] s := by
  rw [recvall, if_neg (by omega), Int.toNat_natCast]

/-! ## Messages -/

variable (P : Primitives)

/-- `pack_message`: the length of the body, and the body. -/
def packFrame (msg : Json) : Except PyExn Bytes :=
  match msg with
  | .obj fields => do
      let body ← encodeText (dumps P wireOptions (.obj fields))
      if MAX_MESSAGE_BYTES < body.length then
        throw (.protocolError (py "message too large: " ++ intRepr body.length ++ py " > " ++
          intRepr MAX_MESSAGE_BYTES))
      else return packLength body.length ++ body
  | _ => throw .typeError

/-- The body of a message: UTF-8 that `json.loads` reads as an object. -/
def readBody (body : Bytes) : Except PyExn Obj :=
  match utf8Decode body with
  | none => throw (.protocolError (py "malformed JSON message"))
  | some text =>
      match P.jsonLoads text with
      | .ok (.obj fields) => return fields
      | .ok _ => throw (.protocolError (py "top-level message must be a JSON object"))
      | .error .jsonDecodeError => throw (.protocolError (py "malformed JSON message"))
      | .error e => throw e

/-- The message about a length over the limit. -/
def lengthExceeded (length : ℕ) : PyStr :=
  py "declared message length " ++ intRepr length ++ py " exceeds limit " ++
    intRepr MAX_MESSAGE_BYTES

/-- `recv_message`. -/
def recvMessage (s : Socket) : Except PyExn Obj × Socket :=
  match recvall LENGTH_HEADER_SIZE s with
  | (.error e, s) => (.error e, s)
  | (.ok header, s) =>
      if MAX_MESSAGE_BYTES < unpackLength header then
        (.error (.protocolError (lengthExceeded (unpackLength header))), s)
      else
        match recvall (unpackLength header) s with
        | (.error e, s) => (.error e, s)
        | (.ok body, s) => (readBody P body, s)

/-- So many messages, one after the other. -/
def recvMessages : ℕ → Socket → List (Except PyExn Obj) × Socket
  | 0, s => ([], s)
  | k + 1, s =>
      let (msg, s) := recvMessage P s
      let (msgs, s) := recvMessages k s
      (msg :: msgs, s)

/-- What `pack_message` accepts, and what it makes of it. -/
theorem packFrame_eq_ok {msg : Json} {frame : Bytes} :
    packFrame P msg = .ok frame ↔ ∃ fields body, msg = .obj fields ∧
      utf8Encode (dumps P wireOptions (.obj fields)) = some body ∧
      body.length ≤ MAX_MESSAGE_BYTES ∧ frame = packLength body.length ++ body := by
  cases msg with
  | obj fields =>
    rw [packFrame]
    constructor
    · intro h
      obtain ⟨body, hbody, h⟩ := bind_eq_ok.mp h
      split_ifs at h with hlen
      · exact ⟨fields, body, rfl, encodeText_eq_ok.mp hbody, by omega, (pure_eq_ok.mp h).symm⟩
    · rintro ⟨fields', body, hfields, hbody, hlen, rfl⟩
      obtain rfl := Json.obj.inj hfields
      rw [encodeText_eq_ok.mpr hbody, ok_bind, if_neg (by omega)]
      rfl
  | _ => simp [packFrame, throw, throwThe, MonadExceptOf.throw]

/-- Where the body is ASCII, as escaped JSON is, `packMessage` is the function without the length
in front. -/
theorem packFrame_of_ascii {fields : Obj}
    (hascii : ∀ c ∈ dumps P wireOptions (.obj fields), c.val < 0x80) {frame : Bytes} :
    packFrame P (.obj fields) = .ok frame ↔ ∃ body, packMessage P (.obj fields) = .ok body ∧
      frame = packLength body.length ++ body.map fun c => UInt8.ofNat c.val := by
  have hencode := utf8Encode_of_ascii hascii
  simp only [packFrame_eq_ok, packMessage]
  constructor
  · rintro ⟨fields', body, hfields, hbody, hlen, rfl⟩
    obtain rfl := Json.obj.inj hfields
    obtain rfl := Option.some.inj (hencode.symm.trans hbody)
    rw [List.length_map] at hlen ⊢
    exact ⟨_, if_neg (by omega), rfl⟩
  · rintro ⟨body, hbody, rfl⟩
    split_ifs at hbody with hlen
    obtain rfl := Except.ok.inj hbody
    exact ⟨fields, _, rfl, hencode, by rw [List.length_map]; omega, by rw [List.length_map]⟩

section

variable {P} {s : Socket}

/-- **A frame is received** as what was sent, and what follows it is left. -/
theorem recvMessage_frame {fields : Obj} {frame rest : Bytes}
    (hframe : packFrame P (.obj fields) = .ok frame)
    (hjson : P.jsonLoads (dumps P wireOptions (.obj fields)) = .ok (.obj fields))
    (hs : s.unread = frame ++ rest) :
    ∃ calls, recvMessage P s = (.ok fields, ⟨rest, fun i => s.cut (i + calls)⟩) := by
  obtain ⟨fields', body, hfields, hbody, hlen, rfl⟩ := (packFrame_eq_ok P).mp hframe
  obtain rfl := Json.obj.inj hfields
  have hsize : body.length < 2 ^ 32 := by
    rw [MAX_MESSAGE_BYTES] at hlen
    omega
  rw [List.append_assoc] at hs
  obtain ⟨calls, -, hheader⟩ := @recvLoop_enough LENGTH_HEADER_SIZE [] _ _ _ hs rfl
  rw [← recvall_natCast, List.nil_append] at hheader
  obtain ⟨calls', -, hrest⟩ := @recvLoop_enough body.length [] body rest
    ⟨body ++ rest, fun i => s.cut (i + calls)⟩ rfl (Nat.zero_add _)
  rw [← recvall_natCast, List.nil_append] at hrest
  have hread : readBody P body = .ok fields := by
    rw [readBody, utf8Decode_utf8Encode hbody]
    dsimp only
    rw [hjson]
    rfl
  refine ⟨calls' + calls, ?_⟩
  rw [recvMessage, hheader]
  dsimp only
  rw [unpackLength_packLength hsize, if_neg (by omega), hrest]
  dsimp only
  rw [hread]
  simp only [Nat.add_assoc]

/-- A length over the limit is refused when no more than the header has been read. -/
theorem recvMessage_exceeded {header rest : Bytes} (hheader : header.length = LENGTH_HEADER_SIZE)
    (hlen : MAX_MESSAGE_BYTES < unpackLength header) (hs : s.unread = header ++ rest) :
    ∃ calls, recvMessage P s =
      (.error (.protocolError (lengthExceeded (unpackLength header))),
        ⟨rest, fun i => s.cut (i + calls)⟩) := by
  obtain ⟨calls, -, hread⟩ := @recvLoop_enough LENGTH_HEADER_SIZE [] _ _ _ hs
    (by rw [hheader]; rfl)
  rw [← recvall_natCast, List.nil_append] at hread
  refine ⟨calls, ?_⟩
  rw [recvMessage, hread]
  dsimp only
  rw [if_pos hlen]

/-- A stream that ends within the header, or within the body that the header announces. -/
def Truncated (stream : Bytes) : Prop :=
  stream.length < LENGTH_HEADER_SIZE ∨
    ∃ header body, stream = header ++ body ∧ header.length = LENGTH_HEADER_SIZE ∧
      unpackLength header ≤ MAX_MESSAGE_BYTES ∧ body.length < unpackLength header

/-- A stream that ends too early is refused, in the same words however it is delivered. -/
theorem recvMessage_truncated {stream : Bytes} (h : Truncated stream) :
    ∃ msg, ∀ cut, (recvMessage P ⟨stream, cut⟩).1 = .error (.protocolError msg) := by
  rcases h with hlen | ⟨header, body, rfl, hheader, hlimit, hlen⟩
  · refine ⟨connectionClosed (0 + stream.length) LENGTH_HEADER_SIZE, fun cut => ?_⟩
    obtain ⟨calls, -, hread⟩ := @recvLoop_short LENGTH_HEADER_SIZE [] ⟨stream, cut⟩
      (by rwa [List.length_nil, Nat.zero_add])
    rw [← recvall_natCast] at hread
    rw [recvMessage, hread]
    rfl
  · refine ⟨connectionClosed (0 + body.length) (unpackLength header), fun cut => ?_⟩
    obtain ⟨calls, -, hread⟩ := @recvLoop_enough LENGTH_HEADER_SIZE [] header body
      ⟨header ++ body, cut⟩ rfl (by rw [hheader]; rfl)
    rw [← recvall_natCast, List.nil_append] at hread
    obtain ⟨calls', -, hrest⟩ := @recvLoop_short (unpackLength header) []
      ⟨body, fun i => cut (i + calls)⟩ (by rwa [List.length_nil, Nat.zero_add])
    rw [← recvall_natCast] at hrest
    rw [recvMessage, hread]
    dsimp only
    rw [if_neg (by omega), hrest]
    rfl

/-- **Frames one after the other**: by induction on the messages. -/
theorem recvMessages_frames {msgs : List Obj} {frames : List Bytes} {rest : Bytes}
    (hframes : List.Forall₂ (fun fields frame => packFrame P (.obj fields) = .ok frame) msgs frames)
    (hjson : ∀ fields ∈ msgs,
      P.jsonLoads (dumps P wireOptions (.obj fields)) = .ok (.obj fields))
    (hs : s.unread = frames.flatten ++ rest) :
    (recvMessages P msgs.length s).1 = msgs.map .ok ∧
      (recvMessages P msgs.length s).2.unread = rest := by
  induction hframes generalizing s with
  | nil => exact ⟨rfl, hs⟩
  | @cons fields frame msgs frames hframe _ ih =>
    rw [List.flatten_cons, List.append_assoc] at hs
    obtain ⟨calls, hmsg⟩ := recvMessage_frame hframe (hjson fields List.mem_cons_self) hs
    obtain ⟨hmsgs, hrest⟩ := @ih ⟨frames.flatten ++ rest, fun i => s.cut (i + calls)⟩
      (fun fields hmem => hjson fields (List.mem_cons_of_mem _ hmem)) rfl
    rw [List.length_cons, recvMessages, hmsg]
    dsimp only
    rw [hmsgs, List.map_cons]
    exact ⟨rfl, hrest⟩

/-- `recvall` ends: it asks the socket `n` times at most. -/
theorem exists_calls_recvall (n : ℕ) (s : Socket) :
    ∃ calls ≤ n, (recvall n s).2.cut = fun i => s.cut (i + calls) := by
  rw [recvall_natCast]
  by_cases h : n ≤ s.unread.length
  · have hs : s.unread = s.unread.take n ++ s.unread.drop n := (List.take_append_drop ..).symm
    have hlen : (s.unread.take n).length = n := by rw [List.length_take, min_eq_left h]
    obtain ⟨calls, hcalls, hloop⟩ := @recvLoop_enough n [] _ _ _ hs
      (by rw [List.length_nil, Nat.zero_add, hlen])
    exact ⟨calls, by omega, by rw [hloop]⟩
  · obtain ⟨calls, hcalls, hloop⟩ := @recvLoop_short n [] s
      (by rw [List.length_nil]; omega)
    exact ⟨calls, by omega, by rw [hloop]⟩

end

/-- **The frames on the wire.**  However a socket cuts a stream into pieces: messages that were
packed are received as they were, one after the other, and what follows them is left; a stream
that ends within a frame is refused, and so is a length over the limit, of which the header only
has been read; and no reading goes on for ever. -/
theorem framing :
    (∀ (msgs : List Obj) (frames : List Bytes),
      List.Forall₂ (fun fields frame => packFrame P (.obj fields) = .ok frame) msgs frames →
      (∀ fields ∈ msgs, P.jsonLoads (dumps P wireOptions (.obj fields)) = .ok (.obj fields)) →
      ∀ (rest : Bytes) (cut : ℕ → ℕ),
        (recvMessages P msgs.length ⟨frames.flatten ++ rest, cut⟩).1 = msgs.map .ok ∧
          (recvMessages P msgs.length ⟨frames.flatten ++ rest, cut⟩).2.unread = rest) ∧
    (∀ stream, Truncated stream →
      ∃ msg, ∀ cut, (recvMessage P ⟨stream, cut⟩).1 = .error (.protocolError msg)) ∧
    (∀ header rest : Bytes, header.length = LENGTH_HEADER_SIZE →
      MAX_MESSAGE_BYTES < unpackLength header →
      ∃ msg, ∀ cut, (recvMessage P ⟨header ++ rest, cut⟩).1 = .error (.protocolError msg) ∧
        (recvMessage P ⟨header ++ rest, cut⟩).2.unread = rest) ∧
    ∀ (n : ℕ) (s : Socket), ∃ calls ≤ n, (recvall n s).2.cut = fun i => s.cut (i + calls) := by
  refine ⟨fun msgs frames hframes hjson rest cut => recvMessages_frames hframes hjson rfl,
    fun stream h => recvMessage_truncated h, fun header rest hheader hlen =>
      ⟨lengthExceeded (unpackLength header), fun cut => ?_⟩,
    exists_calls_recvall⟩
  obtain ⟨calls, hmsg⟩ := @recvMessage_exceeded P ⟨header ++ rest, cut⟩ header rest hheader hlen rfl
  rw [hmsg]
  exact ⟨rfl, rfl⟩

/-- Two messages, octet by octet, and one octet more. -/
theorem framing_sample :
    (recvMessages (.transparent [(py "\x7b\x7d", .obj [])]) 2
      ⟨[0, 0, 0, 2, 123, 125, 0, 0, 0, 2, 123, 125, 7], fun _ => 1⟩).1 = [.ok [], .ok []] ∧
    (recvMessages (.transparent [(py "\x7b\x7d", .obj [])]) 2
      ⟨[0, 0, 0, 2, 123, 125, 0, 0, 0, 2, 123, 125, 7], fun _ => 1⟩).2.unread = [7] :=
  (framing (.transparent [(py "\x7b\x7d", .obj [])])).1 [[], []]
    [[0, 0, 0, 2, 123, 125], [0, 0, 0, 2, 123, 125]]
    (.cons (by decide) (.cons (by decide) .nil)) (by decide) [7] fun _ => 1

end ZeroTrust
