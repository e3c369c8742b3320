import ZeroTrust.Common.Framing
import ZeroTrust.Common.Handshake
import ZeroTrust.Common.WireSize
import ZeroTrust.Effects.Link

/-!
# Two ends of a TCP connection

What an end sends is octets in a stream, and `recv_message` of the other end reads a frame off it:
it waits until the frame is complete or the connection is closed, and how the octets are cut into
pieces on their way is of no account.

* `isPartial`: `recv_message` would have to wait.
* `recvMessage_append`: what arrives later does not change what is received.
* `IsFrame`: a complete message.
* `hearFrame`, `speakFrame`, `socket`: an end of a connection as a port.
-/

namespace ZeroTrust

open Python Effects Endpoint Data

variable {P : Primitives}

/-! ## Reading a frame off a stream -/

/-- The stream ends within the header, or within the body that the header announces. -/
def isPartial (stream : Bytes) : Bool :=
  stream.length < LENGTH_HEADER_SIZE ||
    (unpackLength (stream.take LENGTH_HEADER_SIZE) ≤ MAX_MESSAGE_BYTES &&
      stream.length - LENGTH_HEADER_SIZE < unpackLength (stream.take LENGTH_HEADER_SIZE))

theorem isPartial_iff {stream : Bytes} : isPartial stream = true ↔ Truncated stream := by
  rw [isPartial, Bool.or_eq_true, Bool.and_eq_true, decide_eq_true_iff, decide_eq_true_iff,
    decide_eq_true_iff, Truncated]
  refine or_congr_right' fun hlen => ?_
  rw [not_lt] at hlen
  constructor
  · rintro ⟨hmax, hbody⟩
    refine ⟨_, _, (List.take_append_drop LENGTH_HEADER_SIZE stream).symm, ?_, hmax, ?_⟩
    · rw [List.length_take, min_eq_left hlen]
    · rwa [List.length_drop]
  · rintro ⟨header, body, rfl, hheader, hmax, hbody⟩
    rw [List.take_left' hheader, List.length_append, hheader, Nat.add_sub_cancel_left]
    exact ⟨hmax, hbody⟩

/-- No more octets make a complete message incomplete. -/
theorem isPartial_append {stream said : Bytes} (h : isPartial stream = false) :
    isPartial (stream ++ said) = false := by
  simp only [isPartial, Bool.or_eq_false_iff, Bool.and_eq_false_iff, decide_eq_false_iff_not, not_lt,
    not_le] at h ⊢
  obtain ⟨hlen, hbody⟩ := h
  rw [List.take_append_of_le_length hlen, List.length_append]
  exact ⟨by omega, hbody.imp id (by omega)⟩

/-- The parts of a stream that holds a frame, or a length over the limit. -/
theorem exists_parts {stream : Bytes} (h : isPartial stream = false) :
    ∃ header rest, stream = header ++ rest ∧ header.length = LENGTH_HEADER_SIZE ∧
      (MAX_MESSAGE_BYTES < unpackLength header ∨
        unpackLength header ≤ MAX_MESSAGE_BYTES ∧ unpackLength header ≤ rest.length) := by
  simp only [isPartial, Bool.or_eq_false_iff, Bool.and_eq_false_iff, decide_eq_false_iff_not, not_lt,
    not_le] at h
  obtain ⟨hlen, hbody⟩ := h
  refine ⟨_, _, (List.take_append_drop LENGTH_HEADER_SIZE stream).symm, ?_, ?_⟩
  · rw [List.length_take, min_eq_left hlen]
  · rcases lt_or_ge MAX_MESSAGE_BYTES (unpackLength (stream.take LENGTH_HEADER_SIZE)) with hmax | hmax
    · exact .inl hmax
    · rw [List.length_drop]
      exact .inr ⟨hmax, hbody.resolve_left (not_lt.mpr hmax)⟩

/-- A frame is received whatever follows it, and however it is cut. -/
theorem recvMessage_body {header body rest : Bytes} (hheader : header.length = LENGTH_HEADER_SIZE)
    (hmax : unpackLength header ≤ MAX_MESSAGE_BYTES) (hbody : body.length = unpackLength header)
    (cut : ℕ → ℕ) : (recvMessage P ⟨header ++ (body ++ rest), cut⟩).1 = readBody P body ∧
      (recvMessage P ⟨header ++ (body ++ rest), cut⟩).2.unread = rest := by
  obtain ⟨calls, -, hread⟩ := @recvLoop_enough LENGTH_HEADER_SIZE [] header (body ++ rest)
    ⟨header ++ (body ++ rest), cut⟩ rfl (by rw [hheader]; rfl)
  rw [← recvall_natCast, List.nil_append] at hread
  obtain ⟨calls', -, hrest⟩ := @recvLoop_enough (unpackLength header) [] body rest
    ⟨body ++ rest, fun i => cut (i + calls)⟩ rfl (by rw [hbody]; exact Nat.zero_add _)
  rw [← recvall_natCast, List.nil_append] at hrest
  rw [recvMessage, hread]
  dsimp only
  rw [if_neg (not_lt.mpr hmax), hrest]
  exact ⟨rfl, rfl⟩

/-- **What arrives later does not change what is received**, and nothing of it is read. -/
theorem recvMessage_append {stream : Bytes} (h : isPartial stream = false) :
    ∃ r rest, ∀ said cut, (recvMessage P ⟨stream ++ said, cut⟩).1 = r ∧
      (recvMessage P ⟨stream ++ said, cut⟩).2.unread = rest ++ said := by
  obtain ⟨header, rest, rfl, hheader, hmax | ⟨hmax, hlen⟩⟩ := exists_parts h
  · refine ⟨.error (.protocolError (lengthExceeded (unpackLength header))), rest,
      fun said cut => ?_⟩
    obtain ⟨calls, hmsg⟩ := @recvMessage_exceeded P ⟨header ++ rest ++ said, cut⟩ header
      (rest ++ said) hheader hmax (List.append_assoc ..)
    rw [hmsg]
    exact ⟨rfl, rfl⟩
  · refine ⟨readBody P (rest.take (unpackLength header)), rest.drop (unpackLength header),
      fun said cut => ?_⟩
    have hbody : (rest.take (unpackLength header)).length = unpackLength header := by
      rw [List.length_take, min_eq_left hlen]
    have hsplit : header ++ rest ++ said = header ++ (rest.take (unpackLength header) ++
        (rest.drop (unpackLength header) ++ said)) := by
      rw [List.append_assoc, ← List.append_assoc (rest.take _), List.take_append_drop]
    rw [hsplit]
    exact recvMessage_body hheader hmax hbody cut

/-! ## Frames -/

/-- A frame: a body that is not too long, after a header with its length. -/
def IsFrame (frame : Bytes) : Prop :=
  ∃ header body : Bytes, frame = header ++ body ∧ header.length = LENGTH_HEADER_SIZE ∧
    unpackLength header ≤ MAX_MESSAGE_BYTES ∧ body.length = unpackLength header

theorem IsFrame.ne_nil {frame : Bytes} (h : IsFrame frame) : frame ≠ [] := by
  obtain ⟨header, body, rfl, hheader, -, -⟩ := h
  intro hnil
  rw [(List.append_eq_nil_iff.mp hnil).1] at hheader
  cases hheader

/-- A frame is cut off a stream in one way only. -/
theorem IsFrame.append_inj {frame frame' rest rest' : Bytes} (h : IsFrame frame)
    (h' : IsFrame frame') (heq : frame ++ rest = frame' ++ rest') :
    frame = frame' ∧ rest = rest' := by
  obtain ⟨header, body, rfl, hheader, -, hlen⟩ := h
  obtain ⟨header', body', rfl, hheader', -, hlen'⟩ := h'
  rw [List.append_assoc, List.append_assoc] at heq
  obtain ⟨rfl, hbody⟩ := List.append_inj heq (hheader.trans hheader'.symm)
  obtain ⟨rfl, rfl⟩ := List.append_inj hbody (hlen.trans hlen'.symm)
  exact ⟨rfl, rfl⟩

theorem IsFrame.whole {frame rest : Bytes} (h : IsFrame frame) :
    isPartial (frame ++ rest) = false := by
  obtain ⟨header, body, rfl, hheader, hmax, hlen⟩ := h
  rw [Bool.eq_false_iff, Ne, isPartial_iff]
  rintro (hshort | ⟨header', body', heq, hheader', -, hbody⟩)
  · rw [List.length_append, List.length_append] at hshort
    omega
  · rw [List.append_assoc] at heq
    obtain ⟨rfl, rfl⟩ := List.append_inj heq (hheader.trans hheader'.symm)
    rw [List.length_append] at hbody
    omega

/-- What is received as a message has been a frame. -/
theorem exists_frame_of_received {stream : Bytes} {cut : ℕ → ℕ} {msg : Obj}
    (h : (recvMessage P ⟨stream, cut⟩).1 = .ok msg) :
    ∃ frame rest, IsFrame frame ∧ stream = frame ++ rest ∧
      (recvMessage P ⟨stream, cut⟩).2.unread = rest := by
  have hwhole : isPartial stream = false := by
    rw [Bool.eq_false_iff]
    intro hpart
    obtain ⟨text, htext⟩ := @recvMessage_truncated P _ (isPartial_iff.mp hpart)
    cases (htext cut).symm.trans h
  obtain ⟨header, rest, rfl, hheader, hmax | ⟨hmax, hlen⟩⟩ := exists_parts hwhole
  · obtain ⟨calls, hmsg⟩ := @recvMessage_exceeded P ⟨header ++ rest, cut⟩ _ _ hheader hmax rfl
    rw [hmsg] at h
    cases h
  · have hbody : (rest.take (unpackLength header)).length = unpackLength header := by
      rw [List.length_take, min_eq_left hlen]
    refine ⟨header ++ rest.take (unpackLength header), rest.drop (unpackLength header),
      ⟨_, _, rfl, hheader, hmax, hbody⟩, ?_, ?_⟩
    · rw [List.append_assoc, List.take_append_drop]
    · have hread := (@recvMessage_body P _ _ (rest.drop (unpackLength header)) hheader hmax hbody
        cut).2
      rwa [List.take_append_drop] at hread

theorem isFrame_of_packFrame {msg : Json} {frame : Bytes} (h : packFrame P msg = .ok frame) :
    IsFrame frame := by
  obtain ⟨fields, body, -, -, hlen, rfl⟩ := (packFrame_eq_ok P).mp h
  have hread : unpackLength (packLength body.length) = body.length := by
    rw [MAX_MESSAGE_BYTES] at hlen
    exact unpackLength_packLength (by omega)
  exact ⟨_, _, rfl, rfl, hread.symm ▸ hlen, hread.symm⟩

/-- What `make_envelope` makes is an envelope. -/
theorem validateEnvelope_makeEnvelope {type : MessageType} {payload : Obj} {nonce : Bytes} {now : ℤ}
    {requestId : PyStr} (hnonce : nonce.length = 16) :
    ∃ env, validateEnvelope (makeEnvelope type payload nonce now requestId) = .ok env ∧
      env.type = type ∧ env.payload = payload := by
  have hdecode := b64decode_b64encode nonce
  refine ⟨⟨type, b64encode nonce, now, payload, by rw [hdecode, Option.map_some, hnonce]⟩, ?_, rfl,
    rfl⟩
  rw [makeEnvelope]
  generalize hfields : [(py "type", Json.str type.name), (py "version", .int 1),
    (py "nonce", .str (b64encode nonce)), (py "timestamp", .int now),
    (py "request_id", .str requestId), (py "payload", .obj payload)] = fields
  have htype : messageTypeOf ((dictGet fields "type").getD .null) = .ok (some type) := by
    rw [← hfields]
    exact congrArg Except.ok (MessageType.ofName_name type)
  have hpayload : (dictGet fields "payload").bind Json.asObj = some payload := by rw [← hfields]; rfl
  have hn : (dictGet fields "nonce").bind Json.asStr = some (b64encode nonce) := by
    rw [← hfields]; rfl
  have htime : (dictGet fields "timestamp").bind Json.asInt = some now := by rw [← hfields]; rfl
  have hall : (envelopeFields.any fun k => (dictGet fields k).isNone) = false := by rw [← hfields]; rfl
  have hversion : (dictGet fields "version").any Json.isOne = true := by rw [← hfields]; rfl
  unfold validateEnvelope
  dsimp only
  rw [if_neg (ne_true_of_eq_false hall), if_neg (not_not.mpr hversion), htype, ok_bind, hpayload, hn]
  dsimp only
  split
  · next h => cases h.symm.trans hdecode
  · next bytes h =>
    obtain rfl := Option.some.inj (h.symm.trans hdecode)
    rw [dif_pos hnonce, htime]

/-! ## The port -/

/-- The frame of a message, with the nonce, the clock and the request id of its envelope. -/
def framed (P : Primitives) (type : MessageType) (payload : Obj) (i : Input) : Except PyExn Bytes :=
  packFrame P (makeEnvelope type payload (i.octets 16) i.now (uuidStr i.uuid))

/-- `exec`, where a message is packed into its octets. -/
def execFramed (P : Primitives) : Exec Op Op.Res Input Files
  | .send type payload, i, s => reading i s ((framed P type payload i).map fun _ => ())
  | op, i, s => exec P op i s

/-- Whether an operation receives a message. -/
def isRecv : Op → Bool
  | .recv => true
  | _ => false

/-- `recv_message`, on what has arrived: the octets come in the pieces that `cut` gives. -/
def hearFrame (P : Primitives) (cut : Input → ℕ → ℕ) (i : Input) (p : Pipe UInt8) :
    Option (Input × Bytes) :=
  if i.fault.isSome then some (i, p.data)
  else if isPartial p.data && !p.closed then none
  else some ({ i with message := (recvMessage P ⟨p.data, cut i⟩).1 },
    (recvMessage P ⟨p.data, cut i⟩).2.unread)

/-- `send_message`: the frame goes out as a whole, or the socket fails, perhaps when a part of the
frame is out, and nothing goes out after that. -/
def speakFrame (P : Primitives) : (op : Op) → Input → op.Res → Bytes × Bool
  | .send type payload, i, .ok _ => ((framed P type payload i).toOption.getD [], false)
  | .send type payload, i, .error _ =>
      if i.fault.isSome then
        (((framed P type payload i).toOption.getD []).take (i.written.getD 0), true)
      else ([], false)
  | _, _, _ => ([], false)

theorem hearFrame_append {cut : Input → ℕ → ℕ} {i i' : Input} {data rest said : Bytes}
    {close : Bool} (h : hearFrame P cut i ⟨data, false⟩ = some (i', rest)) :
    hearFrame P cut i ⟨data ++ said, close⟩ = some (i', rest ++ said) := by
  unfold hearFrame at h ⊢
  split_ifs at h with hfault hpart
  · obtain ⟨rfl, rfl⟩ := Prod.mk.inj (Option.some.inj h)
    exact if_pos hfault
  · have hwhole : isPartial data = false := by
      rwa [Bool.not_false, Bool.and_true, Bool.not_eq_true] at hpart
    obtain ⟨r, rest', hread⟩ := @recvMessage_append P _ hwhole
    have hnow := hread [] (cut i)
    rw [List.append_nil, List.append_nil] at hnow
    rw [if_neg hfault, if_neg (by simp [isPartial_append hwhole]), (hread said (cut i)).1, (hread said (cut i)).2]
    rw [hnow.1, hnow.2] at h
    obtain ⟨rfl, rfl⟩ := Prod.mk.inj (Option.some.inj h)
    rfl

/-- An end of a connection, with a program that returns an `α`, and closes the connection after
the results that `hangsUp` says. -/
abbrev socket (P : Primitives) (cut : Input → ℕ → ℕ) (α : Type) (hangsUp : Except PyExn α → Bool) :
    Port UInt8 where
  E := Op
  R := Op.Res
  I := Input
  σ := Files
  α := Except PyExn α
  exec := execFramed P
  hears := isRecv
  hear := hearFrame P cut
  speak := speakFrame P
  hangsUp := hangsUp
  hear_append := hearFrame_append

end ZeroTrust
