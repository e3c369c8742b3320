import ZeroTrust.Common.Canonical

/-!
# Envelopes

The message envelope of `common/protocol.py`.  `validate_envelope` is the only way to
an `Envelope`, so that a value of that type has a known type, an object for a
payload, an integer timestamp and a nonce that decodes to 16 bytes.

The `request_id` is only ever logged and the `version` is fixed; neither is kept.
-/

namespace ZeroTrust

open Python

/-- `MESSAGE_TYPES`. -/
inductive MessageType where
  | HELLO
  | KEY_EXCHANGE
  | AUTH_CHALLENGE
  | AUTH_RESPONSE
  | SESSION_OK
  | GET_PUBKEY
  | PUBKEY_RESPONSE
  | UPLOAD_REQUEST
  | UPLOAD_ACK
  | LIST_PENDING
  | PENDING_LIST
  | DOWNLOAD_REQUEST
  | DOWNLOAD_RESPONSE
  | DOWNLOAD_ACK
  | ACK_OK
  | REVOKE_REQUEST
  | REVOKE_ACK
  | ERROR
  deriving DecidableEq

namespace MessageType

/-- Every message type. -/
def all : List MessageType :=
  [HELLO, KEY_EXCHANGE, AUTH_CHALLENGE, AUTH_RESPONSE, SESSION_OK, GET_PUBKEY,
    PUBKEY_RESPONSE, UPLOAD_REQUEST, UPLOAD_ACK, LIST_PENDING, PENDING_LIST,
    DOWNLOAD_REQUEST, DOWNLOAD_RESPONSE, DOWNLOAD_ACK, ACK_OK, REVOKE_REQUEST, REVOKE_ACK,
    ERROR]

/-- The text of a message type on the wire. -/
def name : MessageType → PyStr
  | HELLO => py "HELLO"
  | KEY_EXCHANGE => py "KEY_EXCHANGE"
  | AUTH_CHALLENGE => py "AUTH_CHALLENGE"
  | AUTH_RESPONSE => py "AUTH_RESPONSE"
  | SESSION_OK => py "SESSION_OK"
  | GET_PUBKEY => py "GET_PUBKEY"
  | PUBKEY_RESPONSE => py "PUBKEY_RESPONSE"
  | UPLOAD_REQUEST => py "UPLOAD_REQUEST"
  | UPLOAD_ACK => py "UPLOAD_ACK"
  | LIST_PENDING => py "LIST_PENDING"
  | PENDING_LIST => py "PENDING_LIST"
  | DOWNLOAD_REQUEST => py "DOWNLOAD_REQUEST"
  | DOWNLOAD_RESPONSE => py "DOWNLOAD_RESPONSE"
  | DOWNLOAD_ACK => py "DOWNLOAD_ACK"
  | ACK_OK => py "ACK_OK"
  | REVOKE_REQUEST => py "REVOKE_REQUEST"
  | REVOKE_ACK => py "REVOKE_ACK"
  | ERROR => py "ERROR"

/-- The message type with a given text. -/
def ofName (s : PyStr) : Option MessageType := all.find? fun t => t.name = s

/-- **The names are read back**, so no two message types share one. -/
theorem ofName_name (t : MessageType) : ofName t.name = some t := by
  cases t <;> decide +kernel

end MessageType

/-- A validated envelope. -/
structure Envelope where
  /-- `envelope["type"]`. -/
  type : MessageType
  /-- `envelope["nonce"]`. -/
  nonce : PyStr
  /-- `int(envelope["timestamp"])`. -/
  timestamp : ℤ
  /-- `envelope["payload"]`. -/
  payload : Obj
  /-- The nonce is Base64 of 16 bytes. -/
  nonce_valid : (b64decode nonce).map List.length = some 16
  deriving DecidableEq

/-- `make_envelope`, with the nonce, the clock and the request id that it reads. -/
def makeEnvelope (type : MessageType) (payload : Obj) (nonce : Bytes) (now : ℤ)
    (requestId : PyStr) : Json :=
  .obj [(py "type", .str type.name), (py "version", .int 1),
    (py "nonce", .str (b64encode nonce)), (py "timestamp", .int now),
    (py "request_id", .str requestId), (py "payload", .obj payload)]

/-- `MAX_MESSAGE_BYTES`. -/
def MAX_MESSAGE_BYTES : ℕ := 64 * 1024 * 1024

/-- `pack_message` without the four octets of the length: the body is ASCII, one octet for
each character. -/
def packMessage (P : Primitives) (msg : Json) : Except PyExn PyStr :=
  let body := dumps P wireOptions msg
  if MAX_MESSAGE_BYTES < body.length then .error (.protocolError (py "message too large"))
  else .ok body

/-- An envelope whose nonce repeats one octet. -/
def Envelope.numbered (n : UInt8) (type : MessageType) (timestamp : ℤ) (payload : Obj) :
    Envelope where
  type := type
  nonce := b64encode (List.replicate 16 n)
  timestamp := timestamp
  payload := payload
  nonce_valid := by rw [b64decode_b64encode, Option.map_some, List.length_replicate]

/-- The fields of an envelope. -/
def envelopeFields : List String :=
  ["type", "version", "nonce", "timestamp", "request_id", "payload"]

/-- `value == 1`, on a value of any type. -/
def Python.Json.isOne : Json → Bool
  | .int i => i = 1
  | .bool b => b
  | .float (.finite q) => q = 1
  | _ => false

/-- `value in MESSAGE_TYPES`; an unhashable value raises `TypeError`. -/
def messageTypeOf : Json → Except PyExn (Option MessageType)
  | .str s => .ok (MessageType.ofName s)
  | .arr _ => .error .typeError
  | .obj _ => .error .typeError
  | _ => .ok none

/-- `validate_envelope`. -/
def validateEnvelope (msg : Json) : Except PyExn Envelope :=
  match msg with
  | .obj fields =>
      if envelopeFields.any fun k => (dictGet fields k).isNone then
        .error (.protocolError (py "envelope missing fields"))
      else if ¬ ((dictGet fields "version").any Json.isOne) then
        .error (.protocolError (py "unsupported protocol version"))
      else do
        match ← messageTypeOf ((dictGet fields "type").getD .null) with
        | none => .error (.protocolError (py "unknown message type"))
        | some type =>
          match (dictGet fields "payload").bind Json.asObj with
          | none => .error (.protocolError (py "envelope payload must be a dict"))
          | some payload =>
            match (dictGet fields "nonce").bind Json.asStr with
            | none => .error (.protocolError (py "envelope nonce not valid base64"))
            | some nonce =>
              match h : b64decode nonce with
              | none => .error (.protocolError (py "envelope nonce not valid base64"))
              | some bytes =>
                if hl : bytes.length = 16 then
                  match (dictGet fields "timestamp").bind Json.asInt with
                  | none => .error (.protocolError (py "envelope timestamp must be an integer"))
                  | some timestamp =>
                    .ok ⟨type, nonce, timestamp, payload, by simp [h, hl]⟩
                else .error (.protocolError (py "envelope nonce must be 16 bytes"))
  | _ => .error (.protocolError (py "envelope must be a dict"))

/-- The payload of a valid envelope is the message's. -/
theorem payload_of_validateEnvelope {msg : Obj} {env : Envelope}
    (h : validateEnvelope (.obj msg) = .ok env) :
    dictGet msg "payload" = some (.obj env.payload) := by
  unfold validateEnvelope at h
  dsimp only at h
  split_ifs at h
  obtain ⟨type, -, h⟩ := bind_eq_ok.mp h
  cases type with
  | none => cases h
  | some type =>
    dsimp only at h
    cases hp : (dictGet msg "payload").bind Json.asObj with
    | none =>
      rw [hp] at h
      cases h
    | some payload =>
      obtain ⟨v, hv, hpayload⟩ := Option.bind_eq_some_iff.mp hp
      obtain rfl := Json.asObj_eq_some.mp hpayload
      rw [hp] at h
      dsimp only at h
      split at h
      · cases h
      · split at h
        · cases h
        · split_ifs at h
          split at h
          · cases h
          · cases h
            exact hv

/-- `_decode_b64_field`, of the server and of the client. -/
def decodeB64Field (payload : Obj) (name : String) : Except PyExn Bytes :=
  match (dictGet payload name).bind Json.asStr with
  | none => .error (.protocolError (py "missing " ++ py name))
  | some text =>
      match b64decode text with
      | none => .error (.protocolError (py name ++ py " is not valid base64"))
      | some data => .ok data

end ZeroTrust
