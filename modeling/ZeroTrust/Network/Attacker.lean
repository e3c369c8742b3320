import ZeroTrust.Network.Endpoints
import ZeroTrust.Network.Purposes
import Mathlib.Data.Set.Function

/-!
# What an attacker on the network cannot do

An attacker delivers any message to any party, at any time; it has keys and certificates of its
own.  What is assumed of it is said of the run.

* `seen`: the octets that messages show in Base64.
* `Unforgeable`: a signature of an honest key that is delivered was made by a holder of the key,
  who has sent something since.
* `CollisionFree`: no collision of SHA-256 among the octets that messages show, and among the
  transcripts that can be put together from them.
* `exists_signer`: who made a signature that verifies, and when.
* `Label.Signs.origin_inv`, `Label.Signs.handshake_inv`: by the purpose of a signed text, which
  program signed it.
-/

namespace ZeroTrust

open Python Effects Endpoint

mutual

/-- The texts in a value. -/
def Python.Json.texts : Json → List PyStr
  | .str s => [s]
  | .arr xs => textsOfList xs
  | .obj fields => textsOfFields fields
  | .null | .bool _ | .int _ | .float _ => []

/-- The texts in an array. -/
def Python.Json.textsOfList : List Json → List PyStr
  | [] => []
  | x :: xs => x.texts ++ textsOfList xs

/-- The texts in an object. -/
def Python.Json.textsOfFields : List (PyStr × Json) → List PyStr
  | [] => []
  | (_, x) :: xs => x.texts ++ textsOfFields xs

end

theorem mem_texts_of_dictGet {o : Obj} {key : String} {v : Json} {s : PyStr}
    (hv : dictGet o key = some v) (hs : s ∈ v.texts) : s ∈ (Json.obj o).texts := by
  rw [Json.texts]
  induction o with
  | nil => cases hv
  | cons x xs ih =>
    obtain ⟨k, w⟩ := x
    rw [Json.textsOfFields, List.mem_append]
    rw [dictGet, List.lookup_cons] at hv
    cases hk : py key == k with
    | true =>
      rw [hk] at hv
      obtain rfl := Option.some.inj hv
      exact .inl hs
    | false =>
      rw [hk] at hv
      exact .inr (ih hv)

/-- The octets that an object shows in Base64. -/
def shown (o : Obj) : List Bytes := (Json.obj o).texts.filterMap b64decode

theorem mem_shown_of_b64Item {o : Obj} {key : String} {b : Bytes} (h : b64Item o key = some b) :
    b ∈ shown o := by
  obtain ⟨s, hs, hb⟩ := Option.bind_eq_some_iff.mp h
  obtain ⟨v, hv, hs⟩ := Option.bind_eq_some_iff.mp hs
  obtain rfl := Json.asStr_eq_some.mp hs
  refine List.mem_filterMap.mpr ⟨s, mem_texts_of_dictGet hv ?_, hb⟩
  simp [Json.texts]

/-- A message shows what the payload of its envelope shows. -/
theorem mem_shown_of_validateEnvelope {msg : Obj} {env : Envelope} {b : Bytes}
    (henv : validateEnvelope (.obj msg) = .ok env) (hb : b ∈ shown env.payload) :
    b ∈ shown msg := by
  obtain ⟨s, hs, hb⟩ := List.mem_filterMap.mp hb
  exact List.mem_filterMap.mpr ⟨s, mem_texts_of_dictGet (payload_of_validateEnvelope henv) hs, hb⟩

namespace Network

/-- The octets that an event's message shows. -/
def shownBy : Ev → List Bytes
  | ⟨.recv, .ok msg⟩ => shown msg
  | ⟨.send _ payload, _⟩ => shown payload
  | _ => []

/-- The octets that the messages of a run show. -/
def seen (t : Trace) : List Bytes := t.flatMap fun x => shownBy x.ev

theorem mem_seen {t : Trace} {x : Item Op Op.Res Input Files Label} {b : Bytes} (hx : x ∈ t)
    (hb : b ∈ shownBy x.ev) : b ∈ seen t := List.mem_flatMap.mpr ⟨x, hx, hb⟩

/-! ## Assumptions -/

section

variable (P : Primitives)

/-- A program works with the private key of the public key `key`. -/
def Label.Holds (l : Label) (key : RsaPublicKey) : Prop :=
  ∃ k, loadPrivate P l.party.privPem l.party.password = .ok k ∧ k.pub = key

/-- In the history `g` the data was signed with the private key of `key`. -/
def Made (key : RsaPublicKey) (data : Bytes) (g : List Ev) : Prop :=
  ∃ pem password sig k, (⟨.sign pem password data, .ok sig⟩ : Ev) ∈ g ∧
    loadPrivate P pem password = .ok k ∧ k.pub = key

/-- **Signatures of `key` are not forged**: where one is delivered, a party had signed the data
before with that key, and had sent something since. -/
def Unforgeable (key : RsaPublicKey) (t : Trace) : Prop :=
  ∀ later x earlier, t = later ++ x :: earlier → ∀ msg, x.ev = ⟨.recv, .ok msg⟩ →
    ∀ sig ∈ shown msg, ∀ data, P.pssVerify key data sig = true →
      ∃ y ∈ earlier, (∃ type payload, y.ev.op = .send type payload) ∧ Made P key data y.past

/-- What is hashed in a run: the octets that messages show, and the transcripts that can be put
together from them. -/
inductive Hashable (t : Trace) : Bytes → Prop where
  | single {b : Bytes} : b ∈ seen t → Hashable t b
  | transcript {nonceC nonceS preMasterCt : Bytes} : nonceC ∈ seen t → nonceS ∈ seen t →
      preMasterCt ∈ seen t → nonceC.length = NONCE_BYTES → nonceS.length = NONCE_BYTES →
      Hashable t (nonceC ++ nonceS ++ preMasterCt)

/-- No two of the octet strings that a run hashes have the same SHA-256. -/
def CollisionFree (t : Trace) : Prop := Set.InjOn P.sha256 {b | Hashable t b}

/-- No two programs draw the same handshake nonce. -/
def FreshNonces (t : Trace) : Prop :=
  ∀ x ∈ t, ∀ y ∈ t, ∀ b, x.ev = ⟨.urandom NONCE_BYTES, .ok b⟩ →
    y.ev = ⟨.urandom NONCE_BYTES, .ok b⟩ → x.job = y.job

/-- An OAEP ciphertext that a party has made decrypts only under the key it was made for. -/
def OaepOpensOnly (t : Trace) : Prop :=
  ∀ x ∈ t, ∀ pem data ct, x.ev = ⟨.oaepEncrypt pem data, .ok ct⟩ → ∀ pem' password k out,
    loadPrivate P pem' password = .ok k → P.oaepDecrypt k ct = some out →
      loadPublic P pem = .ok k.pub

end

/-! ## Who signed -/

variable {P : Primitives} {s₀ s : Files} {t later earlier : Trace} {js : Jobs}

/-- **Who made a signature.**  A delivered signature that verifies under `key` comes from an
item `z` in which a holder of the key signed the data, and an item `y` of the same program that
has sent something since. -/
theorem exists_signer (hr : (endpoints P).Run s₀ t js s) {key : RsaPublicKey}
    (hu : Unforgeable P key t) {x : Item Op Op.Res Input Files Label}
    (ht : t = later ++ x :: earlier) {msg : Obj} (hx : x.ev = ⟨.recv, .ok msg⟩) {sig data : Bytes}
    (hsig : sig ∈ shown msg) (hver : P.pssVerify key data sig = true) :
    ∃ y ∈ t, (∃ type payload, y.ev.op = .send type payload) ∧
      ∃ z ∈ t, z.job = y.job ∧ z.label = y.label ∧ z.label.Holds P key ∧
        z.label.Signs P z.past data ∧
        z.ev.op = .sign z.label.party.privPem z.label.party.password data ∧
        ∃ newer sig', y.past = newer ++ ⟨.sign z.label.party.privPem z.label.party.password data,
          .ok sig'⟩ :: z.past := by
  obtain ⟨y, hy, hsend, pem, password, sig', k, hmem, hk, hkey⟩ :=
    hu later x earlier ht msg hx sig hsig data hver
  obtain ⟨newer, older, hpast⟩ := List.append_of_mem hmem
  obtain ⟨a, b, rfl⟩ := List.append_of_mem hy
  have hty : t = (later ++ x :: a) ++ y :: b := by simp [ht]
  obtain ⟨since, z, before, rfl, hjob, hlabel, hev, hzpast⟩ := hr.exists_of_past_append hty hpast
  have hzt : z ∈ t := by simp [hty]
  have hstep : z.label.Step P z.past z.ev.op := hr.guarantee code_guarantee hzt
  rw [hev] at hstep
  obtain ⟨rfl, rfl, hsigns⟩ := sign_inv hstep
  exact ⟨y, by simp [hty], hsend, z, hzt, hjob, hlabel, ⟨k, hk, hkey⟩, hsigns,
    congrArg Event.op hev, newer, sig', hzpast ▸ hpast⟩

/-! ## By purpose -/

/-- What a program signs is signed for the purpose of the program. -/
theorem Label.Signs.signedFor {l : Label} {g : List Ev} {data : Bytes} (h : l.Signs P g data) :
    (∃ session subject e peer, l = .client session (.handshake subject) ∧
      Client.KeySent P session.party subject e peer g ∧
      buildTranscriptHash P e.nonceC e.nonceS e.preMasterCt = .ok data) ∨
    (∃ me e peer, l = .server me ∧ Server.Handshake.Proven P me e peer data g ∧
      buildTranscriptHash P e.nonceC e.nonceS e.preMasterCt = .ok data) ∨
    (∃ session recipient path expiration plaintext pkg,
      l = .client session (.upload recipient path expiration) ∧
      Client.Packed P session recipient path expiration plaintext pkg g ∧
      originCanonical P (pkg.origin P session.username) = .ok data ∧ SignedFor P .origin data) ∨
    SignedFor P .revoke data ∨ SignedFor P .acknowledgement data := by
  cases h with
  | proof hsent hdata => exact .inl ⟨_, _, _, _, rfl, hsent, hdata⟩
  | sessionOk hproven =>
    have hdata := hproven
    obtain ⟨-, hdata, -, -, -, -⟩ := hdata
    exact .inr (.inl ⟨_, _, _, rfl, hproven, hdata⟩)
  | origin hpacked hdata =>
    refine .inr (.inr (.inl ⟨_, _, _, _, _, _, rfl, hpacked, hdata, .origin ?_ hdata⟩))
    exact Origin.built (fun _ _ => trivial) (fun _ _ => trivial) rfl rfl
  | revoke hdata => exact .inr (.inr (.inr (.inl (.revoke (.int _) hdata))))
  | ack hdata => exact .inr (.inr (.inr (.inr (.acknowledgement (.int _) hdata))))

/-- An origin struct is signed by uploads only. -/
theorem Label.Signs.origin_inv {l : Label} {g : List Ev} {data : Bytes}
    (hlen : ∀ b, (P.sha256 b).length = 32) (h : l.Signs P g data) (hs : SignedFor P .origin data) :
    ∃ session recipient path expiration plaintext pkg,
      l = .client session (.upload recipient path expiration) ∧
      Client.Packed P session recipient path expiration plaintext pkg g ∧
      originCanonical P (pkg.origin P session.username) = .ok data := by
  rcases h.signedFor with ⟨_, _, _, _, -, -, hd⟩ | ⟨_, _, _, -, -, hd⟩ |
    ⟨_, _, _, _, _, _, hl, hpacked, hd, -⟩ | hd | hd
  · cases hs.unique hlen (.handshake hd)
  · cases hs.unique hlen (.handshake hd)
  · exact ⟨_, _, _, _, _, _, hl, hpacked, hd⟩
  · cases hs.unique hlen hd
  · cases hs.unique hlen hd

/-- A transcript is signed by handshakes only. -/
theorem Label.Signs.handshake_inv {l : Label} {g : List Ev} {data : Bytes}
    (hlen : ∀ b, (P.sha256 b).length = 32) (h : l.Signs P g data)
    (hs : SignedFor P .handshake data) :
    (∃ session subject e peer, l = .client session (.handshake subject) ∧
      Client.KeySent P session.party subject e peer g ∧
      buildTranscriptHash P e.nonceC e.nonceS e.preMasterCt = .ok data) ∨
    ∃ me e peer, l = .server me ∧ Server.Handshake.Proven P me e peer data g ∧
      buildTranscriptHash P e.nonceC e.nonceS e.preMasterCt = .ok data := by
  rcases h.signedFor with hc | hsv | ⟨_, _, _, _, _, _, -, -, -, hd⟩ | hd | hd
  · exact .inl hc
  · exact .inr hsv
  · cases hs.unique hlen hd
  · cases hs.unique hlen hd
  · cases hs.unique hlen hd

end Network
end ZeroTrust
