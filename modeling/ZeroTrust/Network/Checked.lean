import ZeroTrust.Common.Transparent
import ZeroTrust.Network.Attacker
import Mathlib.Data.List.Dedup

/-!
# The assumptions, checked of a run

In the transparent primitives a signature and a ciphertext show their key and their content, so
what is assumed of the attacker can be computed of a trace.

* `rollingHash`, `Primitives.rolling`: a hash that reads all of its input, for runs in which
  nothing may collide.
* `hashables`, `collisionFree_of_nodup`: the octet strings that a run hashes.
* `freshNonces_of_drawn`: the nonces that it draws.
* `vouched`, `unforgeable_of_vouched`: every signature that is delivered was made.
* `oaepOpensOnly`: OAEP in these primitives opens under its own key only, in every run.
* `sampleUser`, `drawing`, `bringing`: parties of a sample run, and what it gives to them.
-/

namespace ZeroTrust

open Python Effects Endpoint

/-! ## The hash -/

/-- The lowest octets of a number. -/
def octetsOf : ℕ → ℕ → Bytes
  | 0, _ => []
  | k + 1, n => UInt8.ofNat n :: octetsOf k (n / 256)

theorem length_octetsOf (k n : ℕ) : (octetsOf k n).length = k := by
  induction k generalizing n with
  | zero => rfl
  | succ k ih => rw [octetsOf, List.length_cons, ih]

/-- The octets of a text as the digits of one number, cut to 32 octets. -/
def rollingHash (data : Bytes) : Bytes :=
  octetsOf 32 (data.foldl (fun n b => 257 * n + b.toNat + 1) 0)

/-- The transparent primitives with that hash. -/
def Primitives.rolling (texts : List (PyStr × Json)) : Primitives :=
  { Primitives.transparent texts with sha256 := rollingHash }

section

variable {texts : List (PyStr × Json)}

theorem rolling_length (data : Bytes) : ((Primitives.rolling texts).sha256 data).length = 32 :=
  length_octetsOf 32 _

theorem rolling_matching (key : RsaPrivateKey) : (Primitives.rolling texts).Matching key where
  verify_sign := (transparent_matching texts key).verify_sign
  decrypt_encrypt := (transparent_matching texts key).decrypt_encrypt

theorem rolling_idealAead : (Primitives.rolling texts).IdealAead where
  decrypts := transparent_decryptsGcm texts
  opens_only := (@transparent_idealAead texts).opens_only

/-- The PEM of a private key is its number. -/
theorem rolling_loadPrivate {pem password : Bytes} {key : RsaPrivateKey}
    (h : loadPrivate (.rolling texts) pem password = .ok key) :
    ∃ n, pem = [n] ∧ key = .numbered n := by
  rcases pem with _ | ⟨n, _ | ⟨m, pem⟩⟩
  · cases h
  · exact ⟨n, rfl, (Except.ok.inj h).symm⟩
  · cases h

theorem rolling_loadPublic {pem : Bytes} {key : RsaPublicKey}
    (h : loadPublic (.rolling texts) pem = .ok key) : ∃ n, pem = [n] ∧ key = .numbered n := by
  rcases pem with _ | ⟨n, _ | ⟨m, pem⟩⟩
  · cases h
  · exact ⟨n, rfl, (Except.ok.inj h).symm⟩
  · cases h

theorem tag_numbered (n kind : UInt8) : (RsaPublicKey.numbered n).tag kind = [kind, n] := by
  simp [RsaPublicKey.tag, RsaPublicKey.numbered]

end

namespace Network

variable {texts : List (PyStr × Json)} {s₀ s : Files} {t : Trace} {js : Jobs}

/-- **OAEP opens under its own key only**, in every run. -/
theorem oaepOpensOnly (hr : (endpoints (.rolling texts)).Run s₀ t js s) :
    OaepOpensOnly (.rolling texts) t := by
  intro x hx pem data ct hev pem' password key out hkey hdec
  have hexec := hr.exec_eq hx
  rw [hev] at hexec
  obtain ⟨pub, hpub, hct⟩ := bind_eq_ok.mp (Prod.mk.inj hexec).1
  obtain ⟨n, rfl, rfl⟩ := rolling_loadPublic hpub
  obtain ⟨m, rfl, rfl⟩ := rolling_loadPrivate hkey
  have hct : (RsaPublicKey.numbered n).tag 69 ++ data = (RsaPublicKey.numbered m).tag 69 ++ out :=
    (pure_eq_ok.mp hct).trans (cutPrefix_eq_some.mp hdec)
  rw [tag_numbered, tag_numbered] at hct
  obtain rfl : n = m := (List.cons.inj (List.cons.inj hct).2).1
  exact hpub

/-! ## What is hashed -/

/-- The octet strings that a run hashes, from those that its messages show. -/
def hashables (shown : List Bytes) : List Bytes :=
  let nonces := shown.filter fun b => b.length = NONCE_BYTES
  shown ++ nonces.flatMap fun nonceC => nonces.flatMap fun nonceS =>
    shown.map fun preMasterCt => nonceC ++ nonceS ++ preMasterCt

theorem mem_hashables {b : Bytes} {shown : List Bytes} (hsub : ∀ c, c ∈ seen t → c ∈ shown)
    (h : Hashable t b) : b ∈ hashables shown := by
  rw [hashables, List.mem_append]
  cases h with
  | single hb => exact .inl (hsub _ hb)
  | @transcript nonceC nonceS preMasterCt hc hs hct hlc hls =>
    refine .inr (List.mem_flatMap.mpr ⟨nonceC, ?_, List.mem_flatMap.mpr ⟨nonceS, ?_, ?_⟩⟩)
    · exact List.mem_filter.mpr ⟨hsub _ hc, decide_eq_true hlc⟩
    · exact List.mem_filter.mpr ⟨hsub _ hs, decide_eq_true hls⟩
    · exact List.mem_map_of_mem (hsub _ hct)

/-- No two of them have one hash. -/
theorem collisionFree_of_nodup {P : Primitives}
    (h : ((hashables (seen t).dedup).map P.sha256).Nodup) : CollisionFree P t := by
  have hmem : ∀ {b}, Hashable t b → b ∈ hashables (seen t).dedup :=
    mem_hashables fun _ => List.mem_dedup.mpr
  exact fun a ha b hb hab => List.inj_on_of_nodup_map h (hmem ha) (hmem hb) hab

/-! ## What is drawn -/

/-- The handshake nonce that an event draws. -/
def drawn : Ev → Option Bytes
  | ⟨.urandom n, .ok b⟩ => if n = NONCE_BYTES then some b else none
  | _ => none

theorem freshNonces_of_drawn
    (h : ∀ x ∈ t, ∀ y ∈ t, (drawn x.ev).isSome → drawn x.ev = drawn y.ev → x.job = y.job) :
    FreshNonces t := by
  intro x hx y hy b hxb hyb
  have hdrawn : drawn ⟨.urandom NONCE_BYTES, .ok b⟩ = some b := by
    rw [drawn, if_pos rfl]
  refine h x hx y hy ?_ ?_
  · rw [hxb, hdrawn]
    rfl
  · rw [hxb, hyb]

/-! ## What is signed -/

/-- An event has signed the data with the key of a number. -/
def signedWith (n : UInt8) (data : Bytes) : Ev → Bool
  | ⟨.sign pem _ data', .ok _⟩ => pem = [n] ∧ data' = data
  | _ => false

/-- What is left of a signature of the key is the data that it signs. -/
def signedData (n : UInt8) (sig : Bytes) : Option Bytes :=
  cutPrefix ((RsaPublicKey.numbered n).tag 83) sig

/-- Whether an operation sends. -/
def isSending : Op → Bool
  | .send _ _ => true
  | _ => false

/-- The octets that a message brings. -/
def brought : Ev → List Bytes
  | ⟨.recv, .ok msg⟩ => shown msg
  | _ => []

/-- Every signature of a key that is delivered was made before by a program that has sent
something since. -/
def vouched (n : UInt8) : Trace → Bool
  | [] => true
  | x :: earlier =>
      decide (∀ sig ∈ brought x.ev, ∀ data ∈ signedData n sig, ∃ y ∈ earlier,
        isSending y.ev.op = true ∧ ∃ ev ∈ y.past, signedWith n data ev = true) &&
      vouched n earlier

theorem unforgeable_of_vouched {n : UInt8} (h : vouched n t = true) :
    Unforgeable (.rolling texts) (.numbered n) t := by
  intro later x earlier ht msg hx sig hsig data hver
  induction later generalizing t with
  | cons y later ih =>
    subst ht
    exact ih (Bool.and_eq_true_iff.mp h).2 rfl
  | nil =>
    subst ht
    have hdata : signedData n sig = some data := cutPrefix_eq_some.mpr (of_decide_eq_true hver)
    obtain ⟨y, hy, hsend, ev, hev, hsigned⟩ :=
      of_decide_eq_true (Bool.and_eq_true_iff.mp h).1 sig (by rw [hx]; exact hsig) data hdata
    refine ⟨y, hy, ?_, ?_⟩
    · cases hop : y.ev.op with
      | send type payload => exact ⟨type, payload, rfl⟩
      | _ => rw [hop] at hsend; cases hsend
    · obtain ⟨op, res⟩ := ev
      cases op with
      | sign pem password data' =>
        cases res with
        | error e => cases hsigned
        | ok sig' =>
          obtain ⟨rfl, rfl⟩ := of_decide_eq_true hsigned
          exact ⟨_, password, sig', .numbered n, hev, rfl, rfl⟩
      | _ => cases hsigned

/-- Who holds the key of a number has it as his PEM. -/
theorem privPem_of_holds {l : Label} {n : UInt8}
    (h : l.Holds (.rolling texts) (.numbered n)) : l.party.privPem = [n] := by
  obtain ⟨k, hk, hpub⟩ := h
  obtain ⟨m, hpem, rfl⟩ := rolling_loadPrivate hk
  have hnat : m.toNat = n.toNat := congrArg RsaPublicKey.modulus hpub
  rw [hpem, UInt8.toNat_inj.mp hnat]

/-! ## Sample parties -/

deriving instance DecidableEq for Client.Session, Party, Activity, Label, SessionState

/-- An input at time 100, without a fault, that draws octets from a first one on. -/
def plainInput (first : UInt8) (message : Except PyExn Obj) : Input where
  now := 100
  fault := none
  written := none
  random n := first + UInt8.ofNat n
  uuid := 0
  message := message

/-- An input to an operation that receives nothing. -/
def drawing (first : UInt8) : Input := plainInput first (.error .osError)

/-- An input that brings a message. -/
def bringing (type : MessageType) (payload : Obj) : Input :=
  plainInput 0 <| match makeEnvelope type payload ((drawing 0).octets NONCE_BYTES) 100 [] with
    | .obj msg => .ok msg
    | _ => .error .osError

/-- A user whose key has the number of one letter. -/
def sampleUser (subject pem : String) : Client.Session where
  username := py subject
  clientCert := certFor (py subject) (py pem)
  clientPrivPem := pem.toUTF8.data.toList
  clientPassword := []
  caPubkeyPem := [1]

/-- `alice` has the key `A`. -/
def alice : Client.Session := sampleUser "alice" "A"

end Network
end ZeroTrust
