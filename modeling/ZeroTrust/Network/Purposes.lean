import ZeroTrust.Common.Faithful
import ZeroTrust.Common.Handshake
import ZeroTrust.Common.Transparent
import ZeroTrust.Server.Handler
import Mathlib.Algebra.Order.BigOperators.Group.List
import Mathlib.Algebra.Order.Ring.Nat

/-!
# What a signature is for

One key of a user signs transcript hashes, origin structs, revoke structs and
acknowledgement structs, and the key of the CA signs certificate bodies.  No tag says which
of them a text is.  The transcript hash has 32 octets and every struct has more; the structs
differ in their keys, and the keys of an object can be read off its bytes.

* `Purpose.ofKeys`: what an object is signed for, read off its keys.
* `SignedFor`: the texts that are signed for a purpose.
* `Accepted`: what the verifiers of the program accept for a purpose.
* `signature_purpose_unique`: a text, and a signature, has one purpose.
-/

namespace ZeroTrust

open Python

/-- What a signature is for. -/
inductive Purpose where
  | handshake
  | origin
  | revoke
  | acknowledgement
  | certificate
  deriving DecidableEq

/-- What an object is signed for, by the keys it has. -/
def Purpose.ofKeys (keys : List PyStr) : Purpose :=
  if py "issuer" ∈ keys then .certificate
  else if py "action" ∈ keys then .revoke
  else if py "status" ∈ keys then .acknowledgement
  else .origin

theorem Purpose.ofKeys_perm {keys keys' : List PyStr} (h : keys.Perm keys') :
    ofKeys keys = ofKeys keys' := by
  simp only [ofKeys, h.mem_iff]

/-! ## The length of an object -/

theorem length_le_escapeChar (c : PyChar) : 1 ≤ (escapeChar false c).length := by
  by_cases h : c.val < 93
  · obtain ⟨d, w, hd, -, -⟩ := head_escapeChar_lt c.val h
    rw [chr_val] at hd
    rw [hd, List.length_cons]
    omega
  · rw [escapeChar_of_le (Nat.not_lt.mp h), List.length_singleton]

/-- A string is written with two quotes, and no character gets lost. -/
theorem length_le_dumpsStr (s : PyStr) : s.length + 2 ≤ (dumpsStr false s).length := by
  have hbody : s.length ≤ (s.flatMap (escapeChar false)).length := by
    induction s with
    | nil => exact Nat.le_refl 0
    | cons c s ih =>
      have := length_le_escapeChar c
      rw [List.flatMap_cons, List.length_append, List.length_cons]
      omega
  rw [dumpsStr, List.length_cons, List.length_append, List.length_singleton]
  omega

theorem length_le_intercalate (sep : PyStr) (xs : List PyStr) :
    (xs.map List.length).sum ≤ (sep.intercalate xs).length := by
  rw [← join_eq_intercalate]
  fun_induction join sep xs with
  | case1 => exact Nat.le_refl 0
  | case2 x => exact Nat.le_refl _
  | case3 x y xs ih =>
    rw [List.map_cons, List.sum_cons, List.length_append, List.length_append]
    omega

/-- The least number of characters of the items with the given keys. -/
def itemsLength (keys : List PyStr) : ℕ := (keys.map fun k => k.length + 3).sum

variable {P : Primitives}

theorem length_le_dumps (fields : Obj) :
    itemsLength (fields.map Prod.fst) + 2 ≤ (dumps P canonicalOptions (.obj fields)).length := by
  have hperm : itemsLength (fields.map Prod.fst) =
      ((sortFields fields).map fun x => x.1.length + 3).sum := by
    rw [itemsLength, List.map_map]
    exact ((perm_sortFields fields).symm.map _).sum_eq
  have hitems : ((sortFields fields).map fun x => x.1.length + 3).sum ≤
      (((sortFields fields).map (dumpsItem P)).map List.length).sum := by
    rw [List.map_map]
    refine List.sum_le_sum fun x _ => ?_
    have := length_le_dumpsStr x.1
    rw [Function.comp_apply, dumpsItem, List.length_append, List.length_cons]
    omega
  have := length_le_intercalate [chr 44] ((sortFields fields).map (dumpsItem P))
  rw [dumps_obj, List.length_cons, List.length_append, List.length_singleton]
  omega

theorem length_le_utf8 (s : PyStr) : s.length ≤ (s.flatMap utf8Char).length := by
  induction s with
  | nil => exact Nat.le_refl 0
  | cons c s ih =>
    have hc : 1 ≤ (utf8Char c).length := by
      unfold utf8Char
      split_ifs <;> simp
    rw [List.flatMap_cons, List.length_append, List.length_cons]
    omega

/-- An object with certain keys has at least the characters of these. -/
theorem length_le_canonicalJson {fields : Obj} {keys : List PyStr} {data : Bytes}
    (hkeys : keys.Nodup) (hsub : keys ⊆ fields.map Prod.fst)
    (h : canonicalJson P (.obj fields) = .ok data) : itemsLength keys + 2 ≤ data.length := by
  have hdata := (canonicalJson_eq_ok P).mp h
  unfold utf8Encode at hdata
  split_ifs at hdata
  obtain rfl := Option.some.inj hdata
  have hitems : itemsLength keys ≤ itemsLength (fields.map Prod.fst) := by
    obtain ⟨l, hperm, hsublist⟩ := List.subperm_of_subset hkeys hsub
    rw [itemsLength, ← (hperm.map _).sum_eq]
    exact (hsublist.map _).sum_le_sum fun _ _ => Nat.zero_le _
  have := @length_le_dumps P fields
  have := length_le_utf8 (dumps P canonicalOptions (.obj fields))
  omega

/-! ## Purposes -/

variable (P)

/-- The texts that are signed for a purpose.  The fields of the structs are any texts, and
any values without floats. -/
inductive SignedFor : Purpose → Bytes → Prop
  | handshake {nonceC nonceS preMasterCt data : Bytes}
      (h : buildTranscriptHash P nonceC nonceS preMasterCt = .ok data) : SignedFor .handshake data
  | origin {s : Origin} {data : Bytes} (hfields : s.toJson.Built fun _ => True)
      (h : originCanonical P s = .ok data) : SignedFor .origin data
  | revoke {sender fileId : PyStr} {timestamp : Json} {data : Bytes}
      (hfields : timestamp.Built fun _ => True)
      (h : revokeCanonical P sender fileId timestamp = .ok data) : SignedFor .revoke data
  | acknowledgement {fileId : PyStr} {timestamp : Json} {data : Bytes}
      (hfields : timestamp.Built fun _ => True)
      (h : ackCanonical P fileId timestamp = .ok data) : SignedFor .acknowledgement data
  | certificate {cert : Obj} {data : Bytes} (hfields : (Json.obj cert).Built fun _ => True)
      (hrequired : (requiredCertFields.any fun k => (dictGet cert k).isNone) = false)
      (h : canonicalJson P (.obj (stripSignature cert)) = .ok data) : SignedFor .certificate data

/-- What a text that is signed for a purpose other than a handshake is the text of. -/
structure StructText (p : Purpose) (data : Bytes) (fields : Obj) : Prop where
  built : (Json.obj fields).Built fun _ => True
  text : canonicalJson P (.obj fields) = .ok data
  purpose : Purpose.ofKeys (fields.map Prod.fst) = p
  long : 32 < data.length

variable {P}

theorem structText_of_keys {fields : Obj} {data : Bytes} (keys : List String)
    (hbuilt : (Json.obj fields).Built fun _ => True)
    (h : canonicalJson P (.obj fields) = .ok data) (hnodup : (keys.map py).Nodup)
    (hsub : keys.map py ⊆ fields.map Prod.fst) (hlong : 30 < itemsLength (keys.map py)) :
    StructText P (Purpose.ofKeys (fields.map Prod.fst)) data fields := by
  refine ⟨hbuilt, h, rfl, ?_⟩
  have := length_le_canonicalJson hnodup hsub h
  omega

/-- An object of given items is built of what they are built of. -/
theorem built_of_values {text : PyStr → Prop} {fields : Obj} (hkeys : (fields.map Prod.fst).Nodup)
    (htext : ∀ s, text s) (hvals : ∀ v ∈ fields.map Prod.snd, Json.Built text v) :
    (Json.obj fields).Built text :=
  .obj hkeys (fun _ _ => htext _) fun _ hx => hvals _ (List.mem_map_of_mem hx)

/-- **A signed text is a transcript hash or the text of a struct of its purpose.**  The cases
are the purposes. -/
theorem SignedFor.cases {p : Purpose} {data : Bytes} (hlen : ∀ b, (P.sha256 b).length = 32)
    (h : SignedFor P p data) :
    (p = .handshake ∧ data.length = 32) ∨ ∃ fields, StructText P p data fields := by
  cases h with
  | handshake h =>
    obtain ⟨-, -, -, rfl⟩ := (buildTranscriptHash_eq_ok P).mp h
    exact .inl ⟨rfl, hlen _⟩
  | @origin s _ hfields h =>
    exact .inr ⟨_, structText_of_keys ["sender", "recipient", "file_id", "ciphertext_sha256"]
      hfields h (by decide +kernel)
      (List.sublist_append_left _ [py "wrapped_key_sha256", py "timestamp", py "expiration"]).subset
      (by decide +kernel)⟩
  | @revoke sender fileId timestamp _ hfields h =>
    have hkeys : (["action", "file_id", "sender", "timestamp"].map py).Nodup := by decide +kernel
    have hbuilt : (revokeJson sender fileId timestamp).Built fun _ => True := by
      refine built_of_values hkeys (fun _ => trivial) fun v hv => ?_
      rcases hv with _ | ⟨_, _ | ⟨_, _ | ⟨_, _ | ⟨_, _ | _⟩⟩⟩⟩
      · exact .str trivial
      · exact .str trivial
      · exact .str trivial
      · exact hfields
    exact .inr ⟨_, structText_of_keys ["action", "file_id", "sender", "timestamp"] hbuilt h hkeys
      (List.Subset.refl _) (by decide +kernel)⟩
  | @acknowledgement fileId timestamp _ hfields h =>
    have hkeys : (["file_id", "status", "timestamp"].map py).Nodup := by decide +kernel
    have hbuilt : (ackJson fileId timestamp).Built fun _ => True := by
      refine built_of_values hkeys (fun _ => trivial) fun v hv => ?_
      rcases hv with _ | ⟨_, _ | ⟨_, _ | ⟨_, _ | _⟩⟩⟩
      · exact .str trivial
      · exact .str trivial
      · exact hfields
    exact .inr ⟨_, structText_of_keys ["file_id", "status", "timestamp"] hbuilt h hkeys
      (List.Subset.refl _) (by decide +kernel)⟩
  | @certificate cert _ hfields hrequired h =>
    have hbody := built_stripSignature hfields
    have hmem : ∀ k ∈ requiredCertFields, py k ≠ py "signature" →
        py k ∈ (stripSignature cert).map Prod.fst := by
      intro k hk hne
      have hsome := List.any_eq_false.mp hrequired k hk
      rw [Bool.not_eq_true, Option.isNone_eq_false_iff, Option.isSome_iff_exists] at hsome
      obtain ⟨v, hv⟩ := hsome
      obtain ⟨l₁, l₂, rfl, -⟩ := List.lookup_eq_some_iff.mp hv
      exact List.mem_map.mpr ⟨(py k, v), List.mem_filter.mpr
        ⟨List.mem_append_right _ List.mem_cons_self, decide_eq_true hne⟩, rfl⟩
    have hissuer : py "issuer" ∈ (stripSignature cert).map Prod.fst :=
      hmem "issuer" (by decide) (by decide +kernel)
    have hpurpose : Purpose.ofKeys ((stripSignature cert).map Prod.fst) = .certificate :=
      if_pos hissuer
    refine .inr ⟨_, hpurpose ▸ structText_of_keys ["public_key_pem", "valid_until"] hbody h
      (by decide +kernel) ?_ (by decide +kernel)⟩
    intro k hk
    rcases hk with _ | ⟨_, _ | ⟨_, _ | _⟩⟩
    · exact hmem "public_key_pem" (by decide) (by decide +kernel)
    · exact hmem "valid_until" (by decide) (by decide +kernel)

/-- A text has one purpose. -/
theorem SignedFor.unique {p p' : Purpose} {data : Bytes} (hlen : ∀ b, (P.sha256 b).length = 32)
    (h : SignedFor P p data) (h' : SignedFor P p' data) : p = p' := by
  rcases h.cases hlen with ⟨rfl, hl⟩ | ⟨fields, hs⟩
  · rcases h'.cases hlen with ⟨rfl, -⟩ | ⟨fields', hs'⟩
    · rfl
    · exact absurd hs'.long (by omega)
  · rcases h'.cases hlen with ⟨rfl, hl⟩ | ⟨fields', hs'⟩
    · exact absurd hs.long (by omega)
    · have hsame := same_of_canonicalJson hs.built hs'.built hs.text hs'.text
      rw [← hs.purpose, ← hs'.purpose, Purpose.ofKeys_perm hsame.keys]

/-! ## Verifiers -/

variable (P)

/-- A signature that a verifier of the program accepts for a purpose, under a key. -/
inductive Accepted (key : RsaPublicKey) (signature : Bytes) : Purpose → Prop
  | handshake {pem nonceC nonceS preMasterCt transcript : Bytes}
      (hkey : loadPublic P pem = .ok key)
      (hhash : buildTranscriptHash P nonceC nonceS preMasterCt = .ok transcript)
      (h : rsaVerify P pem transcript signature = .ok true) : Accepted key signature .handshake
  | origin {cert : Obj} {s : Origin} (hkey : certKey P cert = .ok key)
      (hfields : s.toJson.Built fun _ => True)
      (h : verifyOriginStruct P cert signature s = .ok true) : Accepted key signature .origin
  | revoke {cert : Obj} {sender fileId : PyStr} {timestamp : Json}
      (hkey : certKey P cert = .ok key) (hfields : timestamp.Built fun _ => True)
      (h : verifyRevokeStruct P cert signature sender fileId timestamp = .ok true) :
      Accepted key signature .revoke
  | acknowledgement {cert : Obj} {req : Server.SignedRequest} (hkey : certKey P cert = .ok key)
      (hfields : req.timestamp.Built fun _ => True) (hsignature : req.signature = signature)
      (h : Server.verifyAck P cert req = .ok true) : Accepted key signature .acknowledgement
  | certificate {pem : Bytes} {cert : Obj} (hkey : loadPublic P pem = .ok key)
      (hfields : (Json.obj cert).Built fun _ => True)
      (hsignature : ((dictGet cert "signature").bind Json.asStr).bind b64decode = some signature)
      (h : certSignatureOk P cert pem = .ok true) : Accepted key signature .certificate

variable {P} {key : RsaPublicKey} {signature : Bytes}

theorem pssVerify_of_rsaVerify {pem data : Bytes} (hkey : loadPublic P pem = .ok key)
    (h : rsaVerify P pem data signature = .ok true) : P.pssVerify key data signature = true := by
  obtain ⟨key', hkey', hv⟩ := (rsaVerify_eq_ok_true P).mp h
  obtain rfl := Except.ok.inj (hkey.symm.trans hkey')
  exact hv

/-- What a verifier accepts is signed for its purpose. -/
theorem Accepted.signedFor {p : Purpose} (h : Accepted P key signature p) :
    ∃ data, SignedFor P p data ∧ P.pssVerify key data signature = true := by
  have hstruct : ∀ {cert : Obj} {canonical : Except PyExn Bytes}, certKey P cert = .ok key →
      verifyStruct P cert canonical signature = .ok true →
      ∃ data, canonical = .ok data ∧ P.pssVerify key data signature = true := by
    intro cert canonical hkey h
    obtain ⟨pem, data, hpem, hdata, hv⟩ := (verifyStruct_eq_ok_true P).mp h
    obtain ⟨pem', hpem', hkey⟩ := bind_eq_ok.mp hkey
    obtain rfl := Except.ok.inj (hpem.symm.trans hpem')
    exact ⟨data, hdata, pssVerify_of_rsaVerify hkey hv⟩
  cases h with
  | handshake hkey hhash h => exact ⟨_, .handshake hhash, pssVerify_of_rsaVerify hkey h⟩
  | origin hkey hfields h =>
    obtain ⟨data, hdata, hv⟩ := hstruct hkey h
    exact ⟨data, .origin hfields hdata, hv⟩
  | revoke hkey hfields h =>
    obtain ⟨data, hdata, hv⟩ := hstruct hkey h
    exact ⟨data, .revoke hfields hdata, hv⟩
  | acknowledgement hkey hfields hsignature h =>
    obtain ⟨pem, hpem, h⟩ := bind_eq_ok.mp h
    obtain ⟨data, hdata, hv⟩ := bind_eq_ok.mp h
    obtain ⟨pem', hpem', hkey⟩ := bind_eq_ok.mp hkey
    obtain rfl := Except.ok.inj (hpem.symm.trans hpem')
    exact ⟨data, .acknowledgement hfields hdata, pssVerify_of_rsaVerify hkey (hsignature ▸ hv)⟩
  | certificate hkey hfields hsignature h =>
    unfold certSignatureOk at h
    split_ifs at h with hrequired
    · cases h
    · rw [hsignature] at h
      obtain ⟨data, hdata, hv⟩ := bind_eq_ok.mp h
      exact ⟨data, .certificate hfields (Bool.eq_false_of_not_eq_true hrequired) hdata,
        pssVerify_of_rsaVerify hkey hv⟩

/-- **One purpose for each signature.**  The texts that are signed for different purposes are
different.  So where a signature verifies over one text only, none that is accepted in one
flow is accepted in another, and none that was made for one is. -/
theorem signature_purpose_unique (P : Primitives) (hlen : ∀ b, (P.sha256 b).length = 32) :
    (∀ p p' data, SignedFor P p data → SignedFor P p' data → p = p') ∧
    ((∀ key data data' signature, P.pssVerify key data signature = true →
      P.pssVerify key data' signature = true → data = data') →
    (∀ key signature p p', Accepted P key signature p → Accepted P key signature p' → p = p') ∧
    ∀ (key : RsaPrivateKey) (data salt : Bytes) (p p' : Purpose), P.Matching key →
      SignedFor P p data → Accepted P key.pub (P.pssSign key data salt) p' → p = p') := by
  refine ⟨fun p p' data h h' => h.unique hlen h', fun hbind => ⟨?_, ?_⟩⟩
  · intro key signature p p' h h'
    obtain ⟨data, hs, hv⟩ := h.signedFor
    obtain ⟨data', hs', hv'⟩ := h'.signedFor
    obtain rfl := hbind key data data' signature hv hv'
    exact hs.unique hlen hs'
  · intro key data salt p p' hkey hs h'
    obtain ⟨data', hs', hv'⟩ := h'.signedFor
    obtain rfl := hbind _ data data' _ (hkey.verify_sign data salt) hv'
    exact hs.unique hlen hs'

/-- A signature over a revocation is accepted as one, and as nothing else. -/
theorem revocation_signature_accepted_once : ∃ data signature : Bytes,
    revokeCanonical (.transparent []) (py "alice") (py "f") (.int 5) = .ok data ∧
      signature = (Primitives.transparent []).pssSign (.numbered 7) data [] ∧
      Accepted (.transparent []) (.numbered 7) signature .revoke ∧
      ∀ p ∈ [Purpose.handshake, .origin, .acknowledgement, .certificate],
        ¬ Accepted (.transparent []) (.numbered 7) signature p := by
  obtain ⟨data, hdata⟩ : ∃ data,
      revokeCanonical (.transparent []) (py "alice") (py "f") (.int 5) = .ok data :=
    exists_canonicalJson (.obj (by decide +kernel) (fun x hx => by
      rcases hx with _ | ⟨_, _ | ⟨_, _ | ⟨_, _ | ⟨_, _ | _⟩⟩⟩⟩ <;>
        exact encodable_of_all (by decide)) fun x hx => by
      rcases hx with _ | ⟨_, _ | ⟨_, _ | ⟨_, _ | ⟨_, _ | _⟩⟩⟩⟩
      · exact .str (encodable_of_all (by decide))
      · exact .str (encodable_of_all (by decide))
      · exact .str (encodable_of_all (by decide))
      · exact .int 5)
  obtain ⟨-, hunique⟩ := signature_purpose_unique (.transparent [])
    fun b => by simp [Primitives.transparent]
  obtain ⟨-, hunique⟩ := hunique fun _ _ _ _ => transparent_verify_inj
  refine ⟨data, _, hdata, rfl, ?_, fun p hp h => ?_⟩
  · refine @Accepted.revoke _ _ _ (certFor (py "alice") [chr 7]) (py "alice") (py "f") _
      (by decide +kernel) (.int 5) ((verifyStruct_eq_ok_true _).mpr ⟨[7], data, by decide +kernel, hdata,
        (rsaVerify_eq_ok_true _).mpr ⟨.numbered 7, by decide +kernel, decide_eq_true rfl⟩⟩)
  · obtain rfl := hunique (.numbered 7) data [] .revoke p (transparent_matching [] _)
      (.revoke (.int 5) hdata) h
    revert hp
    decide

end ZeroTrust
