import ZeroTrust.Common.Faithful
import ZeroTrust.Effects.Related
import ZeroTrust.Network.RoundTrip

/-!
# Contents stay out of sight

What a file contains shows in nothing that a client sends, signs or wraps, other than in what the
authenticated cipher makes of it.  Two runs are compared: the contents of the local files differ,
and so do the ciphers, in such a way that the ciphertexts agree.  Then everything else agrees.

* `Primitives.withCipher`: the primitives with another authenticated cipher.
* `Contents`, `Hides`: how contents may differ, and two ciphers that hide the difference.
* `likeness`, `FilesAlike`: operations, events and files that differ in contents only.
* `related_uploadFile`, `related_downloadFile`, `related_code`: the programs.
* `contents_unseen`: for every run there is the other one, and the same messages are sent.
* `Masked`, `hides_masked`: contents of which one is a mask of the other.
-/

namespace ZeroTrust

open Python

/-- The primitives with another authenticated cipher. -/
def Primitives.withCipher (P : Primitives) (enc : Bytes → Bytes → Bytes → Bytes → Bytes)
    (dec : Bytes → Bytes → Bytes → Bytes → Option Bytes) : Primitives :=
  { P with aesGcmEncrypt := enc, aesGcmDecrypt := dec }

section

variable (P : Primitives) (enc : Bytes → Bytes → Bytes → Bytes → Bytes)
  (dec : Bytes → Bytes → Bytes → Bytes → Option Bytes)

@[simp] theorem dumps_withCipher : dumps (P.withCipher enc dec) = dumps P := by
  funext o v
  induction v using Json.induction with
  | null => rfl
  | bool b => rfl
  | int i => rfl
  | float x => rfl
  | str s => rfl
  | arr xs ih => rw [dumps, dumps, dumpsList_eq_map, dumpsList_eq_map, List.map_congr_left ih]
  | obj fields ih =>
    rw [dumps, dumps, dumpsFields_eq_map, dumpsFields_eq_map,
      List.map_congr_left fun x hx => congrArg (Prod.mk x.1) (ih x hx)]

@[simp] theorem canonicalJson_withCipher :
    canonicalJson (P.withCipher enc dec) = canonicalJson P := by
  funext v
  rw [canonicalJson, canonicalJson, dumps_withCipher]

@[simp] theorem originCanonical_withCipher :
    originCanonical (P.withCipher enc dec) = originCanonical P := by
  funext o
  rw [originCanonical, originCanonical, canonicalJson_withCipher]

@[simp] theorem revokeCanonical_withCipher :
    revokeCanonical (P.withCipher enc dec) = revokeCanonical P := by
  funext sender fileId timestamp
  rw [revokeCanonical, revokeCanonical, canonicalJson_withCipher]

@[simp] theorem ackCanonical_withCipher :
    ackCanonical (P.withCipher enc dec) = ackCanonical P := by
  funext fileId timestamp
  rw [ackCanonical, ackCanonical, canonicalJson_withCipher]

@[simp] theorem packMessage_withCipher : packMessage (P.withCipher enc dec) = packMessage P := by
  funext msg
  rw [packMessage, packMessage, dumps_withCipher]

@[simp] theorem certSignatureOk_withCipher :
    certSignatureOk (P.withCipher enc dec) = certSignatureOk P := by
  funext cert ca
  rw [certSignatureOk, certSignatureOk, canonicalJson_withCipher]
  rfl

@[simp] theorem verifyCertificate_withCipher {E : Type} {R : E → Type} :
    @verifyCertificate (P.withCipher enc dec) E R = verifyCertificate P := by
  funext clock cert ca subject
  rw [verifyCertificate, verifyCertificate, certSignatureOk_withCipher]

end

namespace Endpoint

open Effects

variable (P : Primitives) (enc : Bytes → Bytes → Bytes → Bytes → Bytes)
  (dec : Bytes → Bytes → Bytes → Bytes → Option Bytes)

@[simp] theorem exec_withCipher : exec (P.withCipher enc dec) = exec P := by
  funext op i s
  cases op with
  | send type payload => rw [exec, exec, packMessage_withCipher]
  | _ => rfl

@[simp] theorem request_withCipher : request (P.withCipher enc dec) = request P := rfl

end Endpoint

namespace Network

open Effects Endpoint

/-! ## What may differ -/

/-- How the contents of files may differ: not in their length, and where a part of one was
written, by the same part of the other. -/
structure Contents (C : Bytes → Bytes → Prop) : Prop where
  length : ∀ {m m'}, C m m' → m.length = m'.length
  take : ∀ {m m'} (n : ℕ), C m m' → C (m.take n) (m'.take n)

/-- A cipher, and another that hides the difference: their ciphertexts agree, and what they
decrypt differs no more. -/
structure Hides (P : Primitives) (C : Bytes → Bytes → Prop)
    (enc : Bytes → Bytes → Bytes → Bytes → Bytes)
    (dec : Bytes → Bytes → Bytes → Bytes → Option Bytes) : Prop where
  encrypt : ∀ {m m'} key nonce aad, C m m' →
    P.aesGcmEncrypt key nonce m aad = enc key nonce m' aad
  decrypt : ∀ key nonce ciphertext aad,
    Option.Rel C (P.aesGcmDecrypt key nonce ciphertext aad) (dec key nonce ciphertext aad)

/-- The operations that carry the content of a file. -/
def carries : Op → Bool
  | .readFile _ | .writeFile _ _ => true
  | _ => false

/-- Operations that differ in the contents they write. -/
inductive OpAlike (C : Bytes → Bytes → Prop) : Op → Op → Prop
  | same {op : Op} : carries op = false → OpAlike C op op
  | read {path : LocalPath} : OpAlike C (.readFile path) (.readFile path)
  | write {path : LocalPath} {m m' : Bytes} : C m m' →
      OpAlike C (.writeFile path m) (.writeFile path m')

/-- Events that differ in the contents they read or write. -/
inductive EvAlike (C : Bytes → Bytes → Prop) : Ev → Ev → Prop
  | same {ev : Ev} : carries ev.op = false → EvAlike C ev ev
  | read {path : LocalPath} {m m' : Bytes} : C m m' →
      EvAlike C ⟨.readFile path, .ok m⟩ ⟨.readFile path, .ok m'⟩
  | readFails {path : LocalPath} (x : PyExn) :
      EvAlike C ⟨.readFile path, .error x⟩ ⟨.readFile path, .error x⟩
  | write {path : LocalPath} {m m' : Bytes} (r : Except PyExn Unit) : C m m' →
      EvAlike C ⟨.writeFile path m, r⟩ ⟨.writeFile path m', r⟩

/-- Runs that differ in contents only. -/
def likeness (C : Bytes → Bytes → Prop) : Likeness Op Op.Res := ⟨OpAlike C, EvAlike C⟩

/-- Files that differ in their contents only. -/
def FilesAlike (C : Bytes → Bytes → Prop) (s s' : Files) : Prop :=
  ∀ path, Option.Rel C (s path) (s' path)

variable {C : Bytes → Bytes → Prop}

theorem EvAlike.eq {ev ev' : Ev} (h : EvAlike C ev ev') (hev : carries ev.op = false) :
    ev = ev' := by
  cases h with
  | same _ => rfl
  | _ => cases hev

theorem likeness_fixed {op : Op} (h : carries op = false) : (likeness C).Fixed op :=
  ⟨.same h, fun _ _ hev => eq_of_heq (Event.mk.inj (hev.eq h)).2⟩

/-! ## Operations -/

theorem FilesAlike.update {s s' : Files} (h : FilesAlike C s s') (path : LocalPath)
    {a a' : Option Bytes} (ha : Option.Rel C a a') :
    FilesAlike C (Function.update s path a) (Function.update s' path a') := by
  intro p
  by_cases hp : p = path
  · subst hp
    rwa [Function.update_self, Function.update_self]
  · rw [Function.update_of_ne hp, Function.update_of_ne hp]
    exact h p

theorem FilesAlike.isSome_eq {s s' : Files} (h : FilesAlike C s s') (path : LocalPath) :
    (s path).isSome = (s' path).isSome := by
  have hpath := h path
  cases hs : s path <;> cases hs' : s' path <;> rw [hs, hs'] at hpath <;> first | rfl | cases hpath

/-- What reading a file gives: one exception, or contents that may differ. -/
theorem FilesAlike.readPath {s s' : Files} (h : FilesAlike C s s') (path : LocalPath) :
    ResultRel C (Endpoint.readPath s path) (Endpoint.readPath s' path) := by
  have hpath := h path
  unfold Endpoint.readPath
  cases hs : s path <;> cases hs' : s' path <;> rw [hs, hs'] at hpath <;> cases hpath
  · exact .error _
  · exact .ok ‹_›

theorem reading_eq {α : Type} (i : Input) (s : Files) (x : Except PyExn α) :
    reading i s x = (i.fault.elim x .error, s) := by
  unfold reading
  cases i.fault <;> rfl

/-- An operation that reads the same in both. -/
theorem alike_reading {op : Op} {i : Input} {s s' : Files} {x : op.Res} (h : carries op = false)
    (hs : FilesAlike C s s') :
    EvAlike C ⟨op, (reading i s x).1⟩ ⟨op, (reading i s' x).1⟩ ∧
      FilesAlike C (reading i s x).2 (reading i s' x).2 := by
  rw [reading_eq, reading_eq]
  exact ⟨.same h, hs⟩

/-- An operation that fails in both, or changes the files alike. -/
theorem alike_writing {i : Input} {s s' : Files} {x x' : Except PyExn Files}
    (hs : FilesAlike C s s') (hx : ResultRel (FilesAlike C) x x') :
    (writing i s x).1 = (writing i s' x').1 ∧
      FilesAlike C (writing i s x).2 (writing i s' x').2 := by
  unfold writing
  cases i.fault with
  | some e => exact ⟨rfl, hs⟩
  | none =>
    cases hx with
    | ok hx => exact ⟨rfl, hx⟩
    | error e => exact ⟨rfl, hs⟩

theorem FilesAlike.replacePath {s s' : Files} (h : FilesAlike C s s') (src dst : LocalPath) :
    ResultRel (FilesAlike C) (Endpoint.replacePath s src dst)
      (Endpoint.replacePath s' src dst) := by
  have hsrc := h src
  unfold Endpoint.replacePath
  cases hs : s src <;> cases hs' : s' src <;> rw [hs, hs'] at hsrc <;> cases hsrc
  · exact .error _
  · exact .ok ((h.update src .none).update dst (.some ‹_›))

/-- The writing of a file, whole or in part. -/
theorem alike_writingPart (hC : Contents C) {i : Input} {s s' : Files} {path : LocalPath}
    {m m' : Bytes} (hs : FilesAlike C s s') (hm : C m m') :
    (writingPart i s path m).1 = (writingPart i s' path m').1 ∧
      FilesAlike C (writingPart i s path m).2 (writingPart i s' path m').2 := by
  unfold writingPart
  cases i.fault with
  | none => exact ⟨rfl, hs.update path (.some hm)⟩
  | some e =>
    cases i.written with
    | none => exact ⟨rfl, hs⟩
    | some n => exact ⟨rfl, hs.update path (.some (hC.take n hm))⟩

/-- **On files that differ in contents only, operations do too.** -/
theorem exec_alike (P : Primitives) (hC : Contents C) {op op' : Op} {s s' : Files} (i : Input)
    (hop : OpAlike C op op') (hs : FilesAlike C s s') :
    EvAlike C ⟨op, (exec P op i s).1⟩ ⟨op', (exec P op' i s').1⟩ ∧
      FilesAlike C (exec P op i s).2 (exec P op' i s').2 := by
  cases hop with
  | same h =>
    cases op with
    | isFile path =>
      rw [exec, exec, hs.isSome_eq path]
      exact alike_reading h hs
    | statSize path =>
      have hsize : (readPath s path).map List.length = (readPath s' path).map List.length := by
        have hread := hs.readPath path
        generalize readPath s path = x, readPath s' path = x' at hread
        cases hread with
        | ok hm => exact congrArg Except.ok (hC.length hm)
        | error x => rfl
      rw [exec, exec, hsize]
      exact alike_reading h hs
    | replace src dst =>
      obtain ⟨heq, hpost⟩ := alike_writing (i := i) hs (hs.replacePath src dst)
      rw [exec, exec, heq]
      exact ⟨.same h, hpost⟩
    | unlink path =>
      obtain ⟨heq, hpost⟩ := alike_writing (i := i) hs (.ok (hs.update path .none))
      rw [exec, exec, heq]
      exact ⟨.same h, hpost⟩
    | readFile path => cases h
    | writeFile path data => cases h
    | time | urandom n | uuid4 | sign pem password data | oaepEncrypt pem data =>
      exact ⟨.same h, hs⟩
    | send type payload | recv | makeParent path => exact alike_reading h hs
  | @read path =>
    rw [exec, exec, reading_eq, reading_eq]
    cases i.fault with
    | some e => exact ⟨.readFails e, hs⟩
    | none =>
      refine ⟨?_, hs⟩
      have hread := hs.readPath path
      generalize readPath s path = x, readPath s' path = x' at hread
      cases hread with
      | ok hm => exact .read hm
      | error x => exact .readFails x
  | write hm =>
    obtain ⟨heq, hpost⟩ := alike_writingPart hC (i := i) hs hm
    rw [exec, exec, heq]
    exact ⟨.write _ hm, hpost⟩

/-! ## Programs -/

section

variable {P : Primitives}

theorem issues_bare {op : Op} (h : carries op = false) :
    Issues (likeness C).Fixed (act op : EndpointM op.Ans) :=
  issues_act (likeness_fixed h)

theorem issues_bareEnvelope : Issues (likeness C).Fixed recvEnvelope :=
  (issues_bare rfl).bind fun _ => issues_raising _

theorem issues_bareRequest {type expected : MessageType} {payload : Obj} :
    Issues (likeness C).Fixed (request P type payload expected) := by
  refine (issues_bare rfl).bind fun _ => issues_bareEnvelope.bind fun reply => ?_
  split_ifs
  · exact issues_throw _
  · exact issues_throw _
  · exact issues_pure _

theorem issues_bareVerify {cert : Json} {ca : Bytes} {subject : Option PyStr} :
    Issues (likeness C).Fixed (verifyCertificate P (act Op.time : EndpointM ℤ) cert ca subject) := by
  unfold verifyCertificate
  cases cert.asObj with
  | none => exact issues_pure _
  | some c =>
    refine (issues_raising _).bind fun signed => ?_
    cases signed with
    | false => exact issues_pure _
    | true =>
      refine (issues_bare rfl).bind fun now => (issues_raising _).bind fun inDate => ?_
      cases inDate <;> exact issues_pure _

theorem issues_fetchPeerCert {session : Client.Session} {username : PyStr} :
    Issues (likeness C).Fixed (Client.fetchPeerCert P session username) := by
  refine issues_bareRequest.bind fun reply => ?_
  split
  · refine issues_bareVerify.bind fun good => ?_
    cases good with
    | false => exact issues_throw _
    | true => exact issues_pure _
  · exact issues_throw _

theorem issues_buildPackage {session : Client.Session} {cert : Obj} {recipient : PyStr}
    {plaintext : Bytes} {expiration : ℤ} :
    Issues (likeness C).Fixed
      (Client.buildPackage P session cert recipient plaintext expiration) := by
  refine (issues_bare rfl).bind fun fileId => .bind ?_ fun x => .bind ?_ fun wrapped =>
    (issues_bare rfl).bind fun _ => issues_pure _
  · refine (issues_bare rfl).bind fun key => (issues_raising _).bind fun aad => .bind ?_ fun x =>
      issues_pure _
    unfold aesGcmEncrypt
    split_ifs
    · exact issues_throw _
    · exact (issues_bare rfl).bind fun _ => issues_pure _
  · unfold wrapAesKeyFor
    split_ifs
    · exact issues_throw _
    · exact (issues_raising _).bind fun _ => issues_bare rfl

theorem issues_revokeFile {session : Client.Session} {fileId : PyStr} :
    Issues (likeness C).Fixed (Client.revokeFile P session fileId) := by
  unfold Client.revokeFile
  extract_lets rest
  have hrest : ∀ u, Issues (likeness C).Fixed (rest u) := fun _ =>
    (issues_bare rfl).bind fun ts => (issues_raising _).bind fun data =>
      (issues_bare rfl).bind fun sig => issues_bareRequest
  split_ifs
  · exact (issues_throw _).bind hrest
  · exact hrest ()

theorem issues_listPending : Issues (likeness C).Fixed (Client.listPending P) := by
  refine issues_bareRequest.bind fun reply => ?_
  split
  · split_ifs
    · exact issues_pure _
    · exact issues_throw _
  · exact issues_throw _

theorem issues_clientHandshake {me : Party} {subject : Option PyStr} :
    Issues (likeness C).Fixed (Client.performClientHandshake P me subject) := by
  refine .bind ?_ fun x => .bind ?_ fun y => ?_
  · refine (issues_bare rfl).bind fun nonce => (issues_bare rfl).bind fun _ =>
      issues_bareEnvelope.bind fun hello => ?_
    split_ifs
    · exact issues_throw _
    · split
      · exact issues_throw _
      · refine issues_bareVerify.bind fun good => ?_
        cases good with
        | false => exact issues_throw _
        | true => exact (issues_raising _).bind fun _ => issues_pure _
  · exact (issues_bare rfl).bind fun _ => (issues_bare rfl).bind fun _ =>
      (issues_bare rfl).bind fun _ => (issues_raising _).bind fun _ =>
        (issues_bare rfl).bind fun _ => (issues_bare rfl).bind fun _ => issues_pure _
  · refine issues_bareEnvelope.attempt.bind fun r => ?_
    split
    · exact (issues_raising _).bind fun _ => issues_raising _
    · exact issues_throw _
    · exact issues_throw _
    · exact issues_throw _

theorem issues_fail {α : Type} {reason : PyStr} :
    Issues (likeness C).Fixed (Server.fail reason : EndpointM α) := by
  refine (issues_bare rfl).attempt.bind fun r => ?_
  split <;> exact issues_throw _

theorem issues_receiveOrFail {type : MessageType} {what : String} :
    Issues (likeness C).Fixed (Server.receiveOrFail type what) := by
  refine issues_bareEnvelope.attempt.bind fun r => ?_
  split
  · split_ifs
    · exact issues_fail
    · exact issues_pure _
  · exact issues_fail
  · exact issues_throw _

theorem issues_serverHandshake {me : Party} :
    Issues (likeness C).Fixed (Server.performServerHandshake P me) := by
  refine .bind ?_ fun x => .bind ?_ fun e => .bind ?_ fun transcript => ?_
  · refine issues_receiveOrFail.bind fun payload => ?_
    split
    · exact issues_fail
    · refine issues_bareVerify.bind fun good => ?_
      cases good with
      | false => exact issues_fail
      | true => exact (issues_raising _).bind fun _ => issues_pure _
  · refine (issues_bare rfl).bind fun nonce => (issues_bare rfl).bind fun _ =>
      issues_receiveOrFail.bind fun payload => ?_
    split
    · exact issues_fail
    · split
      · exact issues_fail
      · exact issues_throw _
      · split_ifs
        · exact issues_fail
        · exact issues_pure _
  · refine (issues_raising _).bind fun data => issues_receiveOrFail.bind fun payload => ?_
    split
    · exact issues_fail
    · refine (issues_raising _).bind fun good => ?_
      cases good with
      | false => exact issues_fail
      | true => exact issues_pure _
  · exact (issues_raising _).bind fun _ => (issues_bare rfl).bind fun _ =>
      (issues_bare rfl).bind fun _ => issues_pure _

/-! ### What the contents reach -/

variable {enc : Bytes → Bytes → Bytes → Bytes → Bytes}
  {dec : Bytes → Bytes → Bytes → Bytes → Option Bytes} {session : Client.Session}

/-- **The package does not show the content.** -/
theorem buildPackage_withCipher (hP : Hides P C enc dec) {m m' : Bytes} (hm : C m m') (cert : Obj)
    (recipient : PyStr) (expiration : ℤ) :
    Client.buildPackage P session cert recipient m expiration =
      Client.buildPackage (P.withCipher enc dec) session cert recipient m' expiration := by
  have hcipher : ∀ key aad,
      aesGcmEncrypt P key m aad = aesGcmEncrypt (P.withCipher enc dec) key m' aad := by
    intro key aad
    rw [aesGcmEncrypt, aesGcmEncrypt]
    simp only [hP.encrypt _ _ _ hm]
    rfl
  rw [Client.buildPackage, Client.buildPackage]
  simp only [encryptFileBlob, hcipher]

/-- What an upload does with the content that it has read. -/
def submit (P : Primitives) (session : Client.Session) (cert : Obj) (recipient : PyStr)
    (expiration : ℤ) (plaintext : Bytes) : EndpointM Obj := do
  let pkg ← Client.buildPackage P session cert recipient plaintext expiration
  let canonical ← raising (originCanonical P (pkg.origin P session.username))
  let signature ← act (Op.sign session.clientPrivPem session.clientPassword canonical)
  request P .UPLOAD_REQUEST
    (uploadPayload pkg.fileId pkg.recipient pkg.ciphertext pkg.nonce pkg.wrappedKey signature
      pkg.timestamp pkg.expiration) .UPLOAD_ACK

theorem submit_withCipher (hP : Hides P C enc dec) {m m' : Bytes} (hm : C m m') (cert : Obj)
    (recipient : PyStr) (expiration : ℤ) :
    submit P session cert recipient expiration m =
      submit (P.withCipher enc dec) session cert recipient expiration m' := by
  rw [submit, submit, buildPackage_withCipher hP hm, originCanonical_withCipher]
  rfl

theorem issues_submit {cert : Obj} {recipient : PyStr} {expiration : ℤ} {plaintext : Bytes} :
    Issues (likeness C).Fixed (submit P session cert recipient expiration plaintext) :=
  issues_buildPackage.bind fun _ => (issues_raising _).bind fun _ =>
    (issues_bare rfl).bind fun _ => issues_bareRequest

/-- A file is read: its contents differ. -/
theorem related_readFile (path : LocalPath) :
    RelatedE (likeness C) C (act (Op.readFile path) : EndpointM Bytes)
      (act (Op.readFile path) : EndpointM Bytes) := by
  have hop : (likeness C).ops (.readFile path) (.readFile path) := OpAlike.read
  refine relatedE_act hop fun r r' hev => ?_
  cases hev with
  | same h => cases h
  | read hm => exact .ok hm
  | readFails x => exact .error x

/-- **An upload.**  Up to the reading of the file the two programs are one, and after it too. -/
theorem related_uploadFile (hP : Hides P C enc dec) {recipient : PyStr} {path : LocalPath}
    {expiration : ℤ} :
    RelatedE (likeness C) Eq (Client.uploadFile P session recipient path expiration)
      (Client.uploadFile (P.withCipher enc dec) session recipient path expiration) := by
  have hfetch : Client.fetchPeerCert (P.withCipher enc dec) session recipient =
      Client.fetchPeerCert P session recipient := by
    rw [Client.fetchPeerCert, Client.fetchPeerCert, request_withCipher, verifyCertificate_withCipher]
  unfold Client.uploadFile
  refine ((issues_bare rfl).related).bind fun there _ hthere => ?_
  subst hthere
  refine relatedE_guard _ _ (((issues_bare rfl).related).bind fun size _ hsize => ?_)
  subst hsize
  refine relatedE_guard _ _ ?_
  rw [hfetch]
  refine issues_fetchPeerCert.related.bind fun cert _ hcert => ?_
  subst hcert
  refine (related_readFile path).bind fun m m' hm => ?_
  show RelatedE _ _ (submit P session cert recipient expiration m)
    (submit (P.withCipher enc dec) session cert recipient expiration m')
  rw [← submit_withCipher hP hm]
  exact issues_submit.related

/-- What is decrypted differs in content only. -/
theorem decryptFileBlob_alike (hP : Hides P C enc dec) (key nonce ciphertext : Bytes)
    (fileId sender recipient : PyStr) :
    ResultRel C (decryptFileBlob P key nonce ciphertext fileId sender recipient)
      (decryptFileBlob (P.withCipher enc dec) key nonce ciphertext fileId sender recipient) := by
  unfold decryptFileBlob
  cases fileAad fileId sender recipient with
  | error x => exact .error x
  | ok aad =>
    rw [ok_bind, ok_bind]
    have hdec : Option.Rel C (P.aesGcmDecrypt key nonce ciphertext aad)
        ((P.withCipher enc dec).aesGcmDecrypt key nonce ciphertext aad) :=
      hP.decrypt key nonce ciphertext aad
    unfold aesGcmDecrypt
    generalize P.aesGcmDecrypt key nonce ciphertext aad = x,
      (P.withCipher enc dec).aesGcmDecrypt key nonce ciphertext aad = x' at hdec
    split_ifs
    · exact .error _
    · exact .error _
    · cases hdec with
      | none => exact .error _
      | some hm => exact .ok hm

theorem openResponse_alike (hP : Hides P C enc dec) (resp : Client.Response) :
    ResultRel C (Client.openResponse P session resp)
      (Client.openResponse (P.withCipher enc dec) session resp) := by
  have hverify : verifyOriginStruct (P.withCipher enc dec) resp.senderCert resp.signature
      (resp.origin (P.withCipher enc dec) session.username) =
      verifyOriginStruct P resp.senderCert resp.signature (resp.origin P session.username) := by
    rw [verifyOriginStruct, verifyOriginStruct, originCanonical_withCipher]
    rfl
  rw [Client.openResponse, Client.openResponse, hverify]
  cases verifyOriginStruct P resp.senderCert resp.signature
    (resp.origin P session.username) with
  | error x => exact .error x
  | ok good =>
    rw [ok_bind, ok_bind]
    split_ifs
    · cases Client.downloadAad resp.fileId resp.sender session.username with
      | error x => exact .error x
      | ok aad =>
        rw [ok_bind, ok_bind]
        split_ifs
        · exact .error _
        · show ResultRel C (unwrapAesKey P session.clientPrivPem session.clientPassword
              resp.wrappedKey >>= _) (unwrapAesKey P session.clientPrivPem session.clientPassword
              resp.wrappedKey >>= _)
          cases unwrapAesKey P session.clientPrivPem session.clientPassword resp.wrappedKey with
          | error x => exact .error x
          | ok key => exact decryptFileBlob_alike hP ..
    · exact .error _

theorem issues_acknowledge {fileId : PyStr} :
    Issues (likeness C).Fixed (Client.acknowledge P session fileId) :=
  (issues_bare rfl).bind fun _ => (issues_raising _).bind fun _ => (issues_bare rfl).bind fun _ =>
    (issues_bare rfl).bind fun _ => issues_bareEnvelope.bind fun _ => issues_pure _

/-- What a download writes differs in content only. -/
theorem related_atomicWrite (tmp path : LocalPath) {m m' : Bytes} (hm : C m m') :
    RelatedE (likeness C) Eq (Client.atomicWrite tmp path m) (Client.atomicWrite tmp path m') := by
  have hwrite : RelatedE (likeness C) Eq (act (Op.writeFile tmp m) : EndpointM Unit)
      (act (Op.writeFile tmp m') : EndpointM Unit) := by
    have hop : (likeness C).ops (.writeFile tmp m) (.writeFile tmp m') := OpAlike.write hm
    refine relatedE_act hop fun r r' hev => .of_eq ?_
    cases hev <;> rfl
  refine ((issues_bare rfl).related).bind fun _ _ _ => ?_
  refine (relatedE_attempt (hwrite.bind fun _ _ _ => (issues_bare rfl).related)).bind
    fun r r' hr => ?_
  cases hr with
  | ok _ => exact relatedE_pure rfl
  | error x =>
    refine Issues.related ?_
    cases x with
    | osError =>
      refine (issues_bare rfl).attempt.bind fun r => ?_
      split <;> exact issues_throw _
    | _ => exact issues_throw _

/-- **A download.**  Up to the decryption the two programs are one; what they write then differs
in content only. -/
theorem related_downloadFile (hP : Hides P C enc dec) {fileId : PyStr} :
    RelatedE (likeness C) Eq (Client.downloadFile P session fileId)
      (Client.downloadFile (P.withCipher enc dec) session fileId) := by
  have hack : Client.acknowledge (P.withCipher enc dec) session fileId =
      Client.acknowledge P session fileId := by
    rw [Client.acknowledge, Client.acknowledge, ackCanonical_withCipher]
  unfold Client.downloadFile Client.verifyAndDecryptDownload
  rw [hack, verifyCertificate_withCipher, request_withCipher]
  refine issues_bareRequest.related.bind fun payload _ hpayload => ?_
  subst hpayload
  refine RelatedE.bind (S := C) ?_ fun m m' hm => ?_
  · refine (issues_raising _).related.bind fun resp _ hresp => ?_
    subst hresp
    refine issues_bareVerify.related.bind fun good _ hgood => ?_
    subst hgood
    cases good with
    | false => exact relatedE_throw _
    | true => exact relatedE_raising (openResponse_alike hP resp)
  · refine issues_acknowledge.related.bind fun _ _ _ => ?_
    exact (related_atomicWrite _ _ hm).bind fun _ _ _ => relatedE_pure rfl

/-- **Every party's two programs** are in step. -/
theorem related_code (hP : Hides P C enc dec) (l : Label) :
    Prog.Related (likeness C) (ResultRel Eq) (code P l).run
      (code (P.withCipher enc dec) l).run := by
  have hwrap : ∀ {α : Type} {x y : EndpointM α} (f : α → Outcome),
      RelatedE (likeness C) Eq x y → RelatedE (likeness C) Eq (x >>= fun a => pure (f a))
        (y >>= fun a => pure (f a)) :=
    fun f h => h.bind fun _ _ hab => relatedE_pure (congrArg f hab)
  match l with
  | .client session (.upload recipient path expiration) =>
    exact hwrap (fun _ => .done) (related_uploadFile hP)
  | .client session (.download fileId) => exact hwrap (fun _ => .done) (related_downloadFile hP)
  | .client session (.revoke fileId) =>
    have heq : Client.revokeFile (P.withCipher enc dec) session fileId =
        Client.revokeFile P session fileId := by
      rw [Client.revokeFile, Client.revokeFile, revokeCanonical_withCipher]
      rfl
    exact hwrap (fun _ => .done) (heq ▸ issues_revokeFile.related)
  | .client session .listPending => exact hwrap (fun _ => .done) issues_listPending.related
  | .client session (.handshake subject) =>
    have heq : Client.performClientHandshake (P.withCipher enc dec) session.party subject =
        Client.performClientHandshake P session.party subject := by
      unfold Client.performClientHandshake Client.greetServer
      rw [verifyCertificate_withCipher]
      rfl
    exact hwrap .session (heq ▸ issues_clientHandshake.related)
  | .server me =>
    have heq : Server.performServerHandshake (P.withCipher enc dec) me =
        Server.performServerHandshake P me := by
      unfold Server.performServerHandshake Server.greetClient
      rw [verifyCertificate_withCipher]
      rfl
    exact hwrap .session (heq ▸ issues_serverHandshake.related)

end

/-! ## Runs -/

/-- What a network sees of an item, and everything else that is not a file's content. -/
def traffic (x : Item Op Op.Res Input Files Label) : Option (ℕ × Label × Ev) :=
  if carries x.ev.op then none else some (x.job, x.label, x.ev)

theorem endpoints_inStep {P : Primitives} {enc : Bytes → Bytes → Bytes → Bytes → Bytes}
    {dec : Bytes → Bytes → Bytes → Bytes → Option Bytes} (hC : Contents C)
    (hP : Hides P C enc dec) :
    InStep (likeness C) (FilesAlike C) (ResultRel Eq) (endpoints P)
      (endpoints (P.withCipher enc dec)) := by
  constructor
  · intro op op' s s' i hop hs
    have hexec : (endpoints (P.withCipher enc dec)).exec = (endpoints P).exec :=
      exec_withCipher P enc dec
    rw [hexec]
    exact exec_alike P hC i hop hs
  · intro l
    exact related_code hP l

section

variable {t t' : Trace} {js js' : Jobs}

theorem traffic_eq {x y : Item Op Op.Res Input Files Label}
    (h : ItemInStep (likeness C) (FilesAlike C) x y) : traffic x = traffic y := by
  have hev : EvAlike C x.ev y.ev := h.ev
  unfold traffic
  rw [h.job, h.label]
  generalize x.ev = a, y.ev = b at hev ⊢
  cases hev with
  | same _ => rfl
  | _ => rfl

theorem ends_inStep (h : List.Forall₂ (JobInStep (likeness C) (ResultRel Eq)) js js') {n : ℕ}
    {l : Label} {g : List Ev} {r : Except PyExn Outcome} (hj : js[n]? = some ⟨l, g, .pure r⟩) :
    ∃ g', js'[n]? = some ⟨l, g', .pure r⟩ := by
  obtain ⟨⟨l', g', p⟩, hj', hlabel, -, hrest⟩ := exists_getElem?_of_forall₂ h hj
  obtain rfl : l = l' := hlabel
  change (Prog.pure r).Related (likeness C) (ResultRel Eq) p at hrest
  cases hrest with
  | pure hres =>
    cases hres with
    | ok heq => exact ⟨g', heq ▸ hj'⟩
    | error x => exact ⟨g', hj'⟩

/-- **Contents stay out of sight.**  Let the contents of the local files differ, and let the cipher
differ so as to hide it.  Then for every run, whatever the network delivers, there is one on the
other contents with the same inputs, in which every message that is sent, every signature and
every wrapped key is the same; every program ends alike, and the files differ in contents only. -/
theorem contents_unseen {P : Primitives} {enc : Bytes → Bytes → Bytes → Bytes → Bytes}
    {dec : Bytes → Bytes → Bytes → Bytes → Option Bytes} (hC : Contents C)
    (hP : Hides P C enc dec) {s₀ s₀' s : Files} (hr : (endpoints P).Run s₀ t js s)
    (h₀ : FilesAlike C s₀ s₀') :
    ∃ (t' : Trace) (js' : Jobs) (s' : Files),
      (endpoints (P.withCipher enc dec)).Run s₀' t' js' s' ∧
      t'.map Item.input = t.map Item.input ∧ t'.filterMap traffic = t.filterMap traffic ∧
      (∀ (n : ℕ) (l : Label) (g : List Ev) (r : Except PyExn Outcome),
        js[n]? = some ⟨l, g, .pure r⟩ → ∃ g', js'[n]? = some ⟨l, g', .pure r⟩) ∧
      FilesAlike C s s' := by
  obtain ⟨t', js', s', hr', ht, hjs, hs⟩ := hr.exists_inStep (endpoints_inStep hC hP) h₀
  refine ⟨t', js', s', hr', ?_, ?_, fun n l g r hj => ends_inStep hjs hj, hs⟩
  · clear hr hr'
    induction ht with
    | nil => rfl
    | cons hxy _ ih => rw [List.map_cons, List.map_cons, ih, hxy.input]
  · clear hr hr'
    induction ht with
    | nil => rfl
    | cons hxy _ ih => rw [List.filterMap_cons, List.filterMap_cons, traffic_eq hxy, ih]

end

/-! ### A sample mask -/

/-- Contents of which one is the other octet by octet. -/
def Masked (mask : UInt8 → UInt8) (m m' : Bytes) : Prop := m' = m.map mask

/-- Every cipher has a counterpart that hides a mask. -/
def maskedPrimitives (P : Primitives) (mask : UInt8 → UInt8) : Primitives :=
  P.withCipher (fun key nonce m aad => P.aesGcmEncrypt key nonce (m.map mask) aad)
    fun key nonce ciphertext aad => (P.aesGcmDecrypt key nonce ciphertext aad).map (List.map mask)

theorem contents_masked (mask : UInt8 → UInt8) : Contents (Masked mask) where
  length h := by rw [h, List.length_map]
  take n h := by rw [Masked, h, List.map_take]

theorem hides_masked (P : Primitives) {mask : UInt8 → UInt8} (hmask : Function.Involutive mask) :
    Hides P (Masked mask) (fun key nonce m aad => P.aesGcmEncrypt key nonce (m.map mask) aad)
      fun key nonce ciphertext aad =>
        (P.aesGcmDecrypt key nonce ciphertext aad).map (List.map mask) where
  encrypt key nonce aad h := by
    rw [h, List.map_map, hmask.comp_self, List.map_id]
  decrypt key nonce ciphertext aad := by
    cases P.aesGcmDecrypt key nonce ciphertext aad with
    | none => exact .none
    | some m => exact .some rfl

/-- The sample files with every octet complemented. -/
def complementedFiles : Files := fun path => (relayFiles path).map (List.map fun b => ~~~b)

/-- `alice`'s upload of the complemented file looks the same. -/
theorem contents_unseen_notes : ∃ (t' : Trace) (js' : Jobs) (s' : Files),
    (endpoints (maskedPrimitives sharedPrimitives fun b => ~~~b)).Run complementedFiles t' js' s' ∧
      t'.map Item.input = notesRun.trace.map Item.input ∧
      t'.filterMap traffic = notesRun.trace.filterMap traffic := by
  have hfiles : FilesAlike (Masked fun b => ~~~b) relayFiles complementedFiles := by
    intro path
    unfold complementedFiles
    cases relayFiles path with
    | none => exact .none
    | some m => exact .some rfl
  obtain ⟨t', js', s', hr', hinput, htraffic, -⟩ :=
    contents_unseen (contents_masked _) (hides_masked sharedPrimitives fun b => UInt8.not_not)
      ((endpoints sharedPrimitives).run_play relayFiles notesMoves) hfiles
  exact ⟨t', js', s', hr', hinput, htraffic⟩

end Network
end ZeroTrust
