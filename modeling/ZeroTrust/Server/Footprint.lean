import ZeroTrust.Effects.Solo
import ZeroTrust.Server.Guarantee

/-!
# Which operations the parts of the handlers issue

For each part of a handler, the operations it may issue, whatever they answer.  Where two
stores answer these operations alike, the part cannot tell the stores apart.

* `issues_verifyCertificate`, `issues_loadVerifiedPubkeyCert`, `issues_pendingEntries`,
  `issues_serveDownload`, `issues_acceptUpload`, `issues_acceptAck`, `issues_acceptRevoke`:
  the parts; `issues_handleUploadRequest`: an upload as a whole.
* `alike_reading`, `alike_writing`: single operations in two stores.
* `pair_replayGate`: the gate in two runs at once.
-/

namespace ZeroTrust
namespace Server

open Python Effects

variable {P : Primitives} {ca : Bytes} {session : Session} {env : Envelope} {B : Op → Prop}

theorem issues_sendMessage {type : MessageType} {payload : Obj} (h : B (.send type payload)) :
    Issues B (sendMessage type payload) := issues_act h

theorem issues_sendError {code : String} (h : B (.send .ERROR (errorPayload code))) :
    Issues B (sendError code) := issues_act h

theorem issues_checkAndRecord {nonce : Bytes} {timestamp : ℤ} (htime : B .time)
    (hinsert : ∀ now, B (.insertNonce nonce now)) : Issues B (checkAndRecord nonce timestamp) := by
  unfold checkAndRecord
  split_ifs
  · exact issues_pure _
  · refine (issues_act htime).bind fun now => ?_
    cases isStale now timestamp with
    | true => exact issues_pure _
    | false =>
      refine (issues_act (hinsert now)).attempt.bind fun r => ?_
      rcases r with e | u
      · cases e <;> first | exact issues_pure _ | exact issues_throw _
      · exact issues_pure _

theorem issues_verifyCertificate {cert : Json} {subject : Option PyStr} (htime : B .time) :
    Issues B (verifyCertificate P (act Op.time : ServerM ℤ) cert ca subject) := by
  unfold verifyCertificate
  cases cert.asObj with
  | none => exact issues_pure _
  | some c =>
    refine (issues_raising _).bind fun signed => ?_
    cases signed with
    | false => exact issues_pure _
    | true =>
      refine (issues_act htime).bind fun now => (issues_raising _).bind fun inDate => ?_
      cases inDate <;> exact issues_pure _

theorem issues_readJson {path : Path} (h : B (.readBytes path)) : Issues B (readJson P path) := by
  refine (issues_act h).bind fun data => ?_
  cases utf8Decode data with
  | none => exact issues_throw _
  | some text =>
    refine (issues_raising _).bind fun v => ?_
    cases v <;> first | exact issues_pure _ | exact issues_throw _

theorem issues_loadVerifiedPubkeyCert {username : Json} (htime : B .time)
    (hfile : ∀ name, B (.isFile ⟨.pubkeys, name⟩))
    (hread : ∀ name, B (.readBytes ⟨.pubkeys, name⟩)) :
    Issues B (loadVerifiedPubkeyCert P ca username) := by
  unfold loadVerifiedPubkeyCert
  cases hpath : pubkeyPathFor username with
  | none => exact issues_pure _
  | some path =>
    obtain ⟨dir, name⟩ := path
    obtain rfl : dir = .pubkeys := dir_of_pubkeyPathFor hpath
    refine (issues_act (hfile name)).bind fun there => ?_
    cases there with
    | false => exact issues_pure _
    | true =>
      refine (issues_readJson (hread name)).attempt.bind fun r => ?_
      rcases r with e | cert
      · cases e <;> first | exact issues_pure _ | exact issues_throw _
      · refine (issues_verifyCertificate htime).bind fun good => ?_
        cases good <;> exact issues_pure _

theorem issues_ciphertextSize {row : FileRow} (h : B (.statSize (fileBlobPathFor row.fileId))) :
    Issues B (ciphertextSize row) := by
  refine (issues_act h).attempt.bind fun r => ?_
  rcases r with e | size
  · cases e <;> first | exact issues_pure _ | exact issues_throw _
  · exact issues_pure _

/-- The sizes of the blobs: by induction on the rows that are left. -/
theorem issues_pendingEntries {rows : List FileRow}
    (h : ∀ row ∈ rows, B (.statSize (fileBlobPathFor row.fileId))) :
    Issues B (pendingEntries rows) := by
  induction rows with
  | nil => exact issues_pure _
  | cons row rows ih =>
    obtain ⟨hrow, hrows⟩ := List.forall_mem_cons.mp h
    exact (issues_ciphertextSize hrow).bind fun size => (ih hrows).bind fun _ => issues_pure _

theorem issues_serveDownload {k : Json} {row : FileRow}
    (hfile : B (.isFile (fileBlobPathFor (strOf P k))))
    (hread : B (.readBytes (fileBlobPathFor (strOf P k)))) (hsend : ∀ type payload, B (.send type payload)) :
    Issues B (serveDownload P k row) := by
  refine (issues_act hfile).bind fun there => ?_
  cases there with
  | false => exact issues_sendError (hsend _ _)
  | true =>
    refine (issues_act hread).attempt.bind fun r => ?_
    rcases r with e | data
    · cases e <;> first | exact issues_sendError (hsend _ _) | exact issues_throw _
    · exact issues_sendMessage (hsend _ _)

theorem issues_storeUpload {up : Upload} (hwrite : ∀ path data, B (.writeTmp path data))
    (hmove : ∀ src dst, B (.replace src dst)) (hinsert : ∀ row, B (.insertFile row)) :
    Issues B (storeUpload P session up) :=
  (issues_act (hwrite _ _)).bind fun _ => (issues_act (hmove _ _)).bind fun _ =>
    (issues_raising _).bind fun _ => issues_act (hinsert _)

theorem issues_acceptUpload {up : Upload} (htime : B .time) (hfile : ∀ name, B (.isFile ⟨.pubkeys, name⟩))
    (hread : ∀ name, B (.readBytes ⟨.pubkeys, name⟩)) (hmkdir : B .mkdirFiles)
    (hwrite : ∀ path data, B (.writeTmp path data)) (hmove : ∀ src dst, B (.replace src dst))
    (hinsert : ∀ row, B (.insertFile row)) (hsend : ∀ type payload, B (.send type payload)) :
    Issues B (acceptUpload P ca session up) := by
  refine (issues_raising _).bind fun good => ?_
  cases good with
  | false => exact issues_sendError (hsend _ _)
  | true =>
    refine (issues_loadVerifiedPubkeyCert htime hfile hread).bind fun found => ?_
    cases found with
    | none => exact issues_sendError (hsend _ _)
    | some cert =>
      refine (issues_act hmkdir).bind fun _ =>
        (issues_storeUpload hwrite hmove hinsert).attempt.bind fun r => ?_
      rcases r with e | u
      · cases e <;> first | exact issues_sendError (hsend _ _) | exact issues_throw _
      · exact issues_sendMessage (hsend _ _)

theorem issues_replayGate {body : ServerM Unit} (htime : B .time)
    (hinsert : ∀ nonce now, b64decode env.nonce = some nonce → B (.insertNonce nonce now))
    (hsend : ∀ type payload, B (.send type payload)) (hbody : Issues B body) :
    Issues B (replayGate env body) := by
  unfold replayGate
  cases hnonce : b64decode env.nonce with
  | none => exact issues_sendError (hsend _ _)
  | some nonce =>
    refine (issues_checkAndRecord htime fun now => hinsert nonce now hnonce).bind fun good => ?_
    cases good with
    | false => exact issues_sendError (hsend _ _)
    | true => exact hbody

/-- All that an upload may do. -/
theorem issues_handleUploadRequest (htime : B .time)
    (hnonce : ∀ nonce now, b64decode env.nonce = some nonce → B (.insertNonce nonce now))
    (hfile : ∀ name, B (.isFile ⟨.pubkeys, name⟩)) (hread : ∀ name, B (.readBytes ⟨.pubkeys, name⟩))
    (hmkdir : B .mkdirFiles) (hwrite : ∀ path data, B (.writeTmp path data))
    (hmove : ∀ src dst, B (.replace src dst)) (hinsert : ∀ row, B (.insertFile row))
    (hsend : ∀ type payload, B (.send type payload)) :
    Issues B (handleUploadRequest P ca session env) := by
  refine issues_replayGate htime hnonce hsend ?_
  refine (issues_verifyCertificate htime).bind fun good => ?_
  cases good with
  | false => exact issues_sendError (hsend _ _)
  | true =>
    rw [if_pos rfl]
    cases parseUpload env.payload with
    | ok up => exact issues_acceptUpload htime hfile hread hmkdir hwrite hmove hinsert hsend
    | error e =>
      dsimp only
      split_ifs
      · exact issues_sendError (hsend _ _)
      · exact issues_throw _

theorem issues_insertAck {row : AckRow} (h : B (.insertAck row)) : Issues B (insertAck row) := by
  refine (issues_act h).attempt.bind fun r => ?_
  rcases r with e | u
  · cases e <;> first | exact issues_pure _ | exact issues_throw _
  · exact issues_pure _

theorem issues_markAndReply {fileId : PyStr} {st : Status} {type : MessageType} {payload : Obj}
    (hmark : B (.markStatus (.str fileId) st)) (hsend : ∀ type payload, B (.send type payload)) :
    Issues B (markAndReply fileId st type payload) := by
  refine (issues_act hmark).attempt.bind fun r => ?_
  rcases r with e | u
  · dsimp only
    split_ifs
    · exact issues_sendError (hsend _ _)
    · exact issues_throw _
  · exact issues_sendMessage (hsend _ _)

theorem issues_acceptAck {req : SignedRequest} (hinsert : ∀ row : AckRow, row.fileId = req.fileId →
      B (.insertAck row)) (hmark : ∀ st, B (.markStatus (.str req.fileId) st))
    (hsend : ∀ type payload, B (.send type payload)) : Issues B (acceptAck P session req) := by
  unfold acceptAck
  rcases verifyAck P session.peerCert req with e | (_ | _)
  · exact issues_sendError (hsend _ _)
  · refine (issues_sendError (hsend _ _)).attempt.bind fun r => ?_
    rcases r with e | u
    · exact issues_sendError (hsend _ _)
    · exact issues_pure _
  · exact (issues_insertAck (hinsert _ rfl)).bind fun _ => issues_markAndReply (hmark _) hsend

theorem issues_acceptRevoke {req : SignedRequest} {row : FileRow}
    (hmark : ∀ st, B (.markStatus (.str req.fileId) st))
    (hsend : ∀ type payload, B (.send type payload)) : Issues B (acceptRevoke P session req row) := by
  refine (issues_raising _).bind fun good => ?_
  cases good with
  | false => exact issues_sendError (hsend _ _)
  | true =>
    rw [if_pos rfl]
    cases row.status with
    | pending => exact issues_markAndReply (hmark _) hsend
    | revoked => exact issues_sendMessage (hsend _ _)
    | _ => exact issues_sendError (hsend _ _)

/-! ## Operations in two stores -/

section

variable {Rel : ServerState → ServerState → Prop} {i : Input} {s s' : ServerState}

/-- Two writes that go through together, and keep two stores related, or raise the same. -/
def WritesAlike (Rel : ServerState → ServerState → Prop) :
    Except PyExn ServerState → Except PyExn ServerState → Prop
  | .ok w, .ok w' => Rel w w'
  | .error e, .error e' => e = e'
  | _, _ => False

/-- Two writes that begin with the same check. -/
theorem writesAlike_bind {α : Type} (x : Except PyExn α) {f f' : α → Except PyExn ServerState}
    (h : ∀ a, x = .ok a → WritesAlike Rel (f a) (f' a)) : WritesAlike Rel (x >>= f) (x >>= f') := by
  cases x with
  | error e => exact (rfl : e = e)
  | ok a => exact h a rfl

theorem alike_reading {α : Type} {x x' : Except PyExn α} (hx : x = x') (hs : Rel s s') :
    (reading i s x).1 = (reading i s' x').1 ∧ Rel (reading i s x).2 (reading i s' x').2 := by
  subst hx
  unfold reading
  cases i.fault <;> exact ⟨rfl, hs⟩

theorem alike_writing {α : Type} {answer : α} {x x' : Except PyExn ServerState}
    (hx : WritesAlike Rel x x') (hs : Rel s s') :
    (writing i s answer x).1 = (writing i s' answer x').1 ∧
      Rel (writing i s answer x).2 (writing i s' answer x').2 := by
  unfold writing
  cases i.fault with
  | some e => exact ⟨rfl, hs⟩
  | none =>
    cases x with
    | error e =>
      cases x' with
      | error e' =>
        obtain rfl : e = e' := hx
        exact ⟨rfl, hs⟩
      | ok w' => exact hx.elim
    | ok w =>
      cases x' with
      | error e' => exact hx.elim
      | ok w' => exact ⟨rfl, hx⟩

theorem alike_writingPart {path : Path} {data : Bytes}
    (hwrite : ∀ data, Rel (s.write path data) (s'.write path data)) (hs : Rel s s') :
    (writingPart i s path data).1 = (writingPart i s' path data).1 ∧
      Rel (writingPart i s path data).2 (writingPart i s' path data).2 := by
  unfold writingPart
  cases i.fault with
  | none => exact ⟨rfl, hwrite data⟩
  | some e =>
    cases i.written with
    | none => exact ⟨rfl, hs⟩
    | some n => exact ⟨rfl, hwrite _⟩

/-- Whether a message is sent has nothing to do with the store. -/
theorem blind_send {type : MessageType} {payload : Obj} : Blind (exec P) Rel (.send type payload) :=
  fun _ _ _ h => alike_reading rfl h

theorem blind_time : Blind (exec P) Rel .time := fun _ _ _ h => ⟨rfl, h⟩

end

/-! ## The gate in two runs -/

/-- **The gate in two runs.**  It lets both through, or neither. -/
theorem pair_replayGate {ω : Type} {view : Ev → Option ω}
    {Rel : ServerState → ServerState → Prop} {body body' : ServerM Unit}
    {t u : Solo Op Op.Res Input ServerState}
    {Q : Solo Op Op.Res Input ServerState → Except PyExn Unit →
      Solo Op Op.Res Input ServerState → Except PyExn Unit → Prop}
    (hinsert : ∀ nonce now, Blind (exec P) Rel (.insertNonce nonce now)) (htu : t.Alike view Rel u)
    (hbody : ∀ t' u', t'.Alike view Rel u' → t.Later t' → wpPair (exec P) body body' t' u' Q)
    (hend : ∀ r t' u', t'.Alike view Rel u' → t.Later t' → Q t' r u' r) :
    wpPair (exec P) (replayGate env body) (replayGate env body') t u Q := by
  have hrefuse : ∀ (code : String) (t' u' : Solo Op Op.Res Input ServerState),
      t'.Alike view Rel u' → t.Later t' →
      wpPair (exec P) (sendError code) (sendError code) t' u' Q := by
    refine fun code t' u' htu' hlater => wpPair_mono ((issues_sendError blind_send).pair htu') ?_
    rintro t'' a u'' b ⟨htu'', hlater', rfl⟩
    exact hend a t'' u'' htu'' (hlater.trans hlater')
  unfold replayGate
  cases b64decode env.nonce with
  | none => exact hrefuse _ t u htu (.refl t)
  | some nonce =>
    refine (issues_checkAndRecord blind_time (hinsert nonce)).pair_bind htu
      (fun good t' u' htu' hlater => ?_) fun e t' u' htu' hlater => hend _ t' u' htu' hlater
    cases good with
    | false => exact hrefuse _ t' u' htu' hlater
    | true => exact hbody t' u' htu' hlater

end Server
end ZeroTrust
