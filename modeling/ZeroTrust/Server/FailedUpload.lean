import ZeroTrust.Server.Blobs
import ZeroTrust.Server.Disturbed

/-!
# Failed uploads

An upload writes a temporary file, moves it to its place and inserts the row.  The first two are
undone by nothing: where the row is not inserted, its blob stays.

* `LeavesNothing`: what a failed upload should leave behind.
* `Moves`: an upload comes as far as the move of its blob.
* `Stranded`: the blob is moved and the row is not inserted.
* `leavesNothing_iff`: where that is all that can go wrong.
-/

namespace ZeroTrust
namespace Server

open Python Effects Data

/-- The file of an upload has neither a row nor a blob. -/
def IsNew (env : Envelope) (s : ServerState) : Prop :=
  ∀ f, dictGet env.payload "file_id" = some (.str f) →
    s.files.find? f = none ∧ s.disk (fileBlobPathFor f) = none

/-- A request that was served alone from the store `s` has left nothing behind: the file has
neither a row nor a blob, and no other row, acknowledgement or blob has changed. -/
structure LeavesNothing (env : Envelope) (s : ServerState) (t : Alone) : Prop where
  isNew : IsNew env t.store
  files : t.store.files = s.files
  acks : t.store.acks = s.acks
  blobs : ∀ f, t.store.disk (fileBlobPathFor f) = s.disk (fileBlobPathFor f)

variable {P : Primitives} {ca : Bytes} {session : Session} {env : Envelope} {s : ServerState}
  {inputs : ℕ → Input} {up : Upload} {t : Alone} {f g : PyStr}

/-- An upload comes as far as the move of its blob. -/
structure Moves (P : Primitives) (ca : Bytes) (session : Session) (env : Envelope)
    (s : ServerState) (inputs : ℕ → Input) (up : Upload) : Prop where
  letThrough : LetThrough env s inputs
  certified : CertCheck P ca session.peerCert (inputs 2).now (some session.peerSubject)
  parsed : parseUpload env.payload = .ok up
  signed : verifyOriginStruct P session.peerCert up.signature (up.origin P session.peerSubject) =
    .ok true
  listed : (inputs 3).fault = none ∧ (inputs 4).fault = none ∧
    ∃ cert, Listed P ca s (.str up.recipient) (inputs 5).now cert
  directory : (inputs 6).fault = none
  written : (inputs 7).fault = none
  moved : (inputs 8).fault = none

/-- Some upload moves its blob, and its row is not inserted: the insertion is disturbed, or the row
cannot be stored. -/
def Stranded (P : Primitives) (ca : Bytes) (session : Session) (env : Envelope) (s : ServerState)
    (inputs : ℕ → Input) : Prop :=
  ∃ up, Moves P ca session env s inputs up ∧
    ¬ ((inputs 9).fault = none ∧ Storable P session s up)

theorem leavesNothing_of_spared (hnew : IsNew env s) (h : Spared .UPLOAD_ACK (.start s inputs) t) :
    LeavesNothing env s t where
  isNew f hf := by
    obtain ⟨hrow, hblob⟩ := hnew f hf
    exact ⟨h.files ▸ hrow, (h.blobs f).trans hblob⟩
  files := h.files
  acks := h.acks
  blobs := h.blobs

/-! ## The three writes -/

/-- A temporary file is no blob, whatever the ids are. -/
theorem fileBlobPathFor_ne_tmpPathFor : fileBlobPathFor f ≠ tmpPathFor g := by
  intro h
  have hsuffix : py ".bin" = py ".tmp" := List.append_inj_right' (Path.mk.inj h).2 (by decide)
  exact absurd hsuffix (by decide)

theorem blob_write_tmpPathFor {data : Bytes} :
    (s.write (tmpPathFor g) data).disk (fileBlobPathFor f) = s.disk (fileBlobPathFor f) :=
  Function.update_of_ne fileBlobPathFor_ne_tmpPathFor ..

/-- The temporary file is written, in whole or in part or not at all. -/
theorem spared_writeTmp {data : Bytes} :
    Spared .UPLOAD_ACK t (t.next (exec P) (.writeTmp (tmpPathFor f) data)) := by
  have hexec : (t.next (exec P) (.writeTmp (tmpPathFor f) data)).store =
      (writingPart (t.inputs 0) t.store (tmpPathFor f) data).2 := rfl
  have hreached : Reached .UPLOAD_ACK (t.next (exec P) (.writeTmp (tmpPathFor f) data)).hist →
      Reached .UPLOAD_ACK t.hist :=
    fun h => (reached_cons.mp h).resolve_left Bool.false_ne_true
  unfold writingPart at hexec
  split at hexec
  · exact ⟨by rw [hexec]; rfl, by rw [hexec]; rfl, fun g => by rw [hexec, blob_write_tmpPathFor],
      hreached⟩
  · exact ⟨by rw [hexec], by rw [hexec], fun g => by rw [hexec], hreached⟩
  · exact ⟨by rw [hexec]; rfl, by rw [hexec]; rfl, fun g => by rw [hexec, blob_write_tmpPathFor],
      hreached⟩

/-- A move that is disturbed moves nothing. -/
theorem spared_replace {src dst : Path} {e : PyExn} (h : (t.inputs 0).fault = some e) :
    t.answer (exec P) (.replace src dst) = .error e ∧
      Spared .UPLOAD_ACK t (t.next (exec P) (.replace src dst)) := by
  have hraise : t.answer (exec P) (.replace src dst) = .error e :=
    congrArg Prod.fst (writing_of_fault h)
  have hstore : (t.next (exec P) (.replace src dst)).store = t.store :=
    store_of_writing_error rfl hraise
  exact ⟨hraise, by rw [hstore], by rw [hstore], fun g => by rw [hstore],
    fun h => (reached_cons.mp h).resolve_left Bool.false_ne_true⟩

/-- What an insertion that answers needed. -/
theorem of_answer_insertFile {row : FileRow} {u : Unit}
    (h : t.answer (exec P) (.insertFile row) = .ok u) :
    (t.inputs 0).fault = none ∧ bindFileRow row = .ok () ∧
      t.store.files.find? row.fileId = none := by
  obtain ⟨hfault, s', hs'⟩ := ok_of_writing h
  obtain ⟨u, hbind, hins⟩ := bind_eq_ok.mp hs'
  refine ⟨hfault, hbind, ?_⟩
  cases hnew : t.store.files.insert? row with
  | none =>
    rw [hnew] at hins
    cases hins
  | some files => exact Table.insert?_isNew hnew

/-- The situation after a blob was moved to its place. -/
structure Moved (up : Upload) (t t' : Alone) : Prop where
  blob : t'.store.disk (fileBlobPathFor up.fileId) = some up.ciphertext
  reached : Reached .UPLOAD_ACK t'.hist → Reached .UPLOAD_ACK t.hist

/-- **The `try` block of an upload**, whatever disturbs it: it goes through, or its blob is not
moved and nothing has changed, or its blob is moved and its row is not inserted. -/
theorem wp_storeUpload_any {Q : Alone → Except PyExn Unit → Prop}
    (hstop : ¬ ((t.inputs 0).fault = none ∧ (t.inputs 1).fault = none) → ∀ e t',
      Spared .UPLOAD_ACK t t' → Q t' (.error e))
    (hstored : (t.inputs 2).fault = none → Storable P session t.store up → ∀ t', Q t' (.ok ()))
    (hstranded : (t.inputs 0).fault = none → (t.inputs 1).fault = none →
      ¬ ((t.inputs 2).fault = none ∧ Storable P session t.store up) → ∀ e t', Moved up t t' →
      Q t' (.error e)) :
    wpE (.solo (exec P)) (storeUpload P session up) t Q := by
  rw [storeUpload]
  have hwritten : Spared .UPLOAD_ACK t
      (t.next (exec P) (.writeTmp (tmpPathFor up.fileId) up.ciphertext)) := spared_writeTmp
  have hnext : (t.next (exec P) (.writeTmp (tmpPathFor up.fileId) up.ciphertext)).inputs =
      fun n => t.inputs (n + 1) := rfl
  cases h₀ : (t.inputs 0).fault with
  | some e =>
    have hraise : t.answer (exec P) (.writeTmp (tmpPathFor up.fileId) up.ciphertext) =
        .error e := by
      show (writingPart _ _ _ _).1 = _
      unfold writingPart
      rw [h₀]
      cases (t.inputs 0).written <;> rfl
    rw [wpE_solo_act_bind_error hraise]
    exact hstop (fun h => by cases h₀.symm.trans h.1) e _ hwritten
  | none =>
    obtain ⟨hwrite, hstore⟩ := @answer_writeTmp P t (tmpPathFor up.fileId) up.ciphertext h₀
    rw [wpE_solo_act_bind hwrite]
    generalize t.next (exec P) (.writeTmp (tmpPathFor up.fileId) up.ciphertext) = t₁ at *
    have hinput : t₁.inputs 0 = t.inputs 1 := by rw [hnext]
    cases h₁ : (t.inputs 1).fault with
    | some e =>
      obtain ⟨hraise, hspared⟩ := @spared_replace P t₁ (tmpPathFor up.fileId)
        (fileBlobPathFor up.fileId) e (by rw [hinput, h₁])
      rw [wpE_solo_act_bind_error hraise]
      exact hstop (fun h => by cases h₁.symm.trans h.2) e _ (hwritten.trans hspared)
    | none =>
      have hdata : t₁.store.disk (tmpPathFor up.fileId) = some up.ciphertext := by
        rw [hstore]
        exact Function.update_self ..
      obtain ⟨hmove, hmoved⟩ := @answer_replace P t₁ _ (fileBlobPathFor up.fileId) _
        (by rw [hinput, h₁]) hdata
      rw [wpE_solo_act_bind hmove, wpE_bind, wpE_raising]
      have hblob : Moved up t (t₁.next (exec P)
          (.replace (tmpPathFor up.fileId) (fileBlobPathFor up.fileId))) := by
        refine ⟨?_, fun h => hwritten.reached ((reached_cons.mp h).resolve_left Bool.false_ne_true)⟩
        rw [hmoved]
        exact Function.update_self ..
      have hfiles : (t₁.next (exec P)
          (.replace (tmpPathFor up.fileId) (fileBlobPathFor up.fileId))).store.files =
          t.store.files := by
        rw [hmoved]
        exact hwritten.files
      have hinput₂ : (t₁.next (exec P)
          (.replace (tmpPathFor up.fileId) (fileBlobPathFor up.fileId))).inputs 0 =
          t.inputs 2 := by
        show t₁.inputs 1 = _
        rw [hnext]
      generalize t₁.next (exec P)
        (.replace (tmpPathFor up.fileId) (fileBlobPathFor up.fileId)) = t₂ at *
      cases haad : aadBytes up.fileId session.peerSubject up.recipient with
      | error e =>
        refine hstranded h₀ h₁ ?_ e t₂ hblob
        rintro ⟨-, aad, haad', -⟩
        cases haad.symm.trans haad'
      | ok aad =>
        dsimp only
        rw [wpE_solo_act]
        cases hrow : t₂.answer (exec P) (.insertFile (up.row P session aad)) with
        | ok u =>
          obtain ⟨hfault, hbind, hfree⟩ := of_answer_insertFile hrow
          rw [hinput₂] at hfault
          rw [hfiles] at hfree
          exact hstored hfault ⟨aad, haad, hbind, hfree⟩ _
        | error e =>
          refine hstranded h₀ h₁ ?_ e _ ⟨?_, fun h => hblob.reached
            ((reached_cons.mp h).resolve_left Bool.false_ne_true)⟩
          · rintro ⟨hfault, aad', haad', hbind, hfree⟩
            obtain rfl := Except.ok.inj (haad.symm.trans haad')
            rw [← hinput₂] at hfault
            rw [← hfiles] at hfree
            cases hrow.symm.trans (answer_insertFile hfault hbind hfree).1
          · rw [store_of_writing_error rfl hrow]
            exact hblob.blob

/-! ## The handler -/

theorem Moves.unique {up' : Upload} (h : Moves P ca session env s inputs up)
    (h' : Moves P ca session env s inputs up') : up = up' :=
  Except.ok.inj (h.parsed.symm.trans h'.parsed)

/-- What is to be shown of a request at its end. -/
def Settles (P : Primitives) (ca : Bytes) (session : Session) (env : Envelope) (s : ServerState)
    (inputs : ℕ → Input) (t : Alone) : Prop :=
  (¬ Reached .UPLOAD_ACK t.hist → LeavesNothing env s t) ↔ ¬ Stranded P ca session env s inputs

/-- A request that has changed nothing settles, if it moves no blob. -/
theorem settles_of_spared (hnew : IsNew env s) (hnot : ∀ up, ¬ Moves P ca session env s inputs up)
    (h : Spared .UPLOAD_ACK (.start s inputs) t) : Settles P ca session env s inputs t := by
  refine iff_of_true (fun _ => leavesNothing_of_spared hnew h) ?_
  rintro ⟨up, hup, -⟩
  exact hnot up hup

/-- A blob that was moved stays where the row is not inserted. -/
theorem settles_of_moved (hup : Moves P ca session env s inputs up)
    (hrow : ¬ ((inputs 9).fault = none ∧ Storable P session s up))
    (hreached : ¬ Reached .UPLOAD_ACK t.hist)
    (hblob : t.store.disk (fileBlobPathFor up.fileId) = some up.ciphertext) :
    Settles P ca session env s inputs t := by
  refine iff_of_false (fun h => ?_) (not_not.mpr ⟨up, hup, hrow⟩)
  obtain ⟨-, hnone⟩ := (h hreached).isNew up.fileId (readFrom_of_parseUpload hup.parsed).fileId
  cases hnone.symm.trans hblob

/-- After a failure in the `try` block the client may be told of it. -/
theorem wp_failed {e : PyExn} {Q : Alone → Prop}
    (hQ : ∀ t', Spared .UPLOAD_ACK t t' → Q t') :
    wpE (.solo (exec P)) (match (Except.error e : Except PyExn Unit) with
      | .ok _ => sendMessage .UPLOAD_ACK up.ackPayload
      | .error .osError => sendError "INTERNAL_ERROR"
      | .error e => throw e) t fun t' _ => Q t' := by
  cases e with
  | osError => exact wpE_mono _ (wp_spared (issues_sendError (by decide))) fun t' _ => hQ t'
  | _ => exact hQ t (.refl t)

/-- The part of an upload that writes. -/
theorem wp_acceptUpload_any (hnew : IsNew env s) (hgate : LetThrough env s inputs)
    (hcert : CertCheck P ca session.peerCert (inputs 2).now (some session.peerSubject))
    (hparse : parseUpload env.payload = .ok up) (hspared : Spared .UPLOAD_ACK (.start s inputs) t)
    (hq : Quietly (.start s inputs) 3 t) :
    wpE (.solo (exec P)) (acceptUpload P ca session up) t fun t' _ =>
      Settles P ca session env s inputs t' := by
  have hsame : ∀ up', Moves P ca session env s inputs up' → up' = up := fun up' hup =>
    Except.ok.inj (hup.parsed.symm.trans hparse)
  rw [acceptUpload, wpE_bind, wpE_raising]
  by_cases hver : verifyOriginStruct P session.peerCert up.signature
      (up.origin P session.peerSubject) = .ok true
  · rw [hver]
    dsimp only
    rw [if_pos rfl]
    have hlookup := @wp_lookup_any P ca t .UPLOAD_ACK (.str up.recipient)
    simp only [hq.inputs, hq.listed] at hlookup
    refine wp_stage hlookup (fun found hbad => ?_) (fun hc t' _ hs => settles_of_spared hnew
      (fun up' hup => hc (hsame up' hup ▸ hup.listed)) (hspared.trans hs))
      fun hlisted found t₃ hgood hspared₃ hq₃ => ?_
    · cases found with
      | none => exact issues_sendError (by decide)
      | some cert => exact absurd rfl hbad
    · obtain ⟨cert, rfl⟩ := Option.isSome_iff_exists.mp hgood
      have hall := hspared.trans hspared₃
      have hboth := hq.trans hq₃
      have hmkdir : Spared .UPLOAD_ACK t₃ (t₃.next (exec P) .mkdirFiles) := spared_next rfl
      have hdir : t₃.inputs 0 = inputs 6 := by
        rw [hboth.inputs]
        rfl
      dsimp only
      cases h₆ : (inputs 6).fault with
      | some e =>
        have hraise : t₃.answer (exec P) .mkdirFiles = .error e :=
          congrArg Prod.fst (reading_of_fault (by rw [hdir, h₆]))
        rw [wpE_solo_act_bind_error hraise]
        refine settles_of_spared hnew (fun up' hup => ?_) (hall.trans hmkdir)
        cases h₆.symm.trans hup.directory
      | none =>
        have hdone : t₃.answer (exec P) .mkdirFiles = .ok () :=
          congrArg Prod.fst (reading_of_fault_none (by rw [hdir, h₆]))
        have hq₄ := hboth.trans (quietly_next P t₃ .mkdirFiles rfl rfl)
        have hall₄ := hall.trans hmkdir
        rw [wpE_solo_act_bind hdone, wpE_bind, wpE_attempt]
        generalize t₃.next (exec P) .mkdirFiles = t₄ at hq₄ hall₄
        have h₇ : t₄.inputs 0 = inputs 7 := by
          rw [hq₄.inputs]
          rfl
        have h₈ : t₄.inputs 1 = inputs 8 := by
          rw [hq₄.inputs]
          rfl
        have h₉ : t₄.inputs 2 = inputs 9 := by
          rw [hq₄.inputs]
          rfl
        have hstore : Storable P session t₄.store up ↔ Storable P session s up := by
          unfold Storable
          rw [hq₄.files]
          rfl
        have hfresh : ¬ Reached .UPLOAD_ACK t₄.hist := by
          intro hr
          obtain ⟨e, he, -⟩ := hall₄.reached hr
          exact List.not_mem_nil he
        refine wp_storeUpload_any (fun hc e t' hs => ?_) (fun hfault hrow t' => ?_)
          fun hw hm hc e t' hmoved => ?_
        · refine wp_failed fun t'' hs' => settles_of_spared hnew (fun up' hup => hc ?_)
            ((hall₄.trans hs).trans hs')
          rw [h₇, h₈]
          exact ⟨hup.written, hup.moved⟩
        · rw [h₉] at hfault
          refine wpE_solo_act.mpr (iff_of_true (fun h => absurd ⟨_, List.mem_cons_self, rfl⟩ h) ?_)
          rintro ⟨up', hup, hbad⟩
          obtain rfl := hsame up' hup
          exact hbad ⟨hfault, hstore.mp hrow⟩
        · rw [h₇] at hw
          rw [h₈] at hm
          rw [h₉, hstore] at hc
          refine wp_failed fun t'' hs => settles_of_moved
            ⟨hgate, hcert, hparse, hver, hlisted, h₆, hw, hm⟩ hc
            (fun hr => hfresh (hmoved.reached (hs.reached hr))) ?_
          rw [hs.blobs]
          exact hmoved.blob
  · have hnot : ∀ up', ¬ Moves P ca session env s inputs up' := fun up' hup =>
      hver (hsame up' hup ▸ hup.signed)
    cases hout : verifyOriginStruct P session.peerCert up.signature
        (up.origin P session.peerSubject) with
    | error e => exact settles_of_spared hnew hnot hspared
    | ok b =>
      cases b with
      | true => exact absurd hout hver
      | false =>
        exact wpE_mono _ (wp_spared (issues_sendError (by decide))) fun t' _ hs =>
          settles_of_spared hnew hnot (hspared.trans hs)

/-- **An upload, whatever disturbs it.** -/
theorem wp_handleUploadRequest_any (hnew : IsNew env s) :
    wpE (.solo (exec P)) (handleUploadRequest P ca session env) (.start s inputs) fun t' _ =>
      Settles P ca session env s inputs t' := by
  refine wp_replayGate_any (by decide) (fun hc t' _ => settles_of_spared hnew
    fun up hup => hc hup.letThrough) fun hgate t₁ hspared₁ hq₁ => ?_
  have hverify := @wp_verifySession_any P ca t₁ session .UPLOAD_ACK
  rw [hq₁.inputs] at hverify
  refine wp_stage hverify (fun b hbad => ?_) (fun hc t' _ hs => settles_of_spared hnew
    (fun up hup => hc hup.certified) (hspared₁.trans hs)) fun hcert b t₂ hgood hspared₂ hq₂ => ?_
  · rw [if_neg hbad]
    exact issues_sendError (by decide)
  · rw [if_pos hgood]
    have hall := hspared₁.trans hspared₂
    cases hparse : parseUpload env.payload with
    | ok up => exact wp_acceptUpload_any hnew hgate hcert hparse hall (hq₁.trans hq₂)
    | error e =>
      have hnot : ∀ up, ¬ Moves P ca session env s inputs up := by
        intro up hup
        cases hparse.symm.trans hup.parsed
      dsimp only
      split_ifs
      · exact wpE_mono _ (wp_spared (issues_sendError (by decide))) fun t' _ hs =>
          settles_of_spared hnew hnot (hall.trans hs)
      · exact settles_of_spared hnew hnot hall

/-- **A failed upload leaves nothing behind**, unless its blob is moved and its row is not
inserted. -/
theorem leavesNothing_iff (htype : env.type = .UPLOAD_REQUEST) (hnew : IsNew env s) :
    (¬ Reached .UPLOAD_ACK (serve P ca session env s inputs).hist →
      LeavesNothing env s (serve P ca session env s inputs).solo) ↔
      ¬ Stranded P ca session env s inputs := by
  rw [serve, dispatch, htype]
  exact wp_solo_iff.mp (wp_handleUploadRequest_any hnew)

/-! ### Sample uploads -/

/-- An upload of `alice`'s for `bob` that expires at a given time. -/
def uploadEnvelope (expiration : ℤ) : Envelope :=
  .numbered 1 .UPLOAD_REQUEST 100 <| uploadPayload sampleId (py "bob") [7] [3] [2]
    (sampleSign 65 (originCanonical samplePrimitives ⟨py "alice", py "bob", sampleId,
      sha256Hex samplePrimitives [7], sha256Hex samplePrimitives [2], .int 100,
      .int expiration⟩)) 100 expiration

theorem isNew_sampleInit {expiration : ℤ} : IsNew (uploadEnvelope expiration) sampleInit :=
  fun _ _ => ⟨rfl, rfl⟩

/-- The eighth operation, which writes the temporary file, raises an `OSError`. -/
def writeFails (n : ℕ) : Input :=
  if n = 7 then { sampleInput 100 with fault := some .osError } else sampleInput 100

/-- Where the temporary file cannot be written, nothing is left behind. -/
theorem leavesNothing_writeFails : LeavesNothing (uploadEnvelope 1000) sampleInit
    (serve samplePrimitives [1] alice (uploadEnvelope 1000) sampleInit writeFails).solo := by
  refine (leavesNothing_iff rfl isNew_sampleInit).mpr ?_ (by decide +kernel)
  rintro ⟨up, hup, -⟩
  cases hup.written

/-- An expiration that SQLite cannot store: the insertion raises an `OverflowError`, and the blob
stays. -/
theorem uploadEnvelope_stranded : IsNew (uploadEnvelope (2 ^ 63)) sampleInit ∧
    ¬ (¬ Reached .UPLOAD_ACK (serve samplePrimitives [1] alice (uploadEnvelope (2 ^ 63)) sampleInit
        fun _ => sampleInput 100).hist →
      LeavesNothing (uploadEnvelope (2 ^ 63)) sampleInit
        (serve samplePrimitives [1] alice (uploadEnvelope (2 ^ 63)) sampleInit
          fun _ => sampleInput 100).solo) := by
  have hrun : ¬ Reached .UPLOAD_ACK (serve samplePrimitives [1] alice (uploadEnvelope (2 ^ 63))
        sampleInit fun _ => sampleInput 100).hist ∧
      (serve samplePrimitives [1] alice (uploadEnvelope (2 ^ 63)) sampleInit
        fun _ => sampleInput 100).solo.store.disk (fileBlobPathFor sampleId) = some [7] := by
    decide +kernel
  refine ⟨isNew_sampleInit, fun h => ?_⟩
  have hblob := ((h hrun.1).blobs sampleId).symm.trans hrun.2
  cases hblob

end Server
end ZeroTrust
