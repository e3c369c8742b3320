import ZeroTrust.Server.Disturbed
import ZeroTrust.Server.Lockstep
import ZeroTrust.Server.Provenance

/-!
# Acknowledgements, whatever disturbs them

An acknowledgement is stored by two transactions: its row is inserted, and the status of the file
is written.  Where the second one raises after the first has committed, the client is told of an
error and the row stays.

* `AllOrNothing`: what an acknowledgement should leave behind.
* `Writes`: a request comes as far as the two transactions.
* `ComesApart`: one of the two has no effect and the other has.
* `allOrNothing_iff`: where that is all that can go wrong.
* `Consumes`: an operation of an acknowledgement moves a file to `downloaded`.
* `Consumes.acceptable`, `Acceptable.exists_consumes`: the acknowledgements of which one does, in
  some interleaved run of some server.
-/

namespace ZeroTrust
namespace Server

open Python Effects Data

/-- A request that was served alone from the store `s` has left behind an acknowledged and
downloaded file, if it came to the `ACK_OK`, and else no change of a row or an acknowledgement. -/
structure AllOrNothing (env : Envelope) (s : ServerState) (t : Alone) : Prop where
  all : Reached .ACK_OK t.hist → ∃ f row, dictGet env.payload "file_id" = some (.str f) ∧
    (t.store.acks.find? f).isSome ∧ t.store.files.find? f = some row ∧ row.status = .downloaded
  nothing : ¬ Reached .ACK_OK t.hist → t.store.acks = s.acks ∧ t.store.files = s.files

variable {P : Primitives} {ca : Bytes} {session : Session} {env : Envelope} {s : ServerState}
  {inputs : ℕ → Input} {req : SignedRequest} {t : Alone}

/-- The row of a file is there, and it is the peer's. -/
def IsFor (session : Session) (s : ServerState) (f : PyStr) : Prop :=
  ∃ row, s.files.find? f = some row ∧ row.recipientId = session.peerSubject

/-- An acknowledgement comes as far as the two transactions. -/
structure Writes (P : Primitives) (ca : Bytes) (session : Session) (env : Envelope)
    (s : ServerState) (inputs : ℕ → Input) (req : SignedRequest) : Prop where
  letThrough : LetThrough env s inputs
  parsed : parseSignedRequest env.payload = .ok req
  read : (inputs 2).fault = none
  isFor : IsFor session s req.fileId
  certified : CertCheck P ca session.peerCert (inputs 3).now (some session.peerSubject)
  signed : verifyAck P session.peerCert req = .ok true

/-- The two transactions come apart: the row is inserted and the status is not written; or the
insertion raises an `IntegrityError` where no row is in the way, and the status is written. -/
def ComesApart (s : ServerState) (req : SignedRequest) (insert mark : Input) : Prop :=
  s.acks.find? req.fileId = none ∧
    (insert.fault = none ∧ Is64Bit req.timestampInt ∧ mark.fault ≠ none ∨
      insert.fault = some .integrityError ∧ mark.fault = none)

/-- Some acknowledgement is stored in part. -/
def Torn (P : Primitives) (ca : Bytes) (session : Session) (env : Envelope) (s : ServerState)
    (inputs : ℕ → Input) : Prop :=
  ∃ req, Writes P ca session env s inputs req ∧ ComesApart s req (inputs 4) (inputs 5)

theorem Writes.unique {req' : SignedRequest} (h : Writes P ca session env s inputs req)
    (h' : Writes P ca session env s inputs req') : req = req' :=
  Except.ok.inj (h.parsed.symm.trans h'.parsed)

theorem torn_iff (h : Writes P ca session env s inputs req) :
    Torn P ca session env s inputs ↔ ComesApart s req (inputs 4) (inputs 5) := by
  constructor
  · rintro ⟨req', h', hapart⟩
    obtain rfl := h.unique h'
    exact hapart
  · exact fun hapart => ⟨req, h, hapart⟩

/-- A request that has changed nothing is not torn, if it does not write. -/
theorem allOrNothing_of_spared (h : Spared .ACK_OK (.start s inputs) t) :
    AllOrNothing env s t where
  all hr := by
    obtain ⟨e, he, -⟩ := h.reached hr
    exact absurd he List.not_mem_nil
  nothing _ := ⟨h.acks, h.files⟩

/-! ## The two transactions -/

/-- What an insertion into `acks` leaves alone. -/
structure Beside (t t' : Alone) : Prop where
  inputs : t'.inputs = fun n => t.inputs (n + 1)
  files : t'.store.files = t.store.files
  disk : t'.store.disk = t.store.disk
  reached : Reached .ACK_OK t'.hist → Reached .ACK_OK t.hist

theorem spared_of_beside {t' : Alone} (h : Beside t t') (hacks : t'.store.acks = t.store.acks) :
    Spared .ACK_OK t t' :=
  ⟨h.files, hacks, fun _ => congrFun h.disk _, h.reached⟩

theorem beside_of_change {row : AckRow} {r : (Op.insertAck row).Res} {s' : ServerState}
    (h : Change P s ⟨.insertAck row, r⟩ s') : s'.files = s.files ∧ s'.disk = s.disk := by
  cases h <;> exact ⟨rfl, rfl⟩

theorem beside_insertAck {row : AckRow} : Beside t (t.next (exec P) (.insertAck row)) := by
  obtain ⟨hfiles, hdisk⟩ := beside_of_change (change_of_exec rfl : Change P t.store
    ⟨.insertAck row, t.answer (exec P) (.insertAck row)⟩ (t.next (exec P) (.insertAck row)).store)
  exact ⟨rfl, hfiles, hdisk, fun h => (reached_cons.mp h).resolve_left Bool.false_ne_true⟩

/-- **The acknowledgement's row**, whatever disturbs its insertion: it is new, or an
`IntegrityError` is ignored, or the request ends. -/
theorem wp_insertAck_any {row : AckRow} {Q : Alone → Except PyExn Unit → Prop}
    (hname : row.fileId.any isSurrogate = false)
    (hnew : (t.inputs 0).fault = none → Is64Bit row.ackTimestamp →
      t.store.acks.find? row.fileId = none → ∀ t', Beside t t' →
      t'.store.acks.find? row.fileId = some row → Q t' (.ok ()))
    (hold : (t.inputs 0).fault = some .integrityError ∨
      (t.inputs 0).fault = none ∧ t.store.acks.find? row.fileId ≠ none → ∀ t', Beside t t' →
      t'.store.acks = t.store.acks → Q t' (.ok ()))
    (hraise : ((t.inputs 0).fault = none → ¬ Is64Bit row.ackTimestamp) →
      (t.inputs 0).fault ≠ some .integrityError → ∀ e t', Beside t t' →
      t'.store.acks = t.store.acks → Q t' (.error e)) :
    wpE (.solo (exec P)) (insertAck row) t Q := by
  have hbeside : Beside t (t.next (exec P) (.insertAck row)) := beside_insertAck
  have herror : ∀ {e}, t.answer (exec P) (.insertAck row) = .error e →
      (t.next (exec P) (.insertAck row)).store.acks = t.store.acks := by
    intro e he
    rw [store_of_writing_error rfl he]
  rw [insertAck, wpE_bind, wpE_attempt, wpE_solo_act]
  cases hfault : (t.inputs 0).fault with
  | some e =>
    have he : t.answer (exec P) (.insertAck row) = .error e := by
      show (writing _ _ _ _).1 = _
      rw [writing_of_fault hfault]
    rw [he]
    have hother : e ≠ .integrityError → Q (t.next (exec P) (.insertAck row)) (.error e) := by
      intro hne
      refine hraise (fun h => ?_) (fun h => ?_) e _ hbeside (herror he)
      · cases hfault.symm.trans h
      · exact hne (Option.some.inj (hfault.symm.trans h))
    cases e with
    | integrityError => exact hold (.inl hfault) _ hbeside (herror he)
    | _ => exact hother (by simp)
  | none =>
    rcases answer_insertAck hfault hname with
      ⟨hbit, hnone, ha, hfind⟩ | ⟨-, hsome, ha⟩ | ⟨hbit, ha⟩
    · rw [ha]
      exact hnew hfault hbit hnone _ hbeside hfind
    · rw [ha]
      exact hold (.inr ⟨hfault, hsome⟩) _ hbeside (herror ha)
    · rw [ha]
      exact hraise (fun _ => hbit) (by simp [hfault]) _ _ hbeside (herror ha)

/-- **The status of an acknowledged file**, whatever disturbs it: it is written, and the request
comes to its reply, or nothing has changed. -/
theorem wp_markAndReply_any {f : PyStr} {Q : Alone → Except PyExn Unit → Prop}
    (hname : f.any isSurrogate = false)
    (hmarked : (t.inputs 0).fault = none → ∀ t' r, Reached .ACK_OK t'.hist →
      t'.store.acks = t.store.acks →
      t'.store.files.find? f = (t.store.files.find? f).map (FileRow.withStatus .downloaded) → Q t' r)
    (hraise : (t.inputs 0).fault ≠ none → ∀ t' r, Spared .ACK_OK t t' → Q t' r) :
    wpE (.solo (exec P)) (markAndReply f .downloaded .ACK_OK (ackOkPayload f)) t Q := by
  rw [markAndReply, wpE_bind, wpE_attempt, wpE_solo_act]
  cases hfault : (t.inputs 0).fault with
  | some e =>
    have he : t.answer (exec P) (.markStatus (.str f) .downloaded) = .error e := by
      show (writing _ _ _ _).1 = _
      rw [writing_of_fault hfault]
    have hstore : (t.next (exec P) (.markStatus (.str f) .downloaded)).store = t.store :=
      store_of_writing_error rfl he
    have hspared : Spared .ACK_OK t (t.next (exec P) (.markStatus (.str f) .downloaded)) :=
      ⟨by rw [hstore], by rw [hstore], fun _ => by rw [hstore],
        fun h => (reached_cons.mp h).resolve_left Bool.false_ne_true⟩
    rw [he]
    have hne : (t.inputs 0).fault ≠ none := by simp [hfault]
    dsimp only
    split_ifs
    · exact wpE_mono _ (wp_spared (issues_sendError (by decide))) fun t' r hs =>
        hraise hne t' r (hspared.trans hs)
    · exact hraise hne _ _ hspared
  | none =>
    obtain ⟨ha, hstore⟩ := @answer_markStatus P t (.str f) (some f) .downloaded hfault
      (bindKey_of_str hname) (by simp)
    rw [ha]
    refine wpE_solo_act.mpr (hmarked hfault _ _ ⟨_, List.mem_cons_self, rfl⟩ ?_ ?_)
    · rw [store_next_of_isRead rfl, hstore]
      rfl
    · rw [store_next_of_isRead rfl, hstore, find?_setStatus]
      cases hrow : t.store.files.find? f with
      | none => rfl
      | some row =>
        obtain rfl := Table.key_of_find? hrow
        exact congrArg some (if_pos (decide_eq_true rfl))

/-! ## The handler -/

/-- What an acknowledgement that writes leaves behind. -/
theorem wp_acceptAck_any (hw : Writes P ca session env s inputs req)
    (hspared : Spared .ACK_OK (.start s inputs) t) (hq : Quietly (.start s inputs) 4 t) :
    wpE (.solo (exec P)) (acceptAck P session req) t fun t' _ =>
      AllOrNothing env s t' ↔ ¬ Torn P ca session env s inputs := by
  have hread := readFrom_of_parseSignedRequest hw.parsed
  have hname := not_surrogate_of_isPlain (isPlain_of_isCanonicalUuid hread.canonical)
  have hinsert : t.inputs 0 = inputs 4 := by
    rw [hq.inputs]
    rfl
  have hnext : ∀ {t'}, Beside t t' → t'.inputs 0 = inputs 5 := by
    intro t' h
    rw [h.inputs, hq.inputs]
    rfl
  have hfiles : t.store.files = s.files := hq.files
  have hacks : t.store.acks = s.acks := hq.acks
  have hunreached : ¬ Reached .ACK_OK t.hist := by
    intro hr
    obtain ⟨e, he, -⟩ := hspared.reached hr
    exact List.not_mem_nil he
  have hall : ∀ {t' : Alone}, Reached .ACK_OK t'.hist →
      (t'.store.acks.find? req.fileId).isSome = true →
      t'.store.files.find? req.fileId =
        (s.files.find? req.fileId).map (FileRow.withStatus .downloaded) → AllOrNothing env s t' := by
    intro t' hreached hsome hrow'
    obtain ⟨row, hrow, -⟩ := hw.isFor
    rw [hrow] at hrow'
    exact ⟨fun _ => ⟨_, _, hread.fileId, hsome, hrow', rfl⟩, fun h => absurd hreached h⟩
  simp only [torn_iff hw]
  unfold acceptAck
  rw [hw.signed]
  refine (wpE_bind ..).mpr (wp_insertAck_any hname ?_ ?_ ?_)
  · -- the row is inserted: all depends on the second transaction
    intro hfault hbit hnone t' hbeside hack
    rw [hinsert] at hfault
    rw [hacks] at hnone
    refine wp_markAndReply_any hname (fun hmark t'' _ hreached hacks' hfiles' => ?_)
      fun hmark t'' _ hs => ?_
    · rw [hnext hbeside] at hmark
      refine iff_of_true (hall hreached (by rw [hacks', hack]; rfl) (hfiles'.trans ?_)) ?_
      · rw [hbeside.files, hfiles]
      · rintro ⟨-, ⟨-, -, hne⟩ | ⟨hspurious, -⟩⟩
        · exact hne hmark
        · cases hfault.symm.trans hspurious
    · rw [hnext hbeside] at hmark
      refine iff_of_false (fun h => ?_) (not_not.mpr ⟨hnone, .inl ⟨hfault, hbit, hmark⟩⟩)
      have hsame := (h.nothing fun hr => hunreached (hbeside.reached (hs.reached hr))).1
      rw [hs.acks] at hsame
      rw [hsame] at hack
      cases hnone.symm.trans hack
  · -- nothing is inserted: all depends on whether a row was there
    intro hfault t' hbeside hacks'
    rw [hinsert, hacks] at hfault
    refine wp_markAndReply_any hname (fun hmark t'' _ hreached hacks'' hfiles' => ?_)
      fun hmark t'' _ hs => ?_
    · rw [hnext hbeside] at hmark
      have hsame : t''.store.acks = s.acks := hacks''.trans (hacks'.trans hacks)
      by_cases hnone : s.acks.find? req.fileId = none
      · have hspurious := hfault.resolve_right fun h => h.2 hnone
        refine iff_of_false (fun h => ?_) (not_not.mpr ⟨hnone, .inr ⟨hspurious, hmark⟩⟩)
        obtain ⟨f, row, hf, hsome, -, -⟩ := h.all hreached
        obtain rfl := Json.str.inj (Option.some.inj (hread.fileId.symm.trans hf))
        rw [hsame, hnone] at hsome
        cases hsome
      · refine iff_of_true (hall hreached ?_ (hfiles'.trans ?_)) fun h => hnone h.1
        · rw [hsame]
          exact Option.isSome_iff_ne_none.mpr hnone
        · rw [hbeside.files, hfiles]
    · rw [hnext hbeside] at hmark
      refine iff_of_true (allOrNothing_of_spared
        (hspared.trans ((spared_of_beside hbeside hacks').trans hs))) ?_
      rintro ⟨hnone, ⟨hfault', -, -⟩ | ⟨-, hmark'⟩⟩
      · rcases hfault with h | ⟨-, h⟩
        · cases hfault'.symm.trans h
        · exact h hnone
      · exact hmark hmark'
  · -- the insertion raises what nothing catches
    intro hbit hne e t' hbeside hacks'
    rw [hinsert] at hbit hne
    refine iff_of_true (allOrNothing_of_spared
      (hspared.trans (spared_of_beside hbeside hacks'))) ?_
    rintro ⟨-, ⟨hfault, hint, -⟩ | ⟨hfault, -⟩⟩
    · exact hbit hfault hint
    · exact hne hfault

/-- An acknowledgement whose signature is not good is refused, once or twice. -/
theorem issues_refuseAck (h : verifyAck P session.peerCert req ≠ .ok true) :
    Issues (fun op : Op => op.spares .ACK_OK = true) (acceptAck P session req) := by
  have hrefuse : Issues (fun op : Op => op.spares .ACK_OK = true) (sendError "AUTH_FAILED") :=
    issues_sendError (by decide)
  unfold acceptAck
  cases hver : verifyAck P session.peerCert req with
  | error e => exact hrefuse
  | ok b =>
    cases b with
    | true => exact absurd hver h
    | false =>
      refine hrefuse.attempt.bind fun r => ?_
      cases r with
      | ok u => exact issues_pure _
      | error e => exact hrefuse

/-- **An acknowledgement**, whatever disturbs it, comes as far as the two transactions, or changes
nothing. -/
theorem wp_handleDownloadAck_stages {Q : Alone → Except PyExn Unit → Prop}
    (hstop : (∀ req, ¬ Writes P ca session env s inputs req) → ∀ t' r,
      Spared .ACK_OK (.start s inputs) t' → Q t' r)
    (hgo : ∀ req t, Writes P ca session env s inputs req → Spared .ACK_OK (.start s inputs) t →
      Quietly (.start s inputs) 4 t → wpE (.solo (exec P)) (acceptAck P session req) t Q) :
    wpE (.solo (exec P)) (handleDownloadAck P ca session env) (.start s inputs) Q := by
  refine wp_replayGate_any (by decide)
    (fun hc t' r => hstop (fun req hw => hc hw.letThrough) t' r) fun hgate t₁ hspared₁ hq₁ => ?_
  cases hparse : parseSignedRequest env.payload with
  | error e =>
    have hnot : ∀ req, ¬ Writes P ca session env s inputs req := by
      intro req hw
      cases hparse.symm.trans hw.parsed
    dsimp only
    split_ifs
    · exact wpE_mono _ (wp_spared (issues_sendError (by decide))) fun t' r hs =>
        hstop hnot t' r (hspared₁.trans hs)
    · exact hstop hnot t₁ _ hspared₁
  | ok req =>
    have hname := not_surrogate_of_isPlain
      (isPlain_of_isCanonicalUuid (readFrom_of_parseSignedRequest hparse).canonical)
    have hsame : ∀ req', Writes P ca session env s inputs req' → req' = req := fun req' hw =>
      Except.ok.inj (hw.parsed.symm.trans hparse)
    have hget := @wp_getFile_any P t₁ .ACK_OK req.fileId
      (fun row => row.recipientId = session.peerSubject) hname
    rw [hq₁.inputs, hq₁.files] at hget
    refine wp_stage hget (fun found hbad => ?_)
      (fun hc t' r hs => hstop (fun req' hw => hc ?_) t' r (hspared₁.trans hs))
      fun hread found t₂ hgood hspared₂ hq₂ => ?_
    · cases found with
      | none => exact issues_sendError (by decide)
      | some row =>
        dsimp only
        rw [if_pos fun hrec => hbad ⟨row, rfl, hrec⟩]
        exact issues_sendError (by decide)
    · obtain rfl := hsame req' hw
      exact ⟨hw.read, hw.isFor⟩
    · obtain ⟨row, rfl, hrec⟩ := hgood
      have hall₂ := hspared₁.trans hspared₂
      have hboth := hq₁.trans hq₂
      have hverify := @wp_verifySession_any P ca t₂ session .ACK_OK
      rw [hboth.inputs] at hverify
      dsimp only
      rw [if_neg (not_not.mpr hrec)]
      refine wp_stage hverify (fun b hbad => ?_)
        (fun hc t' r hs => hstop (fun req' hw => hc hw.certified) t' r (hall₂.trans hs))
        fun hcert b t₃ hgood hspared₃ hq₃ => ?_
      · rw [if_neg hbad]
        exact issues_sendError (by decide)
      · rw [if_pos hgood]
        have hall₃ := hall₂.trans hspared₃
        by_cases hsig : verifyAck P session.peerCert req = .ok true
        · exact hgo req t₃ ⟨hgate, hparse, hread.1, hread.2, hcert, hsig⟩ hall₃ (hboth.trans hq₃)
        · have hnot : ∀ req', ¬ Writes P ca session env s inputs req' := by
            intro req' hw
            obtain rfl := hsame req' hw
            exact hsig hw.signed
          refine wpE_mono _ (wp_spared (issues_refuseAck hsig)) fun t' r hs =>
            hstop hnot t' r (hall₃.trans hs)

theorem wp_handleDownloadAck_any :
    wpE (.solo (exec P)) (handleDownloadAck P ca session env) (.start s inputs) fun t' _ =>
      AllOrNothing env s t' ↔ ¬ Torn P ca session env s inputs := by
  refine wp_handleDownloadAck_stages (fun hnot t' _ hspared => ?_)
    fun req t hw hspared hq => wp_acceptAck_any hw hspared hq
  refine iff_of_true (allOrNothing_of_spared hspared) ?_
  rintro ⟨req, hw, -⟩
  exact hnot req hw

/-- **All or nothing**, unless the two transactions of an acknowledgement come apart. -/
theorem allOrNothing_iff (htype : env.type = .DOWNLOAD_ACK) :
    AllOrNothing env s (serve P ca session env s inputs).solo ↔
      ¬ Torn P ca session env s inputs := by
  rw [serve, dispatch, htype]
  exact wp_solo_iff.mp wp_handleDownloadAck_any

/-! ## Which acknowledgements move a file -/

/-- The file has been downloaded, as the server sees it. -/
def Downloaded (f : PyStr) (s : ServerState) : Prop :=
  ∃ row, s.files.find? f = some row ∧ row.status = .downloaded

/-- An operation of a `DOWNLOAD_ACK` with this payload moves a file to `downloaded`. -/
structure Consumes (payload : Obj) (f : PyStr) (x : ServerItem) : Prop where
  label : ∃ session env, x.label = .request session env ∧ env.type = .DOWNLOAD_ACK ∧
    env.payload = payload
  before : ¬ Downloaded f x.pre
  after : Downloaded f x.post

/-- The payload of an acknowledgement passes the checks of some server: it is well formed, and
its signature verifies under a certificate that some CA has signed. -/
structure Acceptable (P : Primitives) (payload : Obj) (req : SignedRequest) : Prop where
  parsed : parseSignedRequest payload = .ok req
  verified : ∃ ca cert now subject, CertCheck P ca cert now (some subject) ∧
    verifyAck P cert req = .ok true

/-- **An acknowledgement that moves a file was acceptable**, whatever else the server did. -/
theorem Consumes.acceptable {s₀ s' : ServerState} {tr : List ServerItem}
    {js : List (Job Op Op.Res Label (Except PyExn Unit))} {x : ServerItem} {payload : Obj}
    {f : PyStr} (hr : Run P ca s₀ tr js s') (hx : x ∈ tr) (h : Consumes payload f x) :
    ∃ req, Acceptable P payload req ∧ req.fileId = f := by
  obtain ⟨⟨session, env, hl, htype, rfl⟩, hbefore, row', hrow', hdown⟩ := h
  rcases row_of_change (change_of_mem hr hx) f with heq | ⟨row, hev, -, -, hrow⟩ |
    ⟨row, st, hm, hrow, hpost⟩
  · exact absurd ⟨row', heq ▸ hrow', hdown⟩ hbefore
  · obtain rfl := Option.some.inj (hrow'.symm.trans hrow)
    rw [(insertFile_of_mem hr hx hev).1] at hdown
    cases hdown
  · obtain rfl := Option.some.inj (hrow'.symm.trans hpost)
    obtain rfl : st = .downloaded := hdown
    obtain ⟨k, hkey, heff⟩ := effect_of_marks hr hx hm (by simp)
    rw [hl] at heff
    generalize x.past = past at heff
    cases heff with
    | markDownloaded htype' hproven hinserted =>
      obtain ⟨hparse, -, hcert, hver⟩ := hproven
      exact ⟨_, ⟨hparse, _, _, _, _, hcert, hver⟩,
        (Option.some.inj (bindKey_str hkey)).symm.trans (Table.key_of_find? hrow)⟩

/-- The two transactions of an acknowledgement go through. -/
structure Stores (s : ServerState) (req : SignedRequest) (insert mark : Input) : Prop where
  insert : insert.fault = none ∧ Is64Bit req.timestampInt ∨ insert.fault = some .integrityError
  mark : mark.fault = none

/-- **An acknowledgement whose two transactions go through** writes the status. -/
theorem files_of_stores (htype : env.type = .DOWNLOAD_ACK)
    (hw : Writes P ca session env s inputs req) (hstores : Stores s req (inputs 4) (inputs 5)) :
    (serve P ca session env s inputs).store.files.find? req.fileId =
      (s.files.find? req.fileId).map (FileRow.withStatus .downloaded) := by
  have hname := not_surrogate_of_isPlain
    (isPlain_of_isCanonicalUuid (readFrom_of_parseSignedRequest hw.parsed).canonical)
  show (serve P ca session env s inputs).solo.store.files.find? req.fileId = _
  rw [serve, dispatch, htype]
  refine wp_solo_iff.mp (wp_handleDownloadAck_stages (Q := fun t' _ =>
    t'.store.files.find? req.fileId = _) (fun hnot _ _ _ => absurd hw (hnot req))
    fun req' t hw' _ hq => ?_)
  obtain rfl := hw.unique hw'
  have hmark : ∀ t', Beside t t' → wpE (.solo (exec P))
      (markAndReply req.fileId .downloaded .ACK_OK (ackOkPayload req.fileId)) t' fun t'' _ =>
        t''.store.files.find? req.fileId =
          (s.files.find? req.fileId).map (FileRow.withStatus .downloaded) := by
    intro t' hbeside
    have hnext : t'.inputs 0 = inputs 5 := by
      rw [hbeside.inputs, hq.inputs]
      rfl
    have hfiles : t'.store.files = s.files := hbeside.files.trans hq.files
    refine wp_markAndReply_any hname (fun _ t'' _ _ _ h => hfiles ▸ h) fun hfault => ?_
    exact absurd (hnext ▸ hstores.mark) hfault
  have hinsert : t.inputs 0 = inputs 4 := by
    rw [hq.inputs]
    rfl
  unfold acceptAck
  rw [hw.signed]
  refine (wpE_bind ..).mpr (wp_insertAck_any hname (fun _ _ _ t' h _ => hmark t' h)
    (fun _ t' h _ => hmark t' h) fun hbit hne => ?_)
  rw [hinsert] at hbit hne
  rcases hstores.insert with ⟨hnone, h64⟩ | hfault
  · exact absurd h64 (hbit hnone)
  · exact absurd hfault hne

/-- A pending file for a recipient, and nothing else that matters. -/
def pendingFor (f recipient : PyStr) : FileRow where
  fileId := f
  senderId := []
  recipientId := recipient
  uploadTimestamp := 0
  expiration := 0
  status := .pending
  ciphertextPath := []
  ciphertextSha256 := []
  wrappedKey := []
  aesNonce := []
  aesAad := []
  senderSignature := []
  senderCertJson := []

/-- A server that has one file. -/
def holding (row : FileRow) : ServerState where
  files := ⟨[row], List.nodup_singleton _⟩
  nonces := .empty
  acks := .empty
  disk _ := none

theorem find?_holding (row : FileRow) : (holding row).files.find? row.fileId = some row :=
  Table.find?_eq_some_iff.mpr ⟨List.mem_singleton_self _, rfl⟩

instance (i : ℤ) : Decidable (Is64Bit i) := inferInstanceAs (Decidable (_ ∧ _))

/-- What a server is given that verifies a certificate at a time.  A time that SQLite cannot bind
is let pass by an `IntegrityError`. -/
def acceptingInput (req : SignedRequest) (now : ℤ) (n : ℕ) : Input :=
  { Input.quiet (if n = 3 then now else 0) with
    fault := if n = 4 ∧ ¬ Is64Bit req.timestampInt then some .integrityError else none }

/-- With that an acknowledgement comes as far as the two transactions, where its file is held for
the signer. -/
theorem writes_acceptingInput {payload cert : Obj} {now : ℤ} {subject : PyStr}
    (hparse : parseSignedRequest payload = .ok req) (hcert : CertCheck P ca cert now (some subject))
    (hsig : verifyAck P cert req = .ok true) :
    Writes P ca ⟨subject, cert⟩ (.numbered 0 .DOWNLOAD_ACK 0 payload)
      (holding (pendingFor req.fileId subject)) (acceptingInput req now) req := by
  refine ⟨⟨⟨isStale_eq_false.mpr ?_, rfl⟩, ?_, ?_⟩, hparse, ?_, ⟨_, find?_holding _, rfl⟩, ?_, hsig⟩
  · simp [acceptingInput, Input.quiet, Envelope.numbered]
  · simp [acceptingInput, Input.quiet]
  · simp [acceptingInput]
  · simp [acceptingInput]
  · simpa [acceptingInput, Input.quiet] using hcert

/-- And they go through. -/
theorem stores_acceptingInput {now : ℤ} :
    Stores s req (acceptingInput req now 4) (acceptingInput req now 5) := by
  refine ⟨?_, by simp [acceptingInput]⟩
  by_cases h64 : Is64Bit req.timestampInt
  · exact .inl ⟨by simp [acceptingInput, h64], h64⟩
  · exact .inr (by simp [acceptingInput, h64])

/-- A file that is held as pending has not been downloaded. -/
theorem not_downloaded_holding {f recipient : PyStr} :
    ¬ Downloaded f (holding (pendingFor f recipient)) := by
  rintro ⟨row, hrow, hdown⟩
  obtain rfl := Option.some.inj ((find?_holding (pendingFor f recipient)).symm.trans hrow)
  cases hdown

/-- **Some server moves the file** on any acceptable acknowledgement: one that holds the file for
the signer and serves nothing else. -/
theorem Acceptable.exists_consumes {payload : Obj} (h : Acceptable P payload req) :
    ∃ ca s₀ tr js s' x, Run P ca s₀ tr js s' ∧ x ∈ tr ∧ Consumes payload req.fileId x := by
  obtain ⟨ca, cert, now, subject, hcert, hsig⟩ := h.verified
  have hafter := files_of_stores rfl (writes_acceptingInput h.parsed hcert hsig)
    stores_acceptingInput
  rw [show (holding (pendingFor req.fileId subject)).files.find? req.fileId = some _ from
    find?_holding (pendingFor req.fileId subject)] at hafter
  obtain ⟨tr, js, hr, hlabel⟩ := (system P ca).exists_run_alone
    (.request ⟨subject, cert⟩ (.numbered 0 .DOWNLOAD_ACK 0 payload)) (acceptingInput req now)
    (holding (pendingFor req.fileId subject))
  obtain ⟨later, x, earlier, rfl, hpre, hpost⟩ :=
    hr.exists_cause (P := Downloaded req.fileId) not_downloaded_holding ⟨_, hafter, rfl⟩
  have hx : x ∈ later ++ x :: earlier := by simp
  exact ⟨ca, _, _, _, _, x, hr, hx, ⟨_, _, hlabel x hx, rfl, rfl⟩, hpre, hpost⟩

/-! ### A sample acknowledgement -/

/-- The envelope of `bob`'s acknowledgement. -/
def ackEnvelope : Envelope := .numbered 1 .DOWNLOAD_ACK 100 (signedPayload sampleId 100
  (sampleSign 66 (ackCanonical samplePrimitives sampleId (.int 100))))

/-- Nothing disturbs it, and it leaves all of what it should leave. -/
theorem allOrNothing_sample : AllOrNothing ackEnvelope sampleStore
    (serve samplePrimitives [1] bob ackEnvelope sampleStore fun _ => sampleInput 100).solo := by
  refine (allOrNothing_iff rfl).mpr ?_
  rintro ⟨req, -, -, ⟨-, -, hne⟩ | ⟨hfault, -⟩⟩
  · exact hne rfl
  · cases hfault

/-- The sixth operation, which writes the status, raises `sqlite3.OperationalError`. -/
def statusFails (n : ℕ) : Input :=
  if n = 5 then { sampleInput 100 with fault := some .operationalError } else sampleInput 100

/-- `bob` is told of an error, and his acknowledgement stays with a file that is pending. -/
theorem ackEnvelope_torn : ¬ AllOrNothing ackEnvelope sampleStore
    (serve samplePrimitives [1] bob ackEnvelope sampleStore statusFails).solo := by
  have hrun : ¬ Reached .ACK_OK (serve samplePrimitives [1] bob ackEnvelope sampleStore
      statusFails).solo.hist ∧ (serve samplePrimitives [1] bob ackEnvelope sampleStore
      statusFails).solo.store.acks.rows.length = 1 := by
    decide +kernel
  intro h
  obtain ⟨hacks, -⟩ := h.nothing hrun.1
  have hone := hrun.2
  rw [hacks] at hone
  cases hone

end Server
end ZeroTrust
