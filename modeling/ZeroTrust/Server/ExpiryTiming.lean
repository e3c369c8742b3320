import ZeroTrust.Server.Access
import ZeroTrust.Server.Footprint
import ZeroTrust.Server.Undisturbed

/-!
# Expiry does not depend on when the cleanup runs

A row past its deadline is treated as expired wherever it is looked at, so it does not matter
whether `mark_expired` has been there already.  Two servers that serve the same requests, one
with passes of `mark_expired` in between, stay alike but for the statuses of rows that are past
their deadline; and no reply but that to a revocation depends on such a status.

* `SameButExpired`: the simulation relation.
* `blind_sameButExpired`: no operation but the look-ups by key can tell the two stores apart.
* `pair_dispatch`: a request keeps the relation and is answered alike.
* `answers_without_passes`: the answers of whole runs.
-/

namespace ZeroTrust
namespace Server

open Python Effects Data

variable {P : Primitives} {ca : Bytes} {session : Session} {env : Envelope} {now later : ℤ}
  {s s' s'' : ServerState} {row row' row'' : FileRow}

/-! ## The simulation relation -/

/-- Two rows that differ in their status at most, and in that past the deadline only. -/
structure RowAlike (now : ℤ) (row row' : FileRow) : Prop where
  rest : row' = row.withStatus row'.status
  status : row'.status = row.status ∨ row.expiration ≤ now

/-- Two stores that differ in the statuses of rows past their deadline at most. -/
structure SameButExpired (now : ℤ) (s s' : ServerState) : Prop where
  files : List.Forall₂ (RowAlike now) s.files.rows s'.files.rows
  nonces : s.nonces = s'.nonces
  acks : s.acks = s'.acks
  disk : s.disk = s'.disk

theorem RowAlike.refl (now : ℤ) (row : FileRow) : RowAlike now row row := ⟨rfl, .inl rfl⟩

theorem RowAlike.fileId (h : RowAlike now row row') : row'.fileId = row.fileId := by
  rw [h.rest]
  rfl

theorem RowAlike.expiration (h : RowAlike now row row') : row'.expiration = row.expiration := by
  rw [h.rest]
  rfl

theorem RowAlike.recipientId (h : RowAlike now row row') : row'.recipientId = row.recipientId := by
  rw [h.rest]
  rfl

theorem RowAlike.senderId (h : RowAlike now row row') : row'.senderId = row.senderId := by
  rw [h.rest]
  rfl

/-- Before the deadline there is no difference. -/
theorem RowAlike.eq (h : RowAlike now row row') (hexp : now < row.expiration) : row' = row := by
  rw [h.rest, h.status.resolve_right (by omega)]
  rfl

theorem RowAlike.mono (h : RowAlike now row row') (hle : now ≤ later) : RowAlike later row row' :=
  ⟨h.rest, h.status.imp id fun hexp => hexp.trans hle⟩

theorem RowAlike.symm (h : RowAlike now row row') : RowAlike now row' row where
  rest := by
    rw [h.rest]
    rfl
  status := by
    rw [h.expiration]
    exact h.status.imp Eq.symm id

theorem RowAlike.trans (h : RowAlike now row row') (h' : RowAlike now row' row'') :
    RowAlike now row row'' where
  rest := by
    rw [h'.rest, h.rest]
    rfl
  status := by
    rcases h.status with hst | hexp
    · rw [← hst, ← h.expiration]
      exact h'.status
    · exact .inr hexp

/-- A status written over both rows makes them equal. -/
theorem RowAlike.withStatus (h : RowAlike now row row') (st : Status) :
    RowAlike now (row.withStatus st) (row'.withStatus st) where
  rest := by
    rw [h.rest]
    rfl
  status := .inl rfl

theorem SameButExpired.refl (now : ℤ) (s : ServerState) : SameButExpired now s s where
  files := List.forall₂_same.mpr fun row _ => .refl now row
  nonces := rfl
  acks := rfl
  disk := rfl

theorem SameButExpired.mono (h : SameButExpired now s s') (hle : now ≤ later) :
    SameButExpired later s s' where
  files := h.files.imp fun _ _ hrow => hrow.mono hle
  nonces := h.nonces
  acks := h.acks
  disk := h.disk

theorem SameButExpired.symm (h : SameButExpired now s s') : SameButExpired now s' s where
  files := h.files.flip.imp fun _ _ hrow => hrow.symm
  nonces := h.nonces.symm
  acks := h.acks.symm
  disk := h.disk.symm

theorem SameButExpired.trans (h : SameButExpired now s s') (h' : SameButExpired now s' s'') :
    SameButExpired now s s'' where
  files := by
    have htrans : ∀ {rows rows' rows'' : List FileRow}, List.Forall₂ (RowAlike now) rows rows' →
        List.Forall₂ (RowAlike now) rows' rows'' → List.Forall₂ (RowAlike now) rows rows'' := by
      intro rows rows' rows'' hrows hrows'
      induction hrows generalizing rows'' with
      | nil => exact hrows'
      | cons hrow _ ih =>
        cases hrows' with
        | cons hrow' hrows' => exact .cons (hrow.trans hrow') (ih hrows')
    exact htrans h.files h'.files
  nonces := h.nonces.trans h'.nonces
  acks := h.acks.trans h'.acks
  disk := h.disk.trans h'.disk

/-- Rewriting the statuses of rows past their deadline changes nothing that counts. -/
theorem sameButExpired_setStatus {p : FileRow → Bool} {st : Status}
    (h : ∀ row ∈ s.files.rows, p row = true → row.expiration ≤ now) :
    SameButExpired now s (s.setStatus p st) where
  files := by
    show List.Forall₂ _ _ (s.files.rows.map _)
    rw [List.forall₂_map_right_iff]
    refine List.forall₂_same.mpr fun row hrow => ?_
    split_ifs with hp
    · exact ⟨rfl, .inr (h row hrow hp)⟩
    · exact .refl now row
  nonces := rfl
  acks := rfl
  disk := rfl

/-! ## Single operations -/

theorem SameButExpired.keys (h : SameButExpired now s s') :
    s'.files.rows.map FileRow.fileId = s.files.rows.map FileRow.fileId := by
  have hkeys : List.Forall₂ (fun row row' : FileRow => row.fileId = row'.fileId) s.files.rows
      s'.files.rows := h.files.imp fun _ _ hrow => hrow.fileId.symm
  exact (List.forall₂_eq_eq_eq ▸ (List.forall₂_map_left_iff.mpr
    (List.forall₂_map_right_iff.mpr hkeys)) : _ = _).symm

/-- A key has rows that are alike in both stores, or in neither a row. -/
theorem SameButExpired.find? (h : SameButExpired now s s') (f : PyStr) :
    (s.files.find? f = none ∧ s'.files.find? f = none) ∨
      ∃ row row', s.files.find? f = some row ∧ s'.files.find? f = some row' ∧
        RowAlike now row row' := by
  have hfind : ∀ {rows rows' : List FileRow}, List.Forall₂ (RowAlike now) rows rows' →
      (rows.find? (fun row => row.fileId = f) = none ∧
          rows'.find? (fun row => row.fileId = f) = none) ∨
        ∃ row row', rows.find? (fun row => row.fileId = f) = some row ∧
          rows'.find? (fun row => row.fileId = f) = some row' ∧ RowAlike now row row' := by
    intro rows rows' hrows
    induction hrows with
    | nil => exact .inl ⟨rfl, rfl⟩
    | @cons row row' rows rows' hrow _ ih =>
      by_cases hf : row.fileId = f
      · have hf' : row'.fileId = f := hrow.fileId.trans hf
        refine .inr ⟨row, row', ?_, ?_, hrow⟩
        · exact List.find?_cons_of_pos (decide_eq_true hf)
        · exact List.find?_cons_of_pos (decide_eq_true hf')
      · have hf' : ¬ row'.fileId = f := fun hf' => hf (hrow.fileId.symm.trans hf')
        rw [List.find?_cons_of_neg (by simpa using hf), List.find?_cons_of_neg (by simpa using hf')]
        exact ih
  exact hfind h.files

/-- A row that is new to one store is new to the other. -/
theorem SameButExpired.insertFile (h : SameButExpired now s s') (row : FileRow) :
    WritesAlike (SameButExpired now) (s.insertFile row) (s'.insertFile row) := by
  refine writesAlike_bind (bindFileRow row) fun _ _ => ?_
  unfold Table.insert?
  by_cases hkey : row.fileId ∈ s.files.rows.map FileRow.fileId
  · rw [dif_pos hkey, dif_pos (h.keys ▸ hkey)]
    exact (rfl : PyExn.integrityError = _)
  · rw [dif_neg hkey, dif_neg (h.keys ▸ hkey)]
    exact
      { files := List.rel_append h.files (.cons (.refl now row) .nil)
        nonces := h.nonces
        acks := h.acks
        disk := h.disk }

/-- A status written over the row of a key in both stores. -/
theorem SameButExpired.setStatus (h : SameButExpired now s s') (key : Option PyStr) (st : Status) :
    SameButExpired now (s.setStatus (fun row => some row.fileId = key) st)
      (s'.setStatus (fun row => some row.fileId = key) st) where
  files := by
    show List.Forall₂ _ (s.files.rows.map _) (s'.files.rows.map _)
    rw [List.forall₂_map_left_iff, List.forall₂_map_right_iff]
    refine h.files.imp fun row row' hrow => ?_
    simp only [hrow.fileId]
    split_ifs
    · exact hrow.withStatus st
    · exact hrow
  nonces := h.nonces
  acks := h.acks
  disk := h.disk

theorem SameButExpired.markStatus (h : SameButExpired now s s') (k : Json) (st : Status) :
    WritesAlike (SameButExpired now) (s.markStatus P k st) (s'.markStatus P k st) := by
  cases st with
  | other text => exact (rfl : PyExn.valueError = _)
  | _ => exact writesAlike_bind (bindKey P k) fun key _ => h.setStatus key _

/-- A listing shows no row past its deadline. -/
theorem SameButExpired.listPending (h : SameButExpired now s s') {recipient : PyStr}
    (hle : now ≤ later) : s.listPending recipient later = s'.listPending recipient later := by
  have hrows : ∀ {rows rows' : List FileRow}, List.Forall₂ (RowAlike now) rows rows' →
      rows.filter (fun row => row.recipientId = recipient ∧ row.status = .pending ∧
          later < row.expiration) =
        rows'.filter (fun row => row.recipientId = recipient ∧ row.status = .pending ∧
          later < row.expiration) := by
    intro rows rows' hrows
    induction hrows with
    | nil => rfl
    | @cons row row' rows rows' hrow _ ih =>
      by_cases hexp : now < row.expiration
      · rw [hrow.eq hexp, List.filter_cons, List.filter_cons, ih]
      · have hexp' : ¬ now < row'.expiration := by
          rw [hrow.expiration]
          exact hexp
        rw [List.filter_cons_of_neg, List.filter_cons_of_neg, ih]
        · simp only [decide_eq_true_eq, not_and]
          omega
        · simp only [decide_eq_true_eq, not_and]
          omega
  unfold ServerState.listPending
  rw [hrows h.files]

/-- The operations that a deadline's passing does not show through. -/
def Op.IgnoresExpiry (now : ℤ) : Op → Prop
  | .getFile _ | .markExpired _ => False
  | .listPending _ later => now ≤ later
  | _ => True

/-- **Apart from look-ups by key, no operation can tell the two stores apart.** -/
theorem blind_sameButExpired {op : Op} (hop : op.IgnoresExpiry now) :
    Blind (exec P) (SameButExpired now) op := by
  intro i s s' h
  have hread : ∀ path, s.readBytes path = s'.readBytes path := by
    intro path
    rw [ServerState.readBytes, ServerState.readBytes, h.disk]
  have hwrite : ∀ path data, SameButExpired now (s.write path data) (s'.write path data) := by
    intro path data
    refine ⟨h.files, h.nonces, h.acks, ?_⟩
    show Function.update s.disk _ _ = Function.update s'.disk _ _
    rw [h.disk]
  cases op with
  | time => exact ⟨rfl, h⟩
  | getFile k => exact hop.elim
  | markExpired cutoff => exact hop.elim
  | insertNonce nonce seenAt =>
    refine alike_writing (writesAlike_bind _ fun _ _ => ?_) h
    rw [← h.nonces]
    cases s.nonces.insert? ⟨nonce, seenAt⟩ with
    | none => exact (rfl : PyExn.integrityError = _)
    | some nonces => exact ⟨h.files, rfl, h.acks, h.disk⟩
  | purgeNonces cutoff =>
    simp only [exec]
    rw [← h.nonces]
    refine alike_writing (writesAlike_bind _ fun _ _ => ?_) h
    exact ⟨h.files, by rw [h.nonces], h.acks, h.disk⟩
  | listPending recipient later => exact alike_reading (h.listPending hop) h
  | insertFile row => exact alike_writing (h.insertFile row) h
  | markStatus k st => exact alike_writing (h.markStatus k st) h
  | insertAck row =>
    refine alike_writing (writesAlike_bind _ fun _ _ => writesAlike_bind _ fun _ _ => ?_) h
    rw [← h.acks]
    cases s.acks.insert? row with
    | none => exact (rfl : PyExn.integrityError = _)
    | some acks => exact ⟨h.files, h.nonces, rfl, h.disk⟩
  | isFile path => exact alike_reading (by rw [h.disk]) h
  | readBytes path => exact alike_reading (hread path) h
  | statSize path => exact alike_reading (by rw [hread]) h
  | mkdirFiles => exact alike_reading rfl h
  | writeTmp path data => exact alike_writingPart (hwrite path) h
  | replace src dst =>
    refine alike_writing ?_ h
    unfold ServerState.replace
    rw [← h.disk]
    cases s.disk src with
    | none => exact (rfl : PyExn.osError = _)
    | some data => exact ⟨h.files, h.nonces, h.acks, rfl⟩
  | send type payload => exact blind_send i s s' h

/-! ## One request at two servers -/

section

variable {t₀ t u : Alone} {k : Json} {r r' : Except PyExn Unit}

/-- The two stores are alike at a time the clock showed during the request. -/
def KeptAlike (t₀ t : Alone) (_ : Except PyExn Unit) (u : Alone) (_ : Except PyExn Unit) : Prop :=
  ∃ n, SameButExpired (t₀.inputs n).now t.store u.store

/-- And the same messages have reached both clients. -/
def AnsweredAlike (t₀ t : Alone) (r : Except PyExn Unit) (u : Alone) (r' : Except PyExn Unit) :
    Prop :=
  KeptAlike t₀ t r u r' ∧ sent t.hist = sent u.hist

/-- A request comes when the clock shows no less than `now`, and nothing disturbs it. -/
structure ComesAt (now : ℤ) (t₀ : Alone) : Prop where
  undisturbed : Undisturbed t₀.inputs
  now_le : ∀ n, now ≤ (t₀.inputs n).now

theorem ComesAt.of_later (h : ComesAt now t₀) (hlater : t₀.Later t) : ComesAt now t where
  undisturbed := hlater.forall h.undisturbed
  now_le := hlater.forall (J := fun i => now ≤ i.now) h.now_le

theorem answeredAlike_of_alike (hcome : ComesAt now t₀)
    (h : t.Alike sentBy (SameButExpired now) u) : AnsweredAlike t₀ t r u r' :=
  ⟨⟨0, h.store.mono (hcome.now_le 0)⟩, congrArg List.reverse h.hist⟩

/-- What both servers do alike they answer alike. -/
theorem pair_blind {x : ServerM Unit} (hcome : ComesAt now t₀)
    (hx : Issues (Blind (exec P) (SameButExpired now)) x)
    (htu : t.Alike sentBy (SameButExpired now) u) :
    wpPair (exec P) x x t u (AnsweredAlike t₀) := by
  refine wpPair_mono (hx.pair htu) ?_
  rintro t' a u' b ⟨htu', -, -⟩
  exact answeredAlike_of_alike hcome htu'

/-- A look-up in two stores: it raises in both, or finds rows that are alike. -/
theorem pair_getFile {f : Option FileRow → ServerM Unit}
    {Q : Alone → Except PyExn Unit → Alone → Except PyExn Unit → Prop} (hcome : ComesAt now t)
    (htu : t.Alike sentBy (SameButExpired now) u)
    (hraise : ∀ e t' u', t'.Alike sentBy (SameButExpired now) u' → Q t' (.error e) u' (.error e))
    (hnone : ∀ t' u', t.Later t' → t'.Alike sentBy (SameButExpired now) u' →
      wpPair (exec P) (f none) (f none) t' u' Q)
    (hsome : ∀ key row row' t' u', t.Later t' → t'.Alike sentBy (SameButExpired now) u' →
      bindKey P k = .ok (some key) → t'.store.files.find? key = some row →
      u'.store.files.find? key = some row' → RowAlike now row row' →
      wpPair (exec P) (f (some row)) (f (some row')) t' u' Q) :
    wpPair (exec P) (act (Op.getFile k) >>= f) (act (Op.getFile k) >>= f) t u Q := by
  have hi : (t.inputs 0).Healthy := hcome.undisturbed 0
  have hi' : (u.inputs 0).Healthy := by
    rw [← htu.inputs]
    exact hi
  have hanswer := answer_getFile (P := P) (k := k) hi.fault
  have hanswer' := answer_getFile (P := P) (k := k) hi'.fault
  have hnext : (t.next (exec P) (.getFile k)).Alike sentBy (SameButExpired now)
      (u.next (exec P) (.getFile k)) := alike_next rfl rfl htu
  have hstore : (t.next (exec P) (.getFile k)).store = t.store := store_next_of_isRead rfl
  have hstore' : (u.next (exec P) (.getFile k)).store = u.store := store_next_of_isRead rfl
  rw [ServerState.getFile] at hanswer hanswer'
  cases hkey : bindKey P k with
  | error e =>
    rw [hkey] at hanswer hanswer'
    rw [wpPair_act_bind_error hanswer hanswer']
    exact hraise e _ _ hnext
  | ok key =>
    rw [hkey] at hanswer hanswer'
    rw [wpPair_act_bind hanswer hanswer']
    cases key with
    | none => exact hnone _ _ (t.later_next _) hnext
    | some key =>
      rcases htu.store.find? key with ⟨hn, hn'⟩ | ⟨row, row', hrow, hrow', hsame⟩
      · rw [Option.bind_some, Option.bind_some, hn, hn']
        exact hnone _ _ (t.later_next _) hnext
      · rw [Option.bind_some, Option.bind_some, hrow, hrow']
        refine hsome key row row' _ _ (t.later_next _) hnext hkey ?_ ?_ hsame
        · rw [hstore, hrow]
        · rw [hstore', hrow']

theorem pair_sendError {code : String} (hcome : ComesAt now t₀)
    (htu : t.Alike sentBy (SameButExpired now) u) :
    wpPair (exec P) (sendError code) (sendError code) t u (AnsweredAlike t₀) :=
  pair_blind hcome (issues_sendError blind_send) htu

theorem issues_verifyCertificate_blind {cert : Json} {subject : Option PyStr} :
    Issues (Blind (exec P) (SameButExpired now))
      (verifyCertificate P (act Op.time : ServerM ℤ) cert ca subject) :=
  issues_verifyCertificate (blind_sameButExpired trivial)

theorem pair_handleGetPubkey (hcome : ComesAt now t)
    (htu : t.Alike sentBy (SameButExpired now) u) :
    wpPair (exec P) (handleGetPubkey P ca env) (handleGetPubkey P ca env) t u
      (AnsweredAlike t) := by
  have hload : Issues (Blind (exec P) (SameButExpired now))
      (loadVerifiedPubkeyCert P ca ((dictGet env.payload "username").getD .null)) :=
    issues_loadVerifiedPubkeyCert blind_time (fun _ => blind_sameButExpired trivial)
      fun _ => blind_sameButExpired trivial
  refine pair_blind hcome (hload.bind fun found => ?_) htu
  cases found with
  | none => exact issues_sendError blind_send
  | some cert => exact issues_sendMessage blind_send

/-- The clock is read first, and shows a time at which the listings are the same. -/
theorem pair_handleListPending (hcome : ComesAt now t)
    (htu : t.Alike sentBy (SameButExpired now) u) :
    wpPair (exec P) (handleListPending session) (handleListPending session) t u
      (AnsweredAlike t) := by
  have hnow : now ≤ (t.inputs 0).now := hcome.now_le 0
  have hanswer : t.answer (exec P) .time = .ok (t.inputs 0).now := answer_time
  have hanswer' : u.answer (exec P) .time = .ok (t.inputs 0).now := by
    rw [htu.inputs]
    exact answer_time
  have hlist : Issues (Blind (exec P) (SameButExpired now))
      (act (Op.listPending session.peerSubject (t.inputs 0).now) : ServerM (List FileRow)) :=
    issues_act (blind_sameButExpired hnow)
  rw [handleListPending, listPendingFor, bind_assoc, wpPair_act_bind hanswer hanswer']
  refine pair_blind hcome (hlist.bind fun rows => ?_) (htu.next blind_time)
  refine Issues.bind (issues_pendingEntries fun row _ => ?_) fun files => ?_
  · exact blind_sameButExpired trivial
  · exact issues_sendMessage blind_send

theorem pair_handleUploadRequest (hcome : ComesAt now t)
    (htu : t.Alike sentBy (SameButExpired now) u) :
    wpPair (exec P) (handleUploadRequest P ca session env) (handleUploadRequest P ca session env)
      t u (AnsweredAlike t) := by
  refine pair_blind hcome (issues_handleUploadRequest ?_ ?_ ?_ ?_ ?_ ?_ ?_ ?_ ?_) htu
  · exact blind_time
  · exact fun _ _ _ => blind_sameButExpired trivial
  · exact fun _ => blind_sameButExpired trivial
  · exact fun _ => blind_sameButExpired trivial
  · exact blind_sameButExpired trivial
  · exact fun _ _ => blind_sameButExpired trivial
  · exact fun _ _ => blind_sameButExpired trivial
  · exact fun _ => blind_sameButExpired trivial
  · exact fun _ _ => blind_send

/-! ### Downloads -/

/-- A row past its deadline is refused as expired, whatever its status. -/
theorem wp_refuseExpired {key : PyStr} {row : FileRow}
    {f : Except String FileRow → ServerM Unit} {Q : Alone → Except PyExn Unit → Prop}
    (hf : f (.error "EXPIRED") = sendError "EXPIRED") (hund : Undisturbed t.inputs)
    (hkey : bindKey P k = .ok (some key)) (hrow : t.store.files.find? key = some row)
    (hexp : row.expiration ≤ now)
    (hQ : ∀ t', SameButExpired now t.store t'.store →
      sent t'.hist = sent t.hist ++ [(.ERROR, errorPayload "EXPIRED")] → Q t' (.ok ())) :
    wpE (.solo (exec P)) ((do
      if row.status = .pending then act (Op.markStatus k .expired)
      return .error "EXPIRED") >>= f) t Q := by
  by_cases hst : row.status = .pending
  · obtain ⟨hmark, hstore⟩ := @answer_markStatus P t k (some key) .expired (hund 0).fault hkey nofun
    rw [if_pos hst, bind_assoc, wpE_solo_act_bind hmark, pure_bind, hf]
    refine wp_sendError (hund 1) (by decide) fun t' hs hsent => hQ t' ?_ ?_
    · rw [hs, hstore]
      refine sameButExpired_setStatus fun other hother hk => ?_
      have hfind : t.store.files.find? key = some other :=
        Table.find?_eq_some_iff.mpr ⟨hother, by simpa using hk⟩
      obtain rfl := Option.some.inj (hrow.symm.trans hfind)
      exact hexp
    · rw [hsent, sent_next rfl]
  · rw [if_neg hst, pure_bind, hf]
    refine wp_sendError (hund 0) (by decide) fun t' hs hsent => hQ t' ?_ hsent
    rw [hs]
    exact .refl now _

/-- **A download.**  A row is looked at with a clock that is not behind the last pass, so where
the two rows differ the deadline has passed and both are refused as expired. -/
theorem pair_handleDownloadRequest (hcome : ComesAt now t)
    (htu : t.Alike sentBy (SameButExpired now) u) :
    wpPair (exec P) (handleDownloadRequest P session env) (handleDownloadRequest P session env)
      t u (AnsweredAlike t) := by
  refine pair_replayGate (fun _ _ => blind_sameButExpired trivial) htu (fun t₁ u₁ htu₁ hlater₁ => ?_)
    fun r t' u' htu' _ => answeredAlike_of_alike hcome htu'
  have hcome₁ := hcome.of_later hlater₁
  cases hid : dictGet env.payload "file_id" with
  | none => exact pair_sendError hcome htu₁
  | some k =>
    dsimp only
    rw [authoriseDownload, bind_assoc]
    refine pair_getFile hcome₁ htu₁ ?_ ?_ ?_
    · exact fun e t' u' htu' => answeredAlike_of_alike hcome htu'
    · exact fun t' u' _ htu' => pair_sendError hcome htu'
    intro key row row' t₂ u₂ hlater₂ htu₂ hkey hrow hrow' hsame
    have hcome₂ := hcome₁.of_later hlater₂
    dsimp only
    rw [hsame.recipientId, hsame.expiration]
    by_cases hrec : row.recipientId = session.peerSubject
    · rw [if_neg (not_not.mpr hrec), if_neg (not_not.mpr hrec), bind_assoc, bind_assoc]
      have hanswer : t₂.answer (exec P) .time = .ok (t₂.inputs 0).now := answer_time
      have hanswer' : u₂.answer (exec P) .time = .ok (t₂.inputs 0).now := by
        rw [htu₂.inputs]
        exact answer_time
      have htu₃ : (t₂.next (exec P) .time).Alike sentBy (SameButExpired now)
          (u₂.next (exec P) .time) := htu₂.next blind_time
      have hund : Undisturbed (t₂.next (exec P) .time).inputs := hcome₂.undisturbed.tail
      have hund' : Undisturbed (u₂.next (exec P) .time).inputs := by
        rw [← htu₃.inputs]
        exact hund
      rw [wpPair_act_bind hanswer hanswer']
      by_cases hexp : row.expiration ≤ (t₂.inputs 0).now
      · rw [if_pos hexp, if_pos hexp]
        refine wp_refuseExpired rfl hund hkey hrow hexp fun t' ht hsent => ?_
        have hexp' : row'.expiration ≤ (t₂.inputs 0).now := hsame.expiration ▸ hexp
        refine wp_refuseExpired rfl hund' hkey hrow' hexp' fun u' hu hsent' => ⟨?_, ?_⟩
        · obtain ⟨n, hn⟩ := (hlater₁.trans hlater₂).forall (J := fun i => ∃ n, i = t.inputs n)
            (fun n => ⟨n, rfl⟩) 0
          refine ⟨n, ?_⟩
          rw [← hn]
          exact ht.symm.trans ((htu₃.store.mono (hcome₂.now_le 0)).trans hu)
        · rw [hsent, hsent', sent, sent, htu₃.hist]
      · obtain rfl : row' = row := hsame.eq (lt_of_le_of_lt (hcome₂.now_le 0) (not_le.mp hexp))
        rw [if_neg hexp]
        refine pair_blind hcome (Issues.bind ?_ fun verdict => ?_) htu₃
        · cases row'.status <;> exact issues_pure _
        · cases verdict with
          | error code => exact issues_sendError blind_send
          | ok row =>
            exact issues_serveDownload (blind_sameButExpired trivial)
              (blind_sameButExpired trivial) fun _ _ => blind_send
    · rw [if_pos hrec, if_pos hrec]
      exact pair_sendError hcome htu₂

/-- **An acknowledgement** does not look at the status. -/
theorem pair_handleDownloadAck (hcome : ComesAt now t)
    (htu : t.Alike sentBy (SameButExpired now) u) :
    wpPair (exec P) (handleDownloadAck P ca session env) (handleDownloadAck P ca session env)
      t u (AnsweredAlike t) := by
  refine pair_replayGate (fun _ _ => blind_sameButExpired trivial) htu (fun t₁ u₁ htu₁ hlater₁ => ?_)
    fun r t' u' htu' _ => answeredAlike_of_alike hcome htu'
  cases parseSignedRequest env.payload with
  | error e =>
    refine pair_blind hcome ?_ htu₁
    dsimp only
    split_ifs
    · exact issues_sendError blind_send
    · exact issues_throw _
  | ok req =>
    refine pair_getFile (hcome.of_later hlater₁) htu₁ ?_ ?_ ?_
    · exact fun e t' u' htu' => answeredAlike_of_alike hcome htu'
    · exact fun t' u' _ htu' => pair_sendError hcome htu'
    intro key row row' t₂ u₂ _ htu₂ _ _ _ hsame
    dsimp only
    rw [hsame.recipientId]
    refine pair_blind hcome ?_ htu₂
    split_ifs
    · exact issues_sendError blind_send
    · refine issues_verifyCertificate_blind.bind fun good => ?_
      cases good with
      | false => exact issues_sendError blind_send
      | true =>
        exact issues_acceptAck (fun _ _ => blind_sameButExpired trivial)
          (fun _ => blind_sameButExpired trivial) fun _ _ => blind_send

/-- A status written over a row past its deadline changes nothing that counts. -/
theorem SameButExpired.markStatus_right {f : PyStr} {st : Status} (h : SameButExpired now s s')
    (hrow : s.files.find? f = some row) (hexp : row.expiration ≤ now)
    (hmark : s'.markStatus P (.str f) st = .ok s'') : SameButExpired now s s'' := by
  unfold ServerState.markStatus at hmark
  split at hmark
  · exact nomatch hmark
  · obtain ⟨key, hkey, hmark⟩ := bind_eq_ok.mp hmark
    obtain rfl := pure_eq_ok.mp hmark
    obtain rfl := bindKey_str hkey
    refine h.trans (sameButExpired_setStatus fun other hother hk => ?_)
    have hfind : s'.files.find? f = some other :=
      Table.find?_eq_some_iff.mpr ⟨hother, by simpa using hk⟩
    rcases h.find? f with ⟨hnone, -⟩ | ⟨row₁, row₂, hrow₁, hrow₂, hsame⟩
    · rw [hrow] at hnone
      exact nomatch hnone
    · obtain rfl := Option.some.inj (hrow.symm.trans hrow₁)
      obtain rfl := Option.some.inj (hfind.symm.trans hrow₂)
      rw [hsame.expiration]
      exact hexp

/-- A revocation of a row past its deadline changes the status of that row at most. -/
theorem keeps_revoke {req : SignedRequest} {cert : Json} {subject : Option PyStr}
    {f : Bool → ServerM Unit} {code : String} (hf : f false = sendError code)
    (hf' : f true = acceptRevoke P session req row)
    (hrow : t.store.files.find? req.fileId = some row) (hexp : row.expiration ≤ now) :
    wpE (.solo (exec P)) (verifyCertificate P (act Op.time : ServerM ℤ) cert ca subject >>= f) t
      fun t' _ => SameButExpired now t.store t'.store := by
  have hissues : Issues (fun op : Op => op.isRead = true ∨ ∃ st, op = .markStatus (.str req.fileId) st)
      (verifyCertificate P (act Op.time : ServerM ℤ) cert ca subject >>= f) := by
    refine (issues_verifyCertificate (.inl rfl)).bind fun good => ?_
    cases good with
    | false => exact hf ▸ issues_sendError (.inl rfl)
    | true => exact hf' ▸ issues_acceptRevoke (fun st => .inr ⟨st, rfl⟩) fun _ _ => .inl rfl
  refine hissues.keeps (J := fun t' => SameButExpired now t.store t'.store) ?_ (.refl now _)
  rintro t' op (hread | ⟨st, rfl⟩) ht'
  · rw [store_next_of_isRead hread]
    exact ht'
  · rcases writing_cases (Prod.mk.eta.symm :
      exec P (.markStatus (.str req.fileId) st) (t'.inputs 0) t'.store = _) with ⟨hsame, -⟩ | ⟨hw, -⟩
    · show SameButExpired now t.store (exec P _ _ _).2
      rw [hsame]
      exact ht'
    · exact ht'.markStatus_right hrow hexp hw

/-- **A revocation** is answered by the status, but changes nothing that counts where the
status may differ. -/
theorem pair_handleRevokeRequest (hcome : ComesAt now t)
    (htu : t.Alike sentBy (SameButExpired now) u) :
    wpPair (exec P) (handleRevokeRequest P ca session env) (handleRevokeRequest P ca session env)
      t u (KeptAlike t) := by
  have hkept : ∀ {r r' : Except PyExn Unit} {t' u' : Alone},
      SameButExpired now t'.store u'.store → KeptAlike t t' r u' r' :=
    fun h => ⟨0, h.mono (hcome.now_le 0)⟩
  have hblind : ∀ {x : ServerM Unit} {t' u' : Alone},
      Issues (Blind (exec P) (SameButExpired now)) x → t'.Alike sentBy (SameButExpired now) u' →
      wpPair (exec P) x x t' u' (KeptAlike t) := by
    intro x t' u' hx htu'
    exact wpPair_mono (pair_blind hcome hx htu') fun _ _ _ _ h => h.1
  refine pair_replayGate (fun _ _ => blind_sameButExpired trivial) htu (fun t₁ u₁ htu₁ hlater₁ => ?_)
    fun r t' u' htu' _ => hkept htu'.store
  cases parseSignedRequest env.payload with
  | error e =>
    refine hblind ?_ htu₁
    dsimp only
    split_ifs
    · exact issues_sendError blind_send
    · exact issues_throw _
  | ok req =>
    refine pair_getFile (hcome.of_later hlater₁) htu₁ ?_ ?_ ?_
    · exact fun e t' u' htu' => hkept htu'.store
    · exact fun t' u' _ htu' => hblind (issues_sendError blind_send) htu'
    intro key row row' t₂ u₂ _ htu₂ hkey hrow hrow' hsame
    dsimp only
    rw [hsame.senderId]
    by_cases hsender : row.senderId = session.peerSubject
    · rw [if_neg (not_not.mpr hsender), if_neg (not_not.mpr hsender)]
      rcases hsame.status with hst | hexp
      · obtain rfl : row' = row := by
          rw [hsame.rest, hst]
          rfl
        refine hblind (issues_verifyCertificate_blind.bind fun good => ?_) htu₂
        cases good with
        | false => exact issues_sendError blind_send
        | true =>
          exact issues_acceptRevoke (fun _ => blind_sameButExpired trivial) fun _ _ => blind_send
      · obtain rfl := Option.some.inj (bindKey_str hkey)
        have hexp' : row'.expiration ≤ now := hsame.expiration ▸ hexp
        refine wpE_mono _ (keeps_revoke rfl rfl hrow hexp) fun t' _ ht => ?_
        refine wpE_mono _ (keeps_revoke rfl rfl hrow' hexp') fun u' _ hu => ?_
        exact hkept (ht.symm.trans (htu₂.store.trans hu))
    · rw [if_pos hsender, if_pos hsender]
      exact hblind (issues_sendError blind_send) htu₂

/-- **A request** keeps two servers alike and, unless it is a revocation, is answered alike. -/
theorem pair_dispatch (hcome : ComesAt now t) (htu : t.Alike sentBy (SameButExpired now) u) :
    wpPair (exec P) (dispatch P ca session env) (dispatch P ca session env) t u
      fun t' r u' r' => KeptAlike t t' r u' r' ∧
        (env.type ≠ .REVOKE_REQUEST → sent t'.hist = sent u'.hist) := by
  have hanswered : ∀ {type : MessageType} {x : ServerM Unit},
      wpPair (exec P) x x t u (AnsweredAlike t) →
      wpPair (exec P) x x t u fun t' r u' r' => KeptAlike t t' r u' r' ∧
        (type ≠ .REVOKE_REQUEST → sent t'.hist = sent u'.hist) := by
    intro type x hx
    exact wpPair_mono hx fun _ _ _ _ h => ⟨h.1, fun _ => h.2⟩
  unfold dispatch
  cases env.type with
  | GET_PUBKEY => exact hanswered (pair_handleGetPubkey hcome htu)
  | LIST_PENDING => exact hanswered (pair_handleListPending hcome htu)
  | UPLOAD_REQUEST => exact hanswered (pair_handleUploadRequest hcome htu)
  | DOWNLOAD_REQUEST => exact hanswered (pair_handleDownloadRequest hcome htu)
  | DOWNLOAD_ACK => exact hanswered (pair_handleDownloadAck hcome htu)
  | REVOKE_REQUEST =>
    refine wpPair_mono (pair_handleRevokeRequest hcome htu) fun _ _ _ _ h => ⟨h, ?_⟩
    exact fun hne => absurd rfl hne
  | _ => exact hanswered (pair_sendError hcome htu)

end

/-! ## Runs with passes in between -/

/-- A request of a session, or a pass of `mark_expired`, with what the environment supplies. -/
inductive Turn where
  | request (session : Session) (env : Envelope) (inputs : ℕ → Input)
  | pass (inputs : ℕ → Input)

/-- What the environment supplies to a turn. -/
def Turn.inputs : Turn → ℕ → Input
  | request _ _ inputs => inputs
  | pass inputs => inputs

def Turn.isRequest : Turn → Bool
  | request _ _ _ => true
  | pass _ => false

/-- `mark_expired`, with the clock's own time. -/
def markExpired : ServerM ℕ := do
  let now ← act .time
  act (Op.markExpired now)

variable (P ca)

/-- The store after a pass. -/
def passed (s : ServerState) (inputs : ℕ → Input) : ServerState :=
  ((Solo.start s inputs).run (exec P) markExpired.run).store

/-- For each request its type and the messages it was answered with. -/
def answers (s : ServerState) : List Turn → List (MessageType × List (MessageType × Obj))
  | [] => []
  | .request session env inputs :: turns =>
      (env.type, sent (serve P ca session env s inputs).hist) ::
        answers (serve P ca session env s inputs).store turns
  | .pass inputs :: turns => answers (passed P s inputs) turns

/-- The clock does not go back from one turn to a later one. -/
def ClockAscends (turns : List Turn) : Prop :=
  turns.Pairwise fun earlier later => ∀ m n, (earlier.inputs m).now ≤ (later.inputs n).now

variable {P ca}

/-- A pass changes the statuses of rows past their deadline at most. -/
theorem sameButExpired_passed {inputs : ℕ → Input} (hund : Undisturbed inputs) :
    SameButExpired (inputs 0).now s (passed P s inputs) := by
  have hrun : wpE (.solo (exec P)) markExpired (Solo.start s inputs) fun t _ =>
      SameButExpired (inputs 0).now s t.store := by
    have hbind : bindInt (inputs 0).now = .ok () := bindInt_eq_ok.mpr (hund 0).now
    have hmark : s.markExpired (inputs 0).now =
        .ok (s.setStatus (ServerState.expiredBy (inputs 0).now) .expired) := by
      rw [ServerState.markExpired, hbind]
      rfl
    have hi : (((Solo.start s inputs).next (exec P) .time).inputs 0).Healthy := hund 1
    obtain ⟨-, hstore⟩ := @done_of_fault_none P _ (.markExpired (inputs 0).now) _ _ _ hi.fault rfl hmark
    rw [markExpired, wpE_solo_act_bind answer_time, wpE_solo_act]
    show SameButExpired _ s (Solo.store _)
    rw [show (Solo.start s inputs).inputs 0 = inputs 0 from rfl, hstore]
    refine sameButExpired_setStatus fun row _ hp => ?_
    have hexp : row.status = .pending ∧ row.expiration < (inputs 0).now := of_decide_eq_true hp
    exact hexp.2.le
  exact wp_solo_iff.mp hrun

/-- Passes in between, at a server whose store is alike: by induction on the turns. -/
theorem answers_of_sameButExpired {turns : List Turn} (h : SameButExpired now s s')
    (hnow : ∀ turn ∈ turns, ∀ n, now ≤ (turn.inputs n).now)
    (hund : ∀ turn ∈ turns, Undisturbed turn.inputs) (hclock : ClockAscends turns) :
    (answers P ca s turns).filter (fun answer => answer.1 ≠ .REVOKE_REQUEST) =
      (answers P ca s' (turns.filter Turn.isRequest)).filter
        fun answer => answer.1 ≠ .REVOKE_REQUEST := by
  induction turns generalizing now s s' with
  | nil => rfl
  | cons turn turns ih =>
    obtain ⟨hundTurn, hundTurns⟩ := List.forall_mem_cons.mp hund
    obtain ⟨hnowTurn, hnowTurns⟩ := List.forall_mem_cons.mp hnow
    obtain ⟨hlater, hclockTurns⟩ := List.pairwise_cons.mp hclock
    cases turn with
    | pass inputs =>
      have hle : now ≤ (inputs 0).now := hnowTurn 0
      have hpassed := ((sameButExpired_passed (P := P) hundTurn).symm.trans (h.mono hle))
      exact ih hpassed (fun turn hturn => hlater turn hturn 0) hundTurns hclockTurns
    | request session env inputs =>
      have hcome : ComesAt now (Solo.start s inputs) := ⟨hundTurn, hnowTurn⟩
      have halike : (Solo.start s inputs : Alone).Alike sentBy (SameButExpired now)
          (Solo.start s' inputs) := ⟨rfl, h, rfl⟩
      obtain ⟨⟨n, hkept⟩, hsame⟩ :=
        wpPair_iff.mp (@pair_dispatch P ca session env now _ _ hcome halike)
      have hrest := ih hkept (fun turn hturn => hlater turn hturn n) hundTurns hclockTurns
      rw [answers, List.filter_cons_of_pos (l := turns) rfl, answers, List.filter_cons,
        List.filter_cons]
      by_cases htype : env.type = .REVOKE_REQUEST
      · rw [if_neg (by simpa using htype), if_neg (by simpa using htype)]
        exact hrest
      · rw [if_pos (by simpa using htype), if_pos (by simpa using htype)]
        exact congrArg₂ List.cons (congrArg (Prod.mk env.type) (hsame htype)) hrest

/-- **Expiry does not depend on when the cleanup runs.** -/
theorem answers_without_passes {turns : List Turn} (s : ServerState)
    (hund : ∀ turn ∈ turns, Undisturbed turn.inputs) (hclock : ClockAscends turns) :
    (answers P ca s turns).filter (fun answer => answer.1 ≠ .REVOKE_REQUEST) =
      (answers P ca s (turns.filter Turn.isRequest)).filter
        fun answer => answer.1 ≠ .REVOKE_REQUEST :=
  answers_of_sameButExpired (.refl (-2 ^ 63) s)
    (fun turn hturn n => (hund turn hturn n).now.1) hund hclock

/-- `bob` asks for his file, a pass follows after its deadline, and he asks once more. -/
def sampleTurns : List Turn :=
  [.request bob (.numbered 1 .DOWNLOAD_REQUEST 100 [(py "file_id", .str sampleId)])
      fun _ => sampleInput 100,
    .pass fun _ => sampleInput 5000,
    .request bob (.numbered 2 .DOWNLOAD_REQUEST 5000 [(py "file_id", .str sampleId)])
      fun _ => sampleInput 5000]

/-- Both times `bob` is answered as he would be without the pass. -/
theorem answers_sampleTurns :
    (answers samplePrimitives [1] sampleStore sampleTurns).filter
        (fun answer => answer.1 ≠ .REVOKE_REQUEST) =
      (answers samplePrimitives [1] sampleStore (sampleTurns.filter Turn.isRequest)).filter
        fun answer => answer.1 ≠ .REVOKE_REQUEST := by
  have h100 : Undisturbed fun _ => sampleInput 100 := undisturbed_sampleInput (by decide)
  have h5000 : Undisturbed fun _ => sampleInput 5000 := undisturbed_sampleInput (by decide)
  refine answers_without_passes sampleStore ?_ ?_
  · rw [sampleTurns, List.forall_mem_cons, List.forall_mem_cons, List.forall_mem_singleton]
    exact ⟨h100, h5000, h5000⟩
  · have hle : (100 : ℤ) ≤ 5000 := by decide
    refine .cons ?_ (.cons ?_ (List.pairwise_singleton _ _))
    · rw [List.forall_mem_cons, List.forall_mem_singleton]
      exact ⟨fun _ _ => hle, fun _ _ => hle⟩
    · rw [List.forall_mem_singleton]
      exact fun _ _ => le_rfl

end Server
end ZeroTrust
