import ZeroTrust.Server.Access
import ZeroTrust.Server.Footprint
import ZeroTrust.Server.Undisturbed

/-!
# What a user learns about the files of others

Two stores that agree on everything of one user are served that user's requests.  As long as
none of them asks about a file that only one of the stores has, the answers are the same; one
that does is answered `NOT_FOUND` by the one and refused by the other.

* `SameFor`: two stores agree on everything of a user.
* `blind_sameFor`: which operations cannot tell such stores apart.
* `Probes`: the request asks about a file that only one of the stores has.
* `stayAlike_dispatch`, `wp_dispatch_of_stranger`: one request.
* `replies_eq_iff`: the replies to sequences of requests.
-/

namespace ZeroTrust
namespace Server

open Python Effects Data

variable {P : Primitives} {ca : Bytes} {session : Session} {env : Envelope} {u : PyStr}
  {ids : List PyStr} {s s' s'' : ServerState}

/-! ## Two stores that agree on everything of a user -/

/-- The user is the sender or the recipient. -/
def Concerns (u : PyStr) (row : FileRow) : Bool := row.senderId = u ∨ row.recipientId = u

/-- The rows of a user's files. -/
def rowsOf (u : PyStr) (s : ServerState) : List FileRow := s.files.rows.filter (Concerns u)

/-- The ids of a user's files. -/
def idsOf (u : PyStr) (s : ServerState) : List PyStr := (rowsOf u s).map FileRow.fileId

/-- Two stores that agree on the directory, the nonces, and the rows, acknowledgements and
blobs of a user's files. -/
structure SameFor (u : PyStr) (s s' : ServerState) : Prop where
  files : rowsOf u s = rowsOf u s'
  nonces : s.nonces = s'.nonces
  acks : ∀ f ∈ idsOf u s, s.acks.find? f = s'.acks.find? f
  blobs : ∀ f ∈ idsOf u s, s.disk (fileBlobPathFor f) = s'.disk (fileBlobPathFor f)
  pubkeys : ∀ name, s.disk ⟨.pubkeys, name⟩ = s'.disk ⟨.pubkeys, name⟩

/-- And the files of the user are these. -/
structure SameForOn (u : PyStr) (ids : List PyStr) (s s' : ServerState) : Prop where
  same : SameFor u s s'
  ids : idsOf u s = ids

theorem recipient_ne_of_not_concerns {row : FileRow} (h : Concerns u row = false) :
    row.recipientId ≠ u := fun hrec => of_decide_eq_false h (.inr hrec)

theorem sender_ne_of_not_concerns {row : FileRow} (h : Concerns u row = false) :
    row.senderId ≠ u := fun hsender => of_decide_eq_false h (.inl hsender)

theorem rowsOf_setStatus {p : FileRow → Bool} {st : Status} :
    rowsOf u (s.setStatus p st) =
      (rowsOf u s).map fun row => if p row then row.withStatus st else row := by
  have hconcerns : (Concerns u ∘ fun row : FileRow => if p row then row.withStatus st else row) =
      Concerns u := by
    funext row
    show Concerns u (if p row then _ else _) = _
    split_ifs <;> rfl
  show (s.files.rows.map _).filter _ = _
  rw [List.filter_map, hconcerns]
  rfl

theorem idsOf_setStatus {p : FileRow → Bool} {st : Status} :
    idsOf u (s.setStatus p st) = idsOf u s := by
  rw [idsOf, rowsOf_setStatus, List.map_map]
  refine List.map_congr_left fun row _ => ?_
  show FileRow.fileId (if p row then _ else _) = _
  split_ifs <;> rfl

/-- A user's file has one row, and it concerns the user. -/
theorem mem_idsOf {f : PyStr} :
    f ∈ idsOf u s ↔ ∃ row, s.files.find? f = some row ∧ Concerns u row = true := by
  rw [idsOf, List.mem_map]
  constructor
  · rintro ⟨row, hrow, rfl⟩
    obtain ⟨hmem, hconcerns⟩ := List.mem_filter.mp hrow
    exact ⟨row, Table.find?_eq_some_iff.mpr ⟨hmem, rfl⟩, hconcerns⟩
  · rintro ⟨row, hrow, hconcerns⟩
    obtain ⟨hmem, hkey⟩ := Table.find?_eq_some_iff.mp hrow
    exact ⟨row, List.mem_filter.mpr ⟨hmem, hconcerns⟩, hkey⟩

/-- A row of the user's is the same in both stores. -/
theorem SameFor.find? (h : SameFor u s s') {f : PyStr} {row : FileRow}
    (hrow : s.files.find? f = some row) (hconcerns : Concerns u row = true) :
    s'.files.find? f = some row := by
  obtain ⟨hmem, rfl⟩ := Table.find?_eq_some_iff.mp hrow
  have hmem' : row ∈ rowsOf u s' := h.files ▸ List.mem_filter.mpr ⟨hmem, hconcerns⟩
  exact Table.find?_eq_some_iff.mpr ⟨(List.mem_filter.mp hmem').1, rfl⟩

theorem SameFor.idsOf_eq (h : SameFor u s s') : idsOf u s' = idsOf u s := by
  rw [idsOf, idsOf, h.files]

theorem SameFor.symm (h : SameFor u s s') : SameFor u s' s where
  files := h.files.symm
  nonces := h.nonces.symm
  acks f hf := (h.acks f (h.idsOf_eq ▸ hf)).symm
  blobs f hf := (h.blobs f (h.idsOf_eq ▸ hf)).symm
  pubkeys name := (h.pubkeys name).symm

/-! ## Single operations -/

/-- A status written over the row of a key in both stores. -/
theorem SameFor.setStatus (h : SameFor u s s') (key : Option PyStr) (st : Status) :
    SameFor u (s.setStatus (fun row => some row.fileId = key) st)
      (s'.setStatus (fun row => some row.fileId = key) st) where
  files := by rw [rowsOf_setStatus, rowsOf_setStatus, h.files]
  nonces := h.nonces
  acks f hf := h.acks f (idsOf_setStatus ▸ hf)
  blobs f hf := h.blobs f (idsOf_setStatus ▸ hf)
  pubkeys := h.pubkeys

/-- A listing shows rows of the user's only. -/
theorem SameFor.listPending (h : SameFor u s s') (now : ℤ) :
    s.listPending u now = s'.listPending u now := by
  have hrows : ∀ s : ServerState, s.files.rows.filter (fun row => row.recipientId = u ∧
        row.status = .pending ∧ now < row.expiration) =
      (rowsOf u s).filter fun row => row.recipientId = u ∧ row.status = .pending ∧
        now < row.expiration := by
    intro s
    rw [rowsOf, List.filter_filter]
    refine List.filter_congr fun row _ => ?_
    by_cases hu : row.recipientId = u <;> simp [Concerns, hu]
  unfold ServerState.listPending
  rw [hrows s, hrows s', h.files]

/-- A path that a user's requests may read. -/
def Readable (ids : List PyStr) (path : Path) : Prop :=
  path.dir = .pubkeys ∨ ∃ f ∈ ids, path = fileBlobPathFor f

theorem SameForOn.disk {path : Path} (h : SameForOn u ids s s') (hpath : Readable ids path) :
    s.disk path = s'.disk path := by
  rcases hpath with hdir | ⟨f, hf, rfl⟩
  · obtain ⟨dir, name⟩ := path
    obtain rfl : dir = .pubkeys := hdir
    exact h.same.pubkeys name
  · exact h.same.blobs f (h.ids ▸ hf)

/-- The operations that concern a user's files only. -/
def Op.Concerns (u : PyStr) (ids : List PyStr) : Op → Prop
  | .time | .insertNonce _ _ | .markStatus _ _ | .mkdirFiles | .send _ _ => True
  | .listPending recipient _ => recipient = u
  | .insertAck row => row.fileId ∈ ids
  | .isFile path | .readBytes path | .statSize path => Readable ids path
  | _ => False

theorem SameForOn.insertNonce (h : SameForOn u ids s s') (row : NonceRow) :
    WritesAlike (SameForOn u ids) (s.insertNonce row) (s'.insertNonce row) := by
  refine writesAlike_bind _ fun _ _ => ?_
  rw [← h.same.nonces]
  cases s.nonces.insert? row with
  | none => exact (rfl : PyExn.integrityError = _)
  | some nonces => exact ⟨⟨h.same.files, rfl, h.same.acks, h.same.blobs, h.same.pubkeys⟩, h.ids⟩

theorem SameForOn.markStatus (h : SameForOn u ids s s') (k : Json) (st : Status) :
    WritesAlike (SameForOn u ids) (s.markStatus P k st) (s'.markStatus P k st) := by
  cases st with
  | other text => exact (rfl : PyExn.valueError = _)
  | _ =>
    refine writesAlike_bind (bindKey P k) fun key _ => ?_
    exact ⟨h.same.setStatus key _, idsOf_setStatus.trans h.ids⟩

/-- An acknowledgement of a user's file is new to both stores or to neither. -/
theorem SameForOn.insertAck (h : SameForOn u ids s s') {row : AckRow} (hrow : row.fileId ∈ ids) :
    WritesAlike (SameForOn u ids) (s.insertAck row) (s'.insertAck row) := by
  refine writesAlike_bind _ fun _ _ => writesAlike_bind _ fun _ _ => ?_
  have hfind := h.same.acks row.fileId (h.ids ▸ hrow)
  cases hins : s.acks.insert? row with
  | none =>
    have hnone : s'.acks.insert? row = none :=
      Table.insert?_eq_none_iff.mpr (hfind ▸ Table.insert?_eq_none_iff.mp hins)
    rw [hnone]
    exact (rfl : PyExn.integrityError = _)
  | some acks =>
    cases hins' : s'.acks.insert? row with
    | none =>
      have hnone := Table.insert?_eq_none_iff.mpr (hfind ▸ Table.insert?_eq_none_iff.mp hins')
      rw [hins] at hnone
      exact nomatch hnone
    | some acks' =>
      refine ⟨⟨h.same.files, h.same.nonces, fun f hf => ?_, h.same.blobs, h.same.pubkeys⟩, h.ids⟩
      show acks.find? f = acks'.find? f
      rw [Table.find?_insert? hins, Table.find?_insert? hins', h.same.acks f hf]

/-- **An operation that concerns a user's files only** cannot tell the two stores apart. -/
theorem blind_sameFor {op : Op} (hop : op.Concerns u ids) :
    Blind (exec P) (SameForOn u ids) op := by
  intro i s s' h
  have hread : ∀ path, Readable ids path → s.readBytes path = s'.readBytes path := by
    intro path hpath
    rw [ServerState.readBytes, ServerState.readBytes, h.disk hpath]
  cases op with
  | time => exact ⟨rfl, h⟩
  | insertNonce nonce seenAt => exact alike_writing (h.insertNonce ⟨nonce, seenAt⟩) h
  | listPending recipient now =>
    obtain rfl : recipient = u := hop
    exact alike_reading (h.same.listPending now) h
  | markStatus k st => exact alike_writing (h.markStatus k st) h
  | insertAck row => exact alike_writing (h.insertAck hop) h
  | isFile path => exact alike_reading (by rw [h.disk hop]) h
  | readBytes path => exact alike_reading (hread path hop) h
  | statSize path => exact alike_reading (by rw [hread path hop]) h
  | mkdirFiles => exact alike_reading rfl h
  | send type payload => exact blind_send i s s' h
  | _ => exact hop.elim

/-! ## One request at two servers -/

/-- The id that a request looks a file up by, where it comes to that. -/
def askedId (env : Envelope) : Option Json :=
  match env.type with
  | .DOWNLOAD_REQUEST => dictGet env.payload "file_id"
  | .DOWNLOAD_ACK | .REVOKE_REQUEST =>
      (parseSignedRequest env.payload).toOption.map fun req => .str req.fileId
  | _ => none

/-- The request is let through and asks about a file that only one of the stores has. -/
def Probes (P : Primitives) (env : Envelope) (now : ℤ) (s s' : ServerState) : Prop :=
  PassesGate env now s ∧ ∃ k f, askedId env = some k ∧ bindKey P k = .ok (some f) ∧
    (s.files.find? f).isSome ≠ (s'.files.find? f).isSome

section

variable {t v : Alone} {k : Json}

/-- The same messages have reached both clients, and the stores still agree. -/
def StayAlike (u : PyStr) (ids : List PyStr) (t : Alone) (_ : Except PyExn Unit) (v : Alone)
    (_ : Except PyExn Unit) : Prop :=
  sent t.hist = sent v.hist ∧ SameForOn u ids t.store v.store

theorem stayAlike_of_alike {r r' : Except PyExn Unit} (htv : t.Alike sentBy (SameForOn u ids) v) :
    StayAlike u ids t r v r' :=
  ⟨congrArg List.reverse htv.hist, htv.store⟩

theorem stayAlike_of_issues {x : ServerM Unit}
    (hx : Issues (Blind (exec P) (SameForOn u ids)) x)
    (htv : t.Alike sentBy (SameForOn u ids) v) : wpPair (exec P) x x t v (StayAlike u ids) :=
  wpPair_mono (hx.pair htv) fun _ _ _ _ h => stayAlike_of_alike h.1

theorem stayAlike_sendError {code : String} (htv : t.Alike sentBy (SameForOn u ids) v) :
    wpPair (exec P) (sendError code) (sendError code) t v (StayAlike u ids) :=
  stayAlike_of_issues (issues_sendError blind_send) htv

/-- The gate leaves the rows alone, and where it refuses the request, both servers do. -/
theorem stayAlike_replayGate {body : ServerM Unit} (hund : Undisturbed t.inputs)
    (htv : t.Alike sentBy (SameForOn u ids) v)
    (hbody : PassesGate env (t.inputs 0).now t.store → ∀ t' v',
      t'.Alike sentBy (SameForOn u ids) v' → Undisturbed t'.inputs →
      t'.store.files = t.store.files → v'.store.files = v.store.files →
      wpPair (exec P) body body t' v' (StayAlike u ids)) :
    wpPair (exec P) (replayGate env body) (replayGate env body) t v (StayAlike u ids) := by
  by_cases hpass : PassesGate env (t.inputs 0).now t.store
  · have hinsert : ∀ nonce now, Blind (exec P)
        (fun s s' => SameForOn u ids s s' ∧ s.files = t.store.files ∧ s'.files = v.store.files)
        (.insertNonce nonce now) := by
      rintro nonce now i s s' ⟨hs, hfiles, hfiles'⟩
      have hkeep : ∀ s : ServerState, (exec P (.insertNonce nonce now) i s).2.files = s.files := by
        intro s
        rcases writing_cases (Prod.mk.eta.symm : exec P (.insertNonce nonce now) i s = _) with
          ⟨hsame, -⟩ | ⟨hw, -⟩
        · rw [hsame]
        · obtain ⟨-, -, hw⟩ := bind_eq_ok.mp hw
          split at hw
          · rw [← pure_eq_ok.mp hw]
          · exact nomatch hw
      have hblind : Blind (exec P) (SameForOn u ids) (.insertNonce nonce now) :=
        blind_sameFor trivial
      obtain ⟨hanswer, hstore⟩ := hblind i s s' hs
      exact ⟨hanswer, hstore, (hkeep s).trans hfiles, (hkeep s').trans hfiles'⟩
    have halike : t.Alike sentBy (fun s s' => SameForOn u ids s s' ∧ s.files = t.store.files ∧
        s'.files = v.store.files) v := ⟨htv.hist, ⟨htv.store, rfl, rfl⟩, htv.inputs⟩
    refine pair_replayGate hinsert halike (fun t' v' htv' hlater => ?_) fun r t' v' htv' _ =>
        stayAlike_of_alike ⟨htv'.hist, htv'.store.1, htv'.inputs⟩
    exact hbody hpass t' v' ⟨htv'.hist, htv'.store.1, htv'.inputs⟩ (hlater.forall hund)
      htv'.store.2.1 htv'.store.2.2
  · have hpass' : ¬ PassesGate env (v.inputs 0).now v.store := by
      rw [← htv.inputs, PassesGate, ← htv.store.same.nonces]
      exact hpass
    have hund' : Undisturbed v.inputs := htv.inputs ▸ hund
    refine wp_replayGate hund (fun h => absurd h hpass) fun _ t' ht hsent => ?_
    refine wp_replayGate hund' (fun h => absurd h hpass') fun _ v' hv hsent' => ⟨?_, ?_⟩
    · rw [hsent, hsent', sent, sent, htv.hist]
    · rw [ht, hv]
      exact htv.store

/-- A look-up in two stores: no row in either, the same row of the user's, or two rows that do
not concern the user. -/
theorem stayAlike_getFile {f : Option FileRow → ServerM Unit} (hund : Undisturbed t.inputs)
    (htv : t.Alike sentBy (SameForOn u ids) v)
    (hkeys : ∀ key, bindKey P k = .ok (some key) →
      (t.store.files.find? key).isSome = (v.store.files.find? key).isSome)
    (hnone : ∀ t' v', t'.Alike sentBy (SameForOn u ids) v' →
      wpPair (exec P) (f none) (f none) t' v' (StayAlike u ids))
    (hmine : ∀ row t' v', t'.Alike sentBy (SameForOn u ids) v' →
      bindKey P k = .ok (some row.fileId) → row.fileId ∈ ids →
      wpPair (exec P) (f (some row)) (f (some row)) t' v' (StayAlike u ids))
    (hforeign : ∀ row row' t' v', t'.Alike sentBy (SameForOn u ids) v' → Concerns u row = false →
      Concerns u row' = false →
      wpPair (exec P) (f (some row)) (f (some row')) t' v' (StayAlike u ids)) :
    wpPair (exec P) (act (Op.getFile k) >>= f) (act (Op.getFile k) >>= f) t v
      (StayAlike u ids) := by
  have hi : (t.inputs 0).Healthy := hund 0
  have hi' : (v.inputs 0).Healthy := htv.inputs ▸ hi
  have hanswer := answer_getFile (P := P) (k := k) hi.fault
  have hanswer' := answer_getFile (P := P) (k := k) hi'.fault
  have hnext : (t.next (exec P) (.getFile k)).Alike sentBy (SameForOn u ids)
      (v.next (exec P) (.getFile k)) := alike_next rfl rfl htv
  rw [ServerState.getFile] at hanswer hanswer'
  cases hkey : bindKey P k with
  | error e =>
    rw [hkey] at hanswer hanswer'
    rw [wpPair_act_bind_error hanswer hanswer']
    exact stayAlike_of_alike hnext
  | ok key =>
    rw [hkey] at hanswer hanswer'
    rw [wpPair_act_bind hanswer hanswer']
    cases key with
    | none => exact hnone _ _ hnext
    | some key =>
      have hsame := hkeys key hkey
      rw [Option.bind_some, Option.bind_some]
      cases hrow : t.store.files.find? key with
      | none =>
        rw [hrow] at hsame
        have hnone' := Option.isNone_iff_eq_none.mp (Option.isSome_eq_false_iff.mp hsame.symm)
        rw [hnone']
        exact hnone _ _ hnext
      | some row =>
        cases hconcerns : Concerns u row with
        | true =>
          obtain rfl := Table.key_of_find? hrow
          rw [htv.store.same.find? hrow hconcerns]
          refine hmine row _ _ hnext hkey ?_
          rw [← htv.store.ids]
          exact mem_idsOf.mpr ⟨row, hrow, hconcerns⟩
        | false =>
          rw [hrow] at hsame
          obtain ⟨row', hrow'⟩ := Option.isSome_iff_exists.mp hsame.symm
          rw [hrow']
          refine hforeign row row' _ _ hnext hconcerns ?_
          refine Bool.eq_false_iff.mpr fun hconcerns' => ?_
          obtain rfl := Option.some.inj (hrow.symm.trans
            (htv.store.same.symm.find? hrow' hconcerns'))
          rw [hconcerns] at hconcerns'
          exact Bool.false_ne_true hconcerns'

theorem stayAlike_handleGetPubkey (htv : t.Alike sentBy (SameForOn u ids) v) :
    wpPair (exec P) (handleGetPubkey P ca env) (handleGetPubkey P ca env) t v
      (StayAlike u ids) := by
  have hpubkeys : ∀ name, Readable ids ⟨.pubkeys, name⟩ := fun _ => .inl rfl
  refine stayAlike_of_issues ((issues_loadVerifiedPubkeyCert blind_time
    (fun name => blind_sameFor (hpubkeys name)) fun name => blind_sameFor (hpubkeys name)).bind
    fun found => ?_) htv
  cases found with
  | none => exact issues_sendError blind_send
  | some cert => exact issues_sendMessage blind_send

/-- A listing shows the user's own files, and looks at their blobs. -/
theorem stayAlike_handleListPending (hund : Undisturbed t.inputs)
    (htv : t.Alike sentBy (SameForOn session.peerSubject ids) v) :
    wpPair (exec P) (handleListPending session) (handleListPending session) t v
      (StayAlike session.peerSubject ids) := by
  have hanswer : t.answer (exec P) .time = .ok (t.inputs 0).now := answer_time
  have hanswer' : v.answer (exec P) .time = .ok (t.inputs 0).now := by
    rw [htv.inputs]
    exact answer_time
  have htv₁ : (t.next (exec P) .time).Alike sentBy (SameForOn session.peerSubject ids)
      (v.next (exec P) .time) := htv.next blind_time
  have hlist : Blind (exec P) (SameForOn session.peerSubject ids)
      (.listPending session.peerSubject (t.inputs 0).now) := blind_sameFor rfl
  have hrows : (t.next (exec P) .time).answer (exec P)
      (.listPending session.peerSubject (t.inputs 0).now) =
      t.store.listPending session.peerSubject (t.inputs 0).now := by
    have hi : ((t.next (exec P) .time).inputs 0).Healthy := hund 1
    show (reading _ _ _).1 = _
    rw [reading_of_fault_none hi.fault]
    rfl
  have hrows' := (htv₁.answer hlist).symm.trans hrows
  rw [handleListPending, listPendingFor, bind_assoc, wpPair_act_bind hanswer hanswer']
  cases hl : t.store.listPending session.peerSubject (t.inputs 0).now with
  | error e =>
    rw [hl] at hrows hrows'
    rw [wpPair_act_bind_error hrows hrows']
    exact stayAlike_of_alike (htv₁.next hlist)
  | ok rows =>
    rw [hl] at hrows hrows'
    rw [wpPair_act_bind hrows hrows']
    refine stayAlike_of_issues (Issues.bind (issues_pendingEntries fun row hrow => ?_)
      fun files => issues_sendMessage blind_send) (htv₁.next hlist)
    refine blind_sameFor (.inr ⟨row.fileId, ?_, rfl⟩)
    obtain ⟨-, -, hl⟩ := bind_eq_ok.mp hl
    obtain ⟨-, -, hl⟩ := bind_eq_ok.mp hl
    obtain rfl := pure_eq_ok.mp hl
    obtain ⟨hmem, hp⟩ := List.mem_filter.mp hrow
    have hrec : row.recipientId = session.peerSubject := (of_decide_eq_true hp).1
    rw [← htv.store.ids]
    exact List.mem_map_of_mem (List.mem_filter.mpr ⟨hmem, decide_eq_true (.inr hrec)⟩)

/-- The rows that are read from the user's own file lead to the same replies. -/
theorem issues_verifyCertificate_sameFor {cert : Json} {subject : Option PyStr} :
    Issues (Blind (exec P) (SameForOn u ids))
      (verifyCertificate P (act Op.time : ServerM ℤ) cert ca subject) :=
  issues_verifyCertificate (blind_sameFor trivial)

theorem stayAlike_handleDownloadRequest (hund : Undisturbed t.inputs)
    (htv : t.Alike sentBy (SameForOn session.peerSubject ids) v)
    (hcanon : ∀ f ∈ ids, isCanonicalUuid f = true) (htype : env.type = .DOWNLOAD_REQUEST)
    (hno : ¬ Probes P env (t.inputs 0).now t.store v.store) :
    wpPair (exec P) (handleDownloadRequest P session env) (handleDownloadRequest P session env)
      t v (StayAlike session.peerSubject ids) := by
  refine stayAlike_replayGate hund htv fun hpass t₁ v₁ htv₁ hund₁ hfiles hfiles' => ?_
  cases hid : dictGet env.payload "file_id" with
  | none => exact stayAlike_sendError htv₁
  | some k =>
    dsimp only
    rw [authoriseDownload, bind_assoc]
    refine stayAlike_getFile hund₁ htv₁ (fun key hkey => ?_) ?_ ?_ ?_
    · rw [hfiles, hfiles']
      by_contra hne
      exact hno ⟨hpass, k, key, by rw [askedId, htype]; exact hid, hkey, hne⟩
    · exact fun t' v' htv' => stayAlike_sendError htv'
    · intro row t' v' htv' hkey hmem
      obtain rfl := eq_str_of_bindKey hkey (hcanon _ hmem)
      have hpath : Readable ids (fileBlobPathFor row.fileId) := .inr ⟨_, hmem, rfl⟩
      refine stayAlike_of_issues (Issues.bind ?_ fun verdict => ?_) htv'
      · dsimp only
        by_cases hrec : row.recipientId = session.peerSubject
        · rw [if_neg (not_not.mpr hrec)]
          refine (issues_act blind_time).bind fun now => ?_
          have hmark : Issues (Blind (exec P) (SameForOn session.peerSubject ids))
              (act (Op.markStatus (.str row.fileId) .expired) : ServerM Unit) :=
            issues_act (blind_sameFor trivial)
          by_cases hexp : row.expiration ≤ now
          · rw [if_pos hexp]
            split_ifs
            · exact hmark.bind fun _ => issues_pure _
            · exact issues_pure _
          · rw [if_neg hexp]
            cases row.status <;> exact issues_pure _
        · rw [if_pos hrec]
          exact issues_pure _
      · cases verdict with
        | error code => exact issues_sendError blind_send
        | ok row' =>
          exact issues_serveDownload (blind_sameFor hpath) (blind_sameFor hpath)
            fun _ _ => blind_send
    · intro row row' t' v' htv' hforeign hforeign'
      dsimp only
      rw [if_pos (recipient_ne_of_not_concerns hforeign),
        if_pos (recipient_ne_of_not_concerns hforeign')]
      exact stayAlike_sendError htv'

theorem stayAlike_handleDownloadAck (hund : Undisturbed t.inputs)
    (htv : t.Alike sentBy (SameForOn session.peerSubject ids) v)
    (htype : env.type = .DOWNLOAD_ACK)
    (hno : ¬ Probes P env (t.inputs 0).now t.store v.store) :
    wpPair (exec P) (handleDownloadAck P ca session env) (handleDownloadAck P ca session env)
      t v (StayAlike session.peerSubject ids) := by
  refine stayAlike_replayGate hund htv fun hpass t₁ v₁ htv₁ hund₁ hfiles hfiles' => ?_
  cases hparse : parseSignedRequest env.payload with
  | error e =>
    refine stayAlike_of_issues ?_ htv₁
    dsimp only
    split_ifs
    · exact issues_sendError blind_send
    · exact issues_throw _
  | ok req =>
    refine stayAlike_getFile hund₁ htv₁ (fun key hkey => ?_) ?_ ?_ ?_
    · rw [hfiles, hfiles']
      by_contra hne
      exact hno ⟨hpass, .str req.fileId, key, by rw [askedId, htype, hparse]; rfl, hkey, hne⟩
    · exact fun t' v' htv' => stayAlike_sendError htv'
    · intro row t' v' htv' hkey hmem
      obtain hid : row.fileId = req.fileId := Option.some.inj (bindKey_str hkey)
      refine stayAlike_of_issues ?_ htv'
      dsimp only
      split_ifs
      · exact issues_sendError blind_send
      · refine issues_verifyCertificate_sameFor.bind fun good => ?_
        cases good with
        | false => exact issues_sendError blind_send
        | true =>
          refine issues_acceptAck (fun ack hack => blind_sameFor ?_)
            (fun _ => blind_sameFor trivial) fun _ _ => blind_send
          show ack.fileId ∈ ids
          rw [hack, ← hid]
          exact hmem
    · intro row row' t' v' htv' hforeign hforeign'
      dsimp only
      rw [if_pos (recipient_ne_of_not_concerns hforeign),
        if_pos (recipient_ne_of_not_concerns hforeign')]
      exact stayAlike_sendError htv'

theorem stayAlike_handleRevokeRequest (hund : Undisturbed t.inputs)
    (htv : t.Alike sentBy (SameForOn session.peerSubject ids) v)
    (htype : env.type = .REVOKE_REQUEST)
    (hno : ¬ Probes P env (t.inputs 0).now t.store v.store) :
    wpPair (exec P) (handleRevokeRequest P ca session env) (handleRevokeRequest P ca session env)
      t v (StayAlike session.peerSubject ids) := by
  refine stayAlike_replayGate hund htv fun hpass t₁ v₁ htv₁ hund₁ hfiles hfiles' => ?_
  cases hparse : parseSignedRequest env.payload with
  | error e =>
    refine stayAlike_of_issues ?_ htv₁
    dsimp only
    split_ifs
    · exact issues_sendError blind_send
    · exact issues_throw _
  | ok req =>
    refine stayAlike_getFile hund₁ htv₁ (fun key hkey => ?_) ?_ ?_ ?_
    · rw [hfiles, hfiles']
      by_contra hne
      exact hno ⟨hpass, .str req.fileId, key, by rw [askedId, htype, hparse]; rfl, hkey, hne⟩
    · exact fun t' v' htv' => stayAlike_sendError htv'
    · intro row t' v' htv' _ _
      refine stayAlike_of_issues ?_ htv'
      dsimp only
      split_ifs
      · exact issues_sendError blind_send
      · refine issues_verifyCertificate_sameFor.bind fun good => ?_
        cases good with
        | false => exact issues_sendError blind_send
        | true => exact issues_acceptRevoke (fun _ => blind_sameFor trivial) fun _ _ => blind_send
    · intro row row' t' v' htv' hforeign hforeign'
      dsimp only
      rw [if_pos (sender_ne_of_not_concerns hforeign), if_pos (sender_ne_of_not_concerns hforeign')]
      exact stayAlike_sendError htv'

/-- **A request that is no probe** is answered alike, and the stores still agree. -/
theorem stayAlike_dispatch (hund : Undisturbed t.inputs)
    (htv : t.Alike sentBy (SameForOn session.peerSubject ids) v)
    (hcanon : ∀ f ∈ ids, isCanonicalUuid f = true) (htype : env.type ≠ .UPLOAD_REQUEST)
    (hno : ¬ Probes P env (t.inputs 0).now t.store v.store) :
    wpPair (exec P) (dispatch P ca session env) (dispatch P ca session env) t v
      (StayAlike session.peerSubject ids) := by
  unfold dispatch
  cases hcase : env.type with
  | GET_PUBKEY => exact stayAlike_handleGetPubkey htv
  | LIST_PENDING => exact stayAlike_handleListPending hund htv
  | UPLOAD_REQUEST => exact absurd hcase htype
  | DOWNLOAD_REQUEST => exact stayAlike_handleDownloadRequest hund htv hcanon hcase hno
  | DOWNLOAD_ACK => exact stayAlike_handleDownloadAck hund htv hcase hno
  | REVOKE_REQUEST => exact stayAlike_handleRevokeRequest hund htv hcase hno
  | _ => exact stayAlike_sendError htv

/-- What a user is told of a file that is not his. -/
def strangerCode (type : MessageType) : Option FileRow → String
  | none => "NOT_FOUND"
  | some _ => if type = .DOWNLOAD_REQUEST then "AUTH_FAILED" else "NOT_AUTHORIZED"

theorem length_strangerCode {type : MessageType} {row : Option FileRow} :
    (py (strangerCode type row)).length ≤ 1000 := by
  have hcodes : ∀ code ∈ ["NOT_FOUND", "AUTH_FAILED", "NOT_AUTHORIZED"],
      (py code).length ≤ 1000 := by decide
  refine hcodes _ ?_
  unfold strangerCode
  cases row with
  | none => simp
  | some row =>
    dsimp only
    split_ifs <;> simp

/-- **A request about a file that is not the user's** is answered by whether there is one. -/
theorem wp_dispatch_of_stranger {f : PyStr} (hund : Undisturbed t.inputs)
    (hpass : PassesGate env (t.inputs 0).now t.store) (hk : askedId env = some k)
    (hkey : bindKey P k = .ok (some f))
    (hrow : ∀ row, t.store.files.find? f = some row → Concerns session.peerSubject row = false) :
    wpE (.solo (exec P)) (dispatch P ca session env) t fun t' _ => sent t'.hist = sent t.hist ++
      [(.ERROR, errorPayload (strangerCode env.type (t.store.files.find? f)))] := by
  -- behind the gate the row is looked up, and what follows refuses it
  have hlookup : ∀ {t' : Alone} {g : Option FileRow → ServerM Unit}, Quietly t 2 t' →
      g (t.store.files.find? f) = sendError (strangerCode env.type (t.store.files.find? f)) →
      wpE (.solo (exec P)) (act (Op.getFile k) >>= g) t' fun t' _ => sent t'.hist = sent t.hist ++
        [(.ERROR, errorPayload (strangerCode env.type (t.store.files.find? f)))] := by
    intro t' g hq hg
    have hanswer : t'.answer (exec P) (.getFile k) = .ok (t.store.files.find? f) := by
      rw [answer_getFile (hq.undisturbed hund 0).fault, hq.getFile, ServerState.getFile, hkey]
      rfl
    have hnext := hq.trans (quietly_next P t' (.getFile k) rfl rfl)
    rw [wpE_solo_act_bind hanswer, hg]
    refine wp_sendError (hnext.undisturbed hund 0) length_strangerCode fun t'' _ hsent => ?_
    rw [hsent, hnext.sent]
  have hparsed : (parseSignedRequest env.payload).toOption.map (fun req => .str req.fileId) = some k →
      ∃ req, parseSignedRequest env.payload = .ok req ∧ k = .str req.fileId := by
    intro h
    obtain ⟨req, hreq, rfl⟩ := Option.map_eq_some_iff.mp h
    cases hparse : parseSignedRequest env.payload with
    | error e =>
      rw [hparse] at hreq
      cases hreq
    | ok req' =>
      rw [hparse] at hreq
      exact ⟨req', rfl, by rw [Option.some.inj hreq]⟩
  unfold dispatch
  cases htype : env.type with
  | DOWNLOAD_REQUEST =>
    rw [askedId, htype] at hk
    dsimp only at hk
    rw [htype] at hlookup
    refine wp_replayGate hund (fun _ t' hq => ?_) fun hnot => absurd hpass hnot
    rw [hk]
    dsimp only
    rw [authoriseDownload, bind_assoc]
    refine hlookup hq ?_
    cases hfind : t.store.files.find? f with
    | none => rfl
    | some row =>
      dsimp only
      rw [if_pos (recipient_ne_of_not_concerns (hrow row hfind))]
      rfl
  | DOWNLOAD_ACK =>
    rw [askedId, htype] at hk
    obtain ⟨req, hparse, rfl⟩ := hparsed hk
    rw [htype] at hlookup
    refine wp_replayGate hund (fun _ t' hq => ?_) fun hnot => absurd hpass hnot
    rw [hparse]
    refine hlookup hq ?_
    cases hfind : t.store.files.find? f with
    | none => rfl
    | some row =>
      dsimp only
      rw [if_pos (recipient_ne_of_not_concerns (hrow row hfind))]
      rfl
  | REVOKE_REQUEST =>
    rw [askedId, htype] at hk
    obtain ⟨req, hparse, rfl⟩ := hparsed hk
    rw [htype] at hlookup
    refine wp_replayGate hund (fun _ t' hq => ?_) fun hnot => absurd hpass hnot
    rw [hparse]
    refine hlookup hq ?_
    cases hfind : t.store.files.find? f with
    | none => rfl
    | some row =>
      dsimp only
      rw [if_pos (sender_ne_of_not_concerns (hrow row hfind))]
      rfl
  | _ =>
    rw [askedId, htype] at hk
    cases hk

end

/-! ## Sequences of requests -/

/-- A request, and what the environment supplies to its operations. -/
structure Ask where
  env : Envelope
  inputs : ℕ → Input

variable (P ca session)

/-- The store after a request. -/
def Ask.leaves (ask : Ask) (s : ServerState) : ServerState :=
  (serve P ca session ask.env s ask.inputs).store

/-- The messages that a request is answered with. -/
def Ask.replies (ask : Ask) (s : ServerState) : List (MessageType × Obj) :=
  sent (serve P ca session ask.env s ask.inputs).hist

/-- The replies to the requests of a session.  Where a handler raises, `serve_connection` closes the
connection; the session is resumed then, and its next request is served over a new connection. -/
def replies : ServerState → List Ask → List (List (MessageType × Obj))
  | _, [] => []
  | s, ask :: asks => ask.replies P ca session s :: replies (ask.leaves P ca session s) asks

/-- No request of a session asks, when its turn comes, about a file that only one of the two
stores has. -/
def ProbeFree : ServerState → ServerState → List Ask → Prop
  | _, _, [] => True
  | s, s', ask :: asks => ¬ Probes P ask.env (ask.inputs 0).now s s' ∧
      ProbeFree (ask.leaves P ca session s) (ask.leaves P ca session s') asks

variable {P ca session}

theorem replies_of_not_probes {ask : Ask} (h : SameFor session.peerSubject s s')
    (hcanon : ∀ f ∈ idsOf session.peerSubject s, isCanonicalUuid f = true)
    (hund : Undisturbed ask.inputs) (htype : ask.env.type ≠ .UPLOAD_REQUEST)
    (hno : ¬ Probes P ask.env (ask.inputs 0).now s s') :
    ask.replies P ca session s = ask.replies P ca session s' ∧
      SameForOn session.peerSubject (idsOf session.peerSubject s) (ask.leaves P ca session s)
        (ask.leaves P ca session s') := by
  have hstart : (Solo.start s ask.inputs : Alone).Alike sentBy
      (SameForOn session.peerSubject (idsOf session.peerSubject s))
      (Solo.start s' ask.inputs) := ⟨rfl, ⟨h, rfl⟩, rfl⟩
  exact wpPair_iff.mp (stayAlike_dispatch hund hstart hcanon htype hno)

/-- Nobody's file and somebody's are told apart. -/
theorem errorPayload_strangerCode_ne {type : MessageType} {row : FileRow} :
    errorPayload (strangerCode type none) ≠ errorPayload (strangerCode type (some row)) := by
  have hdownload : errorPayload "NOT_FOUND" ≠ errorPayload "AUTH_FAILED" := by decide
  have hother : errorPayload "NOT_FOUND" ≠ errorPayload "NOT_AUTHORIZED" := by decide
  unfold strangerCode
  dsimp only
  split_ifs
  · exact hdownload
  · exact hother

/-- A probe is answered `NOT_FOUND` by the one server and refused by the other. -/
theorem replies_of_probes {ask : Ask} (h : SameFor session.peerSubject s s')
    (hund : Undisturbed ask.inputs) (hprobe : Probes P ask.env (ask.inputs 0).now s s') :
    ask.replies P ca session s ≠ ask.replies P ca session s' := by
  obtain ⟨hpass, k, f, hk, hkey, hne⟩ := hprobe
  have hpass' : PassesGate ask.env (ask.inputs 0).now s' := by
    rw [PassesGate, ← h.nonces]
    exact hpass
  have hstranger : ∀ row, s.files.find? f = some row → Concerns session.peerSubject row = false := by
    refine fun row hrow => Bool.eq_false_iff.mpr fun hconcerns => hne ?_
    rw [hrow, h.find? hrow hconcerns]
  have hstranger' : ∀ row, s'.files.find? f = some row →
      Concerns session.peerSubject row = false := by
    refine fun row hrow => Bool.eq_false_iff.mpr fun hconcerns => hne ?_
    rw [hrow, h.symm.find? hrow hconcerns]
  have hreply : ask.replies P ca session s = _ := wp_solo_iff.mp
    (wp_dispatch_of_stranger (t := Solo.start s ask.inputs) hund hpass hk hkey hstranger)
  have hreply' : ask.replies P ca session s' = _ := wp_solo_iff.mp
    (wp_dispatch_of_stranger (t := Solo.start s' ask.inputs) hund hpass' hk hkey hstranger')
  rw [hreply, hreply']
  intro heq
  have hpayload : errorPayload (strangerCode ask.env.type (s.files.find? f)) =
      errorPayload (strangerCode ask.env.type (s'.files.find? f)) :=
    congrArg Prod.snd (List.cons.inj (List.append_cancel_left heq)).1
  cases hfind : s.files.find? f with
  | none =>
    cases hfind' : s'.files.find? f with
    | none => exact hne (by rw [hfind, hfind'])
    | some row' =>
      rw [hfind, hfind'] at hpayload
      exact errorPayload_strangerCode_ne hpayload
  | some row =>
    cases hfind' : s'.files.find? f with
    | none =>
      rw [hfind, hfind'] at hpayload
      exact errorPayload_strangerCode_ne hpayload.symm
    | some row' => exact hne (by rw [hfind, hfind']; rfl)

/-- **The replies to a user's requests are the same if and only if none of them is a probe.** -/
theorem replies_eq_iff {asks : List Ask} (h : SameFor session.peerSubject s s')
    (hcanon : CanonicalIds s) (hund : ∀ ask ∈ asks, Undisturbed ask.inputs)
    (htype : ∀ ask ∈ asks, ask.env.type ≠ .UPLOAD_REQUEST) :
    replies P ca session s asks = replies P ca session s' asks ↔
      ProbeFree P ca session s s' asks := by
  have hids : ∀ f ∈ idsOf session.peerSubject s, isCanonicalUuid f = true := by
    intro f hf
    obtain ⟨row, hrow, -⟩ := mem_idsOf.mp hf
    exact hcanon f row hrow
  clear hcanon
  induction asks generalizing s s' with
  | nil => exact iff_of_true rfl trivial
  | cons ask asks ih =>
    obtain ⟨hundAsk, hundAsks⟩ := List.forall_mem_cons.mp hund
    obtain ⟨htypeAsk, htypeAsks⟩ := List.forall_mem_cons.mp htype
    rw [replies, replies, List.cons.injEq, ProbeFree]
    by_cases hprobe : Probes P ask.env (ask.inputs 0).now s s'
    · exact iff_of_false (fun heq => replies_of_probes h hundAsk hprobe heq.1) fun hno => hno.1 hprobe
    · obtain ⟨hsame, hstay⟩ :=
        @replies_of_not_probes P ca session s s' ask h hids hundAsk htypeAsk hprobe
      have hrest := ih hstay.same hundAsks htypeAsks (by rw [hstay.ids]; exact hids)
      exact and_congr (iff_of_true hsame hprobe) hrest

/-! ### Sample requests -/

/-- `carol` asks about the sample file, which is sent by `alice` to `bob`. -/
def carol : Session := sampleSession "carol" "C"

/-- Once about that file, and once for a listing. -/
def carolAsks : List Ask :=
  [⟨.numbered 1 .DOWNLOAD_REQUEST 100 [(py "file_id", .str sampleId)], fun _ => sampleInput 100⟩,
    ⟨.numbered 2 .LIST_PENDING 100 [], fun _ => sampleInput 100⟩]

/-- The sample store without the file. -/
def sampleStoreEmpty : ServerState where
  files := .empty
  nonces := .empty
  acks := .empty
  disk _ := none

/-- The sample store with the file revoked. -/
def sampleStoreRevoked : ServerState := sampleStore.setStatus (fun _ => true) .revoked

theorem idsOf_carol_sampleStore : idsOf carol.peerSubject sampleStore = [] := by decide +kernel

theorem sameFor_carol_empty : SameFor carol.peerSubject sampleStore sampleStoreEmpty where
  files := by decide +kernel
  nonces := rfl
  acks _ _ := rfl
  blobs f hf := by
    rw [idsOf_carol_sampleStore] at hf
    exact nomatch hf
  pubkeys name := by
    have hne : (⟨.pubkeys, name⟩ : Path) ≠ fileBlobPathFor sampleId := fun h =>
      nomatch congrArg Path.dir h
    show (if (⟨.pubkeys, name⟩ : Path) = fileBlobPathFor sampleId then some [1] else none) = none
    exact if_neg hne

theorem sameFor_carol_revoked : SameFor carol.peerSubject sampleStore sampleStoreRevoked where
  files := by decide +kernel
  nonces := rfl
  acks _ _ := rfl
  blobs _ _ := rfl
  pubkeys _ := rfl

theorem undisturbed_carolAsks : ∀ ask ∈ carolAsks, Undisturbed ask.inputs := by
  have hund : Undisturbed fun _ => sampleInput 100 := undisturbed_sampleInput (by decide)
  rw [carolAsks, List.forall_mem_cons, List.forall_mem_singleton]
  exact ⟨hund, hund⟩

theorem carolAsks_type : ∀ ask ∈ carolAsks, ask.env.type ≠ .UPLOAD_REQUEST := by
  rw [carolAsks, List.forall_mem_cons, List.forall_mem_singleton]
  decide

/-- `carol` is told whether the file is there. -/
theorem replies_carol_ne :
    SameFor carol.peerSubject sampleStore sampleStoreEmpty ∧ CanonicalIds sampleStore ∧
      CanonicalIds sampleStoreEmpty ∧ (∀ ask ∈ carolAsks, Undisturbed ask.inputs) ∧
      (∀ ask ∈ carolAsks, ask.env.type ≠ .UPLOAD_REQUEST) ∧
      replies samplePrimitives [1] carol sampleStore carolAsks ≠
        replies samplePrimitives [1] carol sampleStoreEmpty carolAsks := by
  refine ⟨sameFor_carol_empty, canonicalIds_sampleStore, nofun, undisturbed_carolAsks,
    carolAsks_type, ?_⟩
  decide +kernel

/-- She is not told what has become of it. -/
theorem replies_carol_eq :
    replies samplePrimitives [1] carol sampleStore carolAsks =
      replies samplePrimitives [1] carol sampleStoreRevoked carolAsks := by
  refine (replies_eq_iff sameFor_carol_revoked canonicalIds_sampleStore undisturbed_carolAsks
    carolAsks_type).mpr ⟨?_, ?_, trivial⟩
  · rintro ⟨-, k, f, -, -, hne⟩
    refine hne ?_
    rw [sampleStoreRevoked, find?_setStatus, Option.isSome_map]
  · rintro ⟨-, k, f, hk, -⟩
    exact nomatch hk

end Server
end ZeroTrust
