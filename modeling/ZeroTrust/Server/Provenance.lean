import ZeroTrust.Server.ReplayCache

/-!
# Why a stored fact is there

Every row of `files` was inserted by one upload, and only its status changes afterwards.  A
terminal status was written by the operation that a signed request of the right user, or the
clock, gave rise to.  Each handler takes the user from the session, and verifies the peer's
certificate for that user before it writes.

* `UploadedBy`, `AcknowledgedBy`, `RevokedBy`: the items that stand behind a stored fact.
* `Justified`: all that stands behind one row.
* `stored_facts_justified`: every row of every reachable state is justified.
-/

namespace ZeroTrust
namespace Server

open Python Effects Data

variable {P : Primitives} {ca : Bytes} {s₀ s : ServerState} {t later earlier : List ServerItem}
  {js : List (Job Op Op.Res Label (Except PyExn Unit))} {x y : ServerItem}

/-- `x` inserts a row for `f`. -/
def Inserts (f : PyStr) (x : ServerItem) : Prop :=
  ∃ row, x.ev = ⟨.insertFile row, .ok ()⟩ ∧ row.fileId = f

/-- `x` is an operation of a request of a certain type in `session`, whose certificate has been
verified for the session's user. -/
structure ActsFor (P : Primitives) (ca : Bytes) (session : Session) (env : Envelope)
    (type : MessageType) (x : ServerItem) : Prop where
  label : x.label = .request session env
  type : env.type = type
  cert : ∃ now, ⟨.time, .ok now⟩ ∈ x.past ∧
    CertCheck P ca session.peerCert now (some session.peerSubject)

/-- The directory had a certificate for the user when the job of `x` looked. -/
def InDirectory (P : Primitives) (ca : Bytes) (t : List ServerItem) (x : ServerItem)
    (user : PyStr) : Prop :=
  validUsername (.str user) = true ∧ ∃ path data text cert, pubkeyPathFor (.str user) = some path ∧
    (∃ y ∈ t, y.job = x.job ∧ y.pre.disk path = some data) ∧ utf8Decode data = some text ∧
    P.jsonLoads text = .ok (.obj cert) ∧
    ∃ z ∈ t, z.job = x.job ∧ CertCheck P ca cert z.input.now (some user)

/-- `x` inserts `row`, as the last step of an upload of its sender. -/
structure UploadedBy (P : Primitives) (ca : Bytes) (t : List ServerItem) (x : ServerItem)
    (row : FileRow) : Prop where
  intro ::
  inserts : x.ev = ⟨.insertFile row, .ok ()⟩
  request : ∃ session env up aad, ActsFor P ca session env .UPLOAD_REQUEST x ∧
    row.senderId = session.peerSubject ∧ parseUpload env.payload = .ok up ∧
    verifyOriginStruct P session.peerCert up.signature (up.origin P session.peerSubject) =
      .ok true ∧ row = up.row P session aad
  recipient : InDirectory P ca t x row.recipientId
  aad : encodeText (row.fileId ++ py "|" ++ row.senderId ++ py "|" ++ row.recipientId) =
    .ok row.aesAad

/-- `x` is an operation of an acknowledgement of the file of `row` by its recipient. -/
def AcknowledgedBy (P : Primitives) (ca : Bytes) (row : FileRow) (x : ServerItem) : Prop :=
  ∃ session env req, ActsFor P ca session env .DOWNLOAD_ACK x ∧
    session.peerSubject = row.recipientId ∧ parseSignedRequest env.payload = .ok req ∧
    req.fileId = row.fileId ∧ verifyAck P session.peerCert req = .ok true

/-- `x` is an operation of a revocation of the file of `row` by its sender. -/
def RevokedBy (P : Primitives) (ca : Bytes) (row : FileRow) (x : ServerItem) : Prop :=
  ∃ session env req, ActsFor P ca session env .REVOKE_REQUEST x ∧
    session.peerSubject = row.senderId ∧ parseSignedRequest env.payload = .ok req ∧
    req.fileId = row.fileId ∧
    verifyRevokeStruct P session.peerCert req.signature row.senderId row.fileId req.timestamp =
      .ok true

/-- The file has the row, but perhaps for its status. -/
def HasRowButStatus (row : FileRow) (s : ServerState) : Prop :=
  ∃ st, s.files.find? row.fileId = some (row.withStatus st)

/-- All that stands behind a row of the state `s`. -/
structure Justified (P : Primitives) (ca : Bytes) (t : List ServerItem) (s : ServerState)
    (row : FileRow) : Prop where
  /-- One upload inserted it, as pending; only its status has changed since. -/
  uploaded : ∃ later x earlier, t = later ++ x :: earlier ∧
    UploadedBy P ca t x (row.withStatus .pending) ∧ (∀ y ∈ later, HasRowButStatus row y.post) ∧
    ∀ y ∈ later ++ earlier, ¬ Inserts row.fileId y
  downloaded : row.status = .downloaded →
    (∃ x ∈ t, AcknowledgedBy P ca row x) ∧ ∃ ack, s.acks.find? row.fileId = some ack
  revoked : row.status = .revoked → ∃ x ∈ t, RevokedBy P ca row x
  /-- An expired row is past the clock. -/
  expired : row.status = .expired →
    ∀ x earlier, t = x :: earlier → row.expiration ≤ x.input.now

/-! ## The columns of a row -/

@[simp] theorem FileRow.withStatus_withStatus (st st' : Status) (row : FileRow) :
    (row.withStatus st).withStatus st' = row.withStatus st' := rfl

theorem FileRow.withStatus_status_self (row : FileRow) : row.withStatus row.status = row := rfl

/-- No operation changes a row but for its status. -/
theorem hasRowButStatus_step (hr : Run P ca s₀ t js s) (hx : x ∈ t) {row : FileRow}
    (h : HasRowButStatus row x.pre) : HasRowButStatus row x.post := by
  obtain ⟨st, hrow⟩ := h
  rcases row_of_change (change_of_mem hr hx) row.fileId with heq | ⟨row', -, -, hnone, -⟩ |
    ⟨row', st', -, hpre, hpost⟩
  · exact ⟨st, heq.trans hrow⟩
  · have h := hnone.symm.trans hrow
    cases h
  · obtain rfl := Option.some.inj (hrow.symm.trans hpre)
    exact ⟨st', hpost⟩

/-- A row is not inserted where there is one. -/
theorem not_inserts_of_hasRow (hr : Run P ca s₀ t js s) (hx : x ∈ t) {f : PyStr} {row : FileRow}
    (hrow : x.pre.files.find? f = some row) : ¬ Inserts f x := by
  rintro ⟨row', hev, rfl⟩
  have hch := hev ▸ change_of_mem hr hx
  generalize x.post = post at hch
  cases hch with
  | read _ hop => exact absurd hop Bool.false_ne_true
  | insertFile hins =>
    have h := (Table.insert?_isNew hins).symm.trans hrow
    cases h

/-- An inserted row is there afterwards. -/
theorem hasRow_of_insertFile (hr : Run P ca s₀ t js s) (hx : x ∈ t) {row : FileRow}
    (hev : x.ev = ⟨.insertFile row, .ok ()⟩) : x.post.files.find? row.fileId = some row := by
  have hch := hev ▸ change_of_mem hr hx
  generalize x.post = post at hch
  cases hch with
  | read _ hop => exact absurd hop Bool.false_ne_true
  | insertFile hins => exact (Table.find?_insert? hins _).trans (if_pos rfl)

/-- **A row was inserted once**, and only its status has changed since. -/
theorem exists_insert (hr : Run P ca s₀ t js s) (hempty : s₀.files = .empty) {f : PyStr}
    {row : FileRow} (hrow : s.files.find? f = some row) :
    ∃ later x earlier, t = later ++ x :: earlier ∧
      x.ev = ⟨.insertFile (row.withStatus .pending), .ok ()⟩ ∧
      (∀ y ∈ later, HasRowButStatus row y.pre ∧ HasRowButStatus row y.post) ∧
      ∀ y ∈ later ++ earlier, ¬ Inserts f y := by
  obtain rfl := Table.key_of_find? hrow
  obtain ⟨later, x, earlier, ht, hpre, hpost⟩ :=
    @System.Run.exists_cause _ _ _ _ _ _ _ _ _ _ _
      (fun s => (s.files.find? row.fileId).isSome = true) hr (by rw [hempty]; exact nofun)
      (by rw [hrow]; rfl)
  have hx : x ∈ t := by simp [ht]
  rcases row_of_change (change_of_mem hr hx) row.fileId with heq | ⟨row₀, hev, hid, -, hrow₀⟩ |
    ⟨row', st', -, hsome, -⟩
  · exact absurd (heq ▸ hpost) hpre
  · have hstay : ∀ newer y between, later = newer ++ y :: between →
        HasRowButStatus row₀ y.pre := by
      rintro newer y between rfl
      have hty : t = newer ++ y :: (between ++ x :: earlier) := by simp [ht]
      exact hr.stable_pre hty (fun z hz => hasRowButStatus_step hr (by simp [ht, hz]))
        ⟨row₀.status, hid ▸ hrow₀⟩
    obtain ⟨st, hst⟩ : HasRowButStatus row₀ s :=
      hr.stable ht (fun z hz => hasRowButStatus_step hr (by simp [ht, hz]))
        ⟨row₀.status, hid ▸ hrow₀⟩
    rw [hid, hrow] at hst
    obtain rfl := Option.some.inj hst
    have hpending := (insertFile_of_mem hr hx hev).1
    refine ⟨later, x, earlier, ht, ?_, fun y hy => ?_, fun y hy => ?_⟩
    · rw [hev, FileRow.withStatus_withStatus, ← hpending, FileRow.withStatus_status_self]
    · obtain ⟨newer, between, rfl⟩ := List.append_of_mem hy
      have h := hstay newer y between rfl
      exact ⟨h, hasRowButStatus_step hr (by simp [ht]) h⟩
    · rcases List.mem_append.mp hy with hy | hy
      · obtain ⟨newer, between, rfl⟩ := List.append_of_mem hy
        obtain ⟨st', hst'⟩ := hstay newer y between rfl
        exact not_inserts_of_hasRow hr (by simp [ht]) (hid ▸ hst')
      · -- What an earlier insert put there would still be there before `x`.
        rintro ⟨row₁, hev₁, hid₁⟩
        obtain ⟨between, older, rfl⟩ := List.append_of_mem hy
        have hstay₁ := hr.stable_pre ht (fun z hz => hasRowButStatus_step hr (by simp [ht, hz]))
          ⟨row₁.status, hasRow_of_insertFile hr (by simp [ht]) hev₁⟩
        obtain ⟨st', hst'⟩ := hstay₁
        rw [hid₁] at hst'
        exact hpre (by rw [hst']; rfl)
  · exact absurd (by rw [hsome]; rfl) hpre

/-- A row that was in the table is the row that is there now, but for its status. -/
theorem eq_withStatus (hr : Run P ca s₀ t js s) (hy : y ∈ t) {f : PyStr} {row row' : FileRow}
    (hrow' : y.pre.files.find? f = some row') (hrow : s.files.find? f = some row) :
    row = row'.withStatus row.status := by
  obtain ⟨later, earlier, ht⟩ := List.append_of_mem hy
  obtain rfl := Table.key_of_find? hrow'
  obtain ⟨st, hst⟩ : HasRowButStatus row' s :=
    hr.stable ht (fun z hz => hasRowButStatus_step hr (by simp [ht, hz]))
      (hasRowButStatus_step hr hy ⟨row'.status, hrow'⟩)
  rw [hrow] at hst
  rw [Option.some.inj hst, FileRow.withStatus_status]

/-- A row that a job has read, under its own id. -/
theorem row_of_getFile (hr : Run P ca s₀ t js s) (ht : t = later ++ x :: earlier) {k : Json}
    {row : FileRow} {newer older : List Ev}
    (hx : x.past = newer ++ ⟨.getFile k, .ok (some row)⟩ :: older) :
    bindKey P k = .ok (some row.fileId) ∧ ∃ y ∈ t, y.pre.files.find? row.fileId = some row := by
  obtain ⟨since, y, before, rfl, -, -, hev, -⟩ := hr.exists_of_past_append ht hx
  have hy : y ∈ t := by simp [ht]
  have hexec := hr.exec_eq hy
  rw [hev] at hexec
  obtain ⟨hkey, hrow⟩ := of_exec_getFile hexec
  exact ⟨hkey, y, hy, hrow⟩

/-- **A status other than `pending` was written over the row.** -/
theorem exists_marks (hr : Run P ca s₀ t js s) (hempty : s₀.files = .empty) {row : FileRow}
    (hrow : s.files.find? row.fileId = some row) (hst : row.status ≠ .pending) :
    ∃ later x earlier row', t = later ++ x :: earlier ∧ Marks P x.ev row' row.status ∧
      row'.fileId = row.fileId ∧ row = row'.withStatus row.status := by
  obtain ⟨later, x, earlier, ht, hpre, r, hpost, hrst⟩ :=
    @System.Run.exists_cause _ _ _ _ _ _ _ _ _ _ _
      (fun s => ∃ r, s.files.find? row.fileId = some r ∧ r.status = row.status) hr
      (by rw [hempty]; exact nofun) ⟨row, hrow, rfl⟩
  have hx : x ∈ t := by simp [ht]
  rcases row_of_change (change_of_mem hr hx) row.fileId with heq | ⟨row₀, hev, -, -, hrow₀⟩ |
    ⟨row', st, hm, hsome, hrow'⟩
  · exact absurd ⟨r, heq ▸ hpost, hrst⟩ hpre
  · obtain rfl := Option.some.inj (hpost.symm.trans hrow₀)
    exact absurd (hrst.symm.trans (insertFile_of_mem hr hx hev).1) hst
  · obtain rfl := Option.some.inj (hpost.symm.trans hrow')
    obtain rfl : st = row.status := hrst
    exact ⟨later, x, earlier, row', ht, hm, Table.key_of_find? hsome,
      eq_withStatus hr hx hsome hrow⟩

/-! ## Requests -/

theorem uploadedBy_of_insertFile (hr : Run P ca s₀ t js s) (ht : t = later ++ x :: earlier)
    {row : FileRow} (hev : x.ev = ⟨.insertFile row, .ok ()⟩) : UploadedBy P ca t x row := by
  have hop : x.ev.op = .insertFile row := congrArg Event.op hev
  have heff := hop ▸ effect_of_mem hr (show x ∈ t by simp [ht]) (by rw [hop]; rfl)
  generalize hp : x.past = past, hl : x.label = l at heff
  cases heff with
  | @insertFile session env up aad g now htype hadm haad =>
    obtain @⟨cert, g', older, @⟨nowCert, hcert, hparse, hsig⟩,
      @⟨path, data, text, nowDir, hpath, htext, hjson, hdir⟩⟩ := hadm
    refine ⟨hev, ⟨session, env, up, aad, ⟨hl, htype, nowCert, ?_, hcert⟩, rfl, hparse, hsig, rfl⟩,
      ⟨(readFrom_of_parseUpload hparse).username, path, data, text, cert, hpath, ?_, htext, hjson,
        ?_⟩, haad⟩
    · rw [hp]
      simp [blobMoved]
    · obtain ⟨since, y, before, rfl, hjob, -, hyev, -⟩ :=
        @System.Run.exists_of_past_append _ _ _ _ _ _ _ _ _ _ _ _ _ _ hr ht _
          [⟨.replace (tmpPathFor up.fileId) (fileBlobPathFor up.fileId), .ok ()⟩,
            ⟨.writeTmp (tmpPathFor up.fileId) up.ciphertext, .ok ()⟩, ⟨.mkdirFiles, .ok ()⟩,
            ⟨.time, .ok nowDir⟩] _ hp
      have hy : y ∈ t := by simp [ht]
      have hexec := hr.exec_eq hy
      rw [hyev] at hexec
      have hread := of_reading hexec
      unfold ServerState.readBytes at hread
      split at hread
      · next hd => exact ⟨y, hy, hjob, Except.ok.inj hread ▸ hd⟩
      · cases hread
    · obtain ⟨since, z, before, rfl, hjob, -, hzev, -⟩ :=
        @System.Run.exists_of_past_append _ _ _ _ _ _ _ _ _ _ _ _ _ _ hr ht _
          [⟨.replace (tmpPathFor up.fileId) (fileBlobPathFor up.fileId), .ok ()⟩,
            ⟨.writeTmp (tmpPathFor up.fileId) up.ciphertext, .ok ()⟩, ⟨.mkdirFiles, .ok ()⟩] _ hp
      have hz : z ∈ t := by simp [ht]
      exact ⟨z, hz, hjob, by rwa [now_of_time hr hz hzev]⟩

/-- An acknowledgement's row has the recipient that signed. -/
theorem acknowledgedBy_of_past (hr : Run P ca s₀ t js s) (ht : t = later ++ x :: earlier)
    {session : Session} {env : Envelope} {req : SignedRequest} {row row' : FileRow}
    {newer g older : List Ev} (hl : x.label = .request session env)
    (htype : env.type = .DOWNLOAD_ACK) (hg : AckProven P ca session env req row' g)
    (hx : x.past = newer ++ (g ++ older)) (hid : row.fileId = req.fileId)
    (hrow : s.files.find? row.fileId = some row) : AcknowledgedBy P ca row x := by
  obtain @⟨now, hparse, hrec, hcert, hver⟩ := hg
  have hx' : x.past = (newer ++ [⟨.time, .ok now⟩]) ++
      ⟨.getFile (.str req.fileId), .ok (some row')⟩ :: older := by
    rw [hx, List.append_assoc]
    rfl
  obtain ⟨hkey, y, hy, hrow'⟩ := row_of_getFile hr ht hx'
  have hid' : row'.fileId = row.fileId := (Option.some.inj (bindKey_str hkey)).trans hid.symm
  have heq := eq_withStatus hr hy (hid' ▸ hrow') hrow
  refine ⟨session, env, req, ⟨hl, htype, now, ?_, hcert⟩, ?_, hparse, hid.symm, hver⟩
  · rw [hx']
    simp
  · rw [heq]
    exact hrec.symm

/-- A revocation's row has the sender that signed. -/
theorem revokedBy_of_past (hr : Run P ca s₀ t js s) (ht : t = later ++ x :: earlier)
    {session : Session} {env : Envelope} {req : SignedRequest} {row row' : FileRow}
    {newer g older : List Ev} (hl : x.label = .request session env)
    (htype : env.type = .REVOKE_REQUEST) (hg : RevokeProven P ca session env req row' g)
    (hx : x.past = newer ++ (g ++ older)) (hid : row.fileId = req.fileId)
    (hrow : s.files.find? row.fileId = some row) : RevokedBy P ca row x := by
  obtain @⟨now, hparse, hsend, hcert, hver⟩ := hg
  have hx' : x.past = (newer ++ [⟨.time, .ok now⟩]) ++
      ⟨.getFile (.str req.fileId), .ok (some row')⟩ :: older := by
    rw [hx, List.append_assoc]
    rfl
  obtain ⟨hkey, y, hy, hrow'⟩ := row_of_getFile hr ht hx'
  have hid' : row'.fileId = row.fileId := (Option.some.inj (bindKey_str hkey)).trans hid.symm
  have hsender : session.peerSubject = row.senderId := by
    rw [eq_withStatus hr hy (hid' ▸ hrow') hrow]
    exact hsend.symm
  refine ⟨session, env, req, ⟨hl, htype, now, ?_, hcert⟩, hsender, hparse, hid.symm, ?_⟩
  · rw [hx']
    simp
  · rw [← hsender, hid]
    exact hver

/-- SQLite raises `IntegrityError` for a violated constraint only. -/
def IntegrityErrorsReal (t : List ServerItem) : Prop :=
  ∀ x ∈ t, x.input.fault ≠ some .integrityError

/-- A recorded acknowledgement stays. -/
theorem ack_step (hr : Run P ca s₀ t js s) (hx : x ∈ t) {f : PyStr}
    (h : (x.pre.acks.find? f).isSome = true) : (x.post.acks.find? f).isSome = true := by
  have hch := change_of_mem hr hx
  generalize x.ev = ev, x.post = post at hch
  cases hch with
  | @insertAck row acks hins =>
    show (acks.find? f).isSome = true
    rw [Table.find?_insert? hins]
    split_ifs
    · rfl
    · exact h
  | _ => exact h

theorem find?_of_insertAck {s s' : ServerState} {row : AckRow} (h : s.insertAck row = .ok s') :
    (s'.acks.find? row.fileId).isSome = true := by
  obtain ⟨-, -, h⟩ := bind_eq_ok.mp h
  obtain ⟨-, -, h⟩ := bind_eq_ok.mp h
  split at h
  · next acks hins =>
    rw [← pure_eq_ok.mp h]
    show (acks.find? row.fileId).isSome = true
    rw [Table.find?_insert? hins, if_pos rfl]
    rfl
  · cases h

/-- A refused acknowledgement is there already. -/
theorem find?_of_insertAck_error {s : ServerState} {row : AckRow}
    (h : s.insertAck row = .error .integrityError) : (s.acks.find? row.fileId).isSome = true := by
  unfold ServerState.insertAck at h
  rcases htext : bindText row.fileId with e | u
  · rw [htext] at h
    unfold bindText at htext
    split at htext
    · cases htext
      cases h
    · cases htext
  · rw [htext, ok_bind] at h
    rcases hint : bindInt row.ackTimestamp with e | u
    · rw [hint] at h
      unfold bindInt at hint
      split at hint
      · cases hint
      · cases hint
        cases h
    · rw [hint, ok_bind] at h
      split at h
      · cases h
      · next hnone => exact Table.insert?_eq_none_iff.mp hnone

/-- After `insert_ack` the file's acknowledgement is recorded, by this request or before. -/
theorem ack_of_insertAck (hr : Run P ca s₀ t js s) (hreal : IntegrityErrorsReal t) (hy : y ∈ t)
    {row : AckRow} {r : Except PyExn Unit} (hev : y.ev = ⟨.insertAck row, r⟩)
    (hres : r = .ok () ∨ r = .error .integrityError) :
    (y.post.acks.find? row.fileId).isSome = true := by
  have hexec := hr.exec_eq hy
  rw [hev] at hexec
  have hexec : writing y.input y.pre () (y.pre.insertAck row) = (r, y.post) := hexec
  unfold writing at hexec
  split at hexec
  · next e _ hfault =>
    obtain ⟨rfl, -⟩ := Prod.mk.inj hexec
    rcases hres with h | h
    · cases h
    · cases h
      exact absurd hfault (hreal y hy)
  · next e _ hins =>
    obtain ⟨rfl, hpost⟩ := Prod.mk.inj hexec
    rcases hres with h | h
    · cases h
    · cases h
      rw [← hpost]
      exact find?_of_insertAck_error hins
  · next post _ hins =>
    obtain ⟨-, rfl⟩ := Prod.mk.inj hexec
    exact find?_of_insertAck hins

/-- An operation of an acknowledgement that comes after `insert_ack` finds it recorded. -/
theorem exists_ack_of_past (hr : Run P ca s₀ t js s) (hreal : IntegrityErrorsReal t)
    (ht : t = later ++ x :: earlier) {req : SignedRequest} {g h older : List Ev}
    (hi : AckInserted req g h) (hx : x.past = h ++ older) :
    (s.acks.find? req.fileId).isSome = true := by
  obtain ⟨r, rest, hpast, hres⟩ : ∃ r rest, x.past = ⟨.insertAck req.ackRow, r⟩ :: rest ∧
      (r = .ok () ∨ r = .error .integrityError) := by
    cases hi with
    | inserted => exact ⟨_, _, hx, .inl rfl⟩
    | already => exact ⟨_, _, hx, .inr rfl⟩
  obtain ⟨since, y, before, rfl, -, -, hev, -⟩ := hr.exists_of_past ht hpast
  have hty : t = (later ++ x :: since) ++ y :: before := by simp [ht]
  exact @System.Run.stable _ _ _ _ _ _ _ _ _ _ _ _ _ _
    (fun s => (s.acks.find? req.fileId).isSome = true) hr hty
    (fun z hz => ack_step hr (hty ▸ List.mem_append_left _ hz))
    (ack_of_insertAck hr hreal (by simp [ht]) hev hres)

/-! ## Expiry -/

/-- A clock that a job has read is not ahead of the latest one. -/
theorem le_now_of_past (hr : Run P ca s₀ t js s) (hclock : ClockNondecreasing t)
    (ht : t = later ++ x :: earlier) {now : ℤ} {newer older : List Ev}
    (hx : x.past = newer ++ ⟨.time, .ok now⟩ :: older) {z : ServerItem} {rest : List ServerItem}
    (hz : t = z :: rest) : now ≤ z.input.now := by
  obtain ⟨since, y, before, rfl, -, -, hev, -⟩ := hr.exists_of_past_append ht hx
  have hy : y ∈ t := by simp [ht]
  rw [← now_of_time hr hy hev]
  rw [hz] at hy
  rcases List.mem_cons.mp hy with rfl | hy
  · exact le_refl _
  · exact hclock.le (show t = [] ++ z :: rest from hz) hy

/-- A row that has been marked as expired is past the clock. -/
theorem expiration_le_of_marks (hr : Run P ca s₀ t js s) (hclock : ClockNondecreasing t)
    (ht : t = later ++ x :: earlier) {row row' : FileRow} (hm : Marks P x.ev row' .expired)
    (hid : row'.fileId = row.fileId) (hrow : s.files.find? row.fileId = some row)
    (heq : row = row'.withStatus row.status) {z : ServerItem} {rest : List ServerItem}
    (hz : t = z :: rest) : row.expiration ≤ z.input.now := by
  rcases hm with ⟨k, hev, hkey⟩ | ⟨cutoff, n, hev, -, -, hexp⟩
  · have hop : x.ev.op = .markStatus k .expired := congrArg Event.op hev
    have heff := hop ▸ effect_of_mem hr (show x ∈ t by simp [ht]) (by rw [hop]; rfl)
    generalize hp : x.past = past, x.label = l at heff
    cases heff with
    | @expire session env _ row'' now now' htype hrec hst hexp =>
      have hp' : x.past = [⟨.time, .ok now'⟩] ++ ⟨.getFile k, .ok (some row'')⟩ ::
          passedGate env now := hp
      obtain ⟨hkey', y, hy, hrow''⟩ := row_of_getFile hr ht hp'
      have hid' : row''.fileId = row'.fileId :=
        Option.some.inj (Except.ok.inj (hkey'.symm.trans hkey))
      rw [eq_withStatus hr hy ((hid'.trans hid) ▸ hrow'') hrow]
      exact hexp.trans (le_now_of_past hr hclock ht (show x.past = [] ++ _ :: _ from hp) hz)
  · have hop : x.ev.op = .markExpired cutoff := congrArg Event.op hev
    have heff := hop ▸ effect_of_mem hr (show x ∈ t by simp [ht]) (by rw [hop]; rfl)
    generalize hp : x.past = past, x.label = l at heff
    rw [heq]
    cases heff with
    | @markExpired now now' m =>
      exact hexp.le.trans (le_now_of_past hr hclock ht
        (show x.past = [⟨.purgeNonces (now' - 300), .ok m⟩, ⟨.time, .ok now'⟩] ++ _ :: _ from hp) hz)

/-! ## All stored facts -/

/-- The operation behind a status that was written by `mark_status`. -/
theorem effect_of_marks (hr : Run P ca s₀ t js s) (hx : x ∈ t) {row : FileRow} {st : Status}
    (hm : Marks P x.ev row st) (hst : st ≠ .expired) :
    ∃ k, bindKey P k = .ok (some row.fileId) ∧ Effect P ca x.label x.past (.markStatus k st) := by
  rcases hm with ⟨k, hev, hkey⟩ | ⟨-, -, -, rfl, -, -⟩
  · have hop : x.ev.op = .markStatus k st := congrArg Event.op hev
    exact ⟨k, hkey, hop ▸ effect_of_mem hr hx (by rw [hop]; rfl)⟩
  · exact absurd rfl hst

/-- **Every stored fact is justified by an authenticated action.**  In every state that is
reached from an empty table by interleaved requests and cleanup passes, with a clock that does
not run backwards: a row was inserted by one upload of its sender, only its status has changed
since, and the status is the doing of a signed request of the right user or of the clock. -/
theorem stored_facts_justified (hr : Run P ca s₀ t js s) (hempty : s₀.files = .empty)
    (hclock : ClockNondecreasing t) (hreal : IntegrityErrorsReal t) (f : PyStr) (row : FileRow)
    (hrow : s.files.find? f = some row) : row.fileId = f ∧ Justified P ca t s row := by
  obtain rfl := Table.key_of_find? hrow
  refine ⟨rfl, ?_, fun hst => ?_, fun hst => ?_, fun hst z rest hz => ?_⟩
  · obtain ⟨later, x, earlier, ht, hev, hstay, honce⟩ := exists_insert hr hempty hrow
    exact ⟨later, x, earlier, ht, uploadedBy_of_insertFile hr ht hev, fun y hy => (hstay y hy).2,
      honce⟩
  · obtain ⟨later, x, earlier, row', ht, hm, hid, -⟩ :=
      exists_marks hr hempty hrow (by rw [hst]; exact nofun)
    have hx : x ∈ t := by simp [ht]
    rw [hst] at hm
    obtain ⟨k, hkey, heff⟩ := effect_of_marks hr hx hm nofun
    generalize hp : x.past = past, hl : x.label = l at heff
    cases heff with
    | @markDownloaded session env req row'' g h now htype hg hi =>
      have hreq : row.fileId = req.fileId := hid.symm.trans (Option.some.inj (bindKey_str hkey))
      obtain ⟨newer, hnewer⟩ : ∃ newer, x.past = newer ++ (g ++ passedGate env now) := by
        cases hi with
        | inserted | already => exact ⟨[_], hp⟩
      exact ⟨⟨x, hx, acknowledgedBy_of_past hr ht hl htype hg hnewer hreq hrow⟩,
        Option.isSome_iff_exists.mp (hreq ▸ exists_ack_of_past hr hreal ht hi hp)⟩
  · obtain ⟨later, x, earlier, row', ht, hm, hid, -⟩ :=
      exists_marks hr hempty hrow (by rw [hst]; exact nofun)
    have hx : x ∈ t := by simp [ht]
    rw [hst] at hm
    obtain ⟨k, hkey, heff⟩ := effect_of_marks hr hx hm nofun
    generalize hp : x.past = past, hl : x.label = l at heff
    cases heff with
    | @markRevoked session env req row'' g now htype hg hpend =>
      have hreq : row.fileId = req.fileId := hid.symm.trans (Option.some.inj (bindKey_str hkey))
      exact ⟨x, hx, revokedBy_of_past hr ht hl htype hg (show x.past = [] ++ _ from hp) hreq hrow⟩
  · obtain ⟨later, x, earlier, row', ht, hm, hid, heq⟩ :=
      exists_marks hr hempty hrow (by rw [hst]; exact nofun)
    exact expiration_le_of_marks hr hclock ht (hst ▸ hm) hid hrow heq hz

instance : Decidable (IntegrityErrorsReal t) := inferInstanceAs (Decidable (∀ x ∈ t, _))

/-- `alice` uploads, `bob` acknowledges, and a cleanup pass follows after the deadline. -/
def sampleHistory : Config Op Op.Res Input ServerState Label (Except PyExn Unit) :=
  samplePlay sampleInit (Move.alone (sampleUpload 1 [7]) 0 11 (.quiet 100) ++
    Move.alone (sampleAck 2) 1 7 (.quiet 100) ++ Move.alone .cleanup 2 4 (.quiet 2000))

theorem run_sampleHistory : Run samplePrimitives [1] sampleInit sampleHistory.trace
    sampleHistory.jobs sampleHistory.store := by
  unfold sampleHistory
  exact run_samplePlay _ _

theorem sampleHistory_checks :
    ClockNondecreasing sampleHistory.trace ∧ IntegrityErrorsReal sampleHistory.trace ∧
    (sampleHistory.store.files.find? sampleId).map FileRow.status = some .downloaded := by
  decide +kernel

/-- The acknowledged row is justified. -/
theorem stored_facts_justified_sampleHistory :
    ∃ row, sampleHistory.store.files.find? sampleId = some row ∧ row.status = .downloaded ∧
      Justified samplePrimitives [1] sampleHistory.trace sampleHistory.store row := by
  obtain ⟨hclock, hreal, hst⟩ := sampleHistory_checks
  have hrun := run_sampleHistory
  generalize sampleHistory.store = s, sampleHistory.trace = t at hclock hreal hst hrun ⊢
  obtain ⟨row, hrow, hst⟩ := Option.map_eq_some_iff.mp hst
  exact ⟨row, hrow, hst, (stored_facts_justified hrun rfl hclock hreal sampleId row hrow).2⟩

end Server
end ZeroTrust
