import ZeroTrust.Server.ReplayCache

/-!
# The life of a file

Requests and cleanup passes follow one another, each run to its end or given up, from any
state.  A download and a revocation look at the row's status before they write it, and the
cleanup pass writes pending rows only; an acknowledgement does not look.  So the terminal
statuses are absorbing exactly as long as no acknowledgement comes for a row that has been
revoked or has expired.

* `AckRequest`: the first operation of an acknowledgement that will pass every check.
* `marks_cases`: a status is written over a pending row, or by an acknowledgement.
* `terminal_absorbing`: the life cycle, in every run without a late acknowledgement.
-/

namespace ZeroTrust
namespace Server

open Python Effects Data

variable {P : Primitives} {ca : Bytes} {s₀ s : ServerState} {t later earlier : List ServerItem}
  {js : List (Job Op Op.Res Label (Except PyExn Unit))} {x y : ServerItem}

/-- The operations that leave the files table alone. -/
def Op.keepsFiles : Op → Bool
  | .insertFile _ | .markStatus _ _ | .markExpired _ => false
  | _ => true

theorem files_of_keepsFiles (hr : Run P ca s₀ t js s) (hx : x ∈ t)
    (hop : x.ev.op.keepsFiles = true) : x.post.files = x.pre.files := by
  have hch := change_of_mem hr hx
  generalize x.ev = ev at hch hop
  generalize x.post = post at hch
  cases hch with
  | insertFile _ | markStatus _ _ | markExpired _ _ => exact absurd hop Bool.false_ne_true
  | _ => rfl

/-! ## Acknowledgements -/

/-- `x` begins a `DOWNLOAD_ACK` request for the file of `row` that passes every check of its
handler: replay, shape, recipient, certificate and signature. -/
structure AckRequest (P : Primitives) (ca : Bytes) (t : List ServerItem) (x : ServerItem)
    (row : FileRow) : Prop where
  intro ::
  starts : x.past = []
  request : ∃ session env req, x.label = .request session env ∧ env.type = .DOWNLOAD_ACK ∧
    isStale x.input.now env.timestamp = false ∧ x.pre.nonces.find? env.nonceBytes = none ∧
    parseSignedRequest env.payload = .ok req ∧ x.pre.files.find? req.fileId = some row ∧
    row.recipientId = session.peerSubject ∧
    (∃ z ∈ t, z.job = x.job ∧
      CertCheck P ca session.peerCert z.input.now (some session.peerSubject)) ∧
    verifyAck P session.peerCert req = .ok true

/-- `x` begins an acknowledgement, good in every respect, of a file that has been revoked or
has expired. -/
def LateAck (P : Primitives) (ca : Bytes) (t : List ServerItem) (x : ServerItem) : Prop :=
  ∃ row, AckRequest P ca t x row ∧ (row.status = .revoked ∨ row.status = .expired)

/-- The row that a job has read is still the row in the table, if the job's own operations
since have kept the files. -/
theorem row_of_past (hr : Run P ca s₀ t js s) (hat : Atomic t) (ht : t = later ++ x :: earlier)
    {k : Json} {row : FileRow} {newer older : List Ev}
    (hx : x.past = newer ++ ⟨.getFile k, .ok (some row)⟩ :: older)
    (hkeep : ∀ ev ∈ newer, ev.op.keepsFiles = true) :
    ∃ since y before, earlier = since ++ y :: before ∧ y.job = x.job ∧ y.label = x.label ∧
      y.past = older ∧ bindKey P k = .ok (some row.fileId) ∧
      y.pre.files.find? row.fileId = some row ∧ x.pre.files.find? row.fileId = some row := by
  obtain ⟨since, y, before, rfl, hjob, hlabel, hev, hpast, hfiles⟩ :=
    hr.exists_of_past_atomic ServerState.files hat ht hx fun z hz hmem =>
      files_of_keepsFiles hr hz (hkeep _ hmem)
  have hy : y ∈ t := by simp [ht]
  have hexec := hr.exec_eq hy
  rw [hev] at hexec
  obtain ⟨hkey, hrow⟩ := of_exec_getFile hexec
  refine ⟨since, y, before, rfl, hjob, hlabel, hpast, hkey, hrow, ?_⟩
  rw [← hfiles, files_of_keepsFiles hr hy (by rw [hev]; rfl), hrow]

theorem eq_of_past (hr : Run P ca s₀ t js s) (hat : Atomic t) (ht : t = later ++ x :: earlier)
    {k : Json} {row row' : FileRow} {newer older : List Ev}
    (hx : x.past = newer ++ ⟨.getFile k, .ok (some row')⟩ :: older)
    (hkeep : ∀ ev ∈ newer, ev.op.keepsFiles = true)
    (hkey : bindKey P k = .ok (some row.fileId))
    (hrow : x.pre.files.find? row.fileId = some row) : row' = row := by
  obtain ⟨-, -, -, -, -, -, -, hkey', -, hrow'⟩ := row_of_past hr hat ht hx hkeep
  have hid : row.fileId = row'.fileId := Option.some.inj (Except.ok.inj (hkey.symm.trans hkey'))
  rw [← hid, hrow] at hrow'
  exact (Option.some.inj hrow').symm

/-- A job behind the gate began with a fresh envelope and a nonce not seen before, and with
the files that it found after the gate. -/
theorem start_of_gate (hr : Run P ca s₀ t js s) (hat : Atomic t)
    (ht : t = later ++ x :: earlier) {session : Session} {env : Envelope} {now : ℤ}
    (hl : x.label = .request session env) (hx : x.past = passedGate env now) :
    ∃ y ∈ earlier, y.job = x.job ∧ y.label = x.label ∧ y.past = [] ∧
      isStale y.input.now env.timestamp = false ∧
      y.pre.nonces.find? env.nonceBytes = none ∧ y.pre.files = x.pre.files := by
  obtain ⟨z, before, rfl, hzj, hzl, hzev, hzp, hzpost⟩ := hr.prev_of_past hat ht hx
  have htz : t = (later ++ [x]) ++ z :: before := by simp [ht]
  obtain ⟨y, before', rfl, hyj, hyl, hyev, hyp, hypost⟩ := hr.prev_of_past hat htz hzp
  have hy : y ∈ t := by simp [ht]
  have hz : z ∈ t := by simp [ht]
  have hread : y.post = y.pre := by
    have hch := change_of_mem hr hy
    rw [hyev] at hch
    generalize y.post = post at hch
    cases hch
    rfl
  refine ⟨y, by simp, hyj.trans hzj, hyl.trans hzl, hyp, ?_, ?_, ?_⟩
  · rw [now_of_time hr hy hyev, isStale_eq_false]
    exact fresh_of_accepts hr hz (hzl.trans hl) hzev
  · rw [← hread, hypost]
    exact (of_insertNonce (hzev ▸ change_of_mem hr hz)).1
  · rw [← hread, hypost, ← hzpost, files_of_keepsFiles hr hz (by rw [hzev]; rfl)]

/-- The history of an acknowledgement that passed its checks leads back to its start. -/
theorem ackRequest_of_past (hr : Run P ca s₀ t js s) (hat : Atomic t)
    (ht : t = later ++ x :: earlier) {session : Session} {env : Envelope} {req : SignedRequest}
    {row : FileRow} {newer g : List Ev} {now : ℤ} (hl : x.label = .request session env)
    (htype : env.type = .DOWNLOAD_ACK) (hg : AckProven P ca session env req row g)
    (hx : x.past = newer ++ (g ++ passedGate env now)) :
    ∃ y ∈ earlier, AckRequest P ca t y row ∧ y.pre.files.find? req.fileId = some row := by
  obtain @⟨now', hparse, hrec, hcert, hver⟩ := hg
  have hx' : x.past = newer ++ ⟨.time, .ok now'⟩ ::
      ⟨.getFile (.str req.fileId), .ok (some row)⟩ :: passedGate env now := hx
  obtain ⟨since, c, before, rfl, hcj, hcl, hcev, hcp⟩ := hr.exists_of_past_append ht hx'
  have htc : t = (later ++ x :: since) ++ c :: before := by simp [ht]
  have hc : c ∈ t := by simp [ht]
  have hcp' : c.past = [] ++ ⟨.getFile (.str req.fileId), .ok (some row)⟩ ::
      passedGate env now := hcp
  obtain ⟨since', z, before', rfl, hzj, hzl, hzp, hkey, hzrow, -⟩ :=
    row_of_past hr hat htc hcp' (List.forall_mem_nil _)
  have htz : t = (later ++ x :: since ++ c :: since') ++ z :: before' := by simp [ht]
  have hlz : z.label = .request session env := hzl.trans (hcl.trans hl)
  obtain ⟨y, hy, hyj, hyl, hyp, hstale, hnew, hfiles⟩ := start_of_gate hr hat htz hlz hzp
  have hid : row.fileId = req.fileId := Option.some.inj (bindKey_str hkey)
  have hyrow : y.pre.files.find? req.fileId = some row := by rw [hfiles, ← hid, hzrow]
  refine ⟨y, by simp [hy], ⟨hyp, session, env, req, hyl.trans hlz, htype, hstale, hnew, hparse,
    hyrow, hrec, ⟨c, hc, (hyj.trans hzj).symm, ?_⟩, hver⟩, hyrow⟩
  rwa [now_of_time hr hc hcev]

/-! ## The life cycle -/

/-- **A status is written over a pending row, or by an acknowledgement.** -/
theorem marks_cases (hr : Run P ca s₀ t js s) (hat : Atomic t) (ht : t = later ++ x :: earlier)
    {row : FileRow} {st : Status} (hm : Marks P x.ev row st)
    (hrow : x.pre.files.find? row.fileId = some row) :
    row.status = .pending ∨ st = .downloaded ∧ ∃ y ∈ earlier, AckRequest P ca t y row := by
  rcases hm with ⟨k, hev, hkey⟩ | ⟨cutoff, n, -, -, hst, -⟩
  · have hop : x.ev.op = .markStatus k st := congrArg Event.op hev
    have heff := hop ▸ effect_of_mem hr (show x ∈ t by simp [ht]) (by rw [hop]; rfl)
    generalize hp : x.past = past, hl : x.label = l at heff
    cases heff with
    | @expire session env _ row' now now' htype hrec hst hexp =>
      have hp' : x.past = [⟨.time, .ok now'⟩] ++ ⟨.getFile k, .ok (some row')⟩ ::
          passedGate env now := hp
      obtain rfl := eq_of_past hr hat ht hp' (by simp [Op.keepsFiles]) hkey hrow
      exact .inl hst
    | @markDownloaded session env req row' g h now htype hg hi =>
      have hp' : ∃ ev, ev.op = .insertAck req.ackRow ∧ x.past = [ev] ++ (g ++ passedGate env now) := by
        cases hi with
        | inserted | already => exact ⟨_, rfl, hp⟩
      obtain ⟨ev, hev', hp'⟩ := hp'
      obtain ⟨y, hy, hack, -⟩ := ackRequest_of_past hr hat ht hl htype hg hp'
      cases hg with
      | @intro now' _ _ _ _ =>
        have hp'' : x.past = [ev, ⟨.time, .ok now'⟩] ++
            ⟨.getFile (.str req.fileId), .ok (some row')⟩ :: passedGate env now := hp'
        obtain rfl := eq_of_past hr hat ht hp'' (by simp [Op.keepsFiles, hev']) hkey hrow
        exact .inr ⟨rfl, y, hy, hack⟩
    | @markRevoked session env req row' g now htype hg hst =>
      cases hg with
      | @intro now' _ _ _ _ =>
        have hp' : x.past = [⟨.time, .ok now'⟩] ++
            ⟨.getFile (.str req.fileId), .ok (some row')⟩ :: passedGate env now := hp
        obtain rfl := eq_of_past hr hat ht hp' (by simp [Op.keepsFiles]) hkey hrow
        exact .inl hst
  · exact .inl hst

/-- The statuses that end a file's life. -/
def Status.isTerminal : Status → Bool
  | .downloaded | .expired | .revoked => true
  | .pending | .other _ => false

/-- `f` has the row `row`. -/
def HasRow (f : PyStr) (row : FileRow) (s : ServerState) : Prop := s.files.find? f = some row

/-- No row has a status but the four that the program writes. -/
def KnownStatuses (s : ServerState) : Prop :=
  ∀ f row, s.files.find? f = some row → row.status = .pending ∨ row.status.isTerminal = true

theorem knownStatuses_init (pubkeys : PyStr → Option Bytes) :
    KnownStatuses (.init pubkeys) := by
  intro f row h
  rw [ServerState.init, Table.find?_empty] at h
  cases h

theorem knownStatuses_step (hr : Run P ca s₀ t js s) (hx : x ∈ t) (h : KnownStatuses x.pre) :
    KnownStatuses x.post := by
  intro f row hrow
  rcases row_of_change (change_of_mem hr hx) f with heq | ⟨row', hev, -, -, hpost⟩ |
    ⟨row', st, hm, -, hpost⟩
  · exact h f row (heq ▸ hrow)
  · obtain rfl := Option.some.inj (hpost.symm.trans hrow)
    exact .inl (insertFile_of_mem hr hx hev).1
  · obtain rfl := Option.some.inj (hpost.symm.trans hrow)
    rcases terminal_of_marks hr hx hm with rfl | rfl | rfl <;> exact .inr rfl

/-- One operation, without a late acknowledgement: a status changes from pending to a
terminal one, or not at all. -/
theorem row_step (hr : Run P ca s₀ t js s) (hat : Atomic t) (hack : ∀ y ∈ t, ¬ LateAck P ca t y)
    (ht : t = later ++ x :: earlier) {f : PyStr} {row : FileRow}
    (hrow : x.pre.files.find? f = some row)
    (hknown : row.status = .pending ∨ row.status.isTerminal = true) :
    x.post.files.find? f = some row ∨
      row.status = .pending ∧ ∃ st, st.isTerminal = true ∧
        x.post.files.find? f = some (row.withStatus st) := by
  have hx : x ∈ t := by simp [ht]
  rcases row_of_change (change_of_mem hr hx) f with heq | ⟨row', -, -, hnone, -⟩ |
    ⟨row', st, hm, hpre, hpost⟩
  · exact .inl (heq.trans hrow)
  · exact absurd (hnone.symm.trans hrow) nofun
  · obtain rfl := Option.some.inj (hrow.symm.trans hpre)
    obtain rfl := Table.key_of_find? hrow
    have hterm : st.isTerminal = true := by
      rcases terminal_of_marks hr hx hm with rfl | rfl | rfl <;> rfl
    rcases marks_cases hr hat ht hm hrow with hst | ⟨rfl, y, hy, hreq⟩
    · exact .inr ⟨hst, st, hterm, hpost⟩
    · have hlate := hack y (by simp [ht, hy])
      cases hst : row.status with
      | pending => exact .inr ⟨rfl, _, hterm, hpost⟩
      | downloaded =>
        refine .inl (hpost.trans ?_)
        rw [FileRow.withStatus, ← hst]
      | revoked => exact absurd ⟨row, hreq, .inl hst⟩ hlate
      | expired => exact absurd ⟨row, hreq, .inr hst⟩ hlate
      | other text => simp [hst, Status.isTerminal] at hknown

/-- A row with a terminal status stays as it is. -/
theorem terminal_step (hr : Run P ca s₀ t js s) (hat : Atomic t)
    (hack : ∀ y ∈ t, ¬ LateAck P ca t y) (hx : x ∈ t) {f : PyStr} {row : FileRow}
    (hterm : row.status.isTerminal = true) (hrow : x.pre.files.find? f = some row) :
    x.post.files.find? f = some row := by
  obtain ⟨earlier, later, ht⟩ := List.append_of_mem hx
  rcases row_step hr hat hack ht hrow (.inr hterm) with h | ⟨hst, -⟩
  · exact h
  · rw [hst] at hterm
    exact absurd hterm Bool.false_ne_true

/-- A status written under a row's id is written over the row. -/
theorem marks_of_markStatus (hr : Run P ca s₀ t js s) (hx : x ∈ t) {f : PyStr} {row : FileRow}
    {st : Status} (hev : x.ev = ⟨.markStatus (.str f) st, .ok ()⟩) (hrow : HasRow f row x.pre) :
    Marks P x.ev row st := by
  refine .inl ⟨_, hev, ?_⟩
  rw [Table.key_of_find? hrow]
  have hch := hev ▸ change_of_mem hr hx
  generalize x.post = post at hch
  cases hch with
  | read _ hop => exact absurd hop Bool.false_ne_true
  | markStatus _ hkey => rw [hkey, bindKey_str hkey]

/-- Before a `REVOKE_ACK` the file's row has the status it tells of. -/
theorem revoked_of_revokeAck (hr : Run P ca s₀ t js s) (hat : Atomic t)
    (ht : t = later ++ x :: earlier) {f : PyStr}
    (hop : x.ev.op = .send .REVOKE_ACK (revokeAckPayload f)) :
    ∃ row, x.pre.files.find? f = some row ∧ row.status = .revoked := by
  have heff := hop ▸ effect_of_mem hr (show x ∈ t by simp [ht]) (by rw [hop]; rfl)
  generalize hp : x.past = past, hl : x.label = l, hpay : revokeAckPayload f = payload at heff
  cases heff with
  | @revokeAck session env req row g now htype hg hst =>
    obtain rfl : f = req.fileId := by simpa [revokeAckPayload] using hpay
    obtain ⟨z, before, rfl, -, -, hzev, hzp, hzpost⟩ := hr.prev_of_past hat ht hp
    have htz : t = (later ++ [x]) ++ z :: before := by simp [ht]
    cases hg with
    | @intro now' _ _ _ _ =>
      have hzp' : z.past = [⟨.time, .ok now'⟩] ++
          ⟨.getFile (.str req.fileId), .ok (some row)⟩ :: passedGate env now := hzp
      obtain ⟨-, -, -, -, -, -, -, hkey, -, hrow⟩ :=
        row_of_past hr hat htz hzp' (by simp [Op.keepsFiles])
      have hid : row.fileId = req.fileId := Option.some.inj (bindKey_str hkey)
      rw [← hzpost, ← hid]
      have hm : Marks P z.ev row .revoked := .inl ⟨_, hzev, hkey⟩
      exact ⟨_, row_of_marks (change_of_mem hr (by simp [ht])) hrow hm, rfl⟩
  | @revokeAgain session env req row g now htype hg hst =>
    obtain rfl : f = req.fileId := by simpa [revokeAckPayload] using hpay
    cases hg with
    | @intro now' _ _ _ _ =>
      have hp' : x.past = [⟨.time, .ok now'⟩] ++
          ⟨.getFile (.str req.fileId), .ok (some row)⟩ :: passedGate env now := hp
      obtain ⟨-, -, -, -, -, -, -, hkey, -, hrow⟩ :=
        row_of_past hr hat ht hp' (by simp [Op.keepsFiles])
      have hid : row.fileId = req.fileId := Option.some.inj (bindKey_str hkey)
      exact ⟨row, hid ▸ hrow, hst⟩

/-- Right before an `ACK_OK` the handler has written `downloaded`. -/
theorem marks_of_ackOk (hr : Run P ca s₀ t js s) (hat : Atomic t)
    (ht : t = later ++ x :: earlier) {f : PyStr}
    (hop : x.ev.op = .send .ACK_OK (ackOkPayload f)) :
    ∃ y before, earlier = y :: before ∧ y.ev = ⟨.markStatus (.str f) .downloaded, .ok ()⟩ := by
  have heff := hop ▸ effect_of_mem hr (show x ∈ t by simp [ht]) (by rw [hop]; rfl)
  generalize hp : x.past = past, hl : x.label = l, hpay : ackOkPayload f = payload at heff
  cases heff with
  | @ackOk session env req row g h now htype hg hi =>
    obtain rfl : f = req.fileId := by simpa [ackOkPayload] using hpay
    obtain ⟨y, before, rfl, -, -, hev, -, -⟩ := hr.prev_of_past hat ht hp
    exact ⟨y, before, rfl, hev⟩

/-- The life cycle of the files in a run that ends with the store `s`. -/
structure LifeCycle (t : List ServerItem) (s : ServerState) : Prop where
  /-- A row with a terminal status is there unchanged at the end. -/
  absorbing : ∀ later x earlier f row, t = later ++ x :: earlier → HasRow f row x.pre →
    row.status.isTerminal = true → HasRow f row s
  /-- A status changes from pending to a terminal one only. -/
  transitions : ∀ x ∈ t, ∀ f row row', HasRow f row x.pre → HasRow f row' x.post →
    row'.status ≠ row.status → row.status = .pending ∧ row'.status.isTerminal = true
  /-- A file whose sender has received `REVOKE_ACK` is revoked at the end, and no `ACK_OK`
  is sent for it. -/
  revoked : ∀ later x earlier f, t = later ++ x :: earlier →
    x.ev.op = .send .REVOKE_ACK (revokeAckPayload f) →
    (∃ row, HasRow f row s ∧ row.status = .revoked) ∧
      ∀ y ∈ later, y.ev.op ≠ .send .ACK_OK (ackOkPayload f)

/-- A revoked row is acknowledged only by a late acknowledgement. -/
theorem not_ackOk_of_revoked (hr : Run P ca s₀ t js s) (hat : Atomic t)
    (hack : ∀ y ∈ t, ¬ LateAck P ca t y) {between : List ServerItem}
    (ht : t = later ++ y :: (between ++ x :: earlier)) {f : PyStr} {row : FileRow}
    (hrow : ∀ z ∈ between, HasRow f row z.pre) (hst : row.status = .revoked)
    (hx : x.ev ≠ ⟨.markStatus (.str f) .downloaded, .ok ()⟩) :
    y.ev.op ≠ .send .ACK_OK (ackOkPayload f) := by
  intro hop
  obtain ⟨m, before, hbefore, hev⟩ := marks_of_ackOk hr hat ht hop
  rcases between with _ | ⟨m', between⟩
  · exact hx ((List.cons.inj hbefore).1 ▸ hev)
  · obtain ⟨rfl, rfl⟩ := List.cons.inj hbefore
    have htm : t = (later ++ [y]) ++ m' :: (between ++ x :: earlier) := by simp [ht]
    have hm : HasRow f row m'.pre := hrow m' List.mem_cons_self
    have hmarks : Marks P m'.ev row .downloaded := marks_of_markStatus hr (by simp [ht]) hev hm
    obtain rfl := Table.key_of_find? hm
    rcases marks_cases hr hat htm hmarks hm with hpend | ⟨-, z, hz, hreq⟩
    · exact nomatch hst.symm.trans hpend
    · exact hack z (htm ▸ by simp_all) ⟨row, hreq, .inl hst⟩

/-- **The life cycle holds in every run without a late acknowledgement**, of whole requests
and cleanup passes one after another. -/
theorem terminal_absorbing (hr : Run P ca s₀ t js s) (hat : Atomic t) (hknown : KnownStatuses s₀)
    (hack : ∀ y ∈ t, ¬ LateAck P ca t y) : LifeCycle t s := by
  have hkeep : ∀ {f row}, row.status.isTerminal = true → ∀ z ∈ t,
      HasRow f row z.pre → HasRow f row z.post :=
    fun hterm z hz => terminal_step hr hat hack hz hterm
  have hstays : ∀ later x earlier f row, t = later ++ x :: earlier →
      HasRow f row x.pre → row.status.isTerminal = true → HasRow f row s :=
    fun later x earlier f row ht hrow hterm =>
      hr.stable ht (fun z hz => hkeep hterm z (by simp [ht, hz]))
        (hkeep hterm _ (by simp [ht]) hrow)
  refine ⟨hstays, fun x hx f row row' hrow hrow' hne => ?_, fun later x earlier f ht hop => ?_⟩
  · obtain ⟨later, earlier, ht⟩ := List.append_of_mem hx
    have hkn := hr.invariant_pre hknown (fun _ hy => knownStatuses_step hr hy) ht f row hrow
    rcases row_step hr hat hack ht hrow hkn with h | ⟨hst, st, hterm, h⟩
    · exact absurd (Option.some.inj (hrow'.symm.trans h) ▸ rfl) hne
    · obtain rfl := Option.some.inj (hrow'.symm.trans h)
      exact ⟨hst, hterm⟩
  · obtain ⟨row, hrow, hst⟩ := revoked_of_revokeAck hr hat ht hop
    have hterm : row.status.isTerminal = true := by rw [hst]; rfl
    refine ⟨⟨row, hstays _ _ _ f row ht hrow hterm, hst⟩, fun y hy => ?_⟩
    obtain ⟨l₁, l₂, rfl⟩ := List.append_of_mem hy
    have hty : t = l₁ ++ y :: (l₂ ++ x :: earlier) := by simp [ht]
    refine not_ackOk_of_revoked hr hat hack hty (fun z hz => ?_) hst fun hev => ?_
    · obtain ⟨m₁, m₂, rfl⟩ := List.append_of_mem hz
      have htz : t = (l₁ ++ y :: m₁) ++ z :: (m₂ ++ x :: earlier) := by simp [ht]
      exact hr.stable_pre htz (fun w hw => hkeep hterm w (by simp [ht, hw]))
        (hkeep hterm x (by simp [ht]) hrow)
    · exact nomatch hop.symm.trans (congrArg Event.op hev)

/-! ### Acknowledgements in time and too late -/

theorem knownStatuses_sampleInit : KnownStatuses sampleInit := by
  unfold sampleInit
  exact knownStatuses_init _

/-- `alice` uploads, and `bob` acknowledges. -/
def sampleAcked : Config Op Op.Res Input ServerState Label (Except PyExn Unit) :=
  samplePlay sampleInit (Move.alone (sampleUpload 1 [7]) 0 11 (.quiet 100) ++
    Move.alone (sampleAck 2) 1 7 (.quiet 100))

theorem run_sampleAcked : Run samplePrimitives [1] sampleInit sampleAcked.trace sampleAcked.jobs
    sampleAcked.store := by
  unfold sampleAcked
  exact run_samplePlay _ _

theorem sampleAcked_checks :
    Atomic sampleAcked.trace ∧
    (∀ y ∈ sampleAcked.trace, y.past.isEmpty = true →
      ∀ row ∈ y.pre.files.rows, row.status = .pending) ∧
    sampleAcked.trace.head?.map (fun x => x.ev.op) = some (.send .ACK_OK (ackOkPayload sampleId)) := by
  decide +kernel

theorem lifeCycle_sampleAcked : LifeCycle sampleAcked.trace sampleAcked.store := by
  obtain ⟨hat, hpending, -⟩ := sampleAcked_checks
  refine terminal_absorbing run_sampleAcked hat knownStatuses_sampleInit fun y hy hlate => ?_
  obtain ⟨row, ⟨hstart, hreq⟩, hst⟩ := hlate
  obtain ⟨session, env, req, -, -, -, -, -, hrow, -⟩ := hreq
  have hmem := (Table.find?_eq_some_iff.mp hrow).1
  rw [hpending y hy (List.isEmpty_iff.mpr hstart) row hmem] at hst
  exact hst.elim nofun nofun

/-- `alice` uploads and revokes, and `bob` acknowledges. -/
def sampleLate : Config Op Op.Res Input ServerState Label (Except PyExn Unit) :=
  samplePlay sampleInit (Move.alone (sampleUpload 1 [7]) 0 11 (.quiet 100) ++
    Move.alone (sampleRevoke 2) 1 6 (.quiet 100) ++ Move.alone (sampleAck 3) 2 7 (.quiet 100))

theorem run_sampleLate : Run samplePrimitives [1] sampleInit sampleLate.trace sampleLate.jobs
    sampleLate.store := by
  unfold sampleLate
  exact run_samplePlay _ _

theorem sampleLate_checks :
    Atomic sampleLate.trace ∧
    (∃ x ∈ sampleLate.trace, x.ev.op = .send .REVOKE_ACK (revokeAckPayload sampleId)) ∧
    sampleLate.trace.head?.map (fun x => x.ev.op) = some (.send .ACK_OK (ackOkPayload sampleId)) ∧
    (sampleLate.store.files.find? sampleId).map FileRow.status = some .downloaded := by
  decide +kernel

/-- After the `REVOKE_ACK`, the acknowledgement is answered `ACK_OK` and the revoked file
becomes `downloaded`. -/
theorem not_lifeCycle_sampleLate :
    Atomic sampleLate.trace ∧ KnownStatuses sampleInit ∧
      Run samplePrimitives [1] sampleInit sampleLate.trace sampleLate.jobs sampleLate.store ∧
      ¬ LifeCycle sampleLate.trace sampleLate.store := by
  obtain ⟨hat, ⟨x, hx, hop⟩, -, hst⟩ := sampleLate_checks
  refine ⟨hat, knownStatuses_sampleInit, run_sampleLate, fun hlife => ?_⟩
  obtain ⟨later, earlier, ht⟩ := List.append_of_mem hx
  obtain ⟨⟨row, hrow, hrevoked⟩, -⟩ := hlife.revoked _ _ _ _ ht hop
  generalize sampleLate.store = s at hst hrow
  rw [HasRow] at hrow
  rw [hrow, Option.map_some, hrevoked] at hst
  exact nomatch hst

end Server
end ZeroTrust
