import ZeroTrust.Server.Lifecycle
import ZeroTrust.Server.Provenance

/-!
# Statuses between threads

`mark_expired` tests and sets a status in one statement.  A revocation and a download that
finds a file past its deadline read the row in one transaction and write its status in
another, and the second does not look again.  So a status that is committed in between is
overwritten, whichever of the three committed it.

* `StatusesKept`: what is committed stays, and `REVOKE_ACK` tells the truth.
* `StatusWindows`: nothing else is committed between a reading and the write it led to.
* `statusesKept_iff`: the first holds in exactly the runs with the second.
* `sampleRace`: a `REVOKE_ACK` for a file that ends up as expired.
-/

namespace ZeroTrust
namespace Server

open Python Effects Data

variable {P : Primitives} {ca : Bytes} {s₀ s : ServerState} {t later earlier : List ServerItem}
  {js : List (Job Op Op.Res Label (Except PyExn Unit))} {x : ServerItem}

/-- The label of an acknowledgement. -/
def Label.acknowledges : Label → Bool
  | .request _ env => env.type = .DOWNLOAD_ACK
  | .cleanup => false

/-- No acknowledgement is in the run. -/
def NoAcks (t : List ServerItem) : Prop := ∀ x ∈ t, x.label.acknowledges = false

instance : Decidable (NoAcks t) := inferInstanceAs (Decidable (∀ x ∈ t, _))

/-- No status update is lost in a run that ends with the store `s`. -/
structure StatusesKept (t : List ServerItem) (s : ServerState) : Prop where
  /-- No operation writes over a terminal status. -/
  kept : ∀ x ∈ t, ∀ f row, HasRow f row x.pre → row.status.isTerminal = true → HasRow f row x.post
  /-- Where `REVOKE_ACK` is sent the file is revoked, and stays so. -/
  revoked : ∀ later x earlier f, t = later ++ x :: earlier →
    x.ev.op = .send .REVOKE_ACK (revokeAckPayload f) →
    (∃ row, HasRow f row x.pre ∧ row.status = .revoked) ∧ ∃ row, HasRow f row s ∧ row.status = .revoked
  /-- A file that is expired stays so. -/
  expired : ∀ later x earlier f row, t = later ++ x :: earlier → HasRow f row x.post →
    row.status = .expired → HasRow f row s

/-- Between the reading of a row and the writing of a status that followed from it, no other
status is written over that row. -/
def StatusWindows (P : Primitives) (t : List ServerItem) : Prop :=
  ∀ later x since y earlier k row st, t = later ++ x :: (since ++ y :: earlier) → y.job = x.job →
    y.ev = ⟨.getFile k, .ok (some row)⟩ → x.ev = ⟨.markStatus k st, .ok ()⟩ →
    ∀ w ∈ since, ∀ row' st', HasRow row.fileId row' w.pre → Marks P w.ev row' st' → st' = st

/-! ## What a write rests on -/

/-- Without acknowledgements, a status is written after the row was read as pending, under the
same key. -/
theorem pending_of_markStatus (hr : Run P ca s₀ t js s) (hack : NoAcks t) (hx : x ∈ t) {k : Json}
    {st : Status} (hev : x.ev = ⟨.markStatus k st, .ok ()⟩) :
    ∃ newer row older, x.past = newer ++ ⟨.getFile k, .ok (some row)⟩ :: older ∧
      row.status = .pending := by
  have hop : x.ev.op = .markStatus k st := congrArg Event.op hev
  have heff := hop ▸ effect_of_mem hr hx (by rw [hop]; rfl)
  have hlabel := hack x hx
  generalize hp : x.past = past, x.label = l at heff hlabel
  cases heff with
  | @expire session env _ row now now' htype hrec hst hexp =>
    exact ⟨[_], row, _, rfl, hst⟩
  | markDownloaded htype hg hi =>
    rw [Label.acknowledges, decide_eq_true htype] at hlabel
    cases hlabel
  | @markRevoked session env req row g now htype hg hst =>
    obtain ⟨-, -, -, -⟩ := hg
    exact ⟨[_], row, _, rfl, hst⟩

/-- A file keeps a row with one of two statuses while none but the second is written. -/
theorem status_step (hr : Run P ca s₀ t js s) (hx : x ∈ t) {f : PyStr} {st : Status}
    (hwindow : ∀ row' st', HasRow f row' x.pre → Marks P x.ev row' st' → st' = st)
    (h : ∃ row, HasRow f row x.pre ∧ (row.status = .pending ∨ row.status = st)) :
    ∃ row, HasRow f row x.post ∧ (row.status = .pending ∨ row.status = st) := by
  obtain ⟨row, hrow, hst⟩ := h
  rcases row_of_change (change_of_mem hr hx) f with heq | ⟨row', -, -, hnone, -⟩ |
    ⟨row', st', hm, hpre, hpost⟩
  · exact ⟨row, heq.trans hrow, hst⟩
  · have h := hnone.symm.trans hrow
    cases h
  · exact ⟨_, hpost, .inr (hwindow row' st' hpre hm)⟩

/-- In its window, a write finds the row pending or with the status it writes. -/
theorem status_of_windows (hr : Run P ca s₀ t js s) (hack : NoAcks t) (hwindows : StatusWindows P t)
    (ht : t = later ++ x :: earlier) {k : Json} {st : Status} {row : FileRow}
    (hev : x.ev = ⟨.markStatus k st, .ok ()⟩) (hkey : bindKey P k = .ok (some row.fileId))
    (hrow : HasRow row.fileId row x.pre) : row.status = .pending ∨ row.status = st := by
  obtain ⟨newer, read, older, hpast, hpending⟩ :=
    pending_of_markStatus hr hack (show x ∈ t by simp [ht]) hev
  obtain ⟨since, y, before, rfl, hjob, -, hyev, -⟩ := hr.exists_of_past_append ht hpast
  have hy : y ∈ t := by simp [ht]
  have hexec := hr.exec_eq hy
  rw [hyev] at hexec
  obtain ⟨hkey', hread⟩ := of_exec_getFile hexec
  have hid : read.fileId = row.fileId := Option.some.inj (Except.ok.inj (hkey'.symm.trans hkey))
  have hpost : HasRow read.fileId read y.post := by
    rw [HasRow, files_of_keepsFiles hr hy (by rw [hyev]; rfl)]
    exact hread
  obtain ⟨row', hrow', hst⟩ := @System.Run.stable_pre _ _ _ _ _ _ _ _ _ _ _ _ _ _
    (fun s => ∃ r, HasRow read.fileId r s ∧ (r.status = .pending ∨ r.status = st)) _ _ hr ht
    (fun w hw => status_step hr (by simp [ht, hw])
      fun row' st' => hwindows later x since y before k read st ht hjob hyev hev w hw row' st')
    ⟨read, hpost, .inl hpending⟩
  rw [hid] at hrow'
  obtain rfl := Option.some.inj (hrow.symm.trans hrow')
  exact hst

/-- **A write in its window keeps what is committed.** -/
theorem kept_of_windows (hr : Run P ca s₀ t js s) (hack : NoAcks t) (hwindows : StatusWindows P t)
    (hx : x ∈ t) {f : PyStr} {row : FileRow} (hrow : HasRow f row x.pre)
    (hterm : row.status.isTerminal = true) : HasRow f row x.post := by
  obtain ⟨later, earlier, ht⟩ := List.append_of_mem hx
  rcases row_of_change (change_of_mem hr hx) f with heq | ⟨row', -, -, hnone, -⟩ |
    ⟨row', st, hm, hpre, hpost⟩
  · exact heq.trans hrow
  · have h := hnone.symm.trans hrow
    cases h
  · obtain rfl := Option.some.inj (hrow.symm.trans hpre)
    obtain rfl := Table.key_of_find? hrow
    have hst : row.status = .pending ∨ row.status = st := by
      rcases hm with ⟨k, hev, hkey⟩ | ⟨cutoff, n, -, -, hpending, -⟩
      · exact status_of_windows hr hack hwindows ht hev hkey hrow
      · exact .inl hpending
    rcases hst with hst | rfl
    · rw [hst] at hterm
      cases hterm
    · exact hpost

/-! ## Runs -/

/-- A committed row is there from then on, as long as nothing writes over terminal statuses. -/
theorem hasRow_of_kept (hr : Run P ca s₀ t js s)
    (hkept : ∀ x ∈ t, ∀ f row, HasRow f row x.pre → row.status.isTerminal = true → HasRow f row x.post)
    (ht : t = later ++ x :: earlier) {f : PyStr} {row : FileRow} (hrow : HasRow f row x.post)
    (hterm : row.status.isTerminal = true) : HasRow f row s :=
  hr.stable ht (fun z hz h => hkept z (by simp [ht, hz]) f row h hterm) hrow

/-- Before a `REVOKE_ACK` the file was revoked, by this request or when it read the row. -/
theorem revoked_before_ack (hr : Run P ca s₀ t js s) (ht : t = later ++ x :: earlier) {f : PyStr}
    (hop : x.ev.op = .send .REVOKE_ACK (revokeAckPayload f)) :
    ∃ since y before row, earlier = since ++ y :: before ∧ HasRow f row y.post ∧
      row.status = .revoked := by
  have heff := hop ▸ effect_of_mem hr (show x ∈ t by simp [ht]) (by rw [hop]; rfl)
  generalize hp : x.past = past, x.label = l, hpay : revokeAckPayload f = payload at heff
  cases heff with
  | @revokeAck session env req row g now htype hg hst =>
    obtain rfl : f = req.fileId := by simpa [revokeAckPayload] using hpay
    obtain @⟨now', -, -, -, -⟩ := hg
    obtain ⟨since, y, before, rfl, -, -, hyev, hypast, -⟩ := hr.exists_of_past ht hp
    have hty : t = (later ++ x :: since) ++ y :: before := by simp [ht]
    have hy : y ∈ t := by simp [ht]
    have hypast' : y.past = [⟨.time, .ok now'⟩] ++
        ⟨.getFile (.str req.fileId), .ok (some row)⟩ :: passedGate env now := hypast
    obtain ⟨since', z, before', rfl, -, -, hzev, -⟩ := hr.exists_of_past_append hty hypast'
    have htz : t = (later ++ x :: since) ++ y :: (since' ++ z :: before') := by simp [ht]
    have hz : z ∈ t := by simp [ht]
    have hexec := hr.exec_eq hz
    rw [hzev] at hexec
    obtain ⟨hkey, hread⟩ := of_exec_getFile hexec
    have hid : row.fileId = req.fileId := Option.some.inj (bindKey_str hkey)
    obtain ⟨st, hrow⟩ := hr.stable_pre htz
      (fun w hw => hasRowButStatus_step hr (by simp [ht, hw]))
      (hasRowButStatus_step hr hz ⟨row.status, hread⟩)
    have hm := marks_of_markStatus hr hy hyev (hid ▸ hrow)
    exact ⟨since, y, since' ++ z :: before', _, rfl,
      row_of_marks (change_of_mem hr hy) (hid ▸ hrow) hm, rfl⟩
  | @revokeAgain session env req row g now htype hg hst =>
    obtain rfl : f = req.fileId := by simpa [revokeAckPayload] using hpay
    obtain @⟨now', -, -, -, -⟩ := hg
    have hp' : x.past = [⟨.time, .ok now'⟩] ++
        ⟨.getFile (.str req.fileId), .ok (some row)⟩ :: passedGate env now := hp
    obtain ⟨since, y, before, rfl, -, -, hyev, -⟩ := hr.exists_of_past_append ht hp'
    have hy : y ∈ t := by simp [ht]
    have hexec := hr.exec_eq hy
    rw [hyev] at hexec
    obtain ⟨hkey, hread⟩ := of_exec_getFile hexec
    have hid : row.fileId = req.fileId := Option.some.inj (bindKey_str hkey)
    refine ⟨since, y, before, row, rfl, ?_, hst⟩
    rw [HasRow, files_of_keepsFiles hr hy (by rw [hyev]; rfl), ← hid]
    exact hread

/-- Where nothing writes over terminal statuses, the replies tell the truth. -/
theorem statusesKept_of_kept (hr : Run P ca s₀ t js s)
    (hkept : ∀ x ∈ t, ∀ f row, HasRow f row x.pre → row.status.isTerminal = true →
      HasRow f row x.post) : StatusesKept t s := by
  refine ⟨hkept, fun later x earlier f ht hop => ?_, fun later x earlier f row ht hrow hst =>
    hasRow_of_kept hr hkept ht hrow (by rw [hst]; rfl)⟩
  obtain ⟨since, y, before, row, rfl, hrow, hst⟩ := revoked_before_ack hr ht hop
  have hterm : row.status.isTerminal = true := by rw [hst]; rfl
  have hty : t = (later ++ x :: since) ++ y :: before := by simp [ht]
  exact ⟨⟨row, hr.stable_pre ht (fun z hz h => hkept z (by simp [ht, hz]) f row h hterm) hrow, hst⟩,
    row, hasRow_of_kept hr hkept hty hrow hterm, hst⟩

/-- A status that is written stays, so none that is written later in a window is another. -/
theorem windows_of_kept (hr : Run P ca s₀ t js s)
    (hkept : ∀ x ∈ t, ∀ f row, HasRow f row x.pre → row.status.isTerminal = true →
      HasRow f row x.post) : StatusWindows P t := by
  intro later x since y earlier k row st ht hjob hyev hev w hw row' st' hrow' hm
  have hwt : w ∈ t := by simp [ht, hw]
  have hx : x ∈ t := by simp [ht]
  have hy : y ∈ t := by simp [ht]
  have hexec := hr.exec_eq hy
  rw [hyev] at hexec
  obtain ⟨hkey, -⟩ := of_exec_getFile hexec
  have hterm : (row'.withStatus st').status.isTerminal = true := by
    rcases terminal_of_marks hr hwt hm with rfl | rfl | rfl <;> rfl
  have hpost : HasRow row.fileId (row'.withStatus st') w.post :=
    row_of_marks (change_of_mem hr hwt) hrow' hm
  obtain ⟨newer, between, rfl⟩ := List.append_of_mem hw
  have htw : t = later ++ x :: (newer ++ w :: (between ++ y :: earlier)) := by simp [ht]
  have hpre : HasRow row.fileId (row'.withStatus st') x.pre :=
    hr.stable_pre htw (fun z hz h => hkept z (by simp [ht, hz]) _ _ h hterm) hpost
  have hxm : Marks P x.ev (row'.withStatus st') st := by
    refine .inl ⟨k, hev, ?_⟩
    rw [hkey, Table.key_of_find? hpre]
  have hfinal := (hkept x hx _ _ hpre hterm).symm.trans
    (row_of_marks (change_of_mem hr hx) hpre hxm)
  exact congrArg FileRow.status (Option.some.inj hfinal)

/-- **No status update is lost exactly if every write comes in its window.**  In every
interleaving of requests and cleanup passes without an acknowledgement: committed statuses
stay and `REVOKE_ACK` tells the truth if, and only if, no other status is committed between the
reading of a row and the writing of a status that followed from it. -/
theorem statusesKept_iff (hr : Run P ca s₀ t js s) (hack : NoAcks t) :
    StatusesKept t s ↔ StatusWindows P t :=
  ⟨fun h => windows_of_kept hr h.kept,
    fun h => statusesKept_of_kept hr fun _ hx _ _ => kept_of_windows hr hack h hx⟩

/-- Whole requests, one after another, write in their windows. -/
theorem statusWindows_of_atomic (hr : Run P ca s₀ t js s) (hack : NoAcks t) (hat : Atomic t) :
    StatusWindows P t := by
  have hlate : ∀ y ∈ t, ¬ LateAck P ca t y := by
    rintro y hy ⟨row, ⟨-, session, env, req, hl, htype, -⟩, -⟩
    have h := hack y hy
    rw [hl, Label.acknowledges, decide_eq_true htype] at h
    cases h
  exact windows_of_kept hr fun x hx f row hrow hterm => terminal_step hr hat hlate hx hterm hrow

/-! ### A race -/

/-- The sample row with its deadline at the time of the sample requests. -/
def sampleDue : ServerState :=
  { sampleStore with files := ⟨[{ sampleRow with expiration := 100 }], List.nodup_singleton _⟩ }

/-- `bob`'s download reads the pending row and the clock; `alice`'s revocation runs from its
start to its `REVOKE_ACK`; the download goes on. -/
def sampleRace : Config Op Op.Res Input ServerState Label (Except PyExn Unit) :=
  samplePlay sampleDue (Move.alone (sampleDownload 1) 0 4 (.quiet 100) ++
    Move.alone (sampleRevoke 2) 1 6 (.quiet 100) ++ List.replicate 2 (.step 0 (.quiet 100)))

theorem run_sampleRace : Run samplePrimitives [1] sampleDue sampleRace.trace sampleRace.jobs
    sampleRace.store := by
  unfold sampleRace
  exact run_samplePlay _ _

theorem sampleRace_checks :
    NoAcks sampleRace.trace ∧
    (∃ x ∈ sampleRace.trace, x.ev.op = .send .REVOKE_ACK (revokeAckPayload sampleId)) ∧
    (sampleRace.store.files.find? sampleId).map FileRow.status = some .expired := by
  decide +kernel

/-- `alice` is told that the file is revoked, and it ends up as expired. -/
theorem not_statusesKept_sampleRace :
    NoAcks sampleRace.trace ∧
      Run samplePrimitives [1] sampleDue sampleRace.trace sampleRace.jobs sampleRace.store ∧
      ¬ StatusesKept sampleRace.trace sampleRace.store := by
  obtain ⟨hack, ⟨x, hx, hop⟩, hst⟩ := sampleRace_checks
  refine ⟨hack, run_sampleRace, fun hkept => ?_⟩
  obtain ⟨later, earlier, ht⟩ := List.append_of_mem hx
  obtain ⟨-, row, hrow, hrevoked⟩ := hkept.revoked _ _ _ _ ht hop
  generalize sampleRace.store = s at hst hrow
  rw [HasRow] at hrow
  rw [hrow, Option.map_some, hrevoked] at hst
  cases hst

/-- `alice`'s revocation, and then `bob`'s download. -/
def sampleRevoked : Config Op Op.Res Input ServerState Label (Except PyExn Unit) :=
  samplePlay sampleDue (Move.alone (sampleRevoke 2) 0 6 (.quiet 100) ++
    Move.alone (sampleDownload 1) 1 5 (.quiet 100))

theorem run_sampleRevoked : Run samplePrimitives [1] sampleDue sampleRevoked.trace
    sampleRevoked.jobs sampleRevoked.store := by
  unfold sampleRevoked
  exact run_samplePlay _ _

theorem sampleRevoked_checks :
    NoAcks sampleRevoked.trace ∧ Atomic sampleRevoked.trace ∧
    ∃ x ∈ sampleRevoked.trace, x.ev.op = .send .REVOKE_ACK (revokeAckPayload sampleId) := by
  decide +kernel

/-- One after the other, the file is revoked when `REVOKE_ACK` is sent, and stays so. -/
theorem statusesKept_sampleRevoked :
    (∃ x ∈ sampleRevoked.trace, x.ev.op = .send .REVOKE_ACK (revokeAckPayload sampleId)) ∧
      StatusesKept sampleRevoked.trace sampleRevoked.store := by
  obtain ⟨hack, hat, hsent⟩ := sampleRevoked_checks
  exact ⟨hsent, (statusesKept_iff run_sampleRevoked hack).mpr
    (statusWindows_of_atomic run_sampleRevoked hack hat)⟩

end Server
end ZeroTrust
