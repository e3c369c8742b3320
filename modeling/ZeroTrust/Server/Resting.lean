import ZeroTrust.Server.Blobs
import ZeroTrust.Server.Delivery
import ZeroTrust.Server.Provenance

/-!
# A file at rest

Between its upload and its download a file only waits.  Any number of requests and cleanup passes
may run meanwhile, interleaved in any way; as long as none of them names the file to upload it, to
acknowledge it or to revoke it, and no clock has come to its expiration, its row stays pending and
its blob stays what it was.

* `stored_of_acknowledged`: an upload that was acknowledged is stored.
* `Label.Concerns`: the requests that could change what is stored of a file.
* `LeftAlone`: no such request ran, and the file has not expired.
* `stored_of_leftAlone`: an upload that was stored is stored still.
-/

namespace ZeroTrust
namespace Server

open Python Effects Data

/-- **What an undisturbed server has acknowledged, it has stored.** -/
theorem stored_of_acknowledged {P : Primitives} {ca : Bytes} {session : Session} {env : Envelope}
    {s : ServerState} {inputs : ℕ → Input} (hund : Undisturbed inputs)
    (htype : env.type = .UPLOAD_REQUEST)
    (hack : ∃ payload,
      (MessageType.UPLOAD_ACK, payload) ∈ sent (serve P ca session env s inputs).hist) :
    ∃ up, parseUpload env.payload = .ok up ∧
      Stored P session (serve P ca session env s inputs).store up := by
  have hrun := wp_solo_iff.mp
    (@wp_handleUploadRequest_ackStored P ca session env (Solo.start s inputs) hund rfl)
  rw [← dispatch_of_upload htype] at hrun
  obtain ⟨payload, hmem⟩ := hack
  exact hrun.resolve_left fun hno => hno payload hmem

/-- A request that names the file, and could change what is stored of it. -/
def Label.Concerns (f : PyStr) : Label → Prop
  | .request _ env =>
      (env.type = .UPLOAD_REQUEST ∨ env.type = .DOWNLOAD_ACK ∨ env.type = .REVOKE_REQUEST) ∧
        dictGet env.payload "file_id" = some (.str f)
  | .cleanup => False

/-- Nothing in the trace could change what is stored of the file, and its expiration has not
come. -/
structure LeftAlone (f : PyStr) (expiration : ℤ) (t : List ServerItem) : Prop where
  requests : ∀ x ∈ t, ¬ x.label.Concerns f
  clock : ∀ x ∈ t, x.input.now < expiration

variable {P : Primitives} {ca : Bytes} {s₀ s : ServerState} {t later earlier : List ServerItem}
  {js : List (Job Op Op.Res Label (Except PyExn Unit))} {x : ServerItem} {session : Session}
  {up : Upload}

/-- A clock that a job has read has not come to the expiration. -/
theorem LeftAlone.lt_of_past {f : PyStr} {expiration : ℤ} (h : LeftAlone f expiration t)
    (hr : Run P ca s₀ t js s) (hx : x ∈ t) {now : ℤ} (hpast : ⟨.time, .ok now⟩ ∈ x.past) :
    now < expiration := by
  obtain ⟨a, y, b, rfl, -, -, hev⟩ := hr.exists_of_mem_past hx hpast
  have hy : y ∈ a ++ y :: b := by simp
  rw [← now_of_time hr hy hev]
  exact h.clock y hy

/-- A signed request that was read concerns its file. -/
theorem concerns_of_parseSignedRequest {env : Envelope} {req : SignedRequest}
    (htype : env.type = .DOWNLOAD_ACK ∨ env.type = .REVOKE_REQUEST)
    (h : parseSignedRequest env.payload = .ok req) :
    (Label.request session env).Concerns req.fileId :=
  ⟨.inr htype, (readFrom_of_parseSignedRequest h).fileId⟩

/-- An upload that was read concerns its file. -/
theorem concerns_of_parseUpload {env : Envelope} (htype : env.type = .UPLOAD_REQUEST)
    (h : parseUpload env.payload = .ok up) : (Label.request session env).Concerns up.fileId :=
  ⟨.inl htype, (readFrom_of_parseUpload h).fileId⟩

/-- **No status is written over a file that is left alone.** -/
theorem not_marks_of_leftAlone (hr : Run P ca s₀ t js s) {row : FileRow} {st : Status}
    (hleft : LeftAlone row.fileId row.expiration t) (h₀ : HasRowButStatus row s₀) (hx : x ∈ t) :
    ¬ Marks P x.ev row st := by
  obtain ⟨later, earlier, ht⟩ := List.append_of_mem hx
  rintro (⟨k, hev, hkey⟩ | ⟨cutoff, n, hev, -, -, hexp⟩)
  · have hop : x.ev.op = .markStatus k st := congrArg Event.op hev
    have heff := hop ▸ effect_of_mem hr hx (by rw [hop]; rfl)
    have hnot := hleft.requests x hx
    generalize hp : x.past = past, x.label = l at heff hnot
    cases heff with
    | @expire session env _ row' now now' htype hrec hst hexp =>
      have hnow : (⟨.time, .ok now'⟩ : Ev) ∈ x.past := by simp [hp]
      have hp' : x.past = [⟨.time, .ok now'⟩] ++ ⟨.getFile k, .ok (some row')⟩ ::
          passedGate env now := hp
      obtain ⟨hkey', y, hy, hrow'⟩ := row_of_getFile hr ht hp'
      have hid : row'.fileId = row.fileId :=
        Option.some.inj (Except.ok.inj (hkey'.symm.trans hkey))
      -- the row that was read has the same expiration
      obtain ⟨a, b, hty⟩ := List.append_of_mem hy
      obtain ⟨st', hrow⟩ := hr.invariant_pre h₀ (fun z hz => hasRowButStatus_step hr hz) hty
      rw [← hid, hrow'] at hrow
      obtain rfl := Option.some.inj hrow
      exact absurd (hleft.lt_of_past hr hx hnow) (not_lt.mpr hexp)
    | markDownloaded htype hproven =>
      obtain ⟨hparse, -, -, -⟩ := hproven
      rw [Option.some.inj (bindKey_str hkey)] at hnot
      exact hnot (concerns_of_parseSignedRequest (.inl htype) hparse)
    | markRevoked htype hproven =>
      obtain ⟨hparse, -, -, -⟩ := hproven
      rw [Option.some.inj (bindKey_str hkey)] at hnot
      exact hnot (concerns_of_parseSignedRequest (.inr htype) hparse)
  · have hop : x.ev.op = .markExpired cutoff := congrArg Event.op hev
    have heff := hop ▸ effect_of_mem hr hx (by rw [hop]; rfl)
    generalize hp : x.past = past, x.label = l at heff
    cases heff with
    | @markExpired now now' m =>
      have hnow : (⟨.time, .ok cutoff⟩ : Ev) ∈ x.past := by simp [hp]
      exact absurd (hleft.lt_of_past hr hx hnow) (not_lt.mpr hexp.le)

/-- The files of an id that is left alone are not written. -/
theorem not_writesBlob_of_leftAlone (hr : Run P ca s₀ t js s) {f : PyStr} {expiration : ℤ}
    (hleft : LeftAlone f expiration t) (hx : x ∈ t) : x.ev.op.writesBlob f = false := by
  rw [← Bool.not_eq_true]
  intro hwrites
  have hnot := hleft.requests x hx
  have hops : ∀ {op : Op}, x.ev.op = op → op.isEffect = true → Effect P ca x.label x.past op :=
    fun h he => h ▸ effect_of_mem hr hx (h ▸ he)
  cases hop : x.ev.op with
  | writeTmp path data =>
    have heff := hops hop rfl
    rw [hop] at hwrites
    generalize x.past = past, x.label = l at heff hnot
    cases heff with
    | writeTmp htype hadm =>
      obtain ⟨⟨-, hparse, -⟩, -⟩ := hadm
      obtain rfl := tmpPathFor_inj (of_decide_eq_true hwrites)
      exact hnot (concerns_of_parseUpload htype hparse)
  | replace src dst =>
    have heff := hops hop rfl
    rw [hop] at hwrites
    generalize x.past = past, x.label = l at heff hnot
    cases heff with
    | replace htype hadm =>
      obtain ⟨⟨-, hparse, -⟩, -⟩ := hadm
      obtain rfl := tmpPathFor_inj (of_decide_eq_true hwrites)
      exact hnot (concerns_of_parseUpload htype hparse)
  | _ =>
    rw [hop] at hwrites
    cases hwrites

/-- A store holds the row of an upload, and its ciphertext. -/
def RestsIn (up : Upload) (row : FileRow) (s : ServerState) : Prop :=
  s.files.find? up.fileId = some row ∧ s.disk (fileBlobPathFor up.fileId) = some up.ciphertext

/-- **A stored upload stays as it is** in every run that leaves it alone. -/
theorem stored_of_leftAlone (hr : Run P ca s₀ t js s) (hcanon : isCanonicalUuid up.fileId = true)
    (hleft : LeftAlone up.fileId up.expirationInt t) (h₀ : Stored P session s₀ up) :
    Stored P session s up := by
  obtain ⟨aad, haad, hrow₀, hblob₀⟩ := h₀
  have hkept : RestsIn up (up.row P session aad) s := by
    refine hr.invariant ⟨hrow₀, hblob₀⟩ ?_
    rintro y hy ⟨hrow, hblob⟩
    refine ⟨?_, ?_⟩
    · rcases row_of_change (change_of_mem hr hy) up.fileId with heq | ⟨new, -, -, hnone, -⟩ |
        ⟨row, st, hm, hpre, -⟩
      · exact heq.trans hrow
      · cases hnone.symm.trans hrow
      · obtain rfl := Option.some.inj (hrow.symm.trans hpre)
        exact absurd hm (not_marks_of_leftAlone hr hleft ⟨.pending, hrow₀⟩ hy)
    · exact (disk_of_not_writesBlob hr hy hcanon (not_writesBlob_of_leftAlone hr hleft hy)).2.trans
        hblob
  exact ⟨aad, haad, hkept⟩

end Server
end ZeroTrust
