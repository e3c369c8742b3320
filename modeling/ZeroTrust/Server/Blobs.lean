import ZeroTrust.Server.Access

/-!
# Rows and blobs

An upload writes a temporary file, moves it over the blob of its file id, and inserts its
row, in this order.  The move comes before the insert can be refused, and the temporary file
is named by the file id alone, which the client chooses.  So a row and its blob agree as long
as two things do not happen: that an upload of another ciphertext moves its blob for an id
that has a row, and that two uploads of one id are under way at the same time.

* `BlobsAgree`: every row has a blob with the hash in the row.
* `Undisturbed`: the two conditions; runs of whole requests meet the second.
* `tmp_at_replace`, `blob_at_insert`: what an upload finds in its files.
* `blobsAgree_of_undisturbed`: rows and blobs agree in every state of an undisturbed run.
-/

namespace ZeroTrust
namespace Server

open Python Effects Data

variable {P : Primitives} {ca : Bytes} {s₀ s : ServerState} {t later earlier : List ServerItem}
  {js : List (Job Op Op.Res Label (Except PyExn Unit))} {x : ServerItem}

/-- The file at `path` has the content `data`. -/
def HasFile (path : Path) (data : Bytes) (s : ServerState) : Prop := s.disk path = some data

/-- Every row has a blob with the hash in the row. -/
def BlobsAgree (P : Primitives) (s : ServerState) : Prop :=
  ∀ f row, s.files.find? f = some row →
    ∃ data, s.disk (fileBlobPathFor f) = some data ∧ sha256Hex P data = row.ciphertextSha256

/-! ## Paths -/

theorem fileBlobPathFor_inj {f f' : PyStr} (h : fileBlobPathFor f = fileBlobPathFor f') :
    f = f' :=
  List.append_cancel_right (Path.mk.inj h).2

theorem tmpPathFor_inj {f f' : PyStr} (h : tmpPathFor f = tmpPathFor f') : f = f' :=
  List.append_cancel_right (List.append_cancel_right (Path.mk.inj h).2)

/-- A temporary file is not a blob. -/
theorem tmpPathFor_ne_fileBlobPathFor {f f' : PyStr} (hf : isCanonicalUuid f = true)
    (hf' : isCanonicalUuid f' = true) : tmpPathFor f ≠ fileBlobPathFor f' := by
  intro h
  have hlen := congrArg List.length (Path.mk.inj h).2
  have hbin : (py ".bin").length = 4 := by decide
  have htmp : (py ".tmp").length = 4 := by decide
  simp only [List.length_append, length_of_isCanonicalUuid hf, length_of_isCanonicalUuid hf',
    hbin, htmp] at hlen
  omega

/-! ## What uploads do to files -/

/-- The operations that write the temporary file or the blob of `f`. -/
def Op.writesBlob (f : PyStr) : Op → Bool
  | .writeTmp path _ => path = tmpPathFor f
  | .replace src _ => src = tmpPathFor f
  | _ => false

theorem Effect.writeTmp_path {l : Label} {h : List Ev} {path : Path} {data : Bytes}
    (he : Effect P ca l h (.writeTmp path data)) :
    ∃ f, isCanonicalUuid f = true ∧ path = tmpPathFor f := by
  cases he with
  | writeTmp _ hadm =>
    obtain ⟨⟨-, hparse, -⟩, -⟩ := hadm
    exact ⟨_, (readFrom_of_parseUpload hparse).canonical, rfl⟩

theorem Effect.replace_path {l : Label} {h : List Ev} {src dst : Path}
    (he : Effect P ca l h (.replace src dst)) :
    ∃ f ciphertext older, isCanonicalUuid f = true ∧ src = tmpPathFor f ∧
      dst = fileBlobPathFor f ∧ h = ⟨.writeTmp (tmpPathFor f) ciphertext, .ok ()⟩ :: older := by
  cases he with
  | replace _ hadm =>
    obtain ⟨⟨-, hparse, -⟩, -⟩ := hadm
    exact ⟨_, _, _, (readFrom_of_parseUpload hparse).canonical, rfl, rfl, rfl⟩

theorem Effect.insertFile_past {l : Label} {h : List Ev} {row : FileRow}
    (he : Effect P ca l h (.insertFile row)) :
    ∃ ciphertext older, isCanonicalUuid row.fileId = true ∧
      row.ciphertextSha256 = sha256Hex P ciphertext ∧
      h = ⟨.replace (tmpPathFor row.fileId) (fileBlobPathFor row.fileId), .ok ()⟩ ::
        ⟨.writeTmp (tmpPathFor row.fileId) ciphertext, .ok ()⟩ :: older := by
  cases he with
  | insertFile _ hadm _ =>
    obtain ⟨⟨-, hparse, -⟩, -⟩ := hadm
    exact ⟨_, _, (readFrom_of_parseUpload hparse).canonical, rfl, rfl⟩

/-- An operation that does not write the files of `f` leaves both as they are. -/
theorem disk_of_not_writesBlob (hr : Run P ca s₀ t js s) (hx : x ∈ t) {f : PyStr}
    (hf : isCanonicalUuid f = true) (hop : x.ev.op.writesBlob f = false) :
    x.post.disk (tmpPathFor f) = x.pre.disk (tmpPathFor f) ∧
      x.post.disk (fileBlobPathFor f) = x.pre.disk (fileBlobPathFor f) := by
  have hch := change_of_mem hr hx
  have hwrite : ∀ path data, x.ev.op = .writeTmp path data → ∃ f', isCanonicalUuid f' = true ∧
      path = tmpPathFor f' :=
    fun path data h => (h ▸ effect_of_mem hr hx (by rw [h]; rfl)).writeTmp_path
  have hmove : ∀ src dst, x.ev.op = .replace src dst → ∃ f', isCanonicalUuid f' = true ∧
      src = tmpPathFor f' ∧ dst = fileBlobPathFor f' := by
    intro src dst h
    obtain ⟨f', -, -, hf', hsrc, hdst, -⟩ := (h ▸ effect_of_mem hr hx (by rw [h]; rfl)).replace_path
    exact ⟨f', hf', hsrc, hdst⟩
  constructor
  · rcases disk_of_change hch (tmpPathFor f) with h | ⟨data, r, hev, -⟩ | ⟨src, data, hev, -, -⟩ |
      ⟨dst, hev⟩
    · exact h
    · rw [hev] at hop
      exact absurd (decide_eq_true rfl) (ne_true_of_eq_false hop)
    · obtain ⟨f', hf', -, hdst⟩ := hmove _ _ (congrArg Event.op hev)
      exact absurd hdst (tmpPathFor_ne_fileBlobPathFor hf hf')
    · rw [hev] at hop
      exact absurd (decide_eq_true rfl) (ne_true_of_eq_false hop)
  · rcases disk_of_change hch (fileBlobPathFor f) with h | ⟨data, r, hev, -⟩ |
      ⟨src, data, hev, -, -⟩ | ⟨dst, hev⟩
    · exact h
    · obtain ⟨f', hf', hpath⟩ := hwrite _ _ (congrArg Event.op hev)
      exact absurd hpath.symm (tmpPathFor_ne_fileBlobPathFor hf' hf)
    · obtain ⟨f', -, rfl, hdst⟩ := hmove _ _ (congrArg Event.op hev)
      rw [hev, ← fileBlobPathFor_inj hdst] at hop
      exact absurd (decide_eq_true rfl) (ne_true_of_eq_false hop)
    · obtain ⟨f', hf', hsrc, -⟩ := hmove _ _ (congrArg Event.op hev)
      exact absurd hsrc.symm (tmpPathFor_ne_fileBlobPathFor hf' hf)

/-! ## Uploads of one id, one after another -/

/-- The upload of job `x.job` writes its temporary file at `w`, and at `x` it moves it or
inserts its row. -/
def Uploads (f : PyStr) (w x : ServerItem) : Prop :=
  w.job = x.job ∧ (∃ ciphertext, w.ev = ⟨.writeTmp (tmpPathFor f) ciphertext, .ok ()⟩) ∧
    (x.ev.op = .replace (tmpPathFor f) (fileBlobPathFor f) ∨
      ∃ row, row.fileId = f ∧ x.ev.op = .insertFile row)

/-- No other job writes the files of an id between an upload's writing of the temporary file
and its insert. -/
def UploadsApart (t : List ServerItem) : Prop :=
  ∀ later x between w earlier f, t = later ++ x :: (between ++ w :: earlier) → Uploads f w x →
    ∀ z ∈ between, z.job ≠ x.job → z.ev.op.writesBlob f = false

/-- An upload that moves its blob finds no row for its id, or one with the hash of its own
ciphertext. -/
def MovesFresh (P : Primitives) (t : List ServerItem) : Prop :=
  ∀ x ∈ t, ∀ f ciphertext older row,
    x.ev.op = .replace (tmpPathFor f) (fileBlobPathFor f) →
    x.past = ⟨.writeTmp (tmpPathFor f) ciphertext, .ok ()⟩ :: older →
    x.pre.files.find? f = some row → row.ciphertextSha256 = sha256Hex P ciphertext

/-- Whole requests one after another keep uploads apart. -/
theorem uploadsApart_of_atomic (hr : Run P ca s₀ t js s) (hat : Atomic t) : UploadsApart t :=
  fun _ _ _ _ _ _ ht hup z hz hne => absurd (hr.job_eq_of_atomic hat ht hup.1 z hz) hne

/-- A file that `w` has written is there until the same upload moves it or inserts its
row, if no other job writes it. -/
theorem hasFile_of_apart (hr : Run P ca s₀ t js s) {between : List ServerItem} {w : ServerItem}
    (ht : t = later ++ x :: (between ++ w :: earlier)) {f : PyStr}
    (hf : isCanonicalUuid f = true) {path : Path} {data : Bytes}
    (hpath : path = tmpPathFor f ∨ path = fileBlobPathFor f)
    (hkeep : ∀ z ∈ between, z.ev.op.writesBlob f = false) (hw : HasFile path data w.post) :
    HasFile path data x.pre := by
  have hstay : ∀ z ∈ between, HasFile path data z.pre → HasFile path data z.post := by
    intro z hz h
    obtain ⟨htmp, hbin⟩ := disk_of_not_writesBlob hr (by simp [ht, hz]) hf (hkeep z hz)
    rcases hpath with rfl | rfl
    · exact htmp.trans h
    · exact hbin.trans h
  exact hr.stable_pre ht hstay hw

/-- What an upload has written is still there when it moves it. -/
theorem tmp_at_replace (hr : Run P ca s₀ t js s) (hap : UploadsApart t)
    (ht : t = later ++ x :: earlier) {f : PyStr} (hf : isCanonicalUuid f = true)
    {ciphertext : Bytes} {older : List Ev}
    (hop : x.ev.op = .replace (tmpPathFor f) (fileBlobPathFor f))
    (hpast : x.past = ⟨.writeTmp (tmpPathFor f) ciphertext, .ok ()⟩ :: older) :
    HasFile (tmpPathFor f) ciphertext x.pre := by
  obtain ⟨since, w, before, rfl, hjob, -, hev, -, hne⟩ := hr.exists_of_past ht hpast
  refine hasFile_of_apart hr ht hf (.inl rfl) (fun z hz => ?_) ?_
  · exact hap _ _ _ _ _ f ht ⟨hjob, ⟨_, hev⟩, .inl hop⟩ z hz (hne z hz)
  · have hch := hev ▸ change_of_mem hr (show w ∈ t by simp [ht])
    generalize w.post = post at hch
    cases hch with
    | read _ hread => exact absurd hread Bool.false_ne_true
    | writeTmp _ _ => exact Function.update_self ..

/-- A successful move puts the content of its source in its place. -/
theorem hasFile_of_replace (hr : Run P ca s₀ t js s) (hx : x ∈ t) {src dst : Path} {data : Bytes}
    (hev : x.ev = ⟨.replace src dst, .ok ()⟩) (hsrc : HasFile src data x.pre) :
    HasFile dst data x.post := by
  have hch := hev ▸ change_of_mem hr hx
  generalize x.post = post at hch
  cases hch with
  | read _ hread => exact absurd hread Bool.false_ne_true
  | replace hd =>
    obtain rfl := Option.some.inj (hd.symm.trans hsrc)
    exact Function.update_self ..

/-- When an upload inserts its row, its ciphertext is in place. -/
theorem blob_at_insert (hr : Run P ca s₀ t js s) (hap : UploadsApart t)
    (ht : t = later ++ x :: earlier) {row : FileRow} (hop : x.ev.op = .insertFile row) :
    ∃ ciphertext, HasFile (fileBlobPathFor row.fileId) ciphertext x.pre ∧
      sha256Hex P ciphertext = row.ciphertextSha256 := by
  have heff := hop ▸ effect_of_mem hr (show x ∈ t by simp [ht]) (by rw [hop]; rfl)
  obtain ⟨ciphertext, older, hf, hsha, hpast⟩ := heff.insertFile_past
  obtain ⟨since, r, before, rfl, hrjob, -, hrev, hrpast, hne⟩ := hr.exists_of_past ht hpast
  have htr : t = (later ++ x :: since) ++ r :: before := by simp [ht]
  have hmoved := hasFile_of_replace hr (by simp [ht]) hrev
    (tmp_at_replace hr hap htr hf (congrArg Event.op hrev) hrpast)
  refine ⟨ciphertext, hasFile_of_apart hr ht hf (.inr rfl) (fun z hz => ?_) hmoved, hsha.symm⟩
  -- The temporary file was written before the move, so the two uploads are apart there too.
  obtain ⟨since', w, before', rfl, hwjob, -, hwev, -, -⟩ := hr.exists_of_past htr hrpast
  have htw : t = later ++ x :: ((since ++ r :: since') ++ w :: before') := by simp [ht]
  exact hap _ _ _ _ _ _ htw ⟨hwjob.trans hrjob, ⟨_, hwev⟩, .inr ⟨row, rfl, hop⟩⟩ z
    (by simp [hz]) (hne z hz)

/-! ## Rows and blobs -/

/-- A blob that agrees with a row still does after an operation. -/
theorem blob_step (hr : Run P ca s₀ t js s) (hap : UploadsApart t) (hfresh : MovesFresh P t)
    (ht : t = later ++ x :: earlier) {f : PyStr} (hf : isCanonicalUuid f = true) {row : FileRow}
    (hrow : x.pre.files.find? f = some row) {data : Bytes}
    (hdata : HasFile (fileBlobPathFor f) data x.pre)
    (hsha : sha256Hex P data = row.ciphertextSha256) :
    ∃ data', HasFile (fileBlobPathFor f) data' x.post ∧
      sha256Hex P data' = row.ciphertextSha256 := by
  have hx : x ∈ t := by simp [ht]
  cases hwrites : x.ev.op.writesBlob f with
  | false =>
    exact ⟨data, (disk_of_not_writesBlob hr hx hf hwrites).2.trans hdata, hsha⟩
  | true =>
    rcases disk_of_change (change_of_mem hr hx) (fileBlobPathFor f) with h | ⟨_, r, hev, -⟩ |
      ⟨src, moved, hev, hsrc, hpost⟩ | ⟨dst, hev⟩
    · exact ⟨data, h.trans hdata, hsha⟩
    · rw [hev] at hwrites
      exact absurd (of_decide_eq_true hwrites).symm (tmpPathFor_ne_fileBlobPathFor hf hf)
    · have hop : x.ev.op = .replace src (fileBlobPathFor f) := congrArg Event.op hev
      obtain ⟨f', ciphertext, older, hf', rfl, hdst, hpast⟩ :=
        (hop ▸ effect_of_mem hr hx (by rw [hop]; rfl)).replace_path
      obtain rfl := fileBlobPathFor_inj hdst
      have htmp := tmp_at_replace hr hap ht hf hop hpast
      obtain rfl := Option.some.inj (hsrc.symm.trans htmp)
      exact ⟨moved, hpost, (hfresh x hx f moved older row hop hpast hrow).symm⟩
    · rw [hev] at hwrites
      exact absurd (of_decide_eq_true hwrites).symm (tmpPathFor_ne_fileBlobPathFor hf hf)

theorem blobsAgree_init (pubkeys : PyStr → Option Bytes) : BlobsAgree P (.init pubkeys) := by
  intro f row h
  rw [ServerState.init, Table.find?_empty] at h
  cases h

theorem blobsAgree_step (hr : Run P ca s₀ t js s) (hids : CanonicalIds s₀) (hap : UploadsApart t)
    (hfresh : MovesFresh P t) (ht : t = later ++ x :: earlier) (h : BlobsAgree P x.pre) :
    BlobsAgree P x.post := by
  have hx : x ∈ t := by simp [ht]
  have hcanon : CanonicalIds x.pre := Run.canonicalIds hr hids ht
  intro f row hrow
  rcases row_of_change (change_of_mem hr hx) f with heq | ⟨row', hev, hid, -, hpost⟩ |
    ⟨row', st, -, hpre, hpost⟩
  · have hpre := heq ▸ hrow
    obtain ⟨data, hdata, hsha⟩ := h f row hpre
    exact blob_step hr hap hfresh ht (hcanon f row hpre) hpre hdata hsha
  · obtain rfl := Option.some.inj (hpost.symm.trans hrow)
    obtain ⟨data, hdata, hsha⟩ := blob_at_insert hr hap ht (congrArg Event.op hev)
    refine ⟨data, ?_, hsha⟩
    have hkeep := disk_of_not_writesBlob hr hx (hid ▸ (insertFile_of_mem hr hx hev).2)
      (show x.ev.op.writesBlob f = false by rw [hev]; rfl)
    rw [hkeep.2, ← hid]
    exact hdata
  · obtain rfl := Option.some.inj (hpost.symm.trans hrow)
    obtain ⟨data, hdata, hsha⟩ := h f row' hpre
    -- A status says nothing about the blob.
    have hafter := blob_step hr hap hfresh ht (hcanon f row' hpre) hpre hdata hsha
    exact hafter

/-- The file has a row whose ciphertext hash is `sha`. -/
def HasHash (f sha : PyStr) (s : ServerState) : Prop :=
  ∃ row, s.files.find? f = some row ∧ row.ciphertextSha256 = sha

theorem hasHash_step (hr : Run P ca s₀ t js s) (hx : x ∈ t) {f sha : PyStr}
    (h : HasHash f sha x.pre) : HasHash f sha x.post := by
  obtain ⟨row, hrow, hsha⟩ := h
  rcases row_of_change (change_of_mem hr hx) f with heq | ⟨row', -, -, hnone, -⟩ |
    ⟨row', st, -, hpre, hpost⟩
  · exact ⟨row, heq.trans hrow, hsha⟩
  · exact absurd (hnone.symm.trans hrow) nofun
  · obtain rfl := Option.some.inj (hpre.symm.trans hrow)
    exact ⟨_, hpost, hsha⟩

/-- **Rows and blobs agree** in every state of a run whose uploads are apart and move their
blobs over no other upload's; and what was once accepted under an id is the blob of that id
from then on. -/
theorem blobsAgree_of_undisturbed (hr : Run P ca s₀ t js s) (hids : CanonicalIds s₀)
    (hagree : BlobsAgree P s₀) (hap : UploadsApart t) (hfresh : MovesFresh P t) :
    BlobsAgree P s ∧ (∀ x ∈ t, BlobsAgree P x.pre) ∧
      ∀ x ∈ t, ∀ f row, x.pre.files.find? f = some row →
        ∃ data, s.disk (fileBlobPathFor f) = some data ∧
          sha256Hex P data = row.ciphertextSha256 := by
  have hstep : ∀ y ∈ t, BlobsAgree P y.pre → BlobsAgree P y.post := by
    intro y hy
    obtain ⟨later, earlier, ht⟩ := List.append_of_mem hy
    exact blobsAgree_step hr hids hap hfresh ht
  have hend : BlobsAgree P s := hr.invariant hagree hstep
  refine ⟨hend, fun x hx => ?_, fun x hx f row hrow => ?_⟩
  · obtain ⟨later, earlier, ht⟩ := List.append_of_mem hx
    exact hr.invariant_pre hagree hstep ht
  · obtain ⟨later, earlier, ht⟩ := List.append_of_mem hx
    have hhash : HasHash f row.ciphertextSha256 s :=
      hr.stable ht (fun z hz => hasHash_step hr (by simp [ht, hz]))
        (hasHash_step hr hx ⟨row, hrow, rfl⟩)
    obtain ⟨row', hrow', hsha⟩ := hhash
    rw [← hsha]
    exact hend f row' hrow'

/-! ### One upload, and another of the same id -/

theorem sampleInit_good : CanonicalIds sampleInit ∧ BlobsAgree samplePrimitives sampleInit := by
  unfold sampleInit
  exact ⟨canonicalIds_init _, blobsAgree_init _⟩

/-- `alice` uploads. -/
def sampleUploaded : Config Op Op.Res Input ServerState Label (Except PyExn Unit) :=
  samplePlay sampleInit (Move.alone (sampleUpload 1 [7]) 0 11 (.quiet 100))

theorem run_sampleUploaded : Run samplePrimitives [1] sampleInit sampleUploaded.trace
    sampleUploaded.jobs sampleUploaded.store := by
  unfold sampleUploaded
  exact run_samplePlay _ _

/-- Whether an operation moves a blob. -/
def Op.moves : Op → Bool
  | .replace _ _ => true
  | _ => false

theorem sampleUploaded_checks :
    Atomic sampleUploaded.trace ∧
    (∀ x ∈ sampleUploaded.trace, x.ev.op.moves = true → x.pre.files.rows = []) ∧
    sampleUploaded.store.files.rows.map FileRow.fileId = [sampleId] := by
  decide +kernel

theorem blobsAgree_sampleUploaded : BlobsAgree samplePrimitives sampleUploaded.store := by
  obtain ⟨hat, hempty, -⟩ := sampleUploaded_checks
  obtain ⟨hids, hagree⟩ := sampleInit_good
  refine (blobsAgree_of_undisturbed run_sampleUploaded hids hagree
    (uploadsApart_of_atomic run_sampleUploaded hat) fun x hx f _ _ row hop _ hrow => ?_).1
  have hmem := (Table.find?_eq_some_iff.mp hrow).1
  rw [hempty x hx (by rw [hop]; rfl)] at hmem
  exact nomatch hmem

/-- `alice` uploads, and then uploads another ciphertext under the same id: the second
upload ends with the exception of its insert. -/
def sampleOverwritten : Config Op Op.Res Input ServerState Label (Except PyExn Unit) :=
  samplePlay sampleInit (Move.alone (sampleUpload 1 [7]) 0 11 (.quiet 100) ++
    Move.alone (sampleUpload 2 [8]) 1 10 (.quiet 100))

theorem run_sampleOverwritten : Run samplePrimitives [1] sampleInit sampleOverwritten.trace
    sampleOverwritten.jobs sampleOverwritten.store := by
  unfold sampleOverwritten
  exact run_samplePlay _ _

theorem sampleOverwritten_checks :
    Atomic sampleOverwritten.trace ∧
    sampleOverwritten.trace.head?.map (fun x => x.ev.res.isOk) = some false ∧
    (sampleOverwritten.store.files.find? sampleId).map FileRow.ciphertextSha256 =
      some (sha256Hex samplePrimitives [7]) ∧
    sampleOverwritten.store.disk (fileBlobPathFor sampleId) = some [8] ∧
    sha256Hex samplePrimitives [8] ≠ sha256Hex samplePrimitives [7] := by
  decide +kernel

/-- The row is the first upload's and the blob the second's. -/
theorem not_blobsAgree_sampleOverwritten :
    Atomic sampleOverwritten.trace ∧ CanonicalIds sampleInit ∧
      BlobsAgree samplePrimitives sampleInit ∧
      Run samplePrimitives [1] sampleInit sampleOverwritten.trace sampleOverwritten.jobs
        sampleOverwritten.store ∧
      ¬ BlobsAgree samplePrimitives sampleOverwritten.store := by
  obtain ⟨hat, -, hsha, hblob, hne⟩ := sampleOverwritten_checks
  obtain ⟨hids, hagree⟩ := sampleInit_good
  refine ⟨hat, hids, hagree, run_sampleOverwritten, fun h => ?_⟩
  generalize sampleOverwritten.store = s at hsha hblob h
  obtain ⟨row, hrow, hrowsha⟩ := Option.map_eq_some_iff.mp hsha
  obtain ⟨data, hdata, hagree⟩ := h sampleId row hrow
  obtain rfl := Option.some.inj (hblob.symm.trans hdata)
  exact hne (hagree.trans hrowsha)

end Server
end ZeroTrust
