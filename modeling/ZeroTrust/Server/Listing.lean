import ZeroTrust.Server.Blobs
import ZeroTrust.Server.Footprint
import ZeroTrust.Server.Lockstep

/-!
# What is listed and what may be downloaded

The rows of a listing are chosen by one SQL query, and the rows that may be downloaded by the
early returns of `_authorise_download`.  Both choose the rows that are visible: the peer's, pending
and not yet expired.  A row that is hidden stays hidden, since its recipient and its expiration
never change and it does not become pending again.

* `Visible`: the row of a file is visible to a user at a time.
* `Replies`: a reply to a `LIST_PENDING`, by the file ids in it; `Downloadable`: a download
  that passes the chokepoint.
* `listed_of_replies`, `downloadable_iff`: both are about visible rows.
* `Hides`: a row keeps what hides it.
* `listing_agrees`: listings and downloads agree, and what is hidden stays hidden.
-/

namespace ZeroTrust
namespace Server

open Python Effects Data

/-- The row of a file is the user's, pending, and not expired. -/
def Visible (s : ServerState) (user : PyStr) (now : ℤ) (f : PyStr) : Prop :=
  ∃ row, s.files.find? f = some row ∧ row.recipientId = user ∧ row.status = .pending ∧
    now < row.expiration

/-- The file id of one entry of a listing. -/
def entryId (entry : Json) : Option Json := entry.asObj.bind fun o => dictGet o "file_id"

/-- The file ids in the payload of a `PENDING_LIST`. -/
def listedIds (payload : Obj) : List Json :=
  match dictGet payload "files" with
  | some (.arr entries) => entries.filterMap entryId
  | _ => []

variable (P : Primitives) (ca : Bytes)

/-- A `LIST_PENDING` that is served from the store `s` at the time `now` is answered with a
`PENDING_LIST` of these file ids. -/
def Replies (session : Session) (s : ServerState) (now : ℤ) (ids : List Json) : Prop :=
  ∃ env inputs payload, env.type = .LIST_PENDING ∧ (inputs 0).now = now ∧
    (.PENDING_LIST, payload) ∈ sent (serve P ca session env s inputs).hist ∧
    listedIds payload = ids

/-- A download of `k` passes the chokepoint. -/
def Downloadable (session : Session) (s : ServerState) (inputs : ℕ → Input) (k : Json) : Prop :=
  ∃ row, ((Solo.start s inputs).run (exec P) (authoriseDownload session k).run).value =
    .ok (.ok row)

variable {P} {ca} {t : Alone} {session : Session} {s₀ s s' : ServerState}
  {tr later earlier : List ServerItem} {js js' : List (Job Op Op.Res Label (Except PyExn Unit))}

/-! ## The listing -/

@[simp] theorem entryId_pendingEntry (row : FileRow) (size : Json) :
    entryId (pendingEntry row size) = some (.str row.fileId) := rfl

/-- The entries are those of the rows, whatever the sizes of the blobs: by induction on the
rows. -/
theorem wp_pendingEntries_ids {rows : List FileRow} :
    wpE (.solo (exec P)) (pendingEntries rows) t fun _ r => ∀ entries, r = .ok entries →
      entries.filterMap entryId = rows.map fun row => Json.str row.fileId := by
  induction rows generalizing t with
  | nil =>
    rintro entries ⟨⟩
    rfl
  | cons row rows ih =>
    rw [pendingEntries, wpE_bind]
    refine wpE_mono _ (wp_solo_iff.mpr trivial) fun t' r (_ : True) => ?_
    cases r with
    | error e => rintro _ ⟨⟩
    | ok size =>
      refine (wpE_bind ..).mpr (wpE_mono _ ih fun t'' r hr => ?_)
      cases r with
      | error e => rintro _ ⟨⟩
      | ok entries =>
        rintro _ ⟨⟩
        rw [List.filterMap_cons_some (entryId_pendingEntry row size), List.map_cons,
          hr entries rfl]

/-- What a message adds to what was sent. -/
theorem mem_sent_of_sendMessage {type : MessageType} {payload : Obj} :
    wpE (.solo (exec P)) (sendMessage type payload) t fun t' _ => ∀ m, m ∈ sent t'.hist →
      m ∈ sent t.hist ∨ m = (type, payload) := by
  rw [sendMessage, wpE_solo_act]
  intro m hm
  change m ∈ sent (⟨_, t.answer (exec P) _⟩ :: t.hist) at hm
  cases hr : t.answer (exec P) (.send type payload) with
  | error e =>
    rw [hr, sent_cons_error] at hm
    exact .inl hm
  | ok u =>
    rw [hr, sent_cons_send, List.mem_append, List.mem_singleton] at hm
    exact hm

/-- **Whatever disturbs a listing**, what is sent lists the visible rows. -/
theorem wp_handleListPending_ids :
    wpE (.solo (exec P)) (handleListPending session) t fun t' _ => ∀ type payload,
      (type, payload) ∈ sent t'.hist → (type, payload) ∈ sent t.hist ∨
        listedIds payload = (pendingRows t.store session.peerSubject (t.inputs 0).now).map
          fun row => Json.str row.fileId := by
  have htime := quietly_next P t .time rfl rfl
  rw [handleListPending, listPendingFor, wpE_bind, wpE_solo_act_bind answer_time, wpE_solo_act]
  have hlist := quietly_next P (t.next (exec P) .time)
    (.listPending session.peerSubject (t.inputs 0).now) rfl rfl
  cases hr : (t.next (exec P) .time).answer (exec P)
      (.listPending session.peerSubject (t.inputs 0).now) with
  | error e =>
    intro type payload hm
    rw [(htime.trans hlist).sent] at hm
    exact .inl hm
  | ok rows =>
    obtain rfl : rows = pendingRows t.store session.peerSubject (t.inputs 0).now := by
      obtain ⟨-, -, h⟩ := bind_eq_ok.mp (of_reading (Prod.ext hr rfl))
      obtain ⟨-, -, h⟩ := bind_eq_ok.mp h
      exact (pure_eq_ok.mp h).symm
    refine (wpE_bind ..).mpr (wpE_mono _ (Prog.wp_and _ wp_pendingEntries_ids
      (wp_quiet (issues_pendingEntries fun row _ => ⟨rfl, rfl⟩))) fun t' r hr => ?_)
    obtain ⟨hids, k, hq⟩ := hr
    have hsent := ((htime.trans hlist).trans hq).sent
    cases r with
    | error e =>
      intro type payload hm
      rw [hsent] at hm
      exact .inl hm
    | ok entries =>
      refine wpE_mono _ mem_sent_of_sendMessage fun t'' _ hadd type payload hm => ?_
      rcases hadd _ hm with hm | hm
      · exact .inl (hsent ▸ hm)
      · obtain ⟨-, rfl⟩ := Prod.mk.inj hm
        exact .inr (hids entries rfl)

/-- **The file ids of a reply** are those of the pending rows. -/
theorem listed_of_replies {now : ℤ} {ids : List Json} (h : Replies P ca session s now ids) :
    ids = (pendingRows s session.peerSubject now).map fun row => Json.str row.fileId := by
  obtain ⟨env, inputs, payload, htype, hnow, hm, rfl⟩ := h
  have hrun := wp_solo_iff.mp (@wp_handleListPending_ids P (.start s inputs) session)
  rw [serve, dispatch, htype] at hm
  rcases hrun _ _ hm with hnil | hids
  · exact absurd hnil List.not_mem_nil
  · rw [hids, ← hnow]
    rfl

theorem nodup_listed (s : ServerState) (user : PyStr) (now : ℤ) :
    ((pendingRows s user now).map fun row => Json.str row.fileId).Nodup := by
  have hsub : ((pendingRows s user now).map FileRow.fileId).Nodup :=
    s.files.nodup.sublist (List.filter_sublist.map _)
  have hmap := hsub.map fun f g (h : Json.str f = Json.str g) => Json.str.inj h
  rw [List.map_map] at hmap
  exact hmap

theorem mem_listed_iff {user : PyStr} {now : ℤ} {k : Json} :
    k ∈ (pendingRows s user now).map (fun row => Json.str row.fileId) ↔
      ∃ f, k = .str f ∧ Visible s user now f := by
  rw [List.mem_map]
  constructor
  · rintro ⟨row, hmem, rfl⟩
    obtain ⟨hmem, hrow⟩ := List.mem_filter.mp hmem
    exact ⟨_, rfl, row, Table.find?_eq_some_iff.mpr ⟨hmem, rfl⟩, of_decide_eq_true hrow⟩
  · rintro ⟨f, rfl, row, hrow, hvis⟩
    obtain ⟨hmem, rfl⟩ := Table.find?_eq_some_iff.mp hrow
    exact ⟨row, List.mem_filter.mpr ⟨hmem, decide_eq_true hvis⟩, rfl⟩

/-! ## The chokepoint -/

/-- **What may be downloaded** is what is visible, under its id as a text. -/
theorem downloadable_iff {inputs : ℕ → Input} (hids : CanonicalIds s) (hund : Undisturbed inputs)
    {now : ℤ} (hnow : (inputs 1).now = now) {k : Json} :
    Downloadable P session s inputs k ↔ ∃ f, k = .str f ∧ Visible s session.peerSubject now f := by
  have hrun : wpE (.solo (exec P)) (authoriseDownload session k) (.start s inputs) fun _ r =>
      ((∃ row, r = .ok (.ok row)) ↔ ∃ f, k = .str f ∧ Visible s session.peerSubject now f) := by
    refine wp_authoriseDownload hund (fun e he t' _ => ?_) fun row t' hget _ _ _ => ?_
    · refine iff_of_false (by simp) ?_
      rintro ⟨f, rfl, row, hrow, -⟩
      have hplain := not_surrogate_of_isPlain (isPlain_of_isCanonicalUuid (hids f row hrow))
      rw [bindKey_of_str hplain] at he
      cases he
    · obtain ⟨key, hkey, rfl⟩ := getFile_eq_ok.mp hget
      have hnow' : ((Solo.start s inputs : Alone).inputs 1).now = now := hnow
      rw [hnow']
      constructor
      · rintro ⟨row, h⟩
        obtain ⟨hfind, hrec, hexp, hst⟩ := downloadVerdict_eq_ok.mp (Except.ok.inj h)
        obtain ⟨f, rfl, hrow⟩ := Option.bind_eq_some_iff.mp hfind
        exact ⟨f, eq_str_of_bindKey hkey (hids f row hrow), row, hrow, hrec, hst, hexp⟩
      · rintro ⟨f, rfl, row, hrow, hrec, hst, hexp⟩
        obtain rfl := bindKey_str hkey
        exact ⟨row, congrArg _ (downloadVerdict_eq_ok.mpr ⟨hrow, hrec, hexp, hst⟩)⟩
  exact wp_solo_iff.mp hrun

/-! ## What is hidden -/

/-- The row of a file has what hides `row` from a user at `now`: its recipient and its expiration,
and it is settled if `row` is. -/
def Hides (row : FileRow) (s : ServerState) : Prop :=
  ∃ row', s.files.find? row.fileId = some row' ∧ row'.recipientId = row.recipientId ∧
    row'.expiration = row.expiration ∧ (row.status ≠ .pending → row'.status ≠ .pending)

theorem hides_self {row : FileRow} {f : PyStr} (h : s.files.find? f = some row) : Hides row s := by
  obtain rfl := Table.key_of_find? h
  exact ⟨row, h, rfl, rfl, id⟩

/-- **What hides a row stays.** -/
theorem hides_step {x : ServerItem} (hr : Run P ca s₀ tr js s) (hx : x ∈ tr) {row : FileRow}
    (h : Hides row x.pre) : Hides row x.post := by
  obtain ⟨row', hrow, hrec, hexp, hst⟩ := h
  rcases row_of_change (change_of_mem hr hx) row.fileId with heq | ⟨new, -, -, hnone, -⟩ |
    ⟨old, st, hm, hold, hpost⟩
  · exact ⟨row', heq.trans hrow, hrec, hexp, hst⟩
  · rw [hnone] at hrow
    cases hrow
  · obtain rfl := Option.some.inj (hrow.symm.trans hold)
    refine ⟨_, hpost, hrec, hexp, fun _ => ?_⟩
    rw [FileRow.withStatus_status]
    rcases terminal_of_marks hr hx hm with rfl | rfl | rfl <;> decide

/-- A row that is hidden is hidden by what stays of it, at every later time. -/
theorem not_visible_of_hides {user : PyStr} {now now' : ℤ} {f : PyStr} {row : FileRow}
    (hrow : s.files.find? f = some row) (hnot : ¬ Visible s user now f) (h : Hides row s')
    (hle : now ≤ now') : ¬ Visible s' user now' f := by
  obtain rfl := Table.key_of_find? hrow
  obtain ⟨row', hrow', hrec, hexp, hst⟩ := h
  rintro ⟨row'', hrow'', hrec', hst', hexp'⟩
  obtain rfl := Option.some.inj (hrow'.symm.trans hrow'')
  refine hnot ⟨row, hrow, hrec.symm.trans hrec', ?_, by omega⟩
  by_contra hne
  exact hst hne hst'

/-- What hides a row after a part of a run hides it after the whole run. -/
theorem hides_of_run {pubkeys : PyStr → Option Bytes} (hr : Run P ca (.init pubkeys) tr js s)
    (hr' : Run P ca (.init pubkeys) (later ++ tr) js' s') {f : PyStr} {row : FileRow}
    (hrow : s.files.find? f = some row) : Hides row s' := by
  cases tr with
  | nil =>
    have hempty : .init pubkeys = s := hr.invariant rfl fun y hy => absurd hy List.not_mem_nil
    rw [← hempty] at hrow
    cases hrow
  | cons x tr =>
    obtain rfl := hr.store_eq_post
    exact hr'.stable rfl (fun y hy => hides_step hr' (List.mem_append_left _ hy)) (hides_self hrow)

/-- **Listing and download agree.**  In every reachable state, what a user's listing lists is,
without duplicates, what the user may download at the same time; and a file that has once been
uploaded and is not listed is not listed later. -/
theorem listing_agrees {pubkeys : PyStr → Option Bytes} (hr : Run P ca (.init pubkeys) tr js s)
    {now : ℤ} {ids : List Json} (hids : Replies P ca session s now ids) :
    ids.Nodup ∧
    (∀ session' inputs k, session'.peerSubject = session.peerSubject → Undisturbed inputs →
      (inputs 1).now = now → (k ∈ ids ↔ Downloadable P session' s inputs k)) ∧
    ∀ later js' s' session' now' ids' f, Run P ca (.init pubkeys) (later ++ tr) js' s' →
      session'.peerSubject = session.peerSubject → now ≤ now' →
      Replies P ca session' s' now' ids' → (s.files.find? f).isSome → .str f ∉ ids → .str f ∉ ids' := by
  have hcanon : CanonicalIds s :=
    hr.invariant (canonicalIds_init pubkeys) fun y hy => canonicalIds_step hr hy
  obtain rfl := listed_of_replies hids
  refine ⟨nodup_listed .., fun session' inputs k huser hund hnow => ?_, ?_⟩
  · rw [mem_listed_iff, downloadable_iff hcanon hund hnow, huser]
  · intro later js' s' session' now' ids' f hr' huser hle hids' hsome hnot hmem
    obtain ⟨row, hrow⟩ := Option.isSome_iff_exists.mp hsome
    rw [mem_listed_iff] at hnot
    rw [listed_of_replies hids', huser, mem_listed_iff] at hmem
    obtain ⟨f', hf, hvis⟩ := hmem
    obtain rfl := Json.str.inj hf
    exact not_visible_of_hides hrow (fun h => hnot ⟨f, rfl, h⟩) (hides_of_run hr hr' hrow) hle hvis

/-! ### An uploaded file -/

theorem sampleUploaded_listed :
    (sent (serve samplePrimitives [1] bob (.numbered 3 .LIST_PENDING 100 []) sampleUploaded.store
      fun _ => sampleInput 100).hist).map (fun m => (m.1, listedIds m.2)) =
    [(.PENDING_LIST, [.str sampleId])] := by
  decide +kernel

theorem replies_sampleUploaded :
    Replies samplePrimitives [1] bob sampleUploaded.store 100 [.str sampleId] := by
  have hmem := List.mem_singleton_self (MessageType.PENDING_LIST, [Json.str sampleId])
  rw [← sampleUploaded_listed] at hmem
  obtain ⟨⟨type, payload⟩, hm, heq⟩ := List.mem_map.mp hmem
  obtain ⟨rfl, hids⟩ := Prod.mk.inj heq
  exact ⟨_, _, payload, rfl, rfl, hm, hids⟩

/-- `bob` may download the file that his listing lists. -/
theorem downloadable_sampleUploaded :
    Downloadable samplePrimitives bob sampleUploaded.store (fun _ => sampleInput 100)
      (.str sampleId) := by
  have hrun := run_sampleUploaded
  unfold sampleInit at hrun
  exact ((listing_agrees hrun replies_sampleUploaded).2.1 bob _ _ rfl
    (undisturbed_sampleInput (by decide)) rfl).mp (List.mem_singleton_self _)

end Server
end ZeroTrust
