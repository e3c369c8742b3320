import ZeroTrust.Common.Transparent
import ZeroTrust.Server.Guarantee

/-!
# Who is served what, under any interleaving

Requests and cleanup passes run one operation at a time in any order.  Two facts hold all
along: file ids are canonical UUIDs, and a row that has left `pending` never comes back to
it.  What a download is answered with follows from what the chokepoint read.

* `Run.canonicalIds`, `Run.settled`: the two invariants over whole runs.
* `Grants`: the clock reading with which the chokepoint lets a download through.
* `granted_before_commit`: no commit of a terminal status precedes the read it rests on.
* `download_response_of_pending_row`: what every `DOWNLOAD_RESPONSE` is built from.
-/

namespace ZeroTrust
namespace Server

open Python Effects Data

/-- An executed operation of a run. -/
abbrev ServerItem := Item Op Op.Res Input ServerState Label

/-- A run of the server from the store `s₀`. -/
abbrev Run (P : Primitives) (ca : Bytes) (s₀ : ServerState) (t : List ServerItem)
    (js : List (Job Op Op.Res Label (Except PyExn Unit))) (s : ServerState) : Prop :=
  (system P ca).Run s₀ t js s

/-- Every row is filed under the canonical text of a UUID. -/
def CanonicalIds (s : ServerState) : Prop :=
  ∀ f row, s.files.find? f = some row → isCanonicalUuid f = true

/-- The file has a row that is no longer pending. -/
def Settled (f : PyStr) (s : ServerState) : Prop :=
  ∃ row, s.files.find? f = some row ∧ row.status ≠ .pending

/-- The operation writes a terminal status over the row of `f`. -/
def Commits (P : Primitives) (f : PyStr) (w : ServerItem) : Prop :=
  ∃ row st, w.pre.files.find? f = some row ∧ Marks P w.ev row st ∧
    (st = .downloaded ∨ st = .revoked ∨ st = .expired)

variable {P : Primitives} {ca : Bytes} {s₀ s : ServerState} {t later earlier : List ServerItem}
  {js : List (Job Op Op.Res Label (Except PyExn Unit))} {x : ServerItem}

/-! ## Single operations -/

theorem change_of_mem (hr : Run P ca s₀ t js s) (hx : x ∈ t) : Change P x.pre x.ev x.post :=
  change_of_exec (hr.exec_eq hx)

theorem effect_of_mem (hr : Run P ca s₀ t js s) (hx : x ∈ t) (he : x.ev.op.isEffect = true) :
    Effect P ca x.label x.past x.ev.op :=
  effect_of_step (hr.guarantee code_guarantee hx) he

/-- The statuses that the handlers write are terminal. -/
theorem Effect.terminal {l : Label} {h : List Ev} {k : Json} {st : Status}
    (he : Effect P ca l h (.markStatus k st)) : st = .downloaded ∨ st = .revoked ∨ st = .expired := by
  cases he with
  | expire _ _ _ _ => exact .inr (.inr rfl)
  | markDownloaded _ _ _ => exact .inl rfl
  | markRevoked _ _ _ => exact .inr (.inl rfl)

/-- The rows that the handlers insert are pending, under canonical ids. -/
theorem Effect.pending {l : Label} {h : List Ev} {row : FileRow}
    (he : Effect P ca l h (.insertFile row)) :
    row.status = .pending ∧ isCanonicalUuid row.fileId = true := by
  cases he with
  | insertFile _ hadm _ =>
    obtain ⟨⟨-, hparse, -⟩, -⟩ := hadm
    exact ⟨rfl, (readFrom_of_parseUpload hparse).canonical⟩

theorem terminal_of_marks (hr : Run P ca s₀ t js s) (hx : x ∈ t) {row : FileRow} {st : Status}
    (hm : Marks P x.ev row st) : st = .downloaded ∨ st = .revoked ∨ st = .expired := by
  rcases hm with ⟨k, hev, -⟩ | ⟨cutoff, n, -, rfl, -, -⟩
  · have hop : x.ev.op = .markStatus k st := congrArg Event.op hev
    exact (hop ▸ effect_of_mem hr hx (by rw [hop]; rfl)).terminal
  · exact .inr (.inr rfl)

theorem insertFile_of_mem (hr : Run P ca s₀ t js s) (hx : x ∈ t) {row : FileRow}
    (hev : x.ev = ⟨.insertFile row, .ok ()⟩) :
    row.status = .pending ∧ isCanonicalUuid row.fileId = true := by
  have hop : x.ev.op = .insertFile row := congrArg Event.op hev
  exact (hop ▸ effect_of_mem hr hx (by rw [hop]; rfl)).pending

/-! ## Invariants -/

theorem canonicalIds_init (pubkeys : PyStr → Option Bytes) : CanonicalIds (.init pubkeys) := by
  intro f row h
  rw [ServerState.init, Table.find?_empty] at h
  cases h

theorem canonicalIds_step (hr : Run P ca s₀ t js s) (hx : x ∈ t) (h : CanonicalIds x.pre) :
    CanonicalIds x.post := by
  intro f row hrow
  rcases row_of_change (change_of_mem hr hx) f with heq | ⟨row', hev, rfl, -, -⟩ |
    ⟨row', st, -, hpre, -⟩
  · exact h f row (heq ▸ hrow)
  · exact (insertFile_of_mem hr hx hev).2
  · exact h f row' hpre

theorem settled_step (hr : Run P ca s₀ t js s) (hx : x ∈ t) {f : PyStr} (h : Settled f x.pre) :
    Settled f x.post := by
  obtain ⟨row, hrow, hst⟩ := h
  rcases row_of_change (change_of_mem hr hx) f with heq | ⟨row', -, -, hnone, -⟩ |
    ⟨row', st, hm, -, hpost⟩
  · exact ⟨row, heq.trans hrow, hst⟩
  · exact absurd (hnone.symm.trans hrow) nofun
  · refine ⟨_, hpost, ?_⟩
    rcases terminal_of_marks hr hx hm with rfl | rfl | rfl <;> exact nofun

/-- File ids are canonical all along. -/
theorem Run.canonicalIds (hr : Run P ca s₀ t js s) (hids : CanonicalIds s₀)
    (ht : t = later ++ x :: earlier) : CanonicalIds x.pre :=
  hr.invariant_pre hids (fun _ hy => canonicalIds_step hr hy) ht

/-- A commit of a terminal status settles the file at once. -/
theorem settled_of_commits (hr : Run P ca s₀ t js s) (hx : x ∈ t) {f : PyStr}
    (hc : Commits P f x) : Settled f x.post := by
  obtain ⟨row, st, hrow, hm, hst⟩ := hc
  have hpost := row_of_marks (change_of_mem hr hx) hrow hm
  refine ⟨_, hpost, ?_⟩
  rcases hst with rfl | rfl | rfl <;> exact nofun

/-! ## Downloads -/

/-- The clock reading with which the chokepoint lets a download of `row` through: the last
thing read before it is the row, which is the peer's, pending, and not yet past the clock. -/
def Grants (session : Session) (row : FileRow) (c : ServerItem) : Prop :=
  ∃ env k now older, c.label = .request session env ∧ env.type = .DOWNLOAD_REQUEST ∧
    c.ev = ⟨.time, .ok now⟩ ∧ c.past = ⟨.getFile k, .ok (some row)⟩ :: older ∧
    row.recipientId = session.peerSubject ∧ row.status = .pending ∧ now < row.expiration

/-- The reading of a row under its own id. -/
def Reads (row : FileRow) (y : ServerItem) : Prop :=
  y.ev = ⟨.getFile (.str row.fileId), .ok (some row)⟩ ∧
    y.pre.files.find? row.fileId = some row

/-- A row that `get_file` has answered with was in the table, under the text it was asked
for. -/
theorem reads_of_getFile (hr : Run P ca s₀ t js s) (hids : CanonicalIds s₀)
    {y : ServerItem} (ht : t = later ++ y :: earlier) {k : Json} {row : FileRow}
    (hev : y.ev = ⟨.getFile k, .ok (some row)⟩) : Reads row y := by
  have hexec := hr.exec_eq (show y ∈ t by simp [ht])
  rw [hev] at hexec
  obtain ⟨hkey, hrow⟩ := of_exec_getFile hexec
  obtain rfl := eq_str_of_bindKey hkey (Run.canonicalIds hr hids ht _ _ hrow)
  exact ⟨hev, hrow⟩

/-- A pending row was read before every commit of a terminal status. -/
theorem not_commits_before_read (hr : Run P ca s₀ t js s) {y : ServerItem}
    (ht : t = later ++ y :: earlier) {row : FileRow} (hread : Reads row y)
    (hst : row.status = .pending) : ∀ w ∈ earlier, ¬ Commits P row.fileId w := by
  intro w hw hc
  obtain ⟨between, before, rfl⟩ := List.append_of_mem hw
  have hsettled : Settled row.fileId y.pre :=
    hr.stable_pre ht
      (fun z hz => settled_step hr (by simp [ht, hz]))
      (settled_of_commits hr (by simp [ht]) hc)
  obtain ⟨row', hrow', hst'⟩ := hsettled
  obtain rfl := Option.some.inj (hread.2.symm.trans hrow')
  exact hst' hst

/-- **No authorisation rests on a read that follows a commit.** -/
theorem granted_before_commit (hr : Run P ca s₀ t js s) (hids : CanonicalIds s₀)
    {c : ServerItem} (ht : t = later ++ c :: earlier) {session : Session} {row : FileRow}
    (hg : Grants session row c) :
    ∃ between y before, earlier = between ++ y :: before ∧ y.job = c.job ∧ Reads row y ∧
      ∀ w ∈ before, ¬ Commits P row.fileId w := by
  obtain ⟨env, k, now, older, -, -, -, hpast, -, hst, -⟩ := hg
  obtain ⟨between, y, before, rfl, hjob, -, hev, -⟩ := hr.exists_of_past ht hpast
  have hty : t = (later ++ c :: between) ++ y :: before := by simp [ht]
  have hread := reads_of_getFile hr hids hty hev
  exact ⟨between, y, before, rfl, hjob, hread, not_commits_before_read hr hty hread hst⟩

/-- A `DOWNLOAD_RESPONSE` is sent after its own job was granted the row it is built from. -/
theorem grants_of_response (hr : Run P ca s₀ t js s) (ht : t = later ++ x :: earlier)
    {session : Session} {env : Envelope} {payload : Obj}
    (hl : x.label = .request session env) (hop : x.ev.op = .send .DOWNLOAD_RESPONSE payload) :
    ∃ since c before k row ciphertext, earlier = since ++ c :: before ∧ c.job = x.job ∧
      Grants session row c ∧ c.past = ⟨.getFile k, .ok (some row)⟩ :: c.past.tail ∧
      payload = downloadPayload k row ciphertext := by
  have heff := hop ▸ effect_of_mem hr (show x ∈ t by simp [ht]) (by rw [hop]; rfl)
  generalize hp : x.past = past at heff
  rw [hl] at heff
  cases heff with
  | @serve _ _ k row ciphertext g now htype hauth =>
    obtain ⟨hrec, hst, hexp⟩ := hauth
    obtain ⟨since, c, before, rfl, hjob, hlabel, hev, hpast⟩ :=
      hr.exists_of_past_append ht (hp.trans (by rfl))
    exact ⟨since, c, before, k, row, ciphertext, rfl, hjob,
      ⟨env, k, _, _, hlabel.trans hl, htype, hev, hpast, hrec, hst, hexp⟩, by rw [hpast]; rfl, rfl⟩

/-- **Who is served what.**  In every interleaving, a `DOWNLOAD_RESPONSE` is built from a
row that its own job read as a pending row of the peer, then compared with a clock below
the row's expiration, and read before every commit of a terminal status of that file.  And
once such a commit has happened, no authorisation that reads the file afterwards
succeeds. -/
theorem download_response_of_pending_row (hr : Run P ca s₀ t js s) (hids : CanonicalIds s₀) :
    (∀ later x earlier session env payload, t = later ++ x :: earlier →
      x.label = .request session env → x.ev.op = .send .DOWNLOAD_RESPONSE payload →
      ∃ row ciphertext since c between y before,
        earlier = since ++ c :: (between ++ y :: before) ∧ c.job = x.job ∧ y.job = x.job ∧
        Grants session row c ∧ Reads row y ∧
        payload = downloadPayload (.str row.fileId) row ciphertext ∧
        ∀ w ∈ before, ¬ Commits P row.fileId w) ∧
    ∀ later c between y between' w earlier,
      t = later ++ c :: (between ++ y :: (between' ++ w :: earlier)) → y.job = c.job →
      c.past = y.ev :: y.past → ∀ k row, y.ev = ⟨.getFile k, .ok (some row)⟩ →
      Commits P row.fileId w → ∀ session row', ¬ Grants session row' c := by
  refine ⟨fun later x earlier session env payload ht hl hop => ?_, ?_⟩
  · obtain ⟨since, c, rest, k, row, ciphertext, rfl, hcjob, hg, hpast, rfl⟩ :=
      grants_of_response hr ht hl hop
    have htc : t = (later ++ x :: since) ++ c :: rest := by simp [ht]
    obtain ⟨between, y, before, rfl, hyjob, -, hev, -⟩ := hr.exists_of_past htc hpast
    have hty : t = (later ++ x :: since ++ c :: between) ++ y :: before := by simp [ht]
    have hread := reads_of_getFile hr hids hty hev
    obtain ⟨env', k', now, older, -, -, -, -, -, hst, -⟩ := id hg
    have hk : Json.str row.fileId = k := by
      have hop := congrArg Event.op (hread.1.symm.trans hev)
      exact Op.getFile.inj hop
    exact ⟨row, ciphertext, since, c, between, y, before, rfl, hcjob, hyjob.trans hcjob, hg, hread,
      by rw [hk], not_commits_before_read hr hty hread hst⟩
  · intro later c between y between' w earlier ht hjob hpast k row hev hc session row' hg
    obtain ⟨env, k', now, older, -, -, -, hpast', -, hst, -⟩ := hg
    have hty : t = (later ++ c :: between) ++ y :: (between' ++ w :: earlier) := by simp [ht]
    have hsame : (⟨.getFile k, .ok (some row)⟩ : Ev) = ⟨.getFile k', .ok (some row')⟩ :=
      hev.symm.trans (List.cons.inj (hpast.symm.trans hpast')).1
    obtain ⟨rfl, hres⟩ : k = k' ∧ _ := by
      injection hsame with h1 h2
      exact ⟨Op.getFile.inj h1, h2⟩
    obtain rfl : row = row' := by simpa using hres
    exact not_commits_before_read hr hty (reads_of_getFile hr hids hty hev) hst w (by simp) hc

/-! ### Sample requests -/

/-- The sample file id. -/
def sampleId : PyStr := py "0b0e7c4e-2f6a-4b59-9c33-5a1d1f0e9a77"

/-- The session of a user whose key has the number of one letter. -/
def sampleSession (subject pem : String) : Session where
  peerSubject := py subject
  peerCert := certFor (py subject) (py pem)

/-- `alice` has the key `A`. -/
def alice : Session := sampleSession "alice" "A"

/-- `bob` has the key `B`. -/
def bob : Session := sampleSession "bob" "B"

/-- The text of `bob`'s certificate in the directory. -/
def bobText : PyStr := dumps (.transparent []) storedOptions (.obj bob.peerCert)

/-- The transparent primitives with `bob`'s certificate. -/
def samplePrimitives : Primitives := .transparent [(bobText, .obj bob.peerCert)]

/-- An empty store with `bob`'s certificate in the directory. -/
def sampleInit : ServerState :=
  .init fun name => if name = py "bob.json" then utf8Encode bobText else none

/-- The directory has that certificate and no other. -/
theorem disk_sampleInit {name : PyStr} {data : Bytes}
    (h : sampleInit.disk ⟨.pubkeys, name⟩ = some data) :
    utf8Decode data = some bobText ∧ name = py "bob.json" := by
  have hdisk : (if name = py "bob.json" then utf8Encode bobText else none) = some data := h
  split_ifs at hdisk with hname
  have hencode : utf8Encode bobText = some (bobText.flatMap utf8Char) := by decide +kernel
  have hdecode : utf8Decode (bobText.flatMap utf8Char) = some bobText := by decide +kernel
  obtain rfl := Option.some.inj (hencode.symm.trans hdisk)
  exact ⟨hdecode, hname⟩

theorem jsonLoads_bobText : samplePrimitives.jsonLoads bobText = .ok (.obj bob.peerCert) := by
  decide +kernel

theorem certCheck_alice :
    CertCheck samplePrimitives [1] alice.peerCert 100 (some alice.peerSubject) :=
  ⟨by decide +kernel, by decide +kernel, by decide +kernel⟩

theorem certCheck_bob : CertCheck samplePrimitives [1] bob.peerCert 100 (some bob.peerSubject) :=
  ⟨by decide +kernel, by decide +kernel, by decide +kernel⟩

/-- What the key with a number signs. -/
def sampleSign (n : UInt8) (canonical : Except PyExn Bytes) : Bytes :=
  match canonical with
  | .ok data => samplePrimitives.pssSign (.numbered n) data []
  | .error _ => []

/-- `alice` uploads a ciphertext for `bob`. -/
def sampleUpload (n : UInt8) (ciphertext : Bytes) : Label :=
  .request alice <| .numbered n .UPLOAD_REQUEST 100 <|
    uploadPayload sampleId (py "bob") ciphertext [3] [2]
      (sampleSign 65 (originCanonical samplePrimitives ⟨py "alice", py "bob", sampleId,
        sha256Hex samplePrimitives ciphertext, sha256Hex samplePrimitives [2], .int 100,
        .int 1000⟩)) 100 1000

/-- `alice` revokes it. -/
def sampleRevoke (n : UInt8) : Label :=
  .request alice <| .numbered n .REVOKE_REQUEST 100 <| signedPayload sampleId 100
    (sampleSign 65 (revokeCanonical samplePrimitives (py "alice") sampleId (.int 100)))

/-- `bob` acknowledges it. -/
def sampleAck (n : UInt8) : Label :=
  .request bob <| .numbered n .DOWNLOAD_ACK 100 <| signedPayload sampleId 100
    (sampleSign 66 (ackCanonical samplePrimitives sampleId (.int 100)))

/-- `bob` asks for it. -/
def sampleDownload (n : UInt8) : Label :=
  .request bob <| .numbered n .DOWNLOAD_REQUEST 100 [(py "file_id", .str sampleId)]

/-- The sample server plays a schedule from a store. -/
def samplePlay (s : ServerState) (moves : List (Move Label Input)) :
    Config Op Op.Res Input ServerState Label (Except PyExn Unit) :=
  (system samplePrimitives [1]).play s moves

theorem run_samplePlay (s : ServerState) (moves : List (Move Label Input)) :
    Run samplePrimitives [1] s (samplePlay s moves).trace (samplePlay s moves).jobs
      (samplePlay s moves).store :=
  (system samplePrimitives [1]).run_play s moves

/-- A pending row of `bob`'s. -/
def sampleRow : FileRow where
  fileId := sampleId
  senderId := py "alice"
  recipientId := py "bob"
  uploadTimestamp := 50
  expiration := 1000
  status := .pending
  ciphertextPath := sampleId ++ py ".bin"
  ciphertextSha256 := sha256Hex samplePrimitives [1]
  wrappedKey := [2]
  aesNonce := [3]
  aesAad := [4]
  senderSignature := [5]
  senderCertJson := []

/-- A store with that row and its blob. -/
def sampleStore : ServerState where
  files := ⟨[sampleRow], List.nodup_singleton _⟩
  nonces := .empty
  acks := .empty
  disk p := if p = fileBlobPathFor sampleId then some [1] else none

/-- `bob`'s download, run alone to its end. -/
def sampleServed : Config Op Op.Res Input ServerState Label (Except PyExn Unit) :=
  samplePlay sampleStore (Move.alone (sampleDownload 1) 0 7 (.quiet 100))

theorem sampleServed_head :
    sampleServed.trace.head?.map (fun x => (x.label, x.ev.op)) = some (sampleDownload 1,
      .send .DOWNLOAD_RESPONSE (downloadPayload (.str sampleId) sampleRow [1])) := by
  decide +kernel

theorem canonicalIds_sampleStore : CanonicalIds sampleStore := by
  intro f row h
  obtain ⟨hmem, rfl⟩ := Table.find?_eq_some_iff.mp h
  obtain rfl := List.mem_singleton.mp hmem
  decide +kernel

/-- The download is answered from the row that was read, before anything was committed. -/
theorem download_response_of_pending_row_sample :
    ∃ x earlier, sampleServed.trace = x :: earlier ∧
      ∃ row ciphertext since c between y before,
        earlier = since ++ c :: (between ++ y :: before) ∧ c.job = x.job ∧ y.job = x.job ∧
        Grants bob row c ∧ Reads row y ∧
        downloadPayload (.str sampleId) sampleRow [1] =
          downloadPayload (.str row.fileId) row ciphertext ∧
        ∀ w ∈ before, ¬ Commits samplePrimitives row.fileId w := by
  obtain ⟨x, hx, hop⟩ := Option.map_eq_some_iff.mp sampleServed_head
  obtain ⟨earlier, ht⟩ := List.head?_eq_some_iff.mp hx
  obtain ⟨hl, hop⟩ := Prod.mk.inj hop
  exact ⟨x, earlier, ht, (download_response_of_pending_row (run_samplePlay _ _)
    canonicalIds_sampleStore).1 [] x earlier _ _ _ ht hl hop⟩

end Server
end ZeroTrust
