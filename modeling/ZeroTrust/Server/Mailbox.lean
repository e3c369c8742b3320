import ZeroTrust.Data.Mailbox
import ZeroTrust.Server.Delivery
import ZeroTrust.Server.Listing

/-!
# The server as a mailbox

What the server is for is said by a mailbox: parcels are deposited, fetched, confirmed, withdrawn
and listed.  The server says it with rows, statuses, blobs, signatures and an order of checks.  For
a request that is served undisturbed the two say the same: it is a command of the mailbox, answered
as the mailbox answers it, or it is refused, or ends its connection, and changes no parcel.  One
request is neither: an upload that reuses an id.

* `Represents`: the rows and the blobs of a store are the parcels of a mailbox.
* `Asks`: the command that a request asks for, if it passes every check; `Reuses`: the uploads that
  break the mailbox.
* `Says`, `Reports`, `Told`: the replies that tell an answer.
* `Mirrored`: a request did what the mailbox does.
* `mirrored_serve`: so does every request that reuses no id.
-/

namespace ZeroTrust
namespace Server

open Python Effects Data

/-- The files of a server, as parcels by their ids; their contents are the payloads of the
responses. -/
abbrev Post := Data.Mailbox PyStr PyStr Obj

/-- How far a file has come, by the column of its row. -/
def statusOf : Phase → Status
  | .waiting => .pending
  | .collected => .downloaded
  | .withdrawn => .revoked
  | .lapsed => .expired

/-- A row and its blob are a parcel. -/
structure Keeps (s : ServerState) (row : FileRow) (p : Parcel PyStr Obj) : Prop where
  sender : row.senderId = p.sender
  recipient : row.recipientId = p.recipient
  deadline : row.expiration = p.deadline
  status : row.status = statusOf p.phase
  content : ∃ blob, s.disk (fileBlobPathFor row.fileId) = some blob ∧
    p.content = downloadPayload (.str row.fileId) row blob

/-- **A store represents a mailbox**: each row, under a canonical id, is the parcel of that id. -/
structure Represents (s : ServerState) (m : Post) : Prop where
  canonical : CanonicalIds s
  keeps : ∀ f, Option.Rel (Keeps s) (s.files.find? f) (m f)

/-! ## What a request asks for -/

section

variable (P : Primitives) (ca : Bytes) (session : Session) (env : Envelope) (inputs : ℕ → Input)
  (s : ServerState)

/-- **The command of a request** that passes every check, and the time at which it is carried
out.  Which clock reading counts is seen for a download only. -/
inductive Asks : ℤ → Command PyStr PyStr Obj → Prop where
  | list : env.type = .LIST_PENDING → Asks (inputs 0).now .list
  | deposit {up : Upload} {cert : Obj} {aad : Bytes} : env.type = .UPLOAD_REQUEST →
      PassesGate env (inputs 0).now s →
      CertCheck P ca session.peerCert (inputs 2).now (some session.peerSubject) →
      parseUpload env.payload = .ok up →
      verifyOriginStruct P session.peerCert up.signature (up.origin P session.peerSubject) =
        .ok true →
      Listed P ca s (.str up.recipient) (inputs 5).now cert →
      aadBytes up.fileId session.peerSubject up.recipient = .ok aad →
      Asks (inputs 0).now
        (.deposit up.fileId up.recipient up.expirationInt (up.response P session aad))
  | fetch {v : Json} {f : PyStr} : env.type = .DOWNLOAD_REQUEST →
      PassesGate env (inputs 0).now s → dictGet env.payload "file_id" = some v →
      bindKey P v = .ok (some f) → Asks (inputs 3).now (.fetch f)
  | confirm {req : SignedRequest} : env.type = .DOWNLOAD_ACK → PassesGate env (inputs 0).now s →
      parseSignedRequest env.payload = .ok req →
      CertCheck P ca session.peerCert (inputs 3).now (some session.peerSubject) →
      verifyAck P session.peerCert req = .ok true → Asks (inputs 0).now (.confirm req.fileId)
  | withdraw {req : SignedRequest} : env.type = .REVOKE_REQUEST →
      PassesGate env (inputs 0).now s → parseSignedRequest env.payload = .ok req →
      CertCheck P ca session.peerCert (inputs 3).now (some session.peerSubject) →
      verifyRevokeStruct P session.peerCert req.signature session.peerSubject req.fileId
        req.timestamp = .ok true →
      Asks (inputs 0).now (.withdraw req.fileId)

/-- **An upload reuses an id**: it passes every check, and a file has its id already.  Its blob
replaces that of the file before its row is refused. -/
inductive Reuses : Prop where
  | taken {up : Upload} {cert : Obj} : PassesGate env (inputs 0).now s →
      CertCheck P ca session.peerCert (inputs 2).now (some session.peerSubject) →
      parseUpload env.payload = .ok up →
      verifyOriginStruct P session.peerCert up.signature (up.origin P session.peerSubject) =
        .ok true →
      Listed P ca s (.str up.recipient) (inputs 5).now cert → s.files.find? up.fileId ≠ none →
      Reuses

end

/-! ## How an answer is told -/

/-- The code that tells a command that it is not carried out. -/
def codeOf : Command PyStr PyStr Obj → Answer PyStr Obj → Option String
  | _, .missing => some "NOT_FOUND"
  | .fetch _, .foreign => some "AUTH_FAILED"
  | _, .foreign => some "NOT_AUTHORIZED"
  | _, .collected => some "ALREADY_DOWNLOADED"
  | _, .withdrawn => some "REVOKED"
  | _, .lapsed => some "EXPIRED"
  | _, _ => none

/-- **The reply that tells an answer.** -/
inductive Says : Command PyStr PyStr Obj → Answer PyStr Obj → MessageType × Obj → Prop where
  | deposited {f recipient : PyStr} {deadline : ℤ} {content : Obj} {v : Json} :
      v.asInt = some deadline → Says (.deposit f recipient deadline content) .done
        (.UPLOAD_ACK, [(py "file_id", .str f), (py "expiration", v)])
  | content {f : PyStr} {content : Obj} :
      Says (.fetch f) (.content content) (.DOWNLOAD_RESPONSE, content)
  | confirmed {f : PyStr} : Says (.confirm f) .done (.ACK_OK, ackOkPayload f)
  | withdrawn {f : PyStr} : Says (.withdraw f) .done (.REVOKE_ACK, revokeAckPayload f)
  | listed {waiting : PyStr → Prop} {payload : Obj} : (listedIds payload).Nodup →
      (∀ k, k ∈ listedIds payload ↔ ∃ f, k = .str f ∧ waiting f) →
      Says .list (.listing waiting) (.PENDING_LIST, payload)
  | refused {command : Command PyStr PyStr Obj} {answer : Answer PyStr Obj} {code : String} :
      codeOf command answer = some code → Says command answer (.ERROR, errorPayload code)

section

variable (P : Primitives) (ca : Bytes) (session : Session) (env : Envelope) (inputs : ℕ → Input)
  (s : ServerState)

/-- The reply to a request tells what was done: its command was carried out for the user of the
session, or it asks for no command, and got an error or the certificate that it asked for. -/
inductive Reports (msg : MessageType × Obj) : Deed PyStr PyStr Obj → Prop where
  | carried {now : ℤ} {command : Command PyStr PyStr Obj} {answer : Answer PyStr Obj} :
      Asks P ca session env inputs s now command → Says command answer msg →
      Reports msg (.carried session.peerSubject now command answer)
  | refused : (∀ now command, ¬ Asks P ca session env inputs s now command) →
      (env.type = .GET_PUBKEY ∧ msg.1 = .PUBKEY_RESPONSE) ∨ msg.1 = .ERROR → Reports msg .refused

/-- What comes of a request: one reply, or an exception that ends the connection. -/
inductive Told : List (MessageType × Obj) → Except PyExn Unit → Deed PyStr PyStr Obj → Prop where
  | reply {msg : MessageType × Obj} {d : Deed PyStr PyStr Obj} :
      Reports P ca session env inputs s msg d → Told [msg] (.ok ()) d
  | ended {e : PyExn} : Hazard P ca session env inputs s → Told [] (.error e) .refused

/-- **A request did what the mailbox does**, and has left the directory of public keys alone. -/
structure Mirrored (m : Post) (t : Alone) (r : Except PyExn Unit) : Prop where
  pubkeys : ∀ name, t.store.disk ⟨.pubkeys, name⟩ = s.disk ⟨.pubkeys, name⟩
  does : ∃ d m', Told P ca session env inputs s (sent t.hist) r d ∧ m.Does d m' ∧
    Represents t.store m'

end

variable {P : Primitives} {ca : Bytes} {s s' : ServerState} {session : Session} {env : Envelope}
  {inputs : ℕ → Input} {t : Alone} {m m' : Post} {f : PyStr} {row : FileRow}
  {p : Parcel PyStr Obj}

/-! ## Stores and mailboxes -/

theorem represents_init (pubkeys : PyStr → Option Bytes) :
    Represents (.init pubkeys) fun _ => none :=
  ⟨canonicalIds_init pubkeys, fun f => by
    rw [ServerState.init, Table.find?_empty]
    exact .none⟩

/-- The parcel of a row. -/
theorem Represents.parcel (h : Represents s m) (hrow : s.files.find? f = some row) :
    ∃ p, m f = some p ∧ Keeps s row p := by
  have hrel := h.keeps f
  rw [hrow] at hrel
  generalize m f = o at hrel
  cases hrel with
  | some hp => exact ⟨_, rfl, hp⟩

/-- The row of a parcel. -/
theorem Represents.fileRow (h : Represents s m) (hp : m f = some p) :
    ∃ row, s.files.find? f = some row ∧ Keeps s row p := by
  have hrel := h.keeps f
  rw [hp] at hrel
  generalize s.files.find? f = o at hrel
  cases hrel with
  | some hrow => exact ⟨_, rfl, hrow⟩

theorem Represents.find?_none (h : Represents s m) (hp : m f = none) : s.files.find? f = none := by
  have hrel := h.keeps f
  rw [hp] at hrel
  generalize s.files.find? f = o at hrel
  cases hrel
  rfl

theorem Represents.none_of_find? (h : Represents s m) (hrow : s.files.find? f = none) :
    m f = none := by
  have hrel := h.keeps f
  rw [hrow] at hrel
  generalize m f = o at hrel
  cases hrel
  rfl

/-- A row and its blob are a parcel wherever the blob is the same. -/
theorem Keeps.of_disk (h : Keeps s row p)
    (hblob : s'.disk (fileBlobPathFor row.fileId) = s.disk (fileBlobPathFor row.fileId)) :
    Keeps s' row p :=
  ⟨h.sender, h.recipient, h.deadline, h.status, hblob ▸ h.content⟩

/-- **One step of both**: each file is as it was, or is again a parcel. -/
theorem Represents.step (h : Represents s m) (hstep : ∀ f,
    (s'.files.find? f = s.files.find? f ∧ m' f = m f ∧ ∀ row, s.files.find? f = some row →
      s'.disk (fileBlobPathFor f) = s.disk (fileBlobPathFor f)) ∨
    ∃ row p, s'.files.find? f = some row ∧ isCanonicalUuid f = true ∧ m' f = some p ∧
      Keeps s' row p) : Represents s' m' := by
  refine ⟨fun f row hrow => ?_, fun f => ?_⟩
  · rcases hstep f with ⟨hsame, -, -⟩ | ⟨-, -, -, hcanon, -, -⟩
    · exact h.canonical f row (hsame ▸ hrow)
    · exact hcanon
  · rcases hstep f with ⟨hrow, hp, hblob⟩ | ⟨row, p, hrow, -, hp, hkeeps⟩
    · rw [hrow, hp]
      cases hfind : s.files.find? f with
      | none =>
        rw [h.none_of_find? hfind]
        exact .none
      | some row =>
        obtain ⟨p, hp, hkeeps⟩ := h.parcel hfind
        rw [hp]
        obtain rfl := Table.key_of_find? hfind
        exact .some (hkeeps.of_disk (hblob row hfind))
    · rw [hrow, hp]
      exact .some hkeeps

/-- Where the rows and the files are the same, so are the parcels. -/
theorem Represents.congr (h : Represents s m) (hfiles : s'.files = s.files)
    (hdisk : s'.disk = s.disk) : Represents s' m :=
  h.step fun _ => .inl ⟨congrArg (Table.find? · _) hfiles, rfl, fun _ _ => congrFun hdisk _⟩

theorem keeps_withStatus (h : Keeps s row p) (phase : Phase) :
    Keeps s (row.withStatus (statusOf phase)) (p.inPhase phase) :=
  ⟨h.sender, h.recipient, h.deadline, rfl, h.content⟩

/-- A status is written over a row, and the parcel has come further. -/
theorem Represents.setStatus (h : Represents s m) (hp : m f = some p) (phase : Phase) :
    Represents (s.setStatus (fun row => some row.fileId = some f) (statusOf phase))
      (m.put f (p.inPhase phase)) := by
  obtain ⟨row, hrow, hkeeps⟩ := h.fileRow hp
  refine h.step fun g => ?_
  rw [find?_setStatus, Mailbox.put_eq]
  by_cases hg : g = f
  · subst hg
    refine .inr ⟨_, _, ?_, h.canonical g row hrow, if_pos rfl,
      (keeps_withStatus hkeeps phase).of_disk rfl⟩
    rw [hrow, Option.map_some, if_pos (by simp [Table.key_of_find? hrow])]
  · refine .inl ⟨?_, if_neg hg, fun _ _ => rfl⟩
    cases hfind : s.files.find? g with
    | none => rfl
    | some row' =>
      rw [Option.map_some, if_neg (by simp [Table.key_of_find? hfind, hg])]

/-- What is overdue expires, and lapses. -/
theorem Represents.markExpired (h : Represents s m) (now : ℤ) :
    Represents (s.setStatus (ServerState.expiredBy now) .expired) (m.sweep now) := by
  refine h.step fun f => ?_
  rw [find?_setStatus, Mailbox.sweep]
  cases hrow : s.files.find? f with
  | none => exact .inl ⟨rfl, by rw [h.none_of_find? hrow]; rfl, fun _ _ => rfl⟩
  | some row =>
    obtain ⟨p, hp, hkeeps⟩ := h.parcel hrow
    have hwaits : row.status = .pending ↔ p.phase = .waiting := by
      rw [hkeeps.status]
      cases p.phase <;> simp [statusOf]
    have hlate : ServerState.expiredBy now row = true ↔ p.phase = .waiting ∧ p.deadline < now := by
      rw [ServerState.expiredBy, decide_eq_true_iff, hwaits, hkeeps.deadline]
    rw [hp, Option.map_some, Option.map_some]
    by_cases hover : p.phase = .waiting ∧ p.deadline < now
    · rw [if_pos (hlate.mpr hover), if_pos hover]
      exact .inr ⟨_, _, rfl, h.canonical f row hrow, rfl,
        (keeps_withStatus hkeeps .lapsed).of_disk rfl⟩
    · rw [if_neg (mt hlate.mp hover), if_neg hover]
      exact .inl ⟨rfl, rfl, fun _ _ => rfl⟩

/-! ## What is not asked for -/

section

variable {now : ℤ} {command : Command PyStr PyStr Obj}

theorem Asks.gate (h : Asks P ca session env inputs s now command)
    (htype : env.type ≠ .LIST_PENDING) : PassesGate env (inputs 0).now s := by
  cases h with
  | list h => exact absurd h htype
  | deposit _ hgate _ _ _ _ _ => exact hgate
  | fetch _ hgate _ _ => exact hgate
  | confirm _ hgate _ _ _ => exact hgate
  | withdraw _ hgate _ _ _ => exact hgate

theorem Asks.upload (h : Asks P ca session env inputs s now command)
    (htype : env.type = .UPLOAD_REQUEST) :
    CertCheck P ca session.peerCert (inputs 2).now (some session.peerSubject) ∧
      ∃ up cert, parseUpload env.payload = .ok up ∧
        verifyOriginStruct P session.peerCert up.signature (up.origin P session.peerSubject) =
          .ok true ∧
        Listed P ca s (.str up.recipient) (inputs 5).now cert := by
  cases h with
  | deposit _ _ hcert hparse hsig hlisted _ => exact ⟨hcert, _, _, hparse, hsig, hlisted⟩
  | list h | fetch h _ _ _ | confirm h _ _ _ _ | withdraw h _ _ _ _ => cases htype.symm.trans h

theorem Asks.download (h : Asks P ca session env inputs s now command)
    (htype : env.type = .DOWNLOAD_REQUEST) :
    ∃ v f, dictGet env.payload "file_id" = some v ∧ bindKey P v = .ok (some f) := by
  cases h with
  | fetch _ _ hid hkey => exact ⟨_, _, hid, hkey⟩
  | list h | deposit h _ _ _ _ _ _ | confirm h _ _ _ _ | withdraw h _ _ _ _ =>
    cases htype.symm.trans h

theorem Asks.ack (h : Asks P ca session env inputs s now command)
    (htype : env.type = .DOWNLOAD_ACK) :
    CertCheck P ca session.peerCert (inputs 3).now (some session.peerSubject) ∧
      ∃ req, command = .confirm req.fileId ∧ parseSignedRequest env.payload = .ok req ∧
        verifyAck P session.peerCert req = .ok true := by
  cases h with
  | confirm _ _ hparse hcert hsig => exact ⟨hcert, _, rfl, hparse, hsig⟩
  | list h | deposit h _ _ _ _ _ _ | fetch h _ _ _ | withdraw h _ _ _ _ =>
    cases htype.symm.trans h

theorem Asks.revoke (h : Asks P ca session env inputs s now command)
    (htype : env.type = .REVOKE_REQUEST) :
    CertCheck P ca session.peerCert (inputs 3).now (some session.peerSubject) ∧
      ∃ req, command = .withdraw req.fileId ∧ parseSignedRequest env.payload = .ok req ∧
        verifyRevokeStruct P session.peerCert req.signature session.peerSubject req.fileId
          req.timestamp = .ok true := by
  cases h with
  | withdraw _ _ hparse hcert hsig => exact ⟨hcert, _, rfl, hparse, hsig⟩
  | list h | deposit h _ _ _ _ _ _ | fetch h _ _ _ | confirm h _ _ _ _ =>
    cases htype.symm.trans h

end

/-! ## The end of a request -/

/-- A request has made of its store what the mailbox makes of its parcels, and has sent nothing
yet. -/
structure Ready (s : ServerState) (m' : Post) (t : Alone) : Prop where
  silent : sent t.hist = []
  pubkeys : ∀ name, t.store.disk ⟨.pubkeys, name⟩ = s.disk ⟨.pubkeys, name⟩
  represents : Represents t.store m'

theorem Underway.ready {k : ℕ} (hq : Underway s inputs k t) (h : Represents s m) : Ready s m t where
  silent := hq.sent
  pubkeys _ := congrFun hq.disk _
  represents := h.congr hq.files hq.disk

/-- A request that ends its connection. -/
theorem Ready.ended {e : PyExn} (hready : Ready s m t)
    (hhazard : Hazard P ca session env inputs s) :
    Mirrored P ca session env inputs s m t (.error e) :=
  ⟨hready.pubkeys, .refused, m, hready.silent ▸ .ended hhazard, .refused, hready.represents⟩

/-- A request that is answered. -/
theorem Ready.replied {msg : MessageType × Obj} {d : Deed PyStr PyStr Obj} {t' : Alone}
    (hready : Ready s m' t) (hreports : Reports P ca session env inputs s msg d)
    (hdoes : m.Does d m') (hstore : t'.store = t.store)
    (hsent : sent t'.hist = sent t.hist ++ [msg]) :
    Mirrored P ca session env inputs s m t' (.ok ()) := by
  refine ⟨fun name => ?_, d, m', ?_, hdoes, hstore ▸ hready.represents⟩
  · rw [hstore, hready.pubkeys]
  · rw [hsent, hready.silent, List.nil_append]
    exact .reply hreports

/-- A reply is sent, or is too long. -/
theorem wp_sendMessage_mirrored {type : MessageType} {payload : Obj} {d : Deed PyStr PyStr Obj}
    (hready : Ready s m' t) (hi : (t.inputs 0).Healthy)
    (hreports : Reports P ca session env inputs s (type, payload) d) (hdoes : m.Does d m')
    (hlong : ¬ Fits P type payload (t.inputs 0) → m' = m ∧ Hazard P ca session env inputs s) :
    wpE (.solo (exec P)) (sendMessage type payload) t
      (Mirrored P ca session env inputs s m) := by
  refine wp_sendMessage hi (fun _ t' hstore hsent => hready.replied hreports hdoes hstore hsent)
    fun hno e t' hstore hsent => ?_
  obtain ⟨rfl, hhazard⟩ := hlong hno
  have hready' : Ready s m' t' := by
    refine ⟨hsent.trans hready.silent, fun name => ?_, hstore ▸ hready.represents⟩
    rw [hstore, hready.pubkeys]
  exact hready'.ended hhazard

/-- A short reply is sent. -/
theorem wp_sendShort_mirrored {type : MessageType} {payload : Obj} {d : Deed PyStr PyStr Obj}
    (hready : Ready s m' t) (hi : (t.inputs 0).Healthy)
    (hreports : Reports P ca session env inputs s (type, payload) d) (hdoes : m.Does d m')
    (hshort : wireLength P (.obj payload) ≤ 60000000) :
    wpE (.solo (exec P)) (sendMessage type payload) t (Mirrored P ca session env inputs s m) :=
  wp_sendMessage_mirrored hready hi hreports hdoes fun hno => absurd (fits_of_le hi hshort) hno

/-- An error is sent. -/
theorem wp_sendError_mirrored {code : String} {d : Deed PyStr PyStr Obj} (hready : Ready s m' t)
    (hi : (t.inputs 0).Healthy) (hcode : (py code).length ≤ 1000)
    (hreports : Reports P ca session env inputs s (.ERROR, errorPayload code) d)
    (hdoes : m.Does d m') :
    wpE (.solo (exec P)) (sendError code) t (Mirrored P ca session env inputs s m) :=
  wp_sendError hi hcode fun _ hstore hsent => hready.replied hreports hdoes hstore hsent

theorem length_codeOf {command : Command PyStr PyStr Obj} {answer : Answer PyStr Obj}
    {code : String} (h : codeOf command answer = some code) : (py code).length ≤ 1000 := by
  unfold codeOf at h
  split at h <;> cases h <;> decide

/-- A command is answered with an error. -/
theorem wp_decline {code : String} {now : ℤ} {command : Command PyStr PyStr Obj}
    {answer : Answer PyStr Obj} (hready : Ready s m' t) (hi : (t.inputs 0).Healthy)
    (hasks : Asks P ca session env inputs s now command)
    (happly : m.apply session.peerSubject now command = (answer, m'))
    (hcode : codeOf command answer = some code) :
    wpE (.solo (exec P)) (sendError code) t (Mirrored P ca session env inputs s m) :=
  wp_sendError_mirrored hready hi (length_codeOf hcode) (.carried hasks (.refused hcode))
    (.carried happly)

/-- A request is turned down with nothing done: it asks for nothing, or the mailbox turns it down
with the same code. -/
theorem wp_turnDown {k : ℕ} {code : String} (hrep : Represents s m) (hund : Undisturbed inputs)
    (hq : Underway s inputs k t) (hcode : (py code).length ≤ 1000)
    (hturn : ∀ now command, Asks P ca session env inputs s now command →
      ∃ answer, m.apply session.peerSubject now command = (answer, m) ∧
        codeOf command answer = some code) :
    wpE (.solo (exec P)) (sendError code) t (Mirrored P ca session env inputs s m) := by
  have hready := hq.ready hrep
  have hi := Underway.healthy hq hund
  by_cases hasks : ∃ now command, Asks P ca session env inputs s now command
  · obtain ⟨now, command, hasks⟩ := hasks
    obtain ⟨answer, happly, hanswer⟩ := hturn now command hasks
    exact wp_decline hready hi hasks happly hanswer
  · exact wp_sendError_mirrored hready hi hcode
      (.refused (fun now command h => hasks ⟨now, command, h⟩) (.inr rfl)) .refused

/-- A request behind the gate. -/
theorem wp_gate_mirrored {body : ServerM Unit} (hrep : Represents s m) (hund : Undisturbed inputs)
    (htype : env.type ≠ .LIST_PENDING)
    (hpass : PassesGate env (inputs 0).now s → ∀ t, Underway s inputs 2 t →
      wpE (.solo (exec P)) body t (Mirrored P ca session env inputs s m)) :
    wpE (.solo (exec P)) (replayGate env body) (.start s inputs)
      (Mirrored P ca session env inputs s m) := by
  have hready : Ready s m (.start s inputs) := Underway.ready (.refl _) hrep
  exact wp_replayGate hund hpass fun hnot _ hstore hsent =>
    hready.replied (.refused (fun _ _ h => hnot (h.gate htype)) (.inr rfl)) .refused hstore hsent

/-! ## Certificates and listings -/

/-- A certificate request asks for no command. -/
theorem wp_handleGetPubkey_mirrored (hrep : Represents s m) (hund : Undisturbed inputs)
    (hkeys : HealthyKeys P ca s) (htype : env.type = .GET_PUBKEY) :
    wpE (.solo (exec P)) (handleGetPubkey P ca env) (.start s inputs)
      (Mirrored P ca session env inputs s m) := by
  have hno : ∀ now command, ¬ Asks P ca session env inputs s now command := by
    rintro now command (h | ⟨h, -⟩ | ⟨h, -⟩ | ⟨h, -⟩ | ⟨h, -⟩) <;> cases htype.symm.trans h
  have hhazard : Hazard P ca session env inputs s = PubkeyHazard P ca env inputs s := by
    rw [Hazard, htype]
  rw [handleGetPubkey, wpE_bind]
  refine wp_loadVerifiedPubkeyCert hund hkeys (fun k t hq _ => ?_) fun cert t hq hfound => ?_
  · exact wp_turnDown hrep hund hq (by decide) fun now command h => absurd h (hno now command)
  · refine wp_sendMessage_mirrored (Underway.ready hq hrep) (Underway.healthy hq hund)
      (.refused hno (.inl ⟨htype, rfl⟩)) .refused fun hlong => ⟨rfl, ?_⟩
    rw [hhazard]
    exact .long hfound (Underway.input hq ▸ hlong)

/-- The parcels that wait for a user are the rows that are visible to it. -/
theorem waits_iff_visible (hrep : Represents s m) {user : PyStr} {now : ℤ} :
    m.Waits user now f ↔ Visible s user now f := by
  have hwaits : ∀ {row : FileRow} {p : Parcel PyStr Obj}, Keeps s row p →
      (p.phase = .waiting ↔ row.status = .pending) := by
    intro row p h
    rw [h.status]
    cases p.phase <;> simp [statusOf]
  constructor
  · rintro ⟨p, hp, hrec, hphase, hnow⟩
    obtain ⟨row, hrow, hkeeps⟩ := hrep.fileRow hp
    exact ⟨row, hrow, hkeeps.recipient.trans hrec, (hwaits hkeeps).mp hphase,
      hkeeps.deadline.symm ▸ hnow⟩
  · rintro ⟨row, hrow, hrec, hst, hnow⟩
    obtain ⟨p, hp, hkeeps⟩ := hrep.parcel hrow
    exact ⟨p, hp, hkeeps.recipient.symm.trans hrec, (hwaits hkeeps).mpr hst,
      hkeeps.deadline ▸ hnow⟩

theorem listedIds_listingPayload (s : ServerState) (user : PyStr) (now : ℤ) :
    listedIds (listingPayload s user now) =
      (pendingRows s user now).map fun row => Json.str row.fileId := by
  show List.filterMap entryId (List.map _ _) = _
  rw [List.filterMap_map]
  exact congrFun List.filterMap_eq_map' _

/-- A listing lists what waits. -/
theorem wp_handleListPending_mirrored (hrep : Represents s m) (hund : Undisturbed inputs)
    (hauth : session.Authenticated P ca) (htype : env.type = .LIST_PENDING) :
    wpE (.solo (exec P)) (handleListPending session) (.start s inputs)
      (Mirrored P ca session env inputs s m) := by
  have hhazard : Hazard P ca session env inputs s = ListHazard P session inputs s := by
    rw [Hazard, htype]
  rw [handleListPending, wpE_bind]
  refine wp_listPendingFor hund (encodable_iff.mp hauth.encodable) fun t hq => (wpE_bind ..).mpr ?_
  refine wp_pendingEntries (hq.undisturbed hund) fun t' hq' => ?_
  have hall : Underway s inputs
      ((pendingRows s session.peerSubject (inputs 0).now).length + 2) t' := by
    rw [Nat.add_comm]
    exact hq.trans hq'
  rw [hq.blobSize]
  refine wp_sendMessage_mirrored (hall.ready hrep) (hall.healthy hund)
    (.carried (.list htype) (.listed ?_ fun k => ?_)) (.carried rfl) fun hlong => ⟨rfl, ?_⟩
  · exact listedIds_listingPayload s _ _ ▸ nodup_listed ..
  · refine (listedIds_listingPayload s _ _ ▸ mem_listed_iff).trans ?_
    exact exists_congr fun f => and_congr_right fun _ => (waits_iff_visible hrep).symm
  · rw [hhazard]
    exact ⟨hall.input ▸ hlong⟩

/-! ## Downloads -/

/-- A status is written over the row of a parcel. -/
theorem ready_markStatus (hready : Ready s m t) (hi : (t.inputs 0).Healthy) (hp : m f = some p)
    {phase : Phase} {st : Status} (hst : statusOf phase = st) :
    t.answer (exec P) (.markStatus (.str f) st) = .ok () ∧
      Ready s (m.put f (p.inPhase phase)) (t.next (exec P) (.markStatus (.str f) st)) := by
  subst hst
  obtain ⟨row, hrow, -⟩ := hready.represents.fileRow hp
  have hcanon := hready.represents.canonical f row hrow
  have hname := not_surrogate_of_isPlain (isPlain_of_isCanonicalUuid hcanon)
  have hst : ∀ text, statusOf phase ≠ .other text := by cases phase <;> simp [statusOf]
  obtain ⟨hanswer, hstore⟩ := answer_markStatus hi.fault (@bindKey_of_str P _ hname) hst
  refine ⟨hanswer, (sent_next rfl).trans hready.silent, fun name => ?_, ?_⟩
  · rw [hstore]
    exact hready.pubkeys name
  · rw [hstore]
    exact hready.represents.setStatus hp phase

/-- What the recipient is given. -/
theorem wp_serveDownload_mirrored (hrep : Represents s m) (hund : Undisturbed inputs)
    (hq : Underway s inputs 4 t) (hrow : s.files.find? f = some row)
    (hkeeps : Keeps s row p) (hasks : Asks P ca session env inputs s (inputs 3).now (.fetch f))
    (happly : m.apply session.peerSubject (inputs 3).now (.fetch f) = (.content p.content, m))
    (hlong : ∀ blob, s.disk (fileBlobPathFor f) = some blob →
      ¬ Fits P .DOWNLOAD_RESPONSE (downloadPayload (.str f) row blob) (inputs 6) →
      Hazard P ca session env inputs s) :
    wpE (.solo (exec P)) (serveDownload P (.str f) row) t
      (Mirrored P ca session env inputs s m) := by
  obtain rfl := Table.key_of_find? hrow
  obtain ⟨blob, hblob, hcontent⟩ := hkeeps.content
  have hi := Underway.healthy hq hund
  have hisFile : t.answer (exec P) (.isFile (fileBlobPathFor row.fileId)) = .ok true := by
    rw [answer_isFile hi.fault, hq.disk]
    exact congrArg Except.ok (hblob ▸ Option.isSome_some)
  have hq₁ : Underway s inputs 5 _ :=
    hq.trans (quietly_next P t (.isFile (fileBlobPathFor row.fileId)) rfl rfl)
  have hread : (t.next (exec P) (.isFile (fileBlobPathFor row.fileId))).answer (exec P)
      (.readBytes (fileBlobPathFor row.fileId)) = .ok blob := by
    have hdisk : _ = s.disk := hq₁.disk
    rw [answer_readBytes (Underway.healthy hq₁ hund).fault, ServerState.readBytes, hdisk, hblob]
  have hq₂ : Underway s inputs 6 _ :=
    hq₁.trans (quietly_next P _ (.readBytes (fileBlobPathFor row.fileId)) rfl rfl)
  unfold serveDownload
  dsimp only [strOf]
  rw [wpE_solo_act_bind hisFile, if_pos rfl, wpE_bind, wpE_attempt, wpE_solo_act, hread]
  refine wp_sendMessage_mirrored (Underway.ready hq₂ hrep) (Underway.healthy hq₂ hund)
    (.carried hasks (hcontent ▸ .content)) (.carried happly) fun hno => ⟨rfl, ?_⟩
  exact hlong blob hblob (Underway.input hq₂ ▸ hno)

/-- **The chokepoint** decides as the mailbox answers a fetch: it hands on the code of the answer,
or the row of a parcel that waits. -/
theorem wp_authoriseDownload_mirrored {v : Json}
    {Q : Alone → Except PyExn (Except String FileRow) → Prop} (hrep : Represents s m)
    (hund : Undisturbed inputs) (hq : Underway s inputs 2 t) (hkey : bindKey P v = .ok (some f))
    (hdecline : ∀ t' m' answer code, Ready s m' t' → (t'.inputs 0).Healthy →
      m.apply session.peerSubject (inputs 3).now (.fetch f) = (answer, m') →
      codeOf (.fetch f) answer = some code → Q t' (.ok (.error code)))
    (hserve : ∀ t' row p, Underway s inputs 4 t' → v = .str f → s.files.find? f = some row →
      Keeps s row p → row.recipientId = session.peerSubject → (inputs 3).now < row.expiration →
      row.status = .pending →
      m.apply session.peerSubject (inputs 3).now (.fetch f) = (.content p.content, m) →
      Q t' (.ok (.ok row))) :
    wpE (.solo (exec P)) (authoriseDownload session v) t Q := by
  have hread : Underway s inputs 3 _ := hq.trans (quietly_next P t (.getFile v) rfl rfl)
  have hanswer : t.answer (exec P) (.getFile v) = .ok (s.files.find? f) :=
    ((answer_getFile (Underway.healthy hq hund).fault).trans (hq.getFile v)).trans
      (getFile_eq_ok.mpr ⟨_, hkey, rfl⟩)
  have hready := Underway.ready hread hrep
  have hi := Underway.healthy hread hund
  rw [authoriseDownload, wpE_solo_act_bind hanswer]
  cases hp : m f with
  | none =>
    rw [hrep.find?_none hp]
    exact hdecline _ m .missing _ hready hi (by simp only [Mailbox.apply, hp]) rfl
  | some p =>
    obtain ⟨row, hrow, hkeeps⟩ := hrep.fileRow hp
    obtain rfl := eq_str_of_bindKey hkey (hrep.canonical f row hrow)
    rw [hrow]
    dsimp only
    by_cases hrec : p.recipient = session.peerSubject
    · have htime : Underway s inputs 4 _ := hread.trans (quietly_next P _ .time rfl rfl)
      have hready := Underway.ready htime hrep
      have hi := Underway.healthy htime hund
      have hnow : ((t.next (exec P) (.getFile (.str f))).inputs 0).now = (inputs 3).now :=
        congrArg Input.now (Underway.input hread)
      rw [hkeeps.recipient, if_neg (not_not.mpr hrec), wpE_solo_act_bind answer_time, hnow,
        hkeeps.deadline]
      by_cases hlate : p.deadline ≤ (inputs 3).now
      · rw [if_pos hlate]
        by_cases hphase : p.phase = .waiting
        · have hst : row.status = .pending := by rw [hkeeps.status, hphase, statusOf]
          obtain ⟨hmark, hmarked⟩ := @ready_markStatus P _ _ _ _ _ hready hi hp .lapsed .expired rfl
          rw [if_pos hst, wpE_solo_act_bind hmark]
          exact hdecline _ _ .lapsed _ hmarked (htime.undisturbed hund 1)
            (by simp [Mailbox.apply, hp, hrec, hlate, hphase]) rfl
        · have hst : row.status ≠ .pending := by
            rw [hkeeps.status]
            cases h : p.phase <;> simp_all [statusOf]
          rw [if_neg hst]
          exact hdecline _ m .lapsed _ hready hi
            (by simp [Mailbox.apply, hp, hrec, hlate, hphase]) rfl
      · rw [if_neg hlate, hkeeps.status]
        cases hphase : p.phase with
        | waiting =>
          exact hserve _ row p htime rfl hrow hkeeps (hkeeps.recipient.trans hrec)
            (hkeeps.deadline ▸ Int.not_le.mp hlate) (by rw [hkeeps.status, hphase, statusOf])
            (by simp [Mailbox.apply, hp, hrec, hlate, hphase])
        | collected =>
          exact hdecline _ m .collected _ hready hi
            (by simp [Mailbox.apply, hp, hrec, hlate, hphase]) rfl
        | withdrawn =>
          exact hdecline _ m .withdrawn _ hready hi
            (by simp [Mailbox.apply, hp, hrec, hlate, hphase]) rfl
        | lapsed =>
          exact hdecline _ m .lapsed _ hready hi
            (by simp [Mailbox.apply, hp, hrec, hlate, hphase]) rfl
    · rw [hkeeps.recipient, if_pos hrec]
      exact hdecline _ m .foreign _ hready hi (by simp [Mailbox.apply, hp, hrec]) rfl

/-- A download is a fetch. -/
theorem wp_handleDownloadRequest_mirrored (hrep : Represents s m) (hund : Undisturbed inputs)
    (htype : env.type = .DOWNLOAD_REQUEST) :
    wpE (.solo (exec P)) (handleDownloadRequest P session env) (.start s inputs)
      (Mirrored P ca session env inputs s m) := by
  have hhazard : Hazard P ca session env inputs s = DownloadHazard P session env inputs s := by
    rw [Hazard, htype]
  refine wp_gate_mirrored hrep hund (by simp [htype]) fun hgate t hq => ?_
  cases hid : dictGet env.payload "file_id" with
  | none =>
    refine wp_turnDown hrep hund hq (by decide) fun now command h => ?_
    obtain ⟨v, f, hv, -⟩ := h.download htype
    cases hid.symm.trans hv
  | some v =>
    have hread : Underway s inputs 3 _ := hq.trans (quietly_next P t (.getFile v) rfl rfl)
    have hanswer : t.answer (exec P) (.getFile v) = s.getFile P v :=
      (answer_getFile (Underway.healthy hq hund).fault).trans (hq.getFile v)
    dsimp only
    rw [wpE_bind]
    cases hkey : bindKey P v with
    | error e =>
      rw [authoriseDownload, wpE_solo_act_bind_error (hanswer.trans (getFile_eq_error.mpr hkey))]
      refine (Underway.ready hread hrep).ended ?_
      rw [hhazard]
      exact .unboundId hgate hid hkey
    | ok key =>
      cases key with
      | none =>
        have hnone : s.getFile P v = .ok none := getFile_eq_ok.mpr ⟨_, hkey, rfl⟩
        rw [authoriseDownload, wpE_solo_act_bind (hanswer.trans hnone)]
        refine wp_turnDown hrep hund hread (by decide) fun now command h => ?_
        obtain ⟨v', f, hv, hkey'⟩ := h.download htype
        obtain rfl := Option.some.inj (hid.symm.trans hv)
        cases hkey.symm.trans hkey'
      | some f =>
        have hasks : Asks P ca session env inputs s (inputs 3).now (.fetch f) :=
          .fetch htype hgate hid hkey
        refine wp_authoriseDownload_mirrored hrep hund hq hkey
          (fun t' m' answer code hready hi happly hcode =>
            wp_decline hready hi hasks happly hcode) ?_
        rintro t' row p hq' rfl hrow hkeeps hrec hexp hst happly
        refine wp_serveDownload_mirrored hrep hund hq' hrow hkeeps hasks happly
          fun blob hblob hlong => ?_
        rw [hhazard]
        exact .long hgate hid (getFile_eq_ok.mpr ⟨_, hkey, hrow⟩) hrec hexp hst hblob hlong

/-! ## Acknowledgements and revocations -/

/-- A status is written, and the reply tells of it. -/
theorem wp_markAndReply_mirrored {type : MessageType} {payload : Obj} {phase : Phase} {st : Status}
    {d : Deed PyStr PyStr Obj} (hready : Ready s m t) (hund : Undisturbed t.inputs)
    (hp : m f = some p) (hst : statusOf phase = st)
    (hreports : Reports P ca session env inputs s (type, payload) d)
    (hdoes : m.Does d (m.put f (p.inPhase phase)))
    (hshort : wireLength P (.obj payload) ≤ 60000000) :
    wpE (.solo (exec P)) (markAndReply f st type payload) t
      (Mirrored P ca session env inputs s m) := by
  obtain ⟨hmark, hmarked⟩ := @ready_markStatus P _ _ _ _ _ hready (hund 0) hp phase st hst
  rw [markAndReply, wpE_bind, wpE_attempt, wpE_solo_act, hmark]
  exact wp_sendShort_mirrored hmarked (hund 1) hreports hdoes hshort

/-- A signed request about a file, up to the certificate check.  What is turned down before it, the
mailbox turns down with the same code. -/
theorem wp_signedRequest_mirrored {owner : FileRow → PyStr}
    {command : PyStr → Command PyStr PyStr Obj} {accept : SignedRequest → FileRow → ServerM Unit}
    (hrep : Represents s m)
    (hund : Undisturbed inputs) (hauth : session.Authenticated P ca) (hq : Underway s inputs 2 t)
    (hasks : ∀ now c, Asks P ca session env inputs s now c →
      CertCheck P ca session.peerCert (inputs 3).now (some session.peerSubject) ∧
        ∃ req, c = command req.fileId ∧ parseSignedRequest env.payload = .ok req)
    (hmissing : ∀ now f, m f = none → ∃ answer,
      m.apply session.peerSubject now (command f) = (answer, m) ∧
        codeOf (command f) answer = some "NOT_FOUND")
    (hforeign : ∀ now f row p, m f = some p → Keeps s row p → owner row ≠ session.peerSubject →
      ∃ answer, m.apply session.peerSubject now (command f) = (answer, m) ∧
        codeOf (command f) answer = some "NOT_AUTHORIZED")
    (haccept : ∀ req row p t', parseSignedRequest env.payload = .ok req →
      s.files.find? req.fileId = some row → m req.fileId = some p → Keeps s row p →
      owner row = session.peerSubject →
      CertCheck P ca session.peerCert (inputs 3).now (some session.peerSubject) →
      Underway s inputs 4 t' →
      wpE (.solo (exec P)) (accept req row) t' (Mirrored P ca session env inputs s m)) :
    wpE (.solo (exec P)) (match parseSignedRequest env.payload with
      | .error e => if isMalformed e then sendError "MALFORMED" else throw e
      | .ok req => do
          match ← act (Op.getFile (.str req.fileId)) with
          | none => sendError "NOT_FOUND"
          | some row =>
              if owner row ≠ session.peerSubject then sendError "NOT_AUTHORIZED"
              else if ← verifyCertificate P (act Op.time) (.obj session.peerCert) ca
                  (some session.peerSubject) then accept req row
              else sendError "AUTH_FAILED") t (Mirrored P ca session env inputs s m) := by
  cases hparse : parseSignedRequest env.payload with
  | error e =>
    dsimp only
    rw [if_pos (raisesMalformed_parseSignedRequest _ e hparse)]
    refine wp_turnDown hrep hund hq (by decide) fun now c h => ?_
    obtain ⟨-, req, -, hreq⟩ := hasks now c h
    cases hparse.symm.trans hreq
  | ok req =>
    have hname := not_surrogate_of_isPlain
      (isPlain_of_isCanonicalUuid (readFrom_of_parseSignedRequest hparse).canonical)
    have hread : Underway s inputs 3 _ :=
      hq.trans (quietly_next P t (.getFile (.str req.fileId)) rfl rfl)
    have hrow : t.answer (exec P) (.getFile (.str req.fileId)) =
        .ok (s.files.find? req.fileId) := by
      rw [answer_getFile (Underway.healthy hq hund).fault, hq.getFile, getFile_of_str hname]
      rfl
    have hsame : ∀ {now c}, Asks P ca session env inputs s now c → c = command req.fileId := by
      intro now c h
      obtain ⟨-, req', rfl, hreq⟩ := hasks now c h
      obtain rfl := Except.ok.inj (hparse.symm.trans hreq)
      rfl
    dsimp only
    rw [wpE_solo_act_bind hrow]
    cases hp : m req.fileId with
    | none =>
      rw [hrep.find?_none hp]
      refine wp_turnDown hrep hund hread (by decide) fun now c h => ?_
      exact hsame h ▸ hmissing now req.fileId hp
    | some p =>
      obtain ⟨row, hfind, hkeeps⟩ := hrep.fileRow hp
      rw [hfind]
      dsimp only
      by_cases howner : owner row = session.peerSubject
      · rw [if_neg (not_not.mpr howner)]
        refine wp_verifySession hauth fun b t' hq' hb => ?_
        rw [Underway.input hread] at hb
        cases b with
        | false =>
          refine wp_turnDown hrep hund (hread.trans hq') (by decide) fun now c h => ?_
          exact absurd (hb.mpr (hasks now c h).1) Bool.false_ne_true
        | true =>
          exact haccept req row p t' hparse hfind hp hkeeps howner (hb.mp rfl) (hread.trans hq')
      · rw [if_pos howner]
        refine wp_turnDown hrep hund hread (by decide) fun now c h => ?_
        exact hsame h ▸ hforeign now req.fileId row p hp hkeeps howner

/-- A revocation is a withdrawal. -/
theorem wp_handleRevokeRequest_mirrored (hrep : Represents s m) (hund : Undisturbed inputs)
    (hauth : session.Authenticated P ca) (htype : env.type = .REVOKE_REQUEST) :
    wpE (.solo (exec P)) (handleRevokeRequest P ca session env) (.start s inputs)
      (Mirrored P ca session env inputs s m) := by
  refine wp_gate_mirrored hrep hund (by simp [htype]) fun hgate t hq => ?_
  refine @wp_signedRequest_mirrored P ca s session env inputs t m FileRow.senderId .withdraw
    (acceptRevoke P session) hrep hund hauth hq (fun now c h => ?_) (fun now f hp => ?_)
    (fun now f row p hp hkeeps hne => ?_)
    fun req row p t' hparse hrow hp hkeeps howner hcert hq' => ?_
  · obtain ⟨hcert, req, hc, hparse, -⟩ := h.revoke htype
    exact ⟨hcert, req, hc, hparse⟩
  · exact ⟨.missing, by simp only [Mailbox.apply, hp], rfl⟩
  · refine ⟨.foreign, ?_, rfl⟩
    simp only [Mailbox.apply, hp]
    rw [if_pos (hkeeps.sender ▸ hne)]
  · have hcanon := (readFrom_of_parseSignedRequest hparse).canonical
    have hi := Underway.healthy hq' hund
    have hready := hq'.ready hrep
    obtain ⟨good, hgood⟩ := @exists_verifyStruct P session.peerCert
      (revokeJson session.peerSubject req.fileId req.timestamp) req.signature hauth.key
    have hverify : verifyRevokeStruct P session.peerCert req.signature session.peerSubject
        req.fileId req.timestamp = .ok good := hgood
    rw [acceptRevoke, wpE_bind, wpE_raising, hverify]
    cases good with
    | false =>
      refine wp_turnDown hrep hund hq' (by decide) fun now c h => ?_
      obtain ⟨-, req', -, hreq, hsig⟩ := h.revoke htype
      obtain rfl := Except.ok.inj (hparse.symm.trans hreq)
      cases hverify.symm.trans hsig
    | true =>
      have hasks : Asks P ca session env inputs s (inputs 0).now (.withdraw req.fileId) :=
        .withdraw htype hgate hparse hcert hverify
      have hstatus := hkeeps.status
      have howner := hkeeps.sender.symm.trans howner
      dsimp only
      rw [if_pos rfl]
      cases hphase : p.phase with
      | waiting =>
        have happly : m.apply session.peerSubject (inputs 0).now (.withdraw req.fileId) =
            (.done, m.put req.fileId (p.inPhase .withdrawn)) := by
          simp [Mailbox.apply, hp, howner, hphase]
        rw [hstatus, hphase]
        exact wp_markAndReply_mirrored hready (hq'.undisturbed hund) hp rfl
          (.carried hasks .withdrawn) (.carried happly) (wireLength_revokeAckPayload hcanon)
      | withdrawn =>
        have happly : m.apply session.peerSubject (inputs 0).now (.withdraw req.fileId) =
            (.done, m) := by
          simp [Mailbox.apply, hp, howner, hphase]
        rw [hstatus, hphase]
        exact wp_sendShort_mirrored hready hi (.carried hasks .withdrawn) (.carried happly)
          (wireLength_revokeAckPayload hcanon)
      | collected =>
        have happly : m.apply session.peerSubject (inputs 0).now (.withdraw req.fileId) =
            (.collected, m) := by
          simp [Mailbox.apply, hp, howner, hphase]
        rw [hstatus, hphase]
        exact wp_decline hready hi hasks happly rfl
      | lapsed =>
        have happly : m.apply session.peerSubject (inputs 0).now (.withdraw req.fileId) =
            (.lapsed, m) := by
          simp [Mailbox.apply, hp, howner, hphase]
        rw [hstatus, hphase]
        exact wp_decline hready hi hasks happly rfl

/-- An acknowledgement is recorded, or was recorded before: the files do not show it. -/
theorem wp_insertAck_ready {ack : AckRow} {Q : Alone → Except PyExn Unit → Prop}
    (hready : Ready s m t) (hi : (t.inputs 0).Healthy) (hname : ack.fileId.any isSurrogate = false)
    (hin : ∀ t', Ready s m t' → t'.inputs = (fun n => t.inputs (n + 1)) → Q t' (.ok ()))
    (hout : ¬ Is64Bit ack.ackTimestamp → ∀ t' e, Ready s m t' → Q t' (.error e)) :
    wpE (.solo (exec P)) (insertAck ack) t Q := by
  have hkept : wpE (.solo (exec P)) (insertAck ack) t fun t' _ => Ready s m t' := by
    refine (@issues_insertAck (· = .insertAck ack) ack rfl).keeps (J := Ready s m) ?_ hready
    rintro t' _ rfl hJ
    have hchange : Change P t'.store ⟨.insertAck ack, t'.answer (exec P) (.insertAck ack)⟩
        (t'.next (exec P) (.insertAck ack)).store := change_of_exec Prod.mk.eta.symm
    have hsame : (t'.next (exec P) (.insertAck ack)).store.files = t'.store.files ∧
        (t'.next (exec P) (.insertAck ack)).store.disk = t'.store.disk := by
      generalize t'.answer (exec P) (.insertAck ack) = r,
        (t'.next (exec P) (.insertAck ack)).store = post at hchange ⊢
      cases hchange with
      | read _ hop => exact absurd hop Bool.false_ne_true
      | raised | insertAck => exact ⟨rfl, rfl⟩
    refine ⟨(sent_next rfl).trans hJ.silent, fun name => ?_, hJ.represents.congr hsame.1 hsame.2⟩
    rw [hsame.2, hJ.pubkeys]
  refine wpE_mono _ (Prog.wp_and _ (wp_insertAck (Q := fun t' r =>
    (r = .ok () ∧ t'.inputs = (fun n => t.inputs (n + 1))) ∨
      ¬ Is64Bit ack.ackTimestamp ∧ r = .error .overflowError) hi hname
    (fun _ t' hinputs _ => .inl ⟨rfl, hinputs⟩) fun hno _ => .inr ⟨hno, rfl⟩) hkept) ?_
  rintro t' r ⟨⟨rfl, hinputs⟩ | ⟨hno, rfl⟩, hready'⟩
  · exact hin t' hready' hinputs
  · exact hout hno t' _ hready'

/-- An acknowledgement is a confirmation. -/
theorem wp_handleDownloadAck_mirrored (hrep : Represents s m) (hund : Undisturbed inputs)
    (hauth : session.Authenticated P ca) (htype : env.type = .DOWNLOAD_ACK) :
    wpE (.solo (exec P)) (handleDownloadAck P ca session env) (.start s inputs)
      (Mirrored P ca session env inputs s m) := by
  refine wp_gate_mirrored hrep hund (by simp [htype]) fun hgate t hq => ?_
  refine @wp_signedRequest_mirrored P ca s session env inputs t m FileRow.recipientId .confirm
    (fun req _ => acceptAck P session req) hrep hund hauth hq (fun now c h => ?_)
    (fun now f hp => ?_) (fun now f row p hp hkeeps hne => ?_)
    fun req row p t' hparse hrow hp hkeeps howner hcert hq' => ?_
  · obtain ⟨hcert, req, hc, hparse, -⟩ := h.ack htype
    exact ⟨hcert, req, hc, hparse⟩
  · exact ⟨.missing, by simp only [Mailbox.apply, hp], rfl⟩
  · refine ⟨.foreign, ?_, rfl⟩
    simp only [Mailbox.apply, hp]
    rw [if_pos (hkeeps.recipient ▸ hne)]
  · have hcanon := (readFrom_of_parseSignedRequest hparse).canonical
    have hname := not_surrogate_of_isPlain (isPlain_of_isCanonicalUuid hcanon)
    have hturn : verifyAck P session.peerCert req ≠ .ok true → ∀ now c,
        Asks P ca session env inputs s now c → ∃ answer,
          m.apply session.peerSubject now c = (answer, m) ∧
            codeOf c answer = some "AUTH_FAILED" := by
      intro hbad now c h
      obtain ⟨-, req', -, hreq, hsig⟩ := h.ack htype
      obtain rfl := Except.ok.inj (hparse.symm.trans hreq)
      exact absurd hsig hbad
    unfold acceptAck
    cases hsig : verifyAck P session.peerCert req with
    | error e => exact wp_turnDown hrep hund hq' (by decide) (hturn (by simp [hsig]))
    | ok good =>
      cases good with
      | false =>
        dsimp only
        rw [wpE_bind, wpE_attempt]
        refine wpE_mono _ (wp_turnDown hrep hund hq' (by decide) (hturn (by simp [hsig])))
          fun t'' r h => ?_
        cases r with
        | ok u => exact h
        | error e =>
          -- The refusal is short, so it is not sent twice.
          obtain ⟨-, d, m', htold, -, -⟩ := h
          generalize sent t''.hist = messages at htold
          cases htold with
          | ended hhazard =>
            rw [Hazard, htype] at hhazard
            obtain ⟨-, hreq, -, -, -, hgood, -⟩ := hhazard
            obtain rfl := Except.ok.inj (hparse.symm.trans hreq)
            cases hsig.symm.trans hgood
      | true =>
        have hasks : Asks P ca session env inputs s (inputs 0).now (.confirm req.fileId) :=
          .confirm htype hgate hparse hcert hsig
        have happly : m.apply session.peerSubject (inputs 0).now (.confirm req.fileId) =
            (.done, m.put req.fileId (p.inPhase .collected)) := by
          simp [Mailbox.apply, hp, hkeeps.recipient.symm.trans howner]
        dsimp only
        refine (wpE_bind ..).mpr (wp_insertAck_ready (hq'.ready hrep) (Underway.healthy hq' hund)
          hname (fun t'' hready hinputs => ?_) fun hno t'' e hready => hready.ended ?_)
        · have hund'' : Undisturbed t''.inputs := by
            rw [hinputs]
            exact (hq'.undisturbed hund).tail
          exact wp_markAndReply_mirrored hready hund'' hp rfl (.carried hasks .confirmed)
            (.carried happly) (wireLength_ackOkPayload hcanon)
        · rw [Hazard, htype]
          exact .refused hgate hparse hrow howner hcert hsig hno

/-! ## Uploads -/

/-- Storing an upload touches the row and the two files of its id, and nothing else. -/
theorem wp_storeUpload_others {up : Upload} :
    wpE (.solo (exec P)) (storeUpload P session up) t fun t' _ =>
      (∀ f, f ≠ up.fileId → t'.store.files.find? f = t.store.files.find? f) ∧
        ∀ path, path ≠ tmpPathFor up.fileId → path ≠ fileBlobPathFor up.fileId →
          t'.store.disk path = t.store.disk path := by
  have hissues : Issues (fun op : Op => (∃ data, op = .writeTmp (tmpPathFor up.fileId) data) ∨
      op = .replace (tmpPathFor up.fileId) (fileBlobPathFor up.fileId) ∨
      ∃ row, row.fileId = up.fileId ∧ op = .insertFile row) (storeUpload P session up) :=
    (issues_act (.inl ⟨_, rfl⟩)).bind fun _ => (issues_act (.inr (.inl rfl))).bind fun _ =>
      (issues_raising _).bind fun _ => issues_act (.inr (.inr ⟨_, rfl, rfl⟩))
  refine hissues.keeps (J := fun t' : Alone =>
    (∀ f, f ≠ up.fileId → t'.store.files.find? f = t.store.files.find? f) ∧
      ∀ path, path ≠ tmpPathFor up.fileId → path ≠ fileBlobPathFor up.fileId →
        t'.store.disk path = t.store.disk path) ?_ ⟨fun _ _ => rfl, fun _ _ _ => rfl⟩
  rintro t' op hop ⟨hrows, hdisk⟩
  have hchange : Change P t'.store ⟨op, t'.answer (exec P) op⟩ (t'.next (exec P) op).store :=
    change_of_exec Prod.mk.eta.symm
  constructor
  · intro f hf
    rw [← hrows f hf]
    rcases row_of_change hchange f with hsame | ⟨row, hev, hid, -, -⟩ | ⟨row, st, hm, -, -⟩
    · exact hsame
    · obtain rfl : op = .insertFile row := congrArg Event.op hev
      rcases hop with ⟨data, h⟩ | h | ⟨row', hid', h⟩
      · cases h
      · cases h
      · obtain rfl := Op.insertFile.inj h
        exact absurd (hid.symm.trans hid') hf
    · rcases hm with ⟨k, hev, -⟩ | ⟨cutoff, n, hev, -⟩
      · obtain rfl : op = .markStatus k st := congrArg Event.op hev
        rcases hop with ⟨data, h⟩ | h | ⟨row', -, h⟩ <;> cases h
      · obtain rfl : op = .markExpired cutoff := congrArg Event.op hev
        rcases hop with ⟨data, h⟩ | h | ⟨row', -, h⟩ <;> cases h
  · intro path htmp hblob
    rw [← hdisk path htmp hblob]
    rcases disk_of_change hchange path with hsame | ⟨data, r, hev, -⟩ | ⟨src, data, hev, -, -⟩ |
      ⟨dst, hev⟩
    · exact hsame
    · obtain rfl : op = .writeTmp path data := congrArg Event.op hev
      rcases hop with ⟨data', h⟩ | h | ⟨row', -, h⟩
      · exact absurd (Op.writeTmp.inj h).1 htmp
      · cases h
      · cases h
    · obtain rfl : op = .replace src path := congrArg Event.op hev
      rcases hop with ⟨data', h⟩ | h | ⟨row', -, h⟩
      · cases h
      · exact absurd (Op.replace.inj h).2 hblob
      · cases h
    · obtain rfl : op = .replace path dst := congrArg Event.op hev
      rcases hop with ⟨data', h⟩ | h | ⟨row', -, h⟩
      · cases h
      · exact absurd (Op.replace.inj h).1 htmp
      · cases h

/-- A stored upload is a parcel that was deposited. -/
theorem Represents.deposit {up : Upload} {aad : Bytes} (h : Represents s m)
    (hcanon : isCanonicalUuid up.fileId = true)
    (hrow : s'.files.find? up.fileId = some (up.row P session aad))
    (hblob : s'.disk (fileBlobPathFor up.fileId) = some up.ciphertext)
    (hrows : ∀ f, f ≠ up.fileId → s'.files.find? f = s.files.find? f)
    (hdisk : ∀ path, path ≠ tmpPathFor up.fileId → path ≠ fileBlobPathFor up.fileId →
      s'.disk path = s.disk path) :
    Represents s' (m.put up.fileId ⟨session.peerSubject, up.recipient, up.expirationInt,
      up.response P session aad, .waiting⟩) := by
  refine h.step fun f => ?_
  rw [Mailbox.put_eq]
  by_cases hf : f = up.fileId
  · subst hf
    exact .inr ⟨_, _, hrow, hcanon, if_pos rfl, rfl, rfl, rfl, rfl, _, hblob, rfl⟩
  · refine .inl ⟨hrows f hf, if_neg hf, fun row hfind => hdisk _ ?_ ?_⟩
    · exact (tmpPathFor_ne_fileBlobPathFor hcanon (h.canonical f row hfind)).symm
    · exact fun h => hf (fileBlobPathFor_inj h)

/-- Where an id is free, what an upload leaves in the two files of the id is no parcel. -/
theorem Represents.leftover {up : Upload} (h : Represents s m)
    (hcanon : isCanonicalUuid up.fileId = true) (hfree : s.files.find? up.fileId = none)
    (hfiles : s'.files = s.files)
    (hdisk : ∀ path, path ≠ tmpPathFor up.fileId → path ≠ fileBlobPathFor up.fileId →
      s'.disk path = s.disk path) : Represents s' m := by
  refine h.step fun f => .inl ⟨by rw [hfiles], rfl, fun row hrow => hdisk _ ?_ ?_⟩
  · exact (tmpPathFor_ne_fileBlobPathFor hcanon (h.canonical f row hrow)).symm
  · intro hsame
    rw [fileBlobPathFor_inj hsame, hfree] at hrow
    cases hrow

/-- Where an upload is not stored, no row is. -/
theorem wp_storeUpload_files {up : Upload} :
    wpE (.solo (exec P)) (storeUpload P session up) t fun t' r =>
      ∀ e, r = .error e → t'.store.files = t.store.files := by
  have hwrite : ∀ {path data},
      (t.next (exec P) (.writeTmp path data)).store.files = t.store.files := by
    intro path data
    have hchange : Change P t.store ⟨.writeTmp path data, t.answer (exec P) (.writeTmp path data)⟩
        (t.next (exec P) (.writeTmp path data)).store := change_of_exec Prod.mk.eta.symm
    generalize t.answer (exec P) (.writeTmp path data) = r,
      (t.next (exec P) (.writeTmp path data)).store = post at hchange ⊢
    cases hchange <;> rfl
  have hmove : ∀ {u : Alone} {src dst}, u.store.files = t.store.files →
      (u.next (exec P) (.replace src dst)).store.files = t.store.files := by
    intro u src dst hu
    have hchange : Change P u.store ⟨.replace src dst, u.answer (exec P) (.replace src dst)⟩
        (u.next (exec P) (.replace src dst)).store := change_of_exec Prod.mk.eta.symm
    generalize u.answer (exec P) (.replace src dst) = r,
      (u.next (exec P) (.replace src dst)).store = post at hchange ⊢
    cases hchange <;> exact hu
  have hinsert : ∀ {u : Alone} {row e}, u.store.files = t.store.files →
      u.answer (exec P) (.insertFile row) = .error e →
      (u.next (exec P) (.insertFile row)).store.files = t.store.files := by
    intro u row e hu he
    have hchange : Change P u.store ⟨.insertFile row, .error e⟩
        (u.next (exec P) (.insertFile row)).store := he ▸ change_of_exec Prod.mk.eta.symm
    generalize (u.next (exec P) (.insertFile row)).store = post at hchange ⊢
    cases hchange <;> exact hu
  rw [storeUpload, wpE_bind, wpE_solo_act]
  cases t.answer (exec P) (.writeTmp (tmpPathFor up.fileId) up.ciphertext) with
  | error e => exact fun _ _ => hwrite
  | ok u =>
    dsimp only
    rw [wpE_bind, wpE_solo_act]
    split
    · rw [wpE_bind, wpE_raising]
      split
      · rw [wpE_solo_act]
        exact fun e he => hinsert (hmove hwrite) he
      · exact fun _ _ => hmove hwrite
    · exact fun _ _ => hmove hwrite

/-- An upload is stored, and the parcel is deposited; or one of its numbers cannot be bound. -/
theorem wp_storeAndReply_mirrored {up : Upload} (hrep : Represents s m) (hund : Undisturbed inputs)
    (hauth : session.Authenticated P ca) (hfloat : ∀ x, Encodable (P.floatRepr x))
    (hread : up.ReadFrom env.payload) (hq : Underway s inputs 7 t)
    (hfree : s.files.find? up.fileId = none)
    (hasks : ∀ aad, aadBytes up.fileId session.peerSubject up.recipient = .ok aad →
      Asks P ca session env inputs s (inputs 0).now
        (.deposit up.fileId up.recipient up.expirationInt (up.response P session aad)))
    (hhazard : Unstorable s up → Hazard P ca session env inputs s) :
    wpE (.solo (exec P)) (do
      match ← attempt (storeUpload P session up) with
      | .ok _ => sendMessage .UPLOAD_ACK up.ackPayload
      | .error .osError => sendError "INTERNAL_ERROR"
      | .error e => throw e) t (Mirrored P ca session env inputs s m) := by
  obtain ⟨aad, haad⟩ := exists_aadBytes
    (encodable_of_isPlain (isPlain_of_isCanonicalUuid hread.canonical)) hauth.encodable
    (encodable_of_isPlain (isPlain_of_validUsername hread.username))
  have happly : m.apply session.peerSubject (inputs 0).now (.deposit up.fileId up.recipient
      up.expirationInt (up.response P session aad)) = (.done, m.put up.fileId
        ⟨session.peerSubject, up.recipient, up.expirationInt, up.response P session aad,
          .waiting⟩) := by
    simp only [Mailbox.apply, hrep.none_of_find? hfree]
  have hstorable : Storable P session t.store up ↔ ¬ Unstorable s up := by
    rw [Storable, hq.files]
    exact storable_iff haad (bindFileRow_row hauth hfloat hread)
  have hund' := hq.undisturbed hund
  rw [wpE_bind, wpE_attempt]
  refine wpE_mono _ (Prog.wp_and _ (wp_storeUpload (Q := fun t' r => sent t'.hist = [] ∧
    ((r = .ok () ∧ ¬ Unstorable s up ∧ Stored P session t'.store up ∧ Undisturbed t'.inputs) ∨
      (∃ e, r = .error e ∧ e ≠ .osError) ∧ Unstorable s up)) hund'
    (fun hgood t' hstored hinputs hsent => ⟨hsent.trans hq.sent, .inl ⟨rfl,
      hstorable.mp hgood, hstored, hinputs ▸ fun n => hund' (n + 3)⟩⟩)
    fun hbad e hne t' hsent => ⟨hsent.trans hq.sent, .inr ⟨⟨e, rfl, hne⟩,
      not_not.mp (mt hstorable.mpr hbad)⟩⟩)
    (Prog.wp_and _ wp_storeUpload_others wp_storeUpload_files)) ?_
  rintro t' r ⟨⟨hsent, hend⟩, ⟨hrows, hdisk⟩, hfiles⟩
  rw [hq.files] at hrows hfiles
  rw [hq.disk] at hdisk
  have hpub : ∀ name, t'.store.disk ⟨.pubkeys, name⟩ = s.disk ⟨.pubkeys, name⟩ :=
    fun name => hdisk _ (by simp [tmpPathFor]) (by simp [fileBlobPathFor])
  rcases hend with ⟨rfl, hgood, ⟨aad', haad', hrow, hblob⟩, hund''⟩ | ⟨⟨e, rfl, hne⟩, hbad⟩
  · obtain rfl := Except.ok.inj (haad.symm.trans haad')
    have hexp : Is64Bit up.expirationInt := by
      by_contra hexp
      exact hgood (.inr (.inr hexp))
    exact wp_sendShort_mirrored
      ⟨hsent, hpub, hrep.deposit hread.canonical hrow hblob hrows hdisk⟩ (hund'' 0)
      (.carried (hasks aad haad) (.deposited hread.expirationInt)) (.carried happly)
      (wireLength_ackPayload hread hexp)
  · have hready : Ready s m t' :=
      ⟨hsent, hpub, hrep.leftover hread.canonical hfree (hfiles e rfl) hdisk⟩
    cases e with
    | osError => exact absurd rfl hne
    | _ => exact hready.ended (hhazard hbad)

/-- An upload is a deposit. -/
theorem wp_handleUploadRequest_mirrored (hrep : Represents s m) (hund : Undisturbed inputs)
    (hkeys : HealthyKeys P ca s) (hauth : session.Authenticated P ca)
    (hfloat : ∀ x, Encodable (P.floatRepr x)) (htype : env.type = .UPLOAD_REQUEST)
    (hok : ¬ Reuses P ca session env inputs s) :
    wpE (.solo (exec P)) (handleUploadRequest P ca session env) (.start s inputs)
      (Mirrored P ca session env inputs s m) := by
  refine wp_gate_mirrored hrep hund (by simp [htype]) fun hgate t hq => ?_
  refine wp_verifySession hauth fun b t₁ hq₁ hb => ?_
  have hq₁ : Underway s inputs 3 t₁ := hq.trans hq₁
  rw [Underway.input hq] at hb
  cases b with
  | false =>
    refine wp_turnDown hrep hund hq₁ (by decide) fun now c h => ?_
    exact absurd (hb.mpr (h.upload htype).1) Bool.false_ne_true
  | true =>
    rw [if_pos rfl]
    cases hparse : parseUpload env.payload with
    | error e =>
      dsimp only
      rw [if_pos (raisesMalformed_parseUpload _ e hparse)]
      refine wp_turnDown hrep hund hq₁ (by decide) fun now c h => ?_
      obtain ⟨-, up, cert, hup, -⟩ := h.upload htype
      cases hparse.symm.trans hup
    | ok up =>
      have hread := readFrom_of_parseUpload hparse
      have hsame : ∀ {now c}, Asks P ca session env inputs s now c →
          verifyOriginStruct P session.peerCert up.signature (up.origin P session.peerSubject) =
            .ok true ∧ ∃ cert, Listed P ca s (.str up.recipient) (inputs 5).now cert := by
        intro now c h
        obtain ⟨-, up', cert, hup, hsig, hlisted⟩ := h.upload htype
        obtain rfl := Except.ok.inj (hparse.symm.trans hup)
        exact ⟨hsig, cert, hlisted⟩
      obtain ⟨good, hgood⟩ := @exists_verifyStruct P session.peerCert
        (up.origin P session.peerSubject).toJson up.signature hauth.key
      have hverify : verifyOriginStruct P session.peerCert up.signature
          (up.origin P session.peerSubject) = .ok good := hgood
      show wpE _ (acceptUpload P ca session up) t₁ _
      rw [acceptUpload, wpE_bind, wpE_raising, hverify]
      cases good with
      | false =>
        refine wp_turnDown hrep hund hq₁ (by decide) fun now c h => ?_
        cases hverify.symm.trans (hsame h).1
      | true =>
        dsimp only
        rw [if_pos rfl]
        have hnow : (t₁.inputs 2).now = (inputs 5).now := congrArg Input.now (congrFun hq₁.inputs 2)
        have hlisted : ∀ cert, Listed P ca t₁.store (.str up.recipient) (t₁.inputs 2).now cert ↔
            Listed P ca s (.str up.recipient) (inputs 5).now cert := by
          intro cert
          rw [hnow]
          exact Quietly.listed hq₁
        have hkeys₁ : HealthyKeys P ca t₁.store := by
          rw [HealthyKeys, hq₁.disk]
          exact hkeys
        refine (wpE_bind ..).mpr (wp_loadVerifiedPubkeyCert (hq₁.undisturbed hund) hkeys₁
          (fun k t₂ hq₂ hnone => ?_) fun cert t₂ hq₂ hfound => ?_)
        · refine wp_turnDown hrep hund (hq₁.trans hq₂) (by decide) fun now c h => ?_
          obtain ⟨-, cert, hcert⟩ := hsame h
          exact absurd ((hlisted cert).mpr hcert) (hnone cert)
        · have hq₂ : Underway s inputs 6 t₂ := hq₁.trans hq₂
          have hq₃ : Underway s inputs 7 (t₂.next (exec P) .mkdirFiles) :=
            hq₂.trans (quietly_next P t₂ .mkdirFiles rfl rfl)
          have hmkdir : t₂.answer (exec P) .mkdirFiles = .ok () := by
            show (reading _ _ _).1 = _
            rw [reading_of_fault_none (Underway.healthy hq₂ hund).fault]
          dsimp only
          rw [wpE_solo_act_bind hmkdir]
          refine wp_storeAndReply_mirrored hrep hund hauth hfloat hread hq₃ ?_ (fun aad haad =>
            .deposit htype hgate (hb.mp rfl) hparse hverify ((hlisted cert).mp hfound) haad)
            fun hbad => ?_
          · by_contra htaken
            exact hok (.taken hgate (hb.mp rfl) hparse hverify ((hlisted cert).mp hfound) htaken)
          · rw [Hazard, htype]
            exact .refused hgate (hb.mp rfl) hparse hverify ((hlisted cert).mp hfound) hbad

/-! ## Every request -/

/-- **A request does what the mailbox does**, unless it is an upload that reuses an id. -/
theorem mirrored_serve (hfloat : ∀ x, Encodable (P.floatRepr x)) (hrep : Represents s m)
    (hund : Undisturbed inputs) (hkeys : HealthyKeys P ca s) (hauth : session.Authenticated P ca)
    (hok : env.type = .UPLOAD_REQUEST → ¬ Reuses P ca session env inputs s) :
    Mirrored P ca session env inputs s m (serve P ca session env s inputs).solo
      (serve P ca session env s inputs).value := by
  refine wp_solo_iff.mp ?_
  unfold dispatch
  cases htype : env.type with
  | GET_PUBKEY => exact wp_handleGetPubkey_mirrored hrep hund hkeys htype
  | LIST_PENDING => exact wp_handleListPending_mirrored hrep hund hauth htype
  | UPLOAD_REQUEST =>
    exact wp_handleUploadRequest_mirrored hrep hund hkeys hauth hfloat htype (hok htype)
  | DOWNLOAD_REQUEST => exact wp_handleDownloadRequest_mirrored hrep hund htype
  | DOWNLOAD_ACK => exact wp_handleDownloadAck_mirrored hrep hund hauth htype
  | REVOKE_REQUEST => exact wp_handleRevokeRequest_mirrored hrep hund hauth htype
  | _ =>
    refine wp_turnDown hrep hund (.refl _) (by decide) fun now c h => ?_
    cases h with
    | list h | deposit h _ _ _ _ _ _ | fetch h _ _ _ | confirm h _ _ _ _ | withdraw h _ _ _ _ =>
      cases htype.symm.trans h

end Server
end ZeroTrust
