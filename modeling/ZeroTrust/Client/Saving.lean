import ZeroTrust.Client.Download
import ZeroTrust.Effects.Solo

/-!
# Whether a download is kept

A file can be downloaded once: the server gives it up when it gets the acknowledgement, and the
client sends the acknowledgement before it writes the plaintext.  Between the two it waits for
the reply, and anything that is not an envelope, or that does not come, ends the download.

* `obtainPlaintext`, `saveDownload`: `download_file` up to its plaintext, and from there on.
* `Handed`: the acknowledgement has been handed to the socket, so the server may have it.
* `Acknowledges`, `Completes`: the acknowledgement goes out, and nothing that follows it fails.
* `finished_downloadFile`: what a download has handed out and written when it ends.
-/

namespace ZeroTrust
namespace Client

open Python Effects Endpoint

/-- A client that runs alone, with its local files. -/
abbrev Alone := Solo Op Op.Res Input Files

section

variable (P : Primitives) (session : Session) (fileId : PyStr)

/-- `download_file` up to its plaintext. -/
def obtainPlaintext : EndpointM Bytes := do
  let payload ← request P .DOWNLOAD_REQUEST [(py "file_id", .str fileId)] .DOWNLOAD_RESPONSE
  verifyAndDecryptDownload P session payload (some fileId)

/-- `download_file` from its plaintext on. -/
def saveDownload (plaintext : Bytes) : EndpointM LocalPath := do
  acknowledge P session fileId
  let outputPath := downloadPath session.username fileId
  atomicWrite (downloadTmpPath session.username fileId) outputPath plaintext
  return outputPath

/-- `download_file` is the one after the other. -/
theorem downloadFile_eq :
    downloadFile P session fileId =
      obtainPlaintext P session fileId >>= saveDownload P session fileId := by
  rw [downloadFile, obtainPlaintext, bind_assoc]
  rfl

end

/-! ## The acknowledgement -/

/-- What `pack_message` raises for a message that is too long; nothing is sent then. -/
def tooLarge : PyExn := .protocolError (py "message too large")

/-- An operation is to send an acknowledgement. -/
def isAck : Op → Bool
  | .send .DOWNLOAD_ACK _ => true
  | _ => false

/-- An acknowledgement with the payload has been handed to the socket: its sending has returned,
or was broken off, and the server may have all of it. -/
def Handed (payload : Obj) (h : List Ev) : Prop :=
  ∃ ev ∈ h, ev.op = .send .DOWNLOAD_ACK payload ∧ ev.res ≠ .error tooLarge

section

variable (P : Primitives) (session : Session) (fileId : PyStr)

/-- The sending of an acknowledgement begins: it is broken off by the socket, if at all. -/
def Begun (i : Input) (payload : Obj) : Prop :=
  match i.fault with
  | some e => e ≠ tooLarge
  | none => ∃ frame, packMessage P (makeEnvelope .DOWNLOAD_ACK payload (i.octets 16) i.now
      (uuidStr i.uuid)) = .ok frame

/-- The acknowledgement goes out: it can be written and signed, and its sending begins. -/
structure Acknowledges (inputs : ℕ → Input) (payload : Obj) : Prop where
  signed : ∃ canonical sig, ackCanonical P fileId (.int (inputs 0).now) = .ok canonical ∧
    rsaSign P session.clientPrivPem session.clientPassword canonical ((inputs 1).octets 32) =
      .ok sig ∧ payload = signedPayload fileId (inputs 0).now sig
  begun : Begun P (inputs 2) payload

/-- A message comes, and is an envelope. -/
def Replied (i : Input) : Prop :=
  i.fault = none ∧ ∃ msg env, i.message = .ok msg ∧ validateEnvelope (.obj msg) = .ok env

/-- Three operations on the local files go through. -/
def Written (inputs : ℕ → Input) : Prop :=
  (inputs 0).fault = none ∧ (inputs 1).fault = none ∧ (inputs 2).fault = none

/-- Everything from the sending of the acknowledgement on goes through. -/
structure Completes (inputs : ℕ → Input) : Prop where
  sent : (inputs 2).fault = none
  replied : Replied (inputs 3)
  written : Written fun n => inputs (n + 4)

end

variable {P : Primitives} {session : Session} {fileId : PyStr} {t t' : Alone} {plaintext : Bytes}

theorem handed_cons {ev : Ev} {h : List Ev} {payload : Obj} :
    Handed payload (ev :: h) ↔
      (ev.op = .send .DOWNLOAD_ACK payload ∧ ev.res ≠ .error tooLarge) ∨ Handed payload h :=
  List.exists_mem_cons_iff ..

theorem handed_next {op : Op} {payload : Obj} (hop : isAck op = false) :
    Handed payload (t.next (exec P) op).hist ↔ Handed payload t.hist := by
  refine handed_cons.trans (or_iff_right ?_)
  rintro ⟨rfl, -⟩
  cases hop

/-- A program that does not acknowledge. -/
theorem wp_not_acking {α : Type} {x : EndpointM α} (hx : Issues (fun op : Op => isAck op = false) x) :
    wpE (.solo (exec P)) x t fun t' _ => ∀ payload, Handed payload t'.hist ↔ Handed payload t.hist :=
  hx.keeps (J := fun t' => ∀ payload, Handed payload t'.hist ↔ Handed payload t.hist)
    (fun _ _ hop h payload => (handed_next hop).trans (h payload)) fun _ => Iff.rfl

theorem packMessage_error {msg : Json} {e : PyExn} (h : packMessage P msg = .error e) :
    e = tooLarge := by
  unfold packMessage at h
  dsimp only at h
  split_ifs at h
  exact (Except.error.inj h).symm

/-- The sending of an acknowledgement begins exactly if it is not found too long. -/
theorem answer_ack_ne {payload : Obj} :
    t.answer (exec P) (.send .DOWNLOAD_ACK payload) ≠ .error tooLarge ↔
      Begun P (t.inputs 0) payload := by
  show (reading (t.inputs 0) t.store _).1 ≠ _ ↔ _
  unfold reading Begun
  cases (t.inputs 0).fault with
  | some e => simp
  | none =>
    dsimp only
    cases hpack : packMessage P _ with
    | ok frame => simp [Except.map]
    | error e => simp [Except.map, packMessage_error hpack]

/-! ## The local write -/

theorem store_next_reading {op : Op} {x : Except PyExn op.Ans}
    (h : exec P op (t.inputs 0) t.store = reading (t.inputs 0) t.store x) :
    (t.next (exec P) op).store = t.store := by
  show (exec P op (t.inputs 0) t.store).2 = _
  rw [h, reading]
  cases (t.inputs 0).fault <;> rfl

section

variable {tmp path : LocalPath} {e : PyExn}

/-- A write that fails leaves the other files alone. -/
theorem writeFile_of_fault (hfault : (t.inputs 0).fault = some e) (hne : path ≠ tmp) :
    t.answer (exec P) (.writeFile tmp plaintext) = .error e ∧
      (t.next (exec P) (.writeFile tmp plaintext)).store path = t.store path := by
  have hexec : exec P (.writeFile tmp plaintext) (t.inputs 0) t.store =
      writingPart (t.inputs 0) t.store tmp plaintext := rfl
  cases hwritten : (t.inputs 0).written with
  | none =>
    simp only [writingPart, hfault, hwritten] at hexec
    exact ⟨congrArg Prod.fst hexec, congrFun (congrArg Prod.snd hexec) path⟩
  | some n =>
    simp only [writingPart, hfault, hwritten] at hexec
    exact ⟨congrArg Prod.fst hexec, (congrFun (congrArg Prod.snd hexec) path).trans
      (Function.update_of_ne hne _ _)⟩

theorem writeFile_of_fault_none (hfault : (t.inputs 0).fault = none) :
    t.answer (exec P) (.writeFile tmp plaintext) = .ok () ∧
      (t.next (exec P) (.writeFile tmp plaintext)).store =
        Function.update t.store tmp (some plaintext) := by
  have hexec : exec P (.writeFile tmp plaintext) (t.inputs 0) t.store =
      writingPart (t.inputs 0) t.store tmp plaintext := rfl
  simp only [writingPart, hfault] at hexec
  exact ⟨congrArg Prod.fst hexec, congrArg Prod.snd hexec⟩

/-- A renaming that fails changes nothing. -/
theorem replace_of_fault (hfault : (t.inputs 0).fault = some e) :
    t.answer (exec P) (.replace tmp path) = .error e ∧
      (t.next (exec P) (.replace tmp path)).store = t.store := by
  have hexec : exec P (.replace tmp path) (t.inputs 0) t.store =
      writing (t.inputs 0) t.store (replacePath t.store tmp path) := rfl
  simp only [writing, hfault] at hexec
  exact ⟨congrArg Prod.fst hexec, congrArg Prod.snd hexec⟩

theorem replace_of_fault_none (hfault : (t.inputs 0).fault = none)
    (htmp : t.store tmp = some plaintext) :
    t.answer (exec P) (.replace tmp path) = .ok () ∧
      (t.next (exec P) (.replace tmp path)).store path = some plaintext := by
  have hexec : exec P (.replace tmp path) (t.inputs 0) t.store =
      writing (t.inputs 0) t.store (replacePath t.store tmp path) := rfl
  simp only [writing, replacePath, hfault, htmp] at hexec
  exact ⟨congrArg Prod.fst hexec, (congrFun (congrArg Prod.snd hexec) path).trans
    (Function.update_self ..)⟩

/-- The temporary file is written and renamed, or the file is as it was. -/
theorem wp_writeAndReplace (hne : path ≠ tmp) :
    wpE (.solo (exec P)) (writeAndReplace tmp path plaintext) t fun t' r =>
      (r = .ok () ∧ ((t.inputs 0).fault = none ∧ (t.inputs 1).fault = none) ∧
        t'.store path = some plaintext) ∨
      ((∃ e, r = .error e) ∧ ¬ ((t.inputs 0).fault = none ∧ (t.inputs 1).fault = none) ∧
        t'.store path = t.store path) := by
  rw [writeAndReplace, wpE_bind, wpE_solo_act]
  cases hfault : (t.inputs 0).fault with
  | some e =>
    obtain ⟨ha, hstore⟩ := @writeFile_of_fault P t plaintext tmp path e hfault hne
    rw [ha]
    exact .inr ⟨⟨e, rfl⟩, by simp, hstore⟩
  | none =>
    obtain ⟨ha, hwritten⟩ := @writeFile_of_fault_none P t plaintext tmp hfault
    rw [ha]
    dsimp only
    rw [wpE_solo_act]
    cases hfault' : (t.inputs 1).fault with
    | some e =>
      obtain ⟨ha', hsame⟩ := @replace_of_fault P
        (t.next (exec P) (.writeFile tmp plaintext)) tmp path e hfault'
      refine .inr ⟨⟨e, ha'⟩, by simp, ?_⟩
      rw [hsame, hwritten, Function.update_of_ne hne]
    | none =>
      obtain ⟨ha', hpath⟩ := @replace_of_fault_none P
        (t.next (exec P) (.writeFile tmp plaintext)) plaintext tmp path hfault'
        (by rw [hwritten, Function.update_self])
      exact .inl ⟨ha', ⟨rfl, rfl⟩, hpath⟩

/-- Giving the temporary file up leaves the other files alone. -/
theorem wp_discardTmp (hne : path ≠ tmp) :
    wpE (.solo (exec P)) (discardTmp tmp) t fun t' _ => t'.store path = t.store path := by
  have hother : (t.next (exec P) (.unlink tmp)).store path = t.store path := by
    have hexec : exec P (.unlink tmp) (t.inputs 0) t.store =
        writing (t.inputs 0) t.store (.ok (Function.update t.store tmp none)) := rfl
    show (exec P (.unlink tmp) (t.inputs 0) t.store).2 path = _
    cases hfault : (t.inputs 0).fault with
    | some e =>
      simp only [writing, hfault] at hexec
      rw [hexec]
    | none =>
      simp only [writing, hfault] at hexec
      rw [hexec]
      exact Function.update_of_ne hne _ _
  rw [discardTmp, wpE_bind, wpE_attempt, wpE_solo_act]
  cases t.answer (exec P) (.unlink tmp) with
  | ok u => exact hother
  | error e => cases e <;> exact hother

/-- **The local write**: the file is there afterwards exactly if all three operations went
through, or it was there before. -/
theorem wp_atomicWrite (hne : path ≠ tmp) :
    wpE (.solo (exec P)) (atomicWrite tmp path plaintext) t fun t' _ =>
      (t'.store path = some plaintext ↔ Written t.inputs ∨ t.store path = some plaintext) := by
  have hparent : (t.next (exec P) (.makeParent path)).store = t.store := store_next_reading rfl
  rw [atomicWrite, wpE_bind, wpE_solo_act]
  cases hfault : (t.inputs 0).fault with
  | some e =>
    have ha : t.answer (exec P) (.makeParent path) = .error e := by
      show (reading _ _ _).1 = _
      rw [reading, hfault]
    rw [ha]
    show _ ↔ _
    rw [hparent, or_iff_right]
    exact fun h => by cases hfault.symm.trans h.1
  | none =>
    have ha : t.answer (exec P) (.makeParent path) = .ok () := by
      show (reading _ _ _).1 = _
      rw [reading, hfault]
    rw [ha]
    dsimp only
    rw [wpE_bind, wpE_attempt]
    refine wpE_mono _ (wp_writeAndReplace hne) fun t' r h => ?_
    have hwritten : Written t.inputs ↔ (t.inputs 1).fault = none ∧ (t.inputs 2).fault = none :=
      and_iff_right hfault
    rw [hwritten]
    rcases h with ⟨rfl, hgood, hpath⟩ | ⟨⟨e, rfl⟩, hbad, hpath⟩
    · exact iff_of_true hpath (.inl hgood)
    · have hsame : t'.store path = some plaintext ↔ ((t.inputs 1).fault = none ∧
          (t.inputs 2).fault = none) ∨ t.store path = some plaintext := by
        rw [hpath, hparent]
        exact (or_iff_right hbad).symm
      cases e with
      | osError =>
        refine wpE_mono _ (wp_discardTmp hne) fun t'' r h => ?_
        rw [h]
        exact hsame
      | _ => exact hsame

end

/-! ## The whole download -/

/-- A message is awaited: no file changes. -/
theorem wp_recvEnvelope : wpE (.solo (exec P)) recvEnvelope t fun t' r =>
    t'.store = t.store ∧ (t'.inputs = fun n => t.inputs (n + 1)) ∧
      ((∃ env, r = .ok env) ↔ Replied (t.inputs 0)) := by
  have hanswer : t.answer (exec P) .recv =
      (reading (t.inputs 0) t.store (t.inputs 0).message).1 := rfl
  rw [recvEnvelope, wpE_bind, wpE_solo_act]
  have hstore : (t.next (exec P) .recv).store = t.store := store_next_reading rfl
  cases hfault : (t.inputs 0).fault with
  | some e =>
    rw [hanswer, reading, hfault]
    exact ⟨hstore, rfl, iff_of_false (by simp) fun h => by cases hfault.symm.trans h.1⟩
  | none =>
    rw [hanswer, reading, hfault]
    dsimp only
    cases hmsg : (t.inputs 0).message with
    | error e =>
      refine ⟨hstore, rfl, iff_of_false (by simp) ?_⟩
      rintro ⟨-, msg, env, hmsg', -⟩
      cases hmsg.symm.trans hmsg'
    | ok msg =>
      dsimp only
      rw [wpE_raising]
      refine ⟨hstore, rfl, ?_⟩
      constructor
      · rintro ⟨env, henv⟩
        exact ⟨hfault, msg, env, hmsg, henv⟩
      · rintro ⟨-, msg', env, hmsg', henv⟩
        obtain rfl := Except.ok.inj (hmsg.symm.trans hmsg')
        exact ⟨env, henv⟩

/-- `path.tmp` is not `path`. -/
theorem downloadPath_ne {username fileId : PyStr} :
    downloadPath username fileId ≠ downloadTmpPath username fileId := by
  intro h
  have hname : fileId = fileId ++ py ".tmp" := by
    simpa [downloadPath, downloadTmpPath] using h
  have hlen := congrArg List.length hname
  have htmp : (py ".tmp").length = 4 := by decide
  rw [List.length_append] at hlen
  omega

/-- What `download_file` does once the acknowledgement is sent. -/
def finishDownload (session : Session) (fileId : PyStr) (plaintext : Bytes) :
    EndpointM LocalPath := do
  let _ ← recvEnvelope
  atomicWrite (downloadTmpPath session.username fileId) (downloadPath session.username fileId)
    plaintext
  return downloadPath session.username fileId

theorem wp_finishDownload :
    wpE (.solo (exec P)) (finishDownload session fileId plaintext) t fun t' _ =>
      (t'.store (downloadPath session.username fileId) = some plaintext ↔
        (Replied (t.inputs 0) ∧ Written fun n => t.inputs (n + 1)) ∨
          t.store (downloadPath session.username fileId) = some plaintext) := by
  rw [finishDownload, wpE_bind]
  refine wpE_mono _ wp_recvEnvelope fun t' r h => ?_
  obtain ⟨hstore, hinputs, hreply⟩ := h
  cases r with
  | error e =>
    have hno : ¬ Replied (t.inputs 0) := fun h => by
      obtain ⟨env, h⟩ := hreply.mpr h
      cases h
    show _ ↔ _
    rw [hstore]
    exact (or_iff_right fun h => hno h.1).symm
  | ok env =>
    have hyes : Replied (t.inputs 0) := hreply.mp ⟨env, rfl⟩
    refine (wpE_bind ..).mpr (wpE_mono _ (wp_atomicWrite downloadPath_ne) fun t'' r h => ?_)
    rw [hinputs, hstore] at h
    rw [and_iff_right hyes]
    cases r <;> exact h

/-- An operation that does not acknowledge. -/
theorem issues_other {op : Op} (hop : isAck op = false) :
    Issues (fun op : Op => isAck op = false) (act op : EndpointM op.Ans) := issues_act hop

theorem issues_recvEnvelope : Issues (fun op : Op => isAck op = false) recvEnvelope :=
  (issues_other rfl).bind fun _ => issues_raising _

theorem issues_finishDownload :
    Issues (fun op : Op => isAck op = false) (finishDownload session fileId plaintext) := by
  refine issues_recvEnvelope.bind fun _ => .bind ?_ fun _ => issues_pure _
  refine (issues_other rfl).bind fun _ => .bind (.attempt ?_) fun r => ?_
  · exact (issues_other rfl).bind fun _ => issues_other rfl
  · cases r with
    | ok u => exact issues_pure _
    | error e =>
      cases e with
      | osError =>
        refine (issues_other rfl).attempt.bind fun r => ?_
        cases r with
        | ok u => exact issues_throw _
        | error e => cases e <;> exact issues_throw _
      | _ => exact issues_throw _

theorem issues_obtainPlaintext :
    Issues (fun op : Op => isAck op = false) (obtainPlaintext P session fileId) := by
  refine .bind (.bind (issues_other rfl) fun _ => issues_recvEnvelope.bind fun reply => ?_)
    fun payload => (issues_raising _).bind fun resp => .bind ?_ fun good => ?_
  · split_ifs
    · exact issues_throw _
    · exact issues_throw _
    · exact issues_pure _
  · refine fun h => wpE_verifyCertificate (fun _ _ => trivial) fun _ _ _ => ?_
    exact wpE_act.mpr ⟨rfl, fun r => by cases r <;> trivial⟩
  · cases good
    · exact issues_throw _
    · exact issues_raising _

/-- How a download goes on from its plaintext. -/
structure Finished (P : Primitives) (session : Session) (fileId : PyStr) (plaintext : Bytes)
    (t t' : Alone) : Prop where
  handed : ∀ payload, Handed payload t'.hist ↔
    Handed payload t.hist ∨ Acknowledges P session fileId t.inputs payload
  kept : ∀ payload, Acknowledges P session fileId t.inputs payload →
    (t'.store (downloadPath session.username fileId) = some plaintext ↔
      Completes t.inputs ∨ t.store (downloadPath session.username fileId) = some plaintext)

/-- A download that does not come to its acknowledgement. -/
theorem finished_of_not_acknowledges {t' : Alone}
    (hnot : ∀ payload, ¬ Acknowledges P session fileId t.inputs payload)
    (hhanded : ∀ payload, Handed payload t'.hist ↔ Handed payload t.hist) :
    Finished P session fileId plaintext t t' where
  handed payload := (hhanded payload).trans (or_iff_left (hnot payload)).symm
  kept payload h := absurd h (hnot payload)

/-- What an acknowledgement that can be signed says. -/
theorem acknowledges_iff {inputs : ℕ → Input} {canonical sig : Bytes} {payload : Obj}
    (hcanonical : ackCanonical P fileId (.int (inputs 0).now) = .ok canonical)
    (hsig : rsaSign P session.clientPrivPem session.clientPassword canonical
      ((inputs 1).octets 32) = .ok sig) :
    Acknowledges P session fileId inputs payload ↔
      payload = signedPayload fileId (inputs 0).now sig ∧ Begun P (inputs 2) payload := by
  constructor
  · rintro ⟨⟨_, _, h, h', rfl⟩, hbegun⟩
    obtain rfl := Except.ok.inj (hcanonical.symm.trans h)
    obtain rfl := Except.ok.inj (hsig.symm.trans h')
    exact ⟨rfl, hbegun⟩
  · rintro ⟨rfl, hbegun⟩
    exact ⟨⟨_, _, hcanonical, hsig, rfl⟩, hbegun⟩

/-- The situation in which the acknowledgement is to be sent. -/
abbrev toSend (P : Primitives) (session : Session) (canonical : Bytes) (t : Alone) : Alone :=
  (t.next (exec P) .time).next (exec P)
    (.sign session.clientPrivPem session.clientPassword canonical)

/-- **A download from its signed acknowledgement on.** -/
theorem wp_sendAck {canonical sig : Bytes}
    (hcanonical : ackCanonical P fileId (.int (t.inputs 0).now) = .ok canonical)
    (hsig : rsaSign P session.clientPrivPem session.clientPassword canonical
      ((t.inputs 1).octets 32) = .ok sig) :
    wpE (.solo (exec P)) (Endpoint.sendMessage .DOWNLOAD_ACK (signedPayload fileId (t.inputs 0).now sig) >>=
      fun _ => finishDownload session fileId plaintext) (toSend P session canonical t) fun t' _ =>
      Finished P session fileId plaintext t t' := by
  set payload := signedPayload fileId (t.inputs 0).now sig with hpayload
  set t₂ := toSend P session canonical t with ht₂
  have hinput : t₂.inputs 0 = t.inputs 2 := rfl
  have hstore₂ : t₂.store = t.store := rfl
  have hbegun := @answer_ack_ne P t₂ payload
  rw [hinput] at hbegun
  have hstore : (t₂.next (exec P) (.send .DOWNLOAD_ACK payload)).store = t.store :=
    (store_next_reading rfl).trans hstore₂
  have hold : ∀ {p}, Handed p t₂.hist ↔ Handed p t.hist :=
    (handed_next rfl).trans (handed_next rfl)
  have hhanded : ∀ p, Handed p (t₂.next (exec P) (.send .DOWNLOAD_ACK payload)).hist ↔
      Handed p t.hist ∨ Acknowledges P session fileId t.inputs p := by
    intro p
    rw [acknowledges_iff hcanonical hsig, ← hpayload, or_comm, ← hold]
    refine handed_cons.trans (or_congr_left ?_)
    constructor
    · rintro ⟨hop, hres⟩
      obtain rfl := (Op.send.inj hop).2
      exact ⟨rfl, hbegun.mp hres⟩
    · rintro ⟨rfl, hb⟩
      exact ⟨rfl, hbegun.mpr hb⟩
  rw [wpE_bind]
  refine wpE_solo_act.mpr ?_
  cases ha : t₂.answer (exec P) (.send .DOWNLOAD_ACK payload) with
  | error e =>
    refine ⟨hhanded, fun p hp => ?_⟩
    have hsent : (t.inputs 2).fault ≠ none := by
      intro hnone
      obtain ⟨rfl, hb⟩ := (acknowledges_iff hcanonical hsig).mp hp
      have hex : t₂.answer (exec P) (.send .DOWNLOAD_ACK payload) = .ok () := by
        show (reading (t.inputs 2) _ _).1 = _
        rw [Begun, hnone] at hb
        obtain ⟨frame, hframe⟩ := hb
        rw [reading, hnone]
        dsimp only
        rw [hinput, hframe]
        rfl
      cases hex.symm.trans ha
    rw [hstore]
    exact (or_iff_right fun h => hsent h.sent).symm
  | ok u =>
    have hsent : (t.inputs 2).fault = none := by
      cases hfault : (t.inputs 2).fault with
      | none => rfl
      | some e =>
        have hex : t₂.answer (exec P) (.send .DOWNLOAD_ACK payload) = .error e := by
          show (reading (t.inputs 2) _ _).1 = _
          rw [reading, hfault]
        cases hex.symm.trans ha
    refine Prog.wp_mono _ (Prog.wp_and _ wp_finishDownload
      (wp_not_acking issues_finishDownload)) fun t' r h => ⟨fun p => (h.2 p).trans (hhanded p),
        fun p _ => h.1.trans ?_⟩
    rw [hstore]
    refine or_congr_left ⟨fun hdone => ⟨hsent, hdone.1, hdone.2⟩, fun hdone => ?_⟩
    exact ⟨hdone.replied, hdone.written⟩

/-- **A download from its plaintext on.** -/
theorem wp_saveDownload :
    wpE (.solo (exec P)) (saveDownload P session fileId plaintext) t fun t' _ =>
      Finished P session fileId plaintext t t' := by
  have htime : t.answer (exec P) .time = .ok (t.inputs 0).now := rfl
  rw [saveDownload, acknowledge]
  simp only [bind_assoc]
  rw [wpE_solo_act_bind htime, wpE_bind, wpE_raising]
  cases hcanonical : ackCanonical P fileId (.int (t.inputs 0).now) with
  | error e =>
    refine finished_of_not_acknowledges ?_ fun _ => handed_next rfl
    rintro payload ⟨⟨_, _, h, -⟩, -⟩
    cases hcanonical.symm.trans h
  | ok canonical =>
    dsimp only
    have hsign : (t.next (exec P) .time).answer (exec P)
        (.sign session.clientPrivPem session.clientPassword canonical) =
      rsaSign P session.clientPrivPem session.clientPassword canonical ((t.inputs 1).octets 32) :=
      rfl
    cases hsig : rsaSign P session.clientPrivPem session.clientPassword canonical
        ((t.inputs 1).octets 32) with
    | error e =>
      rw [wpE_solo_act_bind_error (hsign.trans hsig)]
      refine finished_of_not_acknowledges ?_ fun _ => (handed_next rfl).trans (handed_next rfl)
      rintro payload ⟨⟨_, _, h, h', -⟩, -⟩
      obtain rfl := Except.ok.inj (hcanonical.symm.trans h)
      cases hsig.symm.trans h'
    | ok sig =>
      rw [wpE_solo_act_bind (hsign.trans hsig)]
      exact wp_sendAck hcanonical hsig

/-- **A download up to its plaintext** changes no file, and takes three operations. -/
theorem wp_obtainPlaintext :
    wpE (.solo (exec P)) (obtainPlaintext P session fileId) t fun t' r =>
      ∀ plaintext, r = .ok plaintext →
        t'.store = t.store ∧ t'.inputs = fun n => t.inputs (n + 3) := by
  have hraised : ∀ {t' : Alone} {e : PyExn} {plaintext : Bytes},
      (.error e : Except PyExn Bytes) = .ok plaintext →
        t'.store = t.store ∧ t'.inputs = fun n => t.inputs (n + 3) := by
    intro t' e plaintext h
    cases h
  rw [obtainPlaintext, request, Endpoint.sendMessage, bind_assoc, wpE_bind]
  refine wpE_solo_act.mpr ?_
  have hstore₁ : (t.next (exec P) (.send .DOWNLOAD_REQUEST [(py "file_id", .str fileId)])).store =
    t.store := store_next_reading rfl
  cases t.answer (exec P) (.send .DOWNLOAD_REQUEST [(py "file_id", .str fileId)]) with
  | error e => exact fun _ => hraised
  | ok u =>
    dsimp only
    rw [bind_assoc, wpE_bind]
    refine wpE_mono _ wp_recvEnvelope fun t₂ r h => ?_
    obtain ⟨hstore₂, hinputs₂, -⟩ := h
    cases r with
    | error e => exact fun _ => hraised
    | ok reply =>
      dsimp only
      rw [wpE_bind]
      split_ifs
      · rintro _ ⟨⟩
      · rintro _ ⟨⟩
      · refine (wpE_bind ..).mpr ((wpE_raising ..).mpr ?_)
        cases parseDownload P reply.payload (some fileId) with
        | error e => exact fun _ => hraised
        | ok resp =>
          refine (wpE_bind ..).mpr (wpE_verifyCertificate (fun r hr => ?_) fun c _ _ => ?_)
          · rcases r with e | _ | _
            · exact fun _ => hraised
            · exact fun _ => hraised
            · exact absurd rfl hr
          · refine wpE_solo_act.mpr ?_
            have htime : t₂.answer (exec P) .time = .ok (t₂.inputs 0).now := rfl
            rw [htime]
            dsimp only
            have hthree : (t₂.next (exec P) .time).store = t.store ∧
                (t₂.next (exec P) .time).inputs = fun n => t.inputs (n + 3) := by
              refine ⟨hstore₂.trans hstore₁, ?_⟩
              show (fun n => t₂.inputs (n + 1)) = _
              rw [hinputs₂]
              rfl
            rcases certVerdict c (t₂.inputs 0).now (some resp.sender) with e | _ | _
            · exact fun _ => hraised
            · exact fun _ => hraised
            · exact fun _ _ => hthree

/-- **A whole download**, from files and inputs with which a plaintext is obtained. -/
theorem finished_downloadFile {s : Files} {inputs : ℕ → Input}
    (h : ((Solo.start s inputs).run (exec P) (obtainPlaintext P session fileId).run).value =
      .ok plaintext) :
    Finished P session fileId plaintext (.start s fun n => inputs (n + 3))
      ((Solo.start s inputs).run (exec P) (downloadFile P session fileId).run).solo := by
  rw [downloadFile_eq]
  refine (wp_solo_iff (Q := fun t' _ => Finished P session fileId plaintext _ t')).mp
    ((wpE_bind ..).mpr (wp_solo_iff.mpr ?_))
  obtain ⟨hstore, hinputs⟩ := wp_solo_iff.mp (@wp_obtainPlaintext P session fileId (.start s inputs))
    plaintext h
  have hhanded := wp_solo_iff.mp (@wp_not_acking P (.start s inputs) _ _
    (@issues_obtainPlaintext P session fileId))
  generalize hu : ((Solo.start s inputs).run (exec P) (obtainPlaintext P session fileId).run).solo = u
    at hstore hinputs hhanded ⊢
  rw [h]
  refine wpE_mono _ wp_saveDownload fun t' _ hfinished => ?_
  have hboth := hfinished.kept
  rw [hinputs, hstore] at hboth
  refine ⟨fun payload => (hfinished.handed payload).trans ?_, hboth⟩
  rw [hinputs]
  exact or_congr_left (hhanded payload)

end Client
end ZeroTrust
