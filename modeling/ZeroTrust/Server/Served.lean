import ZeroTrust.Server.Mailbox

/-!
# The server in turns

Requests and cleanup passes come one after another, from many sessions.  Whatever they ask for, in
whatever order, as long as no upload reuses an id, the server is a mailbox: the replies are those of
a run of the mailbox.  What is true of every run of a mailbox is then true of the replies.

* `Service`, `Served`: turns, one after another.
* `Service.Tells`: what the replies to a turn tell of a deed.
* `mailbox_refined`: the turns do what a mailbox does, and tell of it.
* `delivered_of_served`: what a recipient downloads was uploaded for it, in time, and nobody has
  acknowledged or revoked it.
-/

namespace ZeroTrust
namespace Server

open Python Effects Data

variable {P : Primitives} {ca : Bytes} {s s₀ : ServerState} {session : Session} {env : Envelope}
  {inputs : ℕ → Input} {m m₀ : Post} {f : PyStr}

/-! ## Cleanup passes -/

/-- A cleanup pass is a sweep, unless it raises: then it has changed no file. -/
theorem wp_cleanup_mirrored (hrep : Represents s m) :
    wpE (.solo (exec P)) (runCleanupPass >>= fun _ => pure ()) (.start s inputs) fun t r =>
      (r = .ok () ∧ Ready s (m.sweep (inputs 0).now) t) ∨ (∃ e, r = .error e) ∧ Ready s m t := by
  have hready : Ready s m (((Solo.start s inputs).next (exec P) .time).next (exec P) .time) :=
    Underway.ready (Quietly.trans (quietly_next P (.start s inputs) .time rfl rfl)
      (quietly_next P _ .time rfl rfl)) hrep
  have hnow : ((Solo.start s inputs : Alone).inputs 0).now = (inputs 0).now := rfl
  rw [wpE_bind, runCleanupPass, wpE_solo_act_bind answer_time, purgeOldNonces, wpE_bind,
    wpE_solo_act_bind answer_time, wpE_solo_act, hnow]
  generalize ((Solo.start s inputs).next (exec P) .time).next (exec P) .time = t at hready ⊢
  generalize (((Solo.start s inputs : Alone).next (exec P) .time).inputs 0).now -
    NONCE_RETENTION_SECONDS = cutoff
  have hpurge : Change P t.store ⟨.purgeNonces cutoff, t.answer (exec P) (.purgeNonces cutoff)⟩
      (t.next (exec P) (.purgeNonces cutoff)).store := change_of_exec Prod.mk.eta.symm
  have hsilent := (@sent_next P t (.purgeNonces cutoff) rfl).trans hready.silent
  generalize t.answer (exec P) (.purgeNonces cutoff) = r,
    t.next (exec P) (.purgeNonces cutoff) = t₁ at hpurge hsilent ⊢
  have hready₁ : Ready s m t₁ := by
    obtain ⟨hist, store, rest⟩ := t₁
    cases hpurge with
    | read _ hop => exact absurd hop Bool.false_ne_true
    | raised | purgeNonces => exact ⟨hsilent, hready.pubkeys, hready.represents.congr rfl rfl⟩
  cases r with
  | error e => exact .inr ⟨⟨e, rfl⟩, hready₁⟩
  | ok n =>
    dsimp only
    rw [wpE_bind, wpE_solo_act]
    have hmark : Change P t₁.store ⟨.markExpired (inputs 0).now,
        t₁.answer (exec P) (.markExpired (inputs 0).now)⟩
        (t₁.next (exec P) (.markExpired (inputs 0).now)).store := change_of_exec Prod.mk.eta.symm
    have hsilent := (@sent_next P t₁ (.markExpired (inputs 0).now) rfl).trans hready₁.silent
    generalize t₁.answer (exec P) (.markExpired (inputs 0).now) = r,
      t₁.next (exec P) (.markExpired (inputs 0).now) = t₂ at hmark hsilent ⊢
    obtain ⟨hist, store, rest⟩ := t₂
    cases hmark with
    | read _ hop => exact absurd hop Bool.false_ne_true
    | raised _ e => exact .inr ⟨⟨e, rfl⟩, hsilent, hready₁.pubkeys, hready₁.represents⟩
    | markExpired =>
      exact .inl ⟨rfl, hsilent, hready₁.pubkeys, hready₁.represents.markExpired _⟩

/-! ## Turns -/

/-- A turn: a request of a session or a cleanup pass, what the environment supplies to it, and the
store that it begins with. -/
structure Service where
  label : Label
  inputs : ℕ → Input
  store : ServerState

section

variable (P : Primitives) (ca : Bytes) (turn : Service)

/-- What comes of a turn. -/
def Service.outcome : Outcome Op Op.Res Input ServerState (Except PyExn Unit) :=
  (Solo.start turn.store turn.inputs).run (exec P) (turn.label.code P ca)

/-- The messages that the client gets. -/
def Service.replies : List (MessageType × Obj) := sent (turn.outcome P ca).hist

/-- A turn that may be taken: the requests are those of authenticated sessions, nothing disturbs
them, and no upload reuses an id. -/
def Service.Fair : Prop :=
  match turn.label with
  | .request session env => session.Authenticated P ca ∧ Undisturbed turn.inputs ∧
      (env.type = .UPLOAD_REQUEST → ¬ Reuses P ca session env turn.inputs turn.store)
  | .cleanup => True

/-- What comes of a turn tells of a deed. -/
def Service.Tells (d : Deed PyStr PyStr Obj) : Prop :=
  match turn.label with
  | .request session env => Told P ca session env turn.inputs turn.store (turn.replies P ca)
      (turn.outcome P ca).value d
  | .cleanup => turn.replies P ca = [] ∧
      (((turn.outcome P ca).value = .ok () ∧ d = .swept (turn.inputs 0).now) ∨
        (∃ e, (turn.outcome P ca).value = .error e) ∧ d = .refused)

/-- Turns one after another, the last one first. -/
inductive Served (s₀ : ServerState) : List Service → ServerState → Prop where
  | nil : Served s₀ [] s₀
  | cons {turn : Service} {turns : List Service} : Served s₀ turns turn.store → turn.Fair P ca →
      Served s₀ (turn :: turns) (turn.outcome P ca).store

end

variable {turn : Service} {turns : List Service}

/-- **A turn does what the mailbox does.** -/
theorem refined_step (hfloat : ∀ x, Encodable (P.floatRepr x)) (hkeys : HealthyKeys P ca turn.store)
    (hrep : Represents turn.store m) (hfair : turn.Fair P ca) :
    HealthyKeys P ca (turn.outcome P ca).store ∧
      ∃ d m', turn.Tells P ca d ∧ m.Does d m' ∧ Represents (turn.outcome P ca).store m' := by
  obtain ⟨label, inputs, s⟩ := turn
  cases label with
  | request session env =>
    obtain ⟨hauth, hund, hok⟩ := hfair
    obtain ⟨hpub, hdoes⟩ := mirrored_serve hfloat hrep hund hkeys hauth hok
    refine ⟨fun name data h => ?_, hdoes⟩
    exact hkeys name data ((hpub name).symm.trans h)
  | cleanup =>
    rcases wp_solo_iff.mp (@wp_cleanup_mirrored P s inputs m hrep) with ⟨hvalue, hready⟩ |
      ⟨hvalue, hready⟩
    · exact ⟨fun name data h => hkeys name data ((hready.pubkeys name).symm.trans h), _, _,
        ⟨hready.silent, .inl ⟨hvalue, rfl⟩⟩, .swept _, hready.represents⟩
    · exact ⟨fun name data h => hkeys name data ((hready.pubkeys name).symm.trans h), _, _,
        ⟨hready.silent, .inr ⟨hvalue, rfl⟩⟩, .refused, hready.represents⟩

/-- Every sequence of turns does what the mailbox does: by induction on the turns. -/
theorem refined_run (hfloat : ∀ x, Encodable (P.floatRepr x)) (hkeys : HealthyKeys P ca s₀)
    (hrep : Represents s₀ m₀) (h : Served P ca s₀ turns s) :
    HealthyKeys P ca s ∧ ∃ ds m, Mailbox.Run m₀ ds m ∧ Represents s m ∧
      List.Forall₂ (Service.Tells P ca) turns ds := by
  induction h with
  | nil => exact ⟨hkeys, [], m₀, .nil, hrep, .nil⟩
  | cons _ hfair ih =>
    obtain ⟨hkeys, ds, m, hrun, hrep, hall⟩ := ih
    obtain ⟨hkeys', d, m', htells, hdoes, hrep'⟩ := refined_step hfloat hkeys hrep hfair
    exact ⟨hkeys', d :: ds, m', .cons hrun hdoes, hrep', .cons htells hall⟩

/-- **The server is a mailbox.**  In every sequence of requests and cleanup passes, with no upload
among them that reuses an id, each turn does one deed of a mailbox and tells of it, and the rows and
blobs that are left are the parcels that are left. -/
theorem mailbox_refined (hfloat : ∀ x, Encodable (P.floatRepr x)) (hkeys : HealthyKeys P ca s₀)
    (hrep : Represents s₀ m₀) (h : Served P ca s₀ turns s) :
    ∃ ds m, Mailbox.Run m₀ ds m ∧ Represents s m ∧ List.Forall₂ (Service.Tells P ca) turns ds :=
  (refined_run hfloat hkeys hrep h).2

/-! ## What is delivered -/

/-- The turn was an upload of a file for a recipient, signed by the user of its session and
acknowledged; the content is what the recipient is sent of it, with the routing context of the file,
the sender and the recipient. -/
structure Service.Uploads (P : Primitives) (ca : Bytes) (turn : Service) (f recipient : PyStr)
    (deadline : ℤ) (content : Obj) : Prop where
  upload : ∃ session env up aad, turn.label = .request session env ∧ env.type = .UPLOAD_REQUEST ∧
    parseUpload env.payload = .ok up ∧
    verifyOriginStruct P session.peerCert up.signature (up.origin P session.peerSubject) =
      .ok true ∧
    up.fileId = f ∧ up.recipient = recipient ∧ up.expirationInt = deadline ∧
    aadBytes f session.peerSubject recipient = .ok aad ∧ up.response P session aad = content
  acknowledged : ∃ payload, (.UPLOAD_ACK, payload) ∈ turn.replies P ca

/-- The turn told that the file was acknowledged or revoked. -/
def Service.Settles (P : Primitives) (ca : Bytes) (turn : Service) (f : PyStr) : Prop :=
  (.ACK_OK, ackOkPayload f) ∈ turn.replies P ca ∨
    (.REVOKE_ACK, revokeAckPayload f) ∈ turn.replies P ca

/-- A message that a request is answered with tells of the deed. -/
theorem reports_of_mem {msg : MessageType × Obj} {d : Deed PyStr PyStr Obj}
    (h : turn.Tells P ca d) (hmem : msg ∈ turn.replies P ca) :
    ∃ session env, turn.label = .request session env ∧
      Reports P ca session env turn.inputs turn.store msg d := by
  obtain ⟨label, inputs, s⟩ := turn
  cases label with
  | cleanup =>
    rw [h.1] at hmem
    exact absurd hmem List.not_mem_nil
  | request session env =>
    refine ⟨session, env, rfl, ?_⟩
    have htold : Told P ca session env inputs s
      (Service.replies P ca ⟨.request session env, inputs, s⟩)
      (Service.outcome P ca ⟨.request session env, inputs, s⟩).value d := h
    generalize Service.replies P ca ⟨.request session env, inputs, s⟩ = messages,
      (Service.outcome P ca ⟨.request session env, inputs, s⟩).value = r at hmem htold
    cases htold with
    | reply hreports =>
      obtain rfl := List.mem_singleton.mp hmem
      exact hreports
    | ended => exact absurd hmem List.not_mem_nil

/-- A turn that told that a file was acknowledged or revoked settled its parcel. -/
theorem settles_of_tells {d : Deed PyStr PyStr Obj} (h : turn.Tells P ca d)
    (hs : turn.Settles P ca f) : d.Settles f := by
  have hid : ∀ {f f' : PyStr} {rest rest' : Obj}, (py "file_id", Json.str f) :: rest =
      (py "file_id", Json.str f') :: rest' → f' = f := by
    intro f f' rest rest' h
    exact (Json.str.inj (Prod.mk.inj (List.cons.inj h).1).2).symm
  rcases hs with hmem | hmem
  · obtain ⟨session, env, -, hreports⟩ := reports_of_mem h hmem
    generalize hpayload : ackOkPayload f = payload at hreports
    cases hreports with
    | carried _ hsays =>
      cases hsays
      exact hid hpayload
    | refused _ hcode => rcases hcode with ⟨-, hcode⟩ | hcode <;> cases hcode
  · obtain ⟨session, env, -, hreports⟩ := reports_of_mem h hmem
    generalize hpayload : revokeAckPayload f = payload at hreports
    cases hreports with
    | carried _ hsays =>
      cases hsays
      exact hid hpayload
    | refused _ hcode => rcases hcode with ⟨-, hcode⟩ | hcode <;> cases hcode

/-- A turn that told of a deposit was an upload. -/
theorem uploads_of_tells {sender recipient : PyStr} {now deadline : ℤ} {content : Obj}
    (h : turn.Tells P ca (.carried sender now (.deposit f recipient deadline content) .done)) :
    turn.Uploads P ca f recipient deadline content ∧ isCanonicalUuid f = true := by
  obtain ⟨label, inputs, s⟩ := turn
  cases label with
  | cleanup => rcases h.2 with ⟨-, h⟩ | ⟨-, h⟩ <;> cases h
  | request session env =>
    have htold : Told P ca session env inputs s
      (Service.replies P ca ⟨.request session env, inputs, s⟩)
      (Service.outcome P ca ⟨.request session env, inputs, s⟩).value _ := h
    generalize hreplies : Service.replies P ca ⟨.request session env, inputs, s⟩ = messages,
      (Service.outcome P ca ⟨.request session env, inputs, s⟩).value = r at htold
    cases htold with
    | reply hreports =>
      cases hreports with
      | carried hasks hsays =>
        cases hasks with
        | @deposit up _ aad htype _ _ hparse hsig _ haad =>
          cases hsays with
          | deposited hv =>
            refine ⟨⟨⟨session, env, up, aad, rfl, htype, hparse, hsig, rfl, rfl, rfl, haad, rfl⟩,
              ?_⟩, (readFrom_of_parseUpload hparse).canonical⟩
            rw [hreplies]
            exact ⟨_, List.mem_singleton_self _⟩
          | refused hcode => cases hcode

theorem exists_of_forall₂ {α β : Type} {R : α → β → Prop} {l : List α} {l' : List β}
    (h : List.Forall₂ R l l') {a : α} (ha : a ∈ l) : ∃ b ∈ l', R a b := by
  induction h with
  | nil => exact absurd ha List.not_mem_nil
  | cons hab _ ih =>
    rcases List.mem_cons.mp ha with rfl | ha
    · exact ⟨_, List.mem_cons_self, hab⟩
    · obtain ⟨b, hb, hR⟩ := ih ha
      exact ⟨b, List.mem_cons_of_mem _ hb, hR⟩

/-- **What is delivered was meant for its recipient.**  Where a download is answered with a file,
a turn before it was the upload of this file for this user, signed and acknowledged, its expiration
has not come, and no turn before it told that the file was acknowledged or revoked. -/
theorem delivered_of_served {pubkeys : PyStr → Option Bytes} {content : Obj}
    (hfloat : ∀ x, Encodable (P.floatRepr x)) (hkeys : HealthyKeys P ca (.init pubkeys))
    (h : Served P ca (.init pubkeys) (turn :: turns) s)
    (hsent : (.DOWNLOAD_RESPONSE, content) ∈ turn.replies P ca) :
    ∃ session env f deadline, turn.label = .request session env ∧
      dictGet env.payload "file_id" = some (.str f) ∧ (turn.inputs 3).now < deadline ∧
      (∃ past ∈ turns, past.Uploads P ca f session.peerSubject deadline content) ∧
      ∀ past ∈ turns, ¬ past.Settles P ca f := by
  obtain ⟨-, ds, m, hrun, -, hall⟩ := refined_run hfloat hkeys (represents_init pubkeys) h
  cases hall with
  | @cons _ d _ ds htells hall =>
    cases hrun with
    | @cons _ m₁ _ _ hrun hdoes =>
      obtain ⟨session, env, hlabel, hreports⟩ := reports_of_mem htells hsent
      cases hreports with
      | refused _ hcode => rcases hcode with ⟨-, hcode⟩ | hcode <;> cases hcode
      | carried hasks hsays =>
        cases hsays with
        | @content f =>
          cases hasks with
          | @fetch v _ _ _ hid hkey =>
            cases hdoes with
            | carried happly =>
              obtain ⟨sender, now, deadline, hmem, hnow, hopen⟩ := hrun.delivered happly
              obtain ⟨past, hpast, hdeposit⟩ := exists_of_forall₂ hall.flip hmem
              obtain ⟨hupload, hcanon⟩ := uploads_of_tells hdeposit
              obtain rfl := eq_str_of_bindKey hkey hcanon
              refine ⟨session, env, f, deadline, hlabel, hid, hnow, ⟨past, hpast, hupload⟩,
                fun later hlater hsettles => ?_⟩
              obtain ⟨d, hd, hdtells⟩ := exists_of_forall₂ hall hlater
              exact hopen d hd (settles_of_tells hdtells hsettles)

/-! ### An upload and a download -/

/-- `alice` uploads. -/
def sampleDeposit : Service := ⟨sampleUpload 1 [7], fun _ => sampleInput 100, sampleInit⟩

/-- `bob` asks for the file. -/
def sampleFetch : Service :=
  ⟨sampleDownload 2, fun _ => sampleInput 100, (sampleDeposit.outcome samplePrimitives [1]).store⟩

theorem served_sampleServices : Served samplePrimitives [1] sampleInit [sampleFetch, sampleDeposit]
    (sampleFetch.outcome samplePrimitives [1]).store := by
  have hund : Undisturbed fun _ => sampleInput 100 := undisturbed_sampleInput (by decide)
  have hdeposit : sampleDeposit.Fair samplePrimitives [1] := by
    refine ⟨authenticated_alice, hund, ?_⟩
    rintro - ⟨-, -, -, -, -, htaken⟩
    exact htaken rfl
  have hfetch : sampleFetch.Fair samplePrimitives [1] := by
    refine ⟨authenticated_bob, hund, fun htype => ?_⟩
    cases htype
  have hfirst : Served samplePrimitives [1] sampleInit [sampleDeposit]
      (sampleDeposit.outcome samplePrimitives [1]).store := .cons .nil hdeposit
  have hstore : sampleFetch.store = (sampleDeposit.outcome samplePrimitives [1]).store := by
    rw [sampleFetch]
  exact .cons (hstore ▸ hfirst) hfetch

/-- The two turns are told by a run of a mailbox. -/
theorem refined_sampleServices : ∃ ds m, Mailbox.Run (fun _ => none) ds m ∧
    Represents (sampleFetch.outcome samplePrimitives [1]).store m ∧
    List.Forall₂ (Service.Tells samplePrimitives [1]) [sampleFetch, sampleDeposit] ds :=
  mailbox_refined encodable_sampleFloat healthyKeys_sampleInit (represents_init _)
    served_sampleServices

theorem sampleFetch_replies :
    (sampleFetch.replies samplePrimitives [1]).map Prod.fst = [.DOWNLOAD_RESPONSE] := by
  decide +kernel

/-- What `bob` gets, `alice` has uploaded for him. -/
theorem delivered_sampleFetch : ∃ content f deadline,
    (.DOWNLOAD_RESPONSE, content) ∈ sampleFetch.replies samplePrimitives [1] ∧
      sampleDeposit.Uploads samplePrimitives [1] f (py "bob") deadline content := by
  have hmem := List.mem_singleton_self MessageType.DOWNLOAD_RESPONSE
  rw [← sampleFetch_replies] at hmem
  obtain ⟨⟨type, content⟩, hsent, rfl⟩ := List.mem_map.mp hmem
  obtain ⟨session, env, f, deadline, hlabel, -, -, ⟨past, hpast, hupload⟩, -⟩ :=
    delivered_of_served encodable_sampleFloat healthyKeys_sampleInit served_sampleServices hsent
  obtain rfl := List.mem_singleton.mp hpast
  obtain ⟨rfl, -⟩ := Label.request.inj hlabel
  exact ⟨content, f, deadline, hsent, hupload⟩

end Server
end ZeroTrust
