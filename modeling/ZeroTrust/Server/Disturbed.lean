import ZeroTrust.Server.Directory
import ZeroTrust.Server.Footprint

/-!
# One request, whatever disturbs it

A request that is served alone, where any operation may raise in place of what it does.  A part
of a handler that only reads goes through under a condition on the store and on the inputs that
are left, and otherwise nothing but the nonces has changed.

* `Reached`: the sending of a message was attempted.
* `Spared`: rows, acknowledgements and blobs are as they were, and no message of a type was
  attempted since; `wp_spared`: a program of operations that spare them.
* `wp_stage`: a part goes through, or the request stops there.
* `wp_replayGate_any`, `wp_verifySession_any`, `wp_lookup_any`, `wp_getFile_any`: the common
  parts.
-/

namespace ZeroTrust
namespace Server

open Python Effects Data

/-- Whether an operation sends a message of a type. -/
def Op.sends (type : MessageType) : Op → Bool
  | .send type' _ => type' = type
  | _ => false

/-- The program came to the sending of a message of this type. -/
def Reached (type : MessageType) (h : List Ev) : Prop := ∃ e ∈ h, e.op.sends type = true

instance (type : MessageType) (h : List Ev) : Decidable (Reached type h) :=
  inferInstanceAs (Decidable (∃ e ∈ h, _))

/-- Whether an operation changes nonces at most, and sends no message of a type. -/
def Op.spares (type : MessageType) : Op → Bool
  | .insertNonce _ _ => true
  | .send type' _ => type' ≠ type
  | op => op.isRead

/-- No row, no acknowledgement and no blob has changed, and no message of a type was to be
sent. -/
structure Spared (type : MessageType) (t t' : Alone) : Prop where
  files : t'.store.files = t.store.files
  acks : t'.store.acks = t.store.acks
  blobs : ∀ f, t'.store.disk (fileBlobPathFor f) = t.store.disk (fileBlobPathFor f)
  reached : Reached type t'.hist → Reached type t.hist

variable {P : Primitives} {ca : Bytes} {t t' t'' : Alone} {session : Session} {env : Envelope}
  {type : MessageType} {α : Type}

theorem Spared.refl (t : Alone) : Spared type t t := ⟨rfl, rfl, fun _ => rfl, id⟩

theorem Spared.trans (h : Spared type t t') (h' : Spared type t' t'') : Spared type t t'' :=
  ⟨h'.files.trans h.files, h'.acks.trans h.acks, fun f => (h'.blobs f).trans (h.blobs f),
    h.reached ∘ h'.reached⟩

/-! ## Operations -/

theorem reached_cons {ev : Ev} {h : List Ev} :
    Reached type (ev :: h) ↔ ev.op.sends type = true ∨ Reached type h :=
  List.exists_mem_cons_iff ..

/-- An operation that spares spares. -/
theorem spared_next {op : Op} (h : op.spares type = true) :
    Spared type t (t.next (exec P) op) := by
  have hreached : op.sends type = false →
      Reached type (t.next (exec P) op).hist → Reached type t.hist := by
    intro hop hr
    rcases reached_cons.mp hr with hsend | hr
    · exact absurd (hop.symm.trans hsend) Bool.false_ne_true
    · exact hr
  have hread : op.isRead = true → op.sends type = false → Spared type t (t.next (exec P) op) := by
    intro hop hsend
    have hstore : (t.next (exec P) op).store = t.store := store_next_of_isRead hop
    exact ⟨by rw [hstore], by rw [hstore], fun f => by rw [hstore], hreached hsend⟩
  cases op with
  | insertNonce nonce now =>
    have hchange := @change_of_exec P (.insertNonce nonce now) _ _ t.store _ (Prod.mk.eta (p :=
      exec P (.insertNonce nonce now) (t.inputs 0) t.store)).symm
    have hnew := hreached rfl
    generalize hu : t.next (exec P) (.insertNonce nonce now) = u at hnew ⊢
    have hstore : (exec P (.insertNonce nonce now) (t.inputs 0) t.store).2 = u.store :=
      congrArg Solo.store hu
    rw [hstore] at hchange
    generalize (exec P (.insertNonce nonce now) (t.inputs 0) t.store).1 = r at hchange
    obtain ⟨hist, store, inputs⟩ := u
    cases hchange <;> exact ⟨rfl, rfl, fun _ => rfl, hnew⟩
  | send type' payload => exact hread rfl (decide_eq_false (of_decide_eq_true h))
  | time | getFile | listPending | isFile | readBytes | statSize | mkdirFiles => exact hread rfl rfl
  | _ => exact absurd h Bool.false_ne_true

/-- **A program of operations that spare** spares. -/
theorem wp_spared {x : ServerM α} (hx : Issues (fun op : Op => op.spares type = true) x) :
    wpE (.solo (exec P)) x t fun t' _ => Spared type t t' :=
  hx.keeps (fun _ _ h hu => hu.trans (spared_next h)) (.refl t)

/-! ## Parts of a request -/

/-- How a part of a request ends: with a good result exactly if a condition holds, and then
quietly. -/
structure Stage (type : MessageType) (t : Alone) (k : ℕ) (good : α → Prop) (cond : Prop) (t' : Alone)
    (r : Except PyExn α) : Prop where
  spared : Spared type t t'
  good_iff : (∃ a, r = .ok a ∧ good a) ↔ cond
  quietly : cond → Quietly t k t'

/-- **A part of a request and what follows it**: the request goes on after a good result, and
otherwise it stops, and nothing has changed. -/
theorem wp_stage {x : ServerM α} {f : α → ServerM Unit} {k : ℕ} {good : α → Prop} {cond : Prop}
    {Q : Alone → Except PyExn Unit → Prop}
    (hx : wpE (.solo (exec P)) x t (Stage type t k good cond))
    (hbad : ∀ a, ¬ good a → Issues (fun op : Op => op.spares type = true) (f a))
    (hstop : ¬ cond → ∀ t' r, Spared type t t' → Q t' r)
    (hgo : cond → ∀ a t', good a → Spared type t t' → Quietly t k t' →
      wpE (.solo (exec P)) (f a) t' Q) :
    wpE (.solo (exec P)) (x >>= f) t Q := by
  refine (wpE_bind ..).mpr (wpE_mono _ hx fun t' r h => ?_)
  obtain ⟨hspared, hiff, hquiet⟩ := h
  cases r with
  | error e =>
    refine hstop (fun hc => ?_) t' _ hspared
    obtain ⟨a, h, -⟩ := hiff.mpr hc
    cases h
  | ok a =>
    by_cases ha : good a
    · have hc := hiff.mp ⟨a, rfl, ha⟩
      exact hgo hc a t' ha hspared (hquiet hc)
    · refine wpE_mono _ (wp_spared (hbad a ha)) fun t'' r hs => hstop (fun hc => ?_) t'' r
        (hspared.trans hs)
      obtain ⟨a', h, ha'⟩ := hiff.mpr hc
      obtain rfl := Except.ok.inj h
      exact ha ha'

/-- The gate lets a request through. -/
structure LetThrough (env : Envelope) (s : ServerState) (inputs : ℕ → Input) : Prop where
  gate : PassesGate env (inputs 0).now s
  clock : -2 ^ 63 ≤ (inputs 0).now ∧ (inputs 0).now < 2 ^ 63
  recorded : (inputs 1).fault = none

/-- A write that answers was not disturbed, and goes through. -/
theorem ok_of_writing {i : Input} {s : ServerState} {answer a : α} {x : Except PyExn ServerState}
    (h : (writing i s answer x).1 = .ok a) : i.fault = none ∧ ∃ s', x = .ok s' := by
  unfold writing at h
  split at h
  · cases h
  · cases h
  · next hfault => exact ⟨hfault, _, rfl⟩

/-- A reading that answers was not disturbed. -/
theorem ok_of_reading {i : Input} {s : ServerState} {a : α} {x : Except PyExn α}
    (h : (reading i s x).1 = .ok a) : i.fault = none ∧ x = .ok a := by
  unfold reading at h
  split at h
  · cases h
  · next hfault => exact ⟨hfault, h⟩

/-- A write that is disturbed raises. -/
theorem writing_of_fault {i : Input} {s : ServerState} {answer : α} {x : Except PyExn ServerState}
    {e : PyExn} (h : i.fault = some e) : writing i s answer x = (.error e, s) := by
  unfold writing
  rw [h]

/-- A write that raises changes nothing. -/
theorem store_of_writing_error {op : Op} {answer : op.Ans} {x : Except PyExn ServerState} {e : PyExn}
    (hexec : exec P op (t.inputs 0) t.store = writing (t.inputs 0) t.store answer x)
    (h : t.answer (exec P) op = .error e) : (t.next (exec P) op).store = t.store := by
  have hpair : writing (t.inputs 0) t.store answer x = (.error e, (t.next (exec P) op).store) :=
    hexec.symm.trans (Prod.ext h rfl)
  rcases writing_cases hpair with ⟨hs, -⟩ | ⟨-, h⟩
  · exact hs
  · cases h

/-- The two halves of how a part ends. -/
theorem wp_stage_intro {x : ServerM α} {k : ℕ} {good : α → Prop} {cond : Prop}
    (hx : Issues (fun op : Op => op.spares type = true) x)
    (h : wpE (.solo (exec P)) x t fun t' r =>
      ((∃ a, r = .ok a ∧ good a) ↔ cond) ∧ (cond → Quietly t k t')) :
    wpE (.solo (exec P)) x t (Stage type t k good cond) :=
  Prog.wp_mono _ (Prog.wp_and _ (wp_spared hx) h) fun _ _ h => ⟨h.1, h.2.1, h.2.2⟩

/-- The nonce is recorded exactly if nothing disturbs it and it is new. -/
theorem answer_insertNonce_iff {nonce : Bytes} {now : ℤ} {u : Unit} :
    t.answer (exec P) (.insertNonce nonce now) = .ok u ↔ (t.inputs 0).fault = none ∧
      (-2 ^ 63 ≤ now ∧ now < 2 ^ 63) ∧ t.store.nonces.find? nonce = none := by
  constructor
  · intro h
    obtain ⟨hfault, s', hs'⟩ := ok_of_writing h
    have hnow := bindInt_eq_ok.mp (bind_eq_ok.mp hs').choose_spec.1
    exact ⟨hfault, hnow, (of_insertNonce (change_insertNonce hs' : Change P _ _ _)).1⟩
  · rintro ⟨hfault, hnow, hnew⟩
    exact (answer_insertNonce hfault hnow hnew).1

/-- **The replay check**, whatever disturbs it. -/
theorem wp_checkAndRecord_any : wpE (.solo (exec P)) (checkAndRecord env.nonceBytes env.timestamp) t
    (Stage type t 2 (· = true) (LetThrough env t.store t.inputs)) := by
  obtain ⟨-, hlen⟩ := env.b64decode_nonce
  refine wp_stage_intro (issues_checkAndRecord rfl fun _ => rfl) ?_
  have hcond : LetThrough env t.store t.inputs ↔
      isStale (t.inputs 0).now env.timestamp = false ∧ (t.next (exec P) .time).answer (exec P)
        (.insertNonce env.nonceBytes (t.inputs 0).now) = .ok () := by
    rw [answer_insertNonce_iff]
    exact ⟨fun h => ⟨h.gate.1, h.recorded, h.clock, h.gate.2⟩,
      fun h => ⟨⟨h.1, h.2.2.2⟩, h.2.2.1, h.2.1⟩⟩
  simp only [hcond]
  rw [checkAndRecord, if_neg (not_not.mpr hlen), wpE_solo_act_bind answer_time]
  cases hs : isStale (t.inputs 0).now env.timestamp with
  | true => exact ⟨by simp, by simp⟩
  | false =>
    rw [if_neg Bool.false_ne_true, wpE_bind, wpE_attempt, wpE_solo_act]
    cases hr : (t.next (exec P) .time).answer (exec P)
        (.insertNonce env.nonceBytes (t.inputs 0).now) with
    | ok u =>
      obtain ⟨hfault, hnow, hnew⟩ := answer_insertNonce_iff.mp hr
      refine ⟨by simp, fun _ => (quietly_next P t .time rfl rfl).trans ⟨rfl, ?_, sent_next rfl⟩⟩
      exact (answer_insertNonce hfault hnow hnew).2
    | error e => cases e <;> exact ⟨by simp, by simp⟩

/-- **The gate**, whatever disturbs it. -/
theorem wp_replayGate_any {body : ServerM Unit} {Q : Alone → Except PyExn Unit → Prop}
    (herror : MessageType.ERROR ≠ type)
    (hstop : ¬ LetThrough env t.store t.inputs → ∀ t' r, Spared type t t' → Q t' r)
    (hgo : LetThrough env t.store t.inputs → ∀ t', Spared type t t' → Quietly t 2 t' →
      wpE (.solo (exec P)) body t' Q) :
    wpE (.solo (exec P)) (replayGate env body) t Q := by
  obtain ⟨hnonce, -⟩ := env.b64decode_nonce
  rw [replayGate, hnonce]
  refine wp_stage wp_checkAndRecord_any (fun a ha => ?_) hstop fun hc a t' ha hspared hq => ?_
  · rw [if_neg ha]
    exact issues_sendError (decide_eq_true herror)
  · rw [if_pos ha]
    exact hgo hc t' hspared hq

/-- **The certificate of a session**, whatever disturbs its verification. -/
theorem wp_verifySession_any :
    wpE (.solo (exec P)) (verifyCertificate P (act Op.time) (.obj session.peerCert) ca
      (some session.peerSubject)) t
      (Stage type t 1 (· = true)
        (CertCheck P ca session.peerCert (t.inputs 0).now (some session.peerSubject))) := by
  refine wp_stage_intro (issues_verifyCertificate rfl) (wp_certOutcome fun k t' hq hk => ?_)
  rw [certCheck_iff]
  refine ⟨by simp, fun h => ?_⟩
  obtain rfl := hk (certCheck_iff.mpr h).signed
  exact hq

/-- **A look-up in the directory**, whatever disturbs it. -/
theorem wp_lookup_any {username : Json} :
    wpE (.solo (exec P)) (loadVerifiedPubkeyCert P ca username) t
      (Stage type t 3 (fun found => found.isSome = true)
        ((t.inputs 0).fault = none ∧ (t.inputs 1).fault = none ∧
          ∃ cert, Listed P ca t.store username (t.inputs 2).now cert)) := by
  refine wp_stage_intro (issues_loadVerifiedPubkeyCert rfl (fun _ => rfl) fun _ => rfl)
    (wp_lookupOutcome fun k t' r hr hq hk => ⟨?_, ?_⟩)
  · constructor
    · rintro ⟨found, rfl, hsome⟩
      obtain ⟨cert, rfl⟩ := Option.isSome_iff_exists.mp hsome
      obtain ⟨hfile, hread, hlisted⟩ := lookupOutcome_eq_some.mp hr.symm
      exact ⟨hfile, hread, cert, hlisted⟩
    · rintro ⟨hfile, hread, cert, hlisted⟩
      exact ⟨some cert, hr.trans (lookupOutcome_eq_some.mpr ⟨hfile, hread, hlisted⟩), rfl⟩
  · rintro ⟨hfile, hread, cert, hlisted⟩
    obtain rfl := hk cert (hr.trans (lookupOutcome_eq_some.mpr ⟨hfile, hread, hlisted⟩))
    exact hq

/-- **A row of interest is read**, whatever disturbs it. -/
theorem wp_getFile_any {f : PyStr} {good : FileRow → Prop} (hname : f.any isSurrogate = false) :
    wpE (.solo (exec P)) (act (Op.getFile (.str f))) t
      (Stage type t 1 (fun found => ∃ row, found = some row ∧ good row)
        ((t.inputs 0).fault = none ∧ ∃ row, t.store.files.find? f = some row ∧ good row)) := by
  refine wp_stage_intro (issues_act rfl) (wpE_solo_act.mpr ⟨?_, fun _ => ?_⟩)
  · constructor
    · rintro ⟨found, h, row, rfl, hgood⟩
      obtain ⟨hfault, hrow⟩ := ok_of_reading h
      obtain ⟨key, hkey, hrow⟩ := getFile_eq_ok.mp hrow
      obtain rfl := bindKey_str hkey
      exact ⟨hfault, row, hrow, hgood⟩
    · rintro ⟨hfault, row, hrow, hgood⟩
      refine ⟨some row, ?_, row, rfl, hgood⟩
      rw [answer_getFile hfault]
      exact getFile_eq_ok.mpr ⟨some f, bindKey_of_str hname, hrow⟩
  · exact quietly_next P t _ rfl rfl

end Server
end ZeroTrust
