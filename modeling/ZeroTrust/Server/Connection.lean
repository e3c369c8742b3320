import ZeroTrust.Effects.Turns
import ZeroTrust.Server.Footprint
import ZeroTrust.Server.Lockstep

/-!
# Connections

Every connection has a thread of its own, which serves one envelope after another in the session
that the handshake has made, and one more thread cleans up, again and again.  The threads are
interleaved operation by operation.

* `receiveLoop`, `cleanupLoop`: the loops of `serve_connection` and of `_cleanup_loop`.
* `requests_of_server`: a run of the threads is a run of single requests and single passes.
* `AnswersOnce`: a handler sends one message, as the last thing it does, or raises and sends none.
* `replies_in_order`: the messages that a connection has sent answer its first requests, one by
  one.
-/

namespace ZeroTrust
namespace Server

open Python Effects Data

/-! ## The loops -/

/-- The envelopes that a connection comes to serve, out of what `recv_message` returns or raises:
those before the first message that is none. -/
def envelopes : List (Except PyExn Json) → List Envelope
  | [] => []
  | incoming :: rest =>
      match incoming >>= validateEnvelope with
      | .ok env => env :: envelopes rest
      | .error _ => []

/-- How the loop ends where no handler has ended it: a `ProtocolError` breaks it. -/
def ending : List (Except PyExn Json) → Except PyExn Unit
  | [] => .ok ()
  | incoming :: rest =>
      match incoming >>= validateEnvelope with
      | .ok _ => ending rest
      | .error (.protocolError _) => .ok ()
      | .error e => .error e

variable (P : Primitives) (ca : Bytes)

/-- The `while True` of `serve_connection`.  An exception that leaves it is only logged, and the
connection is closed. -/
def receiveLoop (session : Session) : List (Except PyExn Json) → ServerM Unit
  | [] => return ()
  | incoming :: rest =>
      match incoming >>= validateEnvelope with
      | .error (.protocolError _) => return ()
      | .error e => throw e
      | .ok env => do
          dispatch P ca session env
          receiveLoop session rest

/-- The `while` of `_cleanup_loop`, for a number of passes: whatever a pass raises is logged, and
the loop goes on. -/
def cleanupLoop : ℕ → ServerM Unit
  | 0 => return ()
  | n + 1 => do
      let _ ← attempt runCleanupPass
      cleanupLoop n

/-- A thread of the server. -/
inductive Thread where
  | connection (session : Session) (incoming : List (Except PyExn Json))
  | cleanup (passes : ℕ)
  deriving DecidableEq

/-- The program of a thread. -/
def Thread.code : Thread → Prog Op Op.Res (Except PyExn Unit)
  | connection session incoming => (receiveLoop P ca session incoming).run
  | cleanup passes => (cleanupLoop passes).run

/-- The server: connections and cleanup threads, one operation at a time. -/
def server : System Op Op.Res Input ServerState Thread (Except PyExn Unit) where
  exec := exec P
  code := Thread.code P ca

/-! ## Threads, request by request -/

/-- What a thread does one after another. -/
def Thread.labels : Thread → List Label
  | connection session incoming => (envelopes incoming).map (.request session)
  | cleanup passes => List.replicate passes .cleanup

/-- Whether it goes on after a result. -/
def Thread.goesOn : Thread → Except PyExn Unit → Bool
  | connection _ _, r => r.isOk
  | cleanup _, _ => true

/-- What it ends with. -/
def Thread.last : Thread → Except PyExn Unit
  | connection _ incoming => ending incoming
  | cleanup _ => .ok ()

variable {P} {ca}

/-- The receive loop serves one envelope after another. -/
theorem run_receiveLoop (session : Session) (incoming : List (Except PyExn Json)) :
    (receiveLoop P ca session incoming).run =
      (system P ca).inTurn Except.isOk (ending incoming)
        ((envelopes incoming).map (.request session)) := by
  induction incoming with
  | nil => rfl
  | cons m rest ih =>
    rw [receiveLoop, ending, envelopes]
    cases hm : m >>= validateEnvelope with
    | error e => cases e <;> rfl
    | ok env =>
      rw [List.map_cons, System.inTurn, ← ih]
      show (dispatch P ca session env).run.bind _ = (dispatch P ca session env).run.bind _
      refine congrArg _ (funext fun r => ?_)
      cases r <;> rfl

/-- The cleanup loop makes one pass after another. -/
theorem run_cleanupLoop (passes : ℕ) :
    (cleanupLoop passes).run =
      (system P ca).inTurn (fun _ => true) (.ok ()) (List.replicate passes .cleanup) := by
  induction passes with
  | zero => rfl
  | succ n ih =>
    rw [List.replicate_succ, System.inTurn, ← ih]
    show (Prog.bind (Prog.bind runCleanupPass.run _) _) = (Prog.bind (Prog.bind runCleanupPass.run _) _)
    rw [Prog.bind_assoc', Prog.bind_assoc']
    refine congrArg _ (funext fun r => ?_)
    cases r <;> rfl

theorem server_eq_threads :
    server P ca = (system P ca).threads Thread.labels Thread.goesOn Thread.last := by
  refine congrArg (System.mk (exec P)) (funext fun d => ?_)
  cases d with
  | connection session incoming => exact run_receiveLoop session incoming
  | cleanup passes => exact run_cleanupLoop passes

/-! ### A sample connection -/

/-- `bob` asks for his listing, twice under one id, and closes the connection. -/
def sampleIncoming : List (Except PyExn Json) :=
  [.ok (makeEnvelope .LIST_PENDING [] (List.replicate 16 3) 100 []),
    .ok (makeEnvelope .DOWNLOAD_REQUEST [] (List.replicate 16 4) 100 []),
    .error (.protocolError (py "connection closed"))]

/-- His connection, beside one cleanup pass. -/
def sampleConnection : Config Op Op.Res Input ServerState Thread (Except PyExn Unit) :=
  (server samplePrimitives [1]).play sampleInit <|
    [.start (.connection bob sampleIncoming), .start (.cleanup 1)] ++
    (List.replicate 4 [.step 0 (sampleInput 100), .step 1 (sampleInput 100)]).flatten ++
    List.replicate 4 (.step 0 (sampleInput 100))

theorem run_sampleConnection : (server samplePrimitives [1]).Run sampleInit
    sampleConnection.trace sampleConnection.jobs sampleConnection.store := by
  unfold sampleConnection
  exact (server _ _).run_play _ _

/-! ### One request at a time -/

/-- **The server's threads are single requests.**  Whatever connections and cleanup threads there
are, and however their operations are interleaved: every operation is one of a single request, or
of a single pass, in a run of these that goes through the same stores.  A connection has one request
of this run for each of the first envelopes that it receives, in their order; none goes on when a
later one has begun, and all but the last have ended without an exception. -/
theorem requests_of_server {s₀ s : ServerState} {t : List (Item Op Op.Res Input ServerState Thread)}
    {js : List (Job Op Op.Res Thread (Except PyExn Unit))} (hr : (server P ca).Run s₀ t js s) :
    ∃ t' js' jobs, Run P ca s₀ t' js' s ∧ List.Forall₂ (PartOf Thread.labels jobs) t t' ∧
      KeepsOrder jobs t' ∧ Follow (system P ca) Thread.labels Thread.goesOn Thread.last js js' jobs := by
  rw [server_eq_threads] at hr
  exact hr.of_threads

/-- So it is with `bob`'s two requests and the pass beside them. -/
theorem requests_of_sampleConnection : ∃ t' js' jobs,
    Run samplePrimitives [1] sampleInit t' js' sampleConnection.store ∧
      List.Forall₂ (PartOf Thread.labels jobs) sampleConnection.trace t' ∧ KeepsOrder jobs t' ∧
      Follow (system samplePrimitives [1]) Thread.labels Thread.goesOn Thread.last
        sampleConnection.jobs js' jobs :=
  requests_of_server run_sampleConnection

/-! ## One reply each -/

/-- Nothing has been sent yet. -/
def Unsent (h : List Ev) (_ : Op) : Prop := sent h = []

/-- What a handler has sent when it ends. -/
def Replied (h : List Ev) : Except PyExn Unit → Prop
  | .ok _ => ∃ m, sent h = [m]
  | .error _ => sent h = []

/-- **One reply**: whatever its operations answer, a handler issues nothing after it has sent a
message, returns only if it has sent one, and has sent none if it raises. -/
def AnswersOnce (x : ServerM Unit) : Prop :=
  ∀ h, sent h = [] → wpE (.isolated Unsent) x h Replied

/-- An operation that sends nothing. -/
abbrev Silent (op : Op) : Prop := op.isSend = false

theorem silent_act {op : Op} (h : Silent op) : Issues Silent (act op : ServerM op.Ans) :=
  issues_act h

/-- A part that sends nothing leaves nothing sent: by induction on the part. -/
theorem wpE_silent {α : Type} {x : ServerM α} (hx : Issues Silent x) {h : List Ev}
    (hh : sent h = []) : wpE (.isolated Unsent) x h fun h' _ => sent h' = [] := by
  have hprog : ∀ {β : Type} {p : Prog Op Op.Res β} {g h : List Ev},
      p.wp (.isolated fun _ => Silent) g (fun _ _ => True) → sent h = [] →
      p.wp (.isolated Unsent) h fun h' _ => sent h' = [] := by
    intro β p
    induction p with
    | pure a => exact fun _ hh => hh
    | op e k ih =>
      intro g h hp hh
      obtain ⟨he, hk⟩ := wp_isolated_op.mp hp
      exact wp_isolated_op.mpr ⟨hh, fun r => ih r (hk r) ((sent_cons he).trans hh)⟩
  exact hprog (hx []) hh

theorem AnswersOnce.after {α : Type} {x : ServerM α} {f : α → ServerM Unit}
    (hx : Issues Silent x) (hf : ∀ a, AnswersOnce (f a)) : AnswersOnce (x >>= f) := by
  intro h hh
  refine (wpE_bind ..).mpr (wpE_mono _ (wpE_silent hx hh) fun h' r hh' => ?_)
  cases r with
  | ok a => exact hf a h' hh'
  | error e => exact hh'

/-- A check, and what is done where it goes through and where it does not. -/
theorem AnswersOnce.ite {check : ServerM Bool} {x y : ServerM Unit} (hcheck : Issues Silent check)
    (hx : AnswersOnce x) (hy : AnswersOnce y) :
    AnswersOnce (check >>= fun good => if good then x else y) := by
  refine .after hcheck fun good => ?_
  cases good with
  | false => exact hy
  | true => exact hx

theorem answersOnce_sendMessage (type : MessageType) (payload : Obj) :
    AnswersOnce (sendMessage type payload) := by
  intro h hh
  refine wpE_act.mpr ⟨hh, fun r => ?_⟩
  cases r with
  | ok u => exact ⟨_, sent_cons_send.trans (congrArg (· ++ _) hh)⟩
  | error e => exact sent_cons_error.trans hh

theorem answersOnce_sendError (code : String) : AnswersOnce (sendError code) :=
  answersOnce_sendMessage .ERROR (errorPayload code)

theorem answersOnce_throw (e : PyExn) : AnswersOnce (throw e) := fun _ hh => hh

/-- Behind the gate. -/
theorem answersOnce_replayGate {env : Envelope} {body : ServerM Unit} (hbody : AnswersOnce body) :
    AnswersOnce (replayGate env body) := by
  unfold replayGate
  cases b64decode env.nonce with
  | none => exact answersOnce_sendError _
  | some nonce =>
    refine .after (issues_checkAndRecord rfl fun _ => rfl) fun good => ?_
    cases good with
    | false => exact answersOnce_sendError _
    | true => exact hbody

/-- A payload that cannot be read. -/
theorem answersOnce_malformed (e : PyExn) :
    AnswersOnce (if isMalformed e then sendError "MALFORMED" else throw e) := by
  split_ifs
  · exact answersOnce_sendError _
  · exact answersOnce_throw e

section

variable {session : Session} {env : Envelope}

theorem issues_authoriseDownload {k : Json} : Issues Silent (authoriseDownload session k) := by
  unfold authoriseDownload
  refine (silent_act rfl).bind fun found => ?_
  cases found with
  | none => exact issues_pure _
  | some row =>
    dsimp only
    by_cases hrec : row.recipientId = session.peerSubject
    · rw [if_neg (not_not.mpr hrec)]
      refine (silent_act rfl).bind fun now => ?_
      by_cases hexp : row.expiration ≤ now
      · rw [if_pos hexp]
        split_ifs
        · exact (silent_act rfl).bind fun _ => issues_pure _
        · exact issues_pure _
      · rw [if_neg hexp]
        cases row.status <;> exact issues_pure _
    · rw [if_pos hrec]
      exact issues_pure _

theorem answersOnce_markAndReply {fileId : PyStr} {st : Status} {type : MessageType}
    {payload : Obj} : AnswersOnce (markAndReply fileId st type payload) := by
  refine .after (silent_act rfl).attempt fun r => ?_
  rcases r with e | u
  · dsimp only
    split_ifs
    · exact answersOnce_sendError _
    · exact answersOnce_throw e
  · exact answersOnce_sendMessage _ _

theorem answersOnce_serveDownload {k : Json} {row : FileRow} :
    AnswersOnce (serveDownload P k row) := by
  refine .after (silent_act rfl) fun there => ?_
  cases there with
  | false => exact answersOnce_sendError _
  | true =>
    refine .after (silent_act rfl).attempt fun r => ?_
    rcases r with e | data
    · cases e <;> first | exact answersOnce_sendError _ | exact answersOnce_throw _
    · exact answersOnce_sendMessage _ _

theorem answersOnce_acceptUpload {up : Upload} : AnswersOnce (acceptUpload P ca session up) := by
  refine .ite (issues_raising _) ?_ (answersOnce_sendError _)
  refine .after (issues_loadVerifiedPubkeyCert rfl (fun _ => rfl) fun _ => rfl) fun found => ?_
  cases found with
  | none => exact answersOnce_sendError _
  | some cert =>
    refine .after (silent_act rfl) fun _ => .after (issues_storeUpload (fun _ _ => rfl)
      (fun _ _ => rfl) fun _ => rfl).attempt fun r => ?_
    rcases r with e | u
    · cases e <;> first | exact answersOnce_sendError _ | exact answersOnce_throw _
    · exact answersOnce_sendMessage _ _

/-- The refusal of an acknowledgement is sent again where it could not be sent; one at most gets
through. -/
theorem answersOnce_acceptAck {req : SignedRequest} : AnswersOnce (acceptAck P session req) := by
  unfold acceptAck
  rcases verifyAck P session.peerCert req with e | (_ | _)
  · exact answersOnce_sendError _
  · intro h hh
    dsimp only
    rw [wpE_bind, wpE_attempt]
    refine wpE_mono _ (answersOnce_sendError "AUTH_FAILED" h hh) fun h' r hr => ?_
    rcases r with e | u
    · exact answersOnce_sendError _ h' hr
    · exact hr
  · exact .after (issues_insertAck rfl) fun _ => answersOnce_markAndReply

theorem answersOnce_acceptRevoke {req : SignedRequest} {row : FileRow} :
    AnswersOnce (acceptRevoke P session req row) := by
  refine .ite (issues_raising _) ?_ (answersOnce_sendError _)
  cases row.status with
  | pending => exact answersOnce_markAndReply
  | revoked => exact answersOnce_sendMessage _ _
  | _ => exact answersOnce_sendError _

/-- **Every handler replies once.** -/
theorem answersOnce_dispatch : AnswersOnce (dispatch P ca session env) := by
  have hverify : Issues Silent (verifyCertificate P (act Op.time : ServerM ℤ) (.obj session.peerCert)
      ca (some session.peerSubject)) := issues_verifyCertificate rfl
  unfold dispatch
  cases env.type with
  | GET_PUBKEY =>
    refine .after (issues_loadVerifiedPubkeyCert rfl (fun _ => rfl) fun _ => rfl) fun found => ?_
    cases found with
    | none => exact answersOnce_sendError _
    | some cert => exact answersOnce_sendMessage _ _
  | LIST_PENDING =>
    refine .after ((silent_act rfl).bind fun _ => silent_act rfl) fun rows =>
      .after (issues_pendingEntries fun _ _ => rfl) fun _ => answersOnce_sendMessage _ _
  | UPLOAD_REQUEST =>
    refine answersOnce_replayGate (.ite hverify ?_ (answersOnce_sendError _))
    cases parseUpload env.payload with
    | ok up => exact answersOnce_acceptUpload
    | error e => exact answersOnce_malformed e
  | DOWNLOAD_REQUEST =>
    refine answersOnce_replayGate ?_
    cases dictGet env.payload "file_id" with
    | none => exact answersOnce_sendError _
    | some k =>
      refine .after issues_authoriseDownload fun granted => ?_
      cases granted with
      | error code => exact answersOnce_sendError _
      | ok row => exact answersOnce_serveDownload
  | DOWNLOAD_ACK =>
    refine answersOnce_replayGate ?_
    cases parseSignedRequest env.payload with
    | error e => exact answersOnce_malformed e
    | ok req =>
      refine .after (silent_act rfl) fun found => ?_
      cases found with
      | none => exact answersOnce_sendError _
      | some row =>
        dsimp only
        split_ifs
        · exact answersOnce_sendError _
        · exact .ite hverify answersOnce_acceptAck (answersOnce_sendError _)
  | REVOKE_REQUEST =>
    refine answersOnce_replayGate ?_
    cases parseSignedRequest env.payload with
    | error e => exact answersOnce_malformed e
    | ok req =>
      refine .after (silent_act rfl) fun found => ?_
      cases found with
      | none => exact answersOnce_sendError _
      | some row =>
        dsimp only
        split_ifs
        · exact answersOnce_sendError _
        · exact .ite hverify answersOnce_acceptRevoke (answersOnce_sendError _)
  | _ => exact answersOnce_sendError _

/-! ## Which reply -/

/-- What a request is granted with. -/
def reply : MessageType → Option MessageType
  | .GET_PUBKEY => some .PUBKEY_RESPONSE
  | .LIST_PENDING => some .PENDING_LIST
  | .UPLOAD_REQUEST => some .UPLOAD_ACK
  | .DOWNLOAD_REQUEST => some .DOWNLOAD_RESPONSE
  | .DOWNLOAD_ACK => some .ACK_OK
  | .REVOKE_REQUEST => some .REVOKE_ACK
  | _ => none

/-- **A message answers a request**: it is an error, or grants what a well formed request asks
for. -/
def Answers (env : Envelope) (m : MessageType × Obj) : Prop :=
  m.1 = .ERROR ∨ (reply env.type = some m.1 ∧ ¬ Malformed env)

theorem not_malformed_of_parseUpload {up : Upload} (htype : env.type = .UPLOAD_REQUEST)
    (h : parseUpload env.payload = .ok up) : ¬ Malformed env := by
  unfold Malformed
  rw [htype]
  exact fun hno => hno up h

theorem not_malformed_of_parseSignedRequest {req : SignedRequest}
    (htype : env.type = .DOWNLOAD_ACK ∨ env.type = .REVOKE_REQUEST)
    (h : parseSignedRequest env.payload = .ok req) : ¬ Malformed env := by
  unfold Malformed
  rcases htype with htype | htype <;> rw [htype] <;> exact fun hno => hno req h

/-- Behind the gate. -/
theorem answers_of_gate {B : List Ev → Op → Prop} {h : List Ev} {type : MessageType}
    {payload : Obj} (hg : GateStep env B h (.send type payload))
    (hB : ∀ g, B g (.send type payload) → Answers env (type, payload)) :
    Answers env (type, payload) := by
  cases hg with
  | refuse _ => exact .inl rfl
  | body _ hb => exact hB _ hb

/-- **Whatever a handler sends answers its request**: by the handlers' steps. -/
theorem answers_of_step {h : List Ev} {type : MessageType} {payload : Obj}
    (hs : Step P ca (.request session env) h (.send type payload)) :
    Answers env (type, payload) := by
  cases hs with
  | pubkey htype hp =>
    cases hp with
    | lookup hl => cases hl
    | error _ => exact .inl rfl
    | found hfound =>
      obtain ⟨hpath, -, -, -⟩ := hfound
      refine .inr ⟨by rw [htype]; rfl, ?_⟩
      unfold Malformed pubkeyPathFor at *
      rw [htype]
      split_ifs at hpath with hvalid
      simp [hvalid]
  | list htype hl =>
    cases hl with
    | reply payload =>
      refine .inr ⟨by rw [htype]; rfl, ?_⟩
      unfold Malformed
      rw [htype]
      exact id
  | upload htype hg =>
    refine answers_of_gate hg fun g hb => ?_
    cases hb with
    | lookup _ hl => cases hl
    | error _ => exact .inl rfl
    | accept hadm _ =>
      obtain ⟨⟨-, hparse, -⟩, -⟩ := hadm
      exact .inr ⟨by rw [htype]; rfl, not_malformed_of_parseUpload htype hparse⟩
  | download htype hg =>
    refine answers_of_gate hg fun g hb => ?_
    cases hb with
    | authorise _ ha => cases ha
    | error _ => exact .inl rfl
    | respond hk _ =>
      refine .inr ⟨by rw [htype]; rfl, ?_⟩
      unfold Malformed
      rw [htype]
      exact fun hno => absurd (hk.symm.trans hno) (by simp)
  | ack htype hg =>
    refine answers_of_gate hg fun g hb => ?_
    cases hb with
    | error _ => exact .inl rfl
    | accept hproven _ =>
      obtain ⟨hparse, -, -, -⟩ := hproven
      exact .inr ⟨by rw [htype]; rfl, not_malformed_of_parseSignedRequest (.inl htype) hparse⟩
  | revoke htype hg =>
    refine answers_of_gate hg fun g hb => ?_
    cases hb with
    | error _ => exact .inl rfl
    | accept hproven _ | again hproven _ =>
      obtain ⟨hparse, -, -, -⟩ := hproven
      exact .inr ⟨by rw [htype]; rfl, not_malformed_of_parseSignedRequest (.inr htype) hparse⟩
  | malformed _ => exact .inl rfl

theorem exists_of_mem_sent {h : List Ev} {m : MessageType × Obj} (hm : m ∈ sent h) :
    ∃ newer r older, h = newer ++ ⟨.send m.1 m.2, r⟩ :: older := by
  rw [sent, List.mem_reverse] at hm
  obtain ⟨⟨op, r⟩, hev, hsent⟩ := List.mem_filterMap.mp hm
  cases op with
  | send type payload =>
    obtain ⟨u, -, rfl⟩ := Option.map_eq_some_iff.mp hsent
    obtain ⟨newer, older, rfl⟩ := List.append_of_mem hev
    exact ⟨newer, r, older, rfl⟩
  | _ => cases hsent

/-- **A handler sends one answer to its request, as the last thing it does, or raises and sends
none.** -/
theorem dispatch_repliesOnce : wpE (.isolated Unsent) (dispatch P ca session env) [] fun h r =>
    match r with
    | .ok _ => ∃ m, sent h = [m] ∧ Answers env m
    | .error _ => sent h = [] := by
  have hboth := wp_isolated_past
    (wp_isolated_and (@answersOnce_dispatch P ca session env [] rfl)
      (@dispatch_guarantee P ca session env))
  refine wpE_mono _ (wp_isolated_mono hboth fun g e he => he.1) fun h r hr => ?_
  obtain ⟨⟨hreplied, -⟩, hpast⟩ := hr
  cases r with
  | error e => exact hreplied
  | ok u =>
    obtain ⟨m, hm⟩ := hreplied
    obtain ⟨newer, r, older, hh⟩ := exists_of_mem_sent (hm ▸ List.mem_singleton_self m)
    exact ⟨m, hm, answers_of_step (hpast newer _ older hh).2⟩

end

/-! ## A connection -/

theorem sent_append (g h : List Ev) : sent (g ++ h) = sent h ++ sent g := by
  rw [sent, List.filterMap_append, List.reverse_append]
  rfl

/-- What has been sent answers the first requests, one by one. -/
def InOrder (requests : List Envelope) (h : List Ev) : Prop :=
  ∃ served, served <+: requests ∧ List.Forall₂ Answers served (sent h)

/-- **The loop answers one request after another**: by induction on the messages that come, from
what was answered before. -/
theorem receiveLoop_answers {session : Session} {incoming : List (Except PyExn Json)}
    {served : List Envelope} {older : List Ev} (holder : List.Forall₂ Answers served (sent older)) :
    wpE (.isolated fun h _ => InOrder (served ++ envelopes incoming) h)
      (receiveLoop P ca session incoming) older fun h r =>
        InOrder (served ++ envelopes incoming) h ∧
          (r = .ok () → List.Forall₂ Answers (served ++ envelopes incoming) (sent h)) := by
  induction incoming generalizing served older with
  | nil =>
    rw [envelopes, List.append_nil]
    exact ⟨⟨served, List.prefix_refl _, holder⟩, fun _ => holder⟩
  | cons m rest ih =>
    rw [receiveLoop, envelopes]
    cases hm : m >>= validateEnvelope with
    | error e =>
      have hdone : InOrder (served ++ []) older := ⟨served, List.prefix_append _ _, holder⟩
      cases e with
      | protocolError _ => exact ⟨hdone, fun _ => (List.append_nil served).symm ▸ holder⟩
      | _ => exact ⟨hdone, fun h => absurd h (by simp)⟩
    | ok env =>
      dsimp only
      refine wpE_call dispatch_repliesOnce (fun g e hg => ?_) (fun g u hg => ?_) fun g e hg => ?_
      · refine ⟨served, List.prefix_append _ _, ?_⟩
        rw [sent_append, show sent g = [] from hg, List.append_nil]
        exact holder
      · obtain ⟨answer, hsent, hanswers⟩ := hg
        have hnext : List.Forall₂ Answers (served ++ [env]) (sent (g ++ older)) := by
          rw [sent_append, hsent]
          exact List.rel_append holder (.cons hanswers .nil)
        have hrest := ih hnext
        rw [List.append_assoc, List.singleton_append] at hrest
        exact hrest
      · refine ⟨⟨served, List.prefix_append _ _, ?_⟩, fun h => absurd h (by simp)⟩
        rw [sent_append, show sent g = [] from hg, List.append_nil]
        exact holder

section

variable {s₀ s : ServerState} {t : List (Item Op Op.Res Input ServerState Thread)}
  {js : List (Job Op Op.Res Thread (Except PyExn Unit))}

/-- **Requests and replies stay in step.**  Whatever runs beside it and whatever fails: at every
time the messages that a connection has sent answer the first of its requests, one by one and in
their order; and where its loop has ended without an exception, all of them. -/
theorem replies_in_order (hr : (server P ca).Run s₀ t js s) {n : ℕ} {session : Session}
    {incoming : List (Except PyExn Json)} {h : List Ev} {p : Prog Op Op.Res (Except PyExn Unit)}
    (hj : js[n]? = some ⟨.connection session incoming, h, p⟩) :
    InOrder (envelopes incoming) h ∧
      (p = .pure (.ok ()) → List.Forall₂ Answers (envelopes incoming) (sent h)) := by
  have hloop := (hr.after hj).wp
    (@receiveLoop_answers P ca session incoming [] [] .nil)
  rw [List.nil_append] at hloop
  cases p with
  | pure r => exact ⟨hloop.1, fun hp => hloop.2 (Prog.pure.inj hp)⟩
  | op e k => exact ⟨(wp_isolated_op.mp hloop).1, fun hp => absurd hp (by simp)⟩

/-- Whether a job has ended without an exception. -/
def returnedFrom (j : Job Op Op.Res Thread (Except PyExn Unit)) : Bool :=
  match j.rest with
  | .pure (.ok _) => true
  | _ => false

theorem sampleConnection_checks :
    sampleConnection.jobs[0]?.map (fun j => (j.label, returnedFrom j, (sent j.hist).map Prod.fst)) =
      some (.connection bob sampleIncoming, true, [.PENDING_LIST, .ERROR]) := by
  decide +kernel

/-- `bob` is answered twice, each time for the request he made. -/
theorem inOrder_sampleConnection : ∃ h, (sent h).map Prod.fst = [.PENDING_LIST, .ERROR] ∧
    List.Forall₂ Answers (envelopes sampleIncoming) (sent h) := by
  obtain ⟨⟨label, h, p⟩, hj, heq⟩ := Option.map_eq_some_iff.mp sampleConnection_checks
  obtain ⟨rfl, hreturned, hsent⟩ : label = .connection bob sampleIncoming ∧
      returnedFrom ⟨label, h, p⟩ = true ∧ (sent h).map Prod.fst = [.PENDING_LIST, .ERROR] := by
    simpa only [Prod.mk.injEq] using heq
  refine ⟨h, hsent, (replies_in_order run_sampleConnection hj).2 ?_⟩
  cases p with
  | pure r =>
    cases r with
    | ok u => rfl
    | error e => cases hreturned
  | op e k => cases hreturned

end

end Server
end ZeroTrust
