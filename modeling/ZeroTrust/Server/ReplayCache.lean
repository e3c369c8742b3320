import ZeroTrust.Server.Access

/-!
# No envelope is accepted twice

Three windows meet here: an envelope is fresh for 30 seconds on either side of its
timestamp, a recorded nonce is kept for 300 seconds from its arrival, and up to 240 seconds
pass between the reading of the clock and the recording.  Two acceptances of one envelope
read clocks at most 60 seconds apart, so a purge between them would have to look at a clock
at least 300 seconds past the first, which is later than the second insert can be.

* `Accepts`: `check_and_record` returns `True`; `passedGate_of_accepts`: what the job has done then.
* `Kept`: the nonce is in the cache with its arrival time.
* `kept_step`: only a purge with a cutoff past the arrival time removes it.
* `cutoff_lt`: a purge's cutoff is at least 300 seconds behind the clock.
* `accepts_at_most_once`: no two deliveries of one envelope are accepted.
* `refused_is_stale`: a refused delivery is answered `STALE` and changes nothing.
-/

namespace ZeroTrust
namespace Server

open Python Effects Data

variable {P : Primitives} {ca : Bytes} {s₀ s : ServerState} {t later earlier : List ServerItem}
  {js : List (Job Op Op.Res Label (Except PyExn Unit))} {x y : ServerItem}

/-! ## Clocks -/

/-- The clock does not run backwards. -/
def ClockNondecreasing (t : List ServerItem) : Prop :=
  t.Pairwise fun x y => y.input.now ≤ x.input.now

/-- A nonce is recorded at most 240 seconds after its own reading of the clock. -/
def PromptInserts (t : List ServerItem) : Prop :=
  ∀ x ∈ t, ∀ nonce seenAt, x.ev.op = .insertNonce nonce seenAt → x.input.now ≤ seenAt + 240

instance : Decidable (ClockNondecreasing t) := inferInstanceAs (Decidable (List.Pairwise _ _))

/-- An insert that comes no later than 240 seconds after its reading of the clock. -/
def Op.isPrompt (now : ℤ) : Op → Bool
  | .insertNonce _ seenAt => now ≤ seenAt + 240
  | _ => true

theorem promptInserts_iff : PromptInserts t ↔ ∀ x ∈ t, x.ev.op.isPrompt x.input.now = true := by
  refine forall₂_congr fun x _ => ⟨fun h => ?_, fun h nonce seenAt hop => ?_⟩
  · cases hop : x.ev.op with
    | insertNonce nonce seenAt => exact decide_eq_true (h nonce seenAt hop)
    | _ => rfl
  · rw [hop] at h
    exact of_decide_eq_true h

instance : Decidable (PromptInserts t) := decidable_of_iff' _ promptInserts_iff

theorem ClockNondecreasing.le (hclock : ClockNondecreasing t) (ht : t = later ++ x :: earlier)
    (hy : y ∈ earlier) : y.input.now ≤ x.input.now := by
  subst ht
  exact (List.pairwise_cons.mp (List.pairwise_append.mp hclock).2.1).1 y hy

/-- A reading of the clock is the environment's. -/
theorem now_of_time (hr : Run P ca s₀ t js s) (hx : x ∈ t) {now : ℤ}
    (hev : x.ev = ⟨.time, .ok now⟩) : x.input.now = now := by
  have hexec := hr.exec_eq hx
  rw [hev] at hexec
  exact Except.ok.inj (Prod.mk.inj hexec).1

/-- A purge deletes only what arrived at least 300 seconds before. -/
theorem cutoff_le (hr : Run P ca s₀ t js s) (hclock : ClockNondecreasing t)
    (ht : t = later ++ x :: earlier) {cutoff : ℤ} (hop : x.ev.op = .purgeNonces cutoff) :
    cutoff + 300 ≤ x.input.now := by
  have heff := hop ▸ effect_of_mem hr (show x ∈ t by simp [ht]) (by rw [hop]; rfl)
  generalize hp : x.past = past, x.label = l at heff
  cases heff with
  | @purgeNonces now now' =>
    obtain ⟨since, y, before, rfl, -, -, hev, -⟩ := hr.exists_of_past ht hp
    have hle := hclock.le ht (show y ∈ since ++ y :: before by simp)
    rw [now_of_time hr (by simp [ht]) hev] at hle
    omega

/-! ## Acceptance -/

/-- `check_and_record` returns `True` for this delivery of the envelope: the item is the insertion
with which its job passes the gate (`passedGate_of_accepts`, `checkAndRecord_returns`). -/
def Accepts (env : Envelope) (x : ServerItem) : Prop :=
  ∃ session now, x.label = .request session env ∧
    x.ev = ⟨.insertNonce env.nonceBytes now, .ok ()⟩

/-- The nonce is in the cache, with its arrival time. -/
def Kept (nonce : Bytes) (seenAt : ℤ) (s : ServerState) : Prop :=
  s.nonces.find? nonce = some ⟨nonce, seenAt⟩

/-- A nonce stays in the cache, but for a purge that looks past its arrival. -/
theorem kept_step (hr : Run P ca s₀ t js s) (hx : x ∈ t) {nonce : Bytes} {seenAt : ℤ}
    (hpurge : ∀ cutoff, x.ev.op = .purgeNonces cutoff → cutoff ≤ seenAt)
    (h : Kept nonce seenAt x.pre) : Kept nonce seenAt x.post := by
  unfold Kept at h ⊢
  rcases nonces_of_change (change_of_mem hr hx) with heq | ⟨row, -, hins⟩ |
    ⟨cutoff, n, hev, hdel⟩
  · rw [heq, h]
  · rw [Table.find?_insert? hins]
    split_ifs with hk
    · subst hk
      have hnew := (Table.insert?_isNew hins).symm.trans h
      cases hnew
    · exact h
  · have hle := hpurge cutoff (congrArg Event.op hev)
    rw [hdel, Table.find?_delete, h, Option.filter_some_pos (by simpa using hle)]

/-- A nonce is recorded at the gate of its envelope, which was fresh when the clock was read. -/
theorem Effect.gate {l : Label} {h : List Ev} {nonce : Bytes} {now : ℤ}
    (he : Effect P ca l h (.insertNonce nonce now)) :
    ∃ session env, l = .request session env ∧ h = [⟨.time, .ok now⟩] ∧
      isStale now env.timestamp = false := by
  cases he with
  | insertNonce hfresh => exact ⟨_, _, rfl, rfl, hfresh⟩

/-- **A job accepts by passing the gate**: the insertion ends the history with which
`check_and_record` returns `True`. -/
theorem passedGate_of_accepts (hr : Run P ca s₀ t js s) (hx : x ∈ t) {session : Session}
    {env : Envelope} {now : ℤ} (hl : x.label = .request session env)
    (hev : x.ev = ⟨.insertNonce env.nonceBytes now, .ok ()⟩) :
    isStale now env.timestamp = false ∧ x.ev :: x.past = passedGate env now := by
  have hop : x.ev.op = .insertNonce env.nonceBytes now := congrArg Event.op hev
  obtain ⟨session', env', hl', hpast, hfresh⟩ :=
    (hop ▸ effect_of_mem hr hx (by rw [hop]; rfl)).gate
  obtain ⟨-, rfl⟩ := Label.request.inj (hl.symm.trans hl')
  exact ⟨hfresh, by rw [hev, hpast]; rfl⟩

theorem fresh_of_accepts (hr : Run P ca s₀ t js s) (hx : x ∈ t) {session : Session}
    {env : Envelope} {now : ℤ} (hl : x.label = .request session env)
    (hev : x.ev = ⟨.insertNonce env.nonceBytes now, .ok ()⟩) :
    now ≤ env.timestamp + 30 ∧ env.timestamp ≤ now + 30 :=
  isStale_eq_false.mp (passedGate_of_accepts hr hx hl hev).1

/-- **At most one acceptance.** -/
theorem accepts_at_most_once (hr : Run P ca s₀ t js s) (hclock : ClockNondecreasing t)
    (hprompt : PromptInserts t) {between : List ServerItem}
    (ht : t = later ++ x :: (between ++ y :: earlier)) {env env' : Envelope}
    (hx : Accepts env x) (hy : Accepts env' y) (hnonce : env.nonceBytes = env'.nonceBytes) :
    env.timestamp ≠ env'.timestamp := by
  intro htime
  obtain ⟨session, now, hxl, hxev⟩ := hx
  obtain ⟨session', now', hyl, hyev⟩ := hy
  have hxm : x ∈ t := by simp [ht]
  have hym : y ∈ t := by simp [ht]
  have hxfresh := fresh_of_accepts hr hxm hxl hxev
  have hyfresh := fresh_of_accepts hr hym hyl hyev
  have hlate := hprompt x hxm _ _ (congrArg Event.op hxev)
  have hkept : Kept env'.nonceBytes now' x.pre := by
    refine hr.stable_pre ht (fun z hz => ?_) (of_insertNonce (hyev ▸ change_of_mem hr hym)).2
    obtain ⟨l₁, l₂, rfl⟩ := List.append_of_mem hz
    have htz : t = (later ++ x :: l₁) ++ z :: (l₂ ++ y :: earlier) := by simp [ht]
    refine kept_step hr (by simp [ht]) fun cutoff hop => ?_
    have hcut := cutoff_le hr hclock htz hop
    have hzx := hclock.le ht (show z ∈ (l₁ ++ z :: l₂) ++ y :: earlier by simp)
    omega
  have hnew := (of_insertNonce (hxev ▸ change_of_mem hr hxm)).1
  exact absurd ((hnonce ▸ hnew).symm.trans hkept) nofun

/-! ## Refusal -/

/-- The request types behind the replay gate. -/
def IsGated (type : MessageType) : Prop :=
  type = .UPLOAD_REQUEST ∨ type = .DOWNLOAD_REQUEST ∨ type = .DOWNLOAD_ACK ∨
    type = .REVOKE_REQUEST

/-- What an operation raised. -/
def raised (ev : Ev) : Option PyExn :=
  match ev.res with
  | .error e => some e
  | .ok _ => none

theorem not_refused_of_passed {env : Envelope} {now : ℤ} {g : List Ev} :
    ¬ Refused env (g ++ passedGate env now) := by
  rintro (⟨now', -, h⟩ | ⟨now', -, h⟩)
  · have := congrArg List.length h
    simp [passedGate] at this
  · rcases g with _ | ⟨ev, g⟩
    · have := (List.cons.inj h).1
      simp at this
    · have := congrArg List.length h
      simp [passedGate] at this

/-- A gated program does not return where it was refused: there is a reply to send. -/
theorem gate_answers (env : Envelope) (body : ServerM Unit) :
    wpE (.isolated fun _ _ => True) (replayGate env body) [] fun h _ => ¬ Refused env h := by
  obtain ⟨hdec, hlen⟩ := env.b64decode_nonce
  unfold replayGate
  rw [hdec]
  show wpE _ (checkAndRecord env.nonceBytes env.timestamp >>= _) _ _
  rw [wpE_bind]
  have hrefuse : ∀ ev r, ev :: r ≠ [] → wpE (.isolated fun _ _ => True) (sendError "STALE")
      (ev :: r) fun h _ => ¬ Refused env h := by
    refine fun ev r _ => wpE_act.mpr ⟨trivial, fun res => ?_⟩
    rintro (⟨now, -, h⟩ | ⟨now, -, h⟩)
    · simp at h
    · simp at h
  refine wpE_checkAndRecord hlen trivial (fun x => ?_) (fun now hs => ?_) fun now hs => ?_
  · rintro (⟨now, -, h⟩ | ⟨now, -, h⟩) <;> simp at h
  · exact hrefuse _ _ nofun
  · refine ⟨trivial, ?_, hrefuse _ _ nofun, fun x hx => ?_⟩
    · exact wp_isolated_append (wp_isolated_true _ []) (fun _ _ => id) fun _ _ _ =>
        not_refused_of_passed
    · rintro (⟨now, -, h⟩ | ⟨now, -, h⟩)
      · simp at h
      · exact hx (Option.some.inj (congrArg raised (List.cons.inj h).1))

theorem now_inj {now now' : ℤ} (h : (⟨.time, .ok now⟩ : Ev) = ⟨.time, .ok now'⟩) :
    now = now' := by
  simpa using h

/-- A gated program that has been refused sends `STALE`, and nothing after it.  The two
histories are compared from their oldest events on. -/
theorem gate_refused {env : Envelope} {B : List Ev → Op → Prop} {g h₀ : List Ev} {e : Op}
    (href : Refused env h₀) (hs : GateStep env B (g ++ h₀) e) :
    g = [] ∧ e = .send .ERROR (errorPayload "STALE") := by
  generalize hh : g ++ h₀ = h at hs
  have hrev : h₀.reverse ++ g.reverse = h.reverse := by rw [← hh, List.reverse_append]
  cases hs with
  | time => rcases href with ⟨now, -, rfl⟩ | ⟨now, -, rfl⟩ <;> simp at hrev
  | insertNonce hfresh =>
    rcases href with ⟨now', hstale, rfl⟩ | ⟨now', -, rfl⟩
    · obtain rfl := now_inj (List.cons.inj hrev).1
      exact absurd (hstale.symm.trans hfresh) nofun
    · exact absurd (congrArg List.length hrev) (by simp)
  | refuse hr =>
    refine ⟨?_, rfl⟩
    rcases href with ⟨now', hstale, rfl⟩ | ⟨now', hfresh, rfl⟩ <;>
      rcases hr with ⟨now, hstale', rfl⟩ | ⟨now, hfresh', rfl⟩
    · exact List.reverse_eq_nil_iff.mp (List.cons.inj hrev).2
    · obtain rfl := now_inj (List.cons.inj hrev).1
      exact absurd (hstale.symm.trans hfresh') nofun
    · exact absurd (congrArg List.length hrev) (by simp)
    · exact List.reverse_eq_nil_iff.mp (List.cons.inj (List.cons.inj hrev).2).2
  | body hfresh hb =>
    rw [List.reverse_append] at hrev
    rcases href with ⟨now', hstale, rfl⟩ | ⟨now', -, rfl⟩
    · obtain rfl := now_inj (List.cons.inj hrev).1
      exact absurd (hstale.symm.trans hfresh) nofun
    · exact nomatch congrArg raised (List.cons.inj (List.cons.inj hrev).2).1

/-- The guarantee of a request behind the gate. -/
theorem gated_step {session : Session} {env : Envelope} (hgated : IsGated env.type)
    {h : List Ev} {e : Op} (hs : Step P ca (.request session env) h e) :
    ∃ B, GateStep env B h e := by
  cases hs with
  | upload _ hg => exact ⟨_, hg⟩
  | download _ hg => exact ⟨_, hg⟩
  | ack _ hg => exact ⟨_, hg⟩
  | revoke _ hg => exact ⟨_, hg⟩
  | pubkey ht _ | list ht _ => rcases hgated with h | h | h | h <;> exact nomatch ht.symm.trans h
  | malformed hd => rcases hgated with h | h | h | h <;> rw [h] at hd <;> exact nomatch hd

/-- A gated request does not return where it was refused. -/
theorem dispatch_answers {session : Session} {env : Envelope} (hgated : IsGated env.type) :
    wpE (.isolated fun _ _ => True) (dispatch P ca session env) [] fun h _ => ¬ Refused env h := by
  unfold dispatch
  rcases hgated with h | h | h | h <;> rw [h] <;> exact gate_answers env _

/-- A `False` of `check_and_record` and the reply to it change neither the files, nor the
acknowledgements, nor the disk. -/
theorem frame_of_refused (hr : Run P ca s₀ t js s) (hx : x ∈ t)
    (hop : x.ev.op = .time ∨ (∃ nonce seenAt, x.ev.op = .insertNonce nonce seenAt) ∨
      ∃ type payload, x.ev.op = .send type payload) :
    x.post.files = x.pre.files ∧ x.post.acks = x.pre.acks ∧ x.post.disk = x.pre.disk := by
  have hch := change_of_mem hr hx
  generalize hev : x.ev = ev at hch hop
  generalize x.post = post at hch
  cases hch with
  | read _ _ | raised _ _ => exact ⟨rfl, rfl, rfl⟩
  | insertNonce _ | purgeNonces _ _ => exact ⟨rfl, rfl, rfl⟩
  | _ => rcases hop with h | ⟨_, _, h⟩ | ⟨_, _, h⟩ <;> exact nomatch h

theorem op_of_refused {env : Envelope} {h₀ : List Ev} (href : Refused env h₀) {ev : Ev}
    (hev : ev ∈ h₀) : ev.op = .time ∨ ∃ nonce seenAt, ev.op = .insertNonce nonce seenAt := by
  rcases href with ⟨now, -, rfl⟩ | ⟨now, -, rfl⟩
  · rw [List.mem_singleton.mp hev]
    exact .inl rfl
  · rcases List.mem_cons.mp hev with rfl | hev
    · exact .inr ⟨_, _, rfl⟩
    · rw [List.mem_singleton.mp hev]
      exact .inl rfl

/-- Every event in a job's history was guaranteed when it was issued. -/
theorem step_of_hist (hr : Run P ca s₀ t js s) {n : ℕ} {l : Label} {ev : Ev}
    {newer older : List Ev} {p : Prog Op Op.Res (Except PyExn Unit)}
    (hj : js[n]? = some ⟨l, newer ++ ev :: older, p⟩) : Step P ca l older ev.op := by
  obtain ⟨y, hy, -, rfl, rfl, rfl⟩ := hr.exists_item_of_hist_append hj
  exact hr.guarantee code_guarantee hy

/-- What a delivery of which `check_and_record` has returned `False` has done since: nothing
yet, and its next operation is the reply `STALE`; or it has sent that reply. -/
theorem answered_of_refused (hr : Run P ca s₀ t js s) {n : ℕ} {session : Session}
    {env : Envelope} {g h₀ : List Ev} {p : Prog Op Op.Res (Except PyExn Unit)}
    (hgated : IsGated env.type) (href : Refused env h₀)
    (hj : js[n]? = some ⟨.request session env, g ++ h₀, p⟩) :
    (g = [] ∧ ∃ k, p = .op (.send .ERROR (errorPayload "STALE")) k) ∨
      ∃ r, g = [⟨.send .ERROR (errorPayload "STALE"), r⟩] := by
  rcases List.eq_nil_or_concat' g with rfl | ⟨g₁, ev, rfl⟩
  · refine .inl ⟨rfl, ?_⟩
    cases p with
    | pure a => exact absurd href ((hr.after hj).wp (dispatch_answers hgated))
    | op e k =>
      obtain ⟨B, hB⟩ := gated_step hgated ((hr.after hj).guar (code_guarantee _))
      obtain ⟨-, rfl⟩ := gate_refused href hB
      exact ⟨k, rfl⟩
  · rw [List.append_assoc, List.singleton_append] at hj
    obtain ⟨B, hB⟩ := gated_step hgated (step_of_hist hr hj)
    rw [← List.nil_append h₀] at hB
    obtain ⟨-, hop⟩ := gate_refused href hB
    rcases List.eq_nil_or_concat' g₁ with rfl | ⟨g₂, ev', rfl⟩
    · obtain ⟨op, r⟩ := ev
      subst hop
      exact .inr ⟨r, rfl⟩
    · rw [List.append_assoc, List.singleton_append] at hj
      obtain ⟨B', hB'⟩ := gated_step hgated (step_of_hist hr hj)
      rw [← List.singleton_append] at hB'
      exact nomatch (gate_refused href hB').1

/-- **No replay.**  In every interleaving with a nondecreasing clock and prompt inserts, two
different acceptances are of different envelopes; and a delivery that is refused is answered
`STALE`, with nothing but the nonce cache changed by any of its operations. -/
theorem no_replay (hr : Run P ca s₀ t js s) (hclock : ClockNondecreasing t)
    (hprompt : PromptInserts t) :
    (∀ later x between y earlier env env', t = later ++ x :: (between ++ y :: earlier) →
      Accepts env x → Accepts env' y →
      ¬ (env.nonceBytes = env'.nonceBytes ∧ env.timestamp = env'.timestamp)) ∧
    ∀ n session env g h₀ p, IsGated env.type → Refused env h₀ →
      js[n]? = some ⟨.request session env, g ++ h₀, p⟩ →
      ((g = [] ∧ ∃ k, p = .op (.send .ERROR (errorPayload "STALE")) k) ∨
        ∃ r, g = [⟨.send .ERROR (errorPayload "STALE"), r⟩]) ∧
      ∀ x ∈ t, x.job = n → x.post.files = x.pre.files ∧ x.post.acks = x.pre.acks ∧
        x.post.disk = x.pre.disk := by
  refine ⟨fun later x between y earlier env env' ht hx hy => ?_,
    fun n session env g h₀ p hgated href hj => ?_⟩
  · rintro ⟨hnonce, htime⟩
    exact accepts_at_most_once hr hclock hprompt ht hx hy hnonce htime
  · have hans := answered_of_refused hr hgated href hj
    refine ⟨hans, fun x hx hn => frame_of_refused hr hx ?_⟩
    obtain ⟨-, hmem⟩ := hr.mem_hist_of_item hx (hn ▸ hj)
    rcases List.mem_append.mp hmem with hg | hh
    · rcases hans with ⟨rfl, -⟩ | ⟨r, rfl⟩
      · exact nomatch hg
      · rw [List.mem_singleton.mp hg]
        exact .inr (.inr ⟨_, _, rfl⟩)
    · rcases op_of_refused href hh with hop | hop
      · exact .inl hop
      · exact .inr (.inl hop)

/-! ### One replay -/

/-- `bob`'s download, and its envelope once more. -/
def sampleReplayed : Config Op Op.Res Input ServerState Label (Except PyExn Unit) :=
  samplePlay sampleStore (Move.alone (sampleDownload 1) 0 7 (.quiet 100) ++
    Move.alone (sampleDownload 1) 1 3 (.quiet 110))

/-- The second delivery, refused. -/
def sampleRefused : List Ev :=
  [⟨.insertNonce (List.replicate 16 1) 110, .error .integrityError⟩, ⟨.time, .ok 110⟩]

theorem sampleReplayed_job :
    sampleReplayed.jobs[1]?.map (fun j => (j.label, j.hist)) = some (sampleDownload 1,
      [⟨.send .ERROR (errorPayload "STALE"), .ok ()⟩] ++ sampleRefused) := by
  decide +kernel

/-- No two deliveries are accepted, and the second leaves the rest of the store alone. -/
theorem no_replay_sample :
    (∀ later x between y earlier env env',
      sampleReplayed.trace = later ++ x :: (between ++ y :: earlier) →
      Accepts env x → Accepts env' y →
      ¬ (env.nonceBytes = env'.nonceBytes ∧ env.timestamp = env'.timestamp)) ∧
    ∀ x ∈ sampleReplayed.trace, x.job = 1 → x.post.files = x.pre.files ∧
      x.post.acks = x.pre.acks ∧ x.post.disk = x.pre.disk := by
  obtain ⟨hfirst, hsecond⟩ := no_replay (run_samplePlay _ _)
    (show ClockNondecreasing sampleReplayed.trace by decide +kernel)
    (show PromptInserts sampleReplayed.trace by decide +kernel)
  obtain ⟨⟨l, h, p⟩, hj, heq⟩ := Option.map_eq_some_iff.mp sampleReplayed_job
  obtain ⟨hl, hh⟩ := Prod.mk.inj heq
  have hj : sampleReplayed.jobs[1]? = some ⟨sampleDownload 1,
      [⟨.send .ERROR (errorPayload "STALE"), .ok ()⟩] ++ sampleRefused, p⟩ := by
    rw [hj, ← hl, ← hh]
  exact ⟨hfirst, (hsecond 1 _ _ _ sampleRefused p (.inr (.inl rfl))
    (.inr ⟨110, by decide, by decide +kernel⟩) hj).2⟩

end Server
end ZeroTrust
