import ZeroTrust.Network.Checked
import ZeroTrust.Network.Ends

/-!
# Who is at the other end of a handshake

Client and server handshakes run side by side, and an attacker delivers what it likes.  An end
that returns with the certificate of an honest party has made its exchange with a run of that
party: the signature of the party's key that it has verified was made in such a run, over the same
transcript.

* `exists_concludes`, `exists_proves`: the run in which a signature over a transcript was made.
* `server_of_client`, `client_of_server`: the other end of a session.
* `handshake_agreement`: both, for every run.
-/

namespace ZeroTrust
namespace Network

open Python Effects Endpoint

section

variable {P : Primitives} {s₀ s : Files} {t : Trace} {js : Jobs}
  {x y : Item Op Op.Res Input Files Label} {session : Client.Session} {subject : Option PyStr}
  {me : Party} {e e' : Exchange} {peer peer' : Peer} {state : SessionState} {n : ℕ} {data : Bytes}

open Server.Handshake (Proven)

/-- Only servers hold the key. -/
def ServerKey (P : Primitives) (key : RsaPublicKey) (t : Trace) : Prop :=
  ∀ x ∈ t, x.label.Holds P key → ∃ me, x.label = .server me

/-- Only clients hold the key. -/
def ClientKey (P : Primitives) (key : RsaPublicKey) (t : Trace) : Prop :=
  ∀ x ∈ t, x.label.Holds P key → ∃ session activity, x.label = .client session activity

/-- What a server's handshake sends after it has signed. -/
theorem sessionOk_of_sign {newer g : List Ev} {sig : Bytes} {type : MessageType} {payload : Obj}
    (hstep : Server.Handshake.HandshakeStep P me
      (newer ++ ⟨.sign me.privPem me.password data, .ok sig⟩ :: g) (.send type payload)) :
    newer = [] ∧ type = .SESSION_OK ∧ payload = proofPayload sig := by
  generalize hh : newer ++ (⟨.sign me.privPem me.password data, .ok sig⟩ : Ev) :: g = h at hstep
  cases hstep with
  | other hunsigned _ =>
    have hsigned := hunsigned ⟨.sign me.privPem me.password data, .ok sig⟩ (by simp [← hh])
    cases hsigned
  | @sessionOk e peer data' sig' g' hproven =>
    obtain ⟨hev, rfl⟩ := eq_of_signed_suffix [] rfl unsigned_nil hproven.unsigned ⟨newer, hh⟩
    rw [← hev] at hh
    obtain rfl : newer = [] := by simpa using hh
    simp only [Event.mk.injEq, Op.sign.injEq, true_and] at hev
    obtain ⟨rfl, hsig⟩ := hev
    exact ⟨rfl, rfl, by rw [Except.ok.inj (eq_of_heq hsig)]⟩

section

variable {key : RsaPublicKey} {later earlier : Trace} {msg : Obj} {env : Envelope} {sig : Bytes}

/-- **A server's signature over a transcript** is followed by the server's `SESSION_OK`. -/
theorem exists_concludes (hr : (endpoints P).Run s₀ t js s) (hlen : ∀ b, (P.sha256 b).length = 32)
    (hu : Unforgeable P key t) (hserver : ServerKey P key t) (ht : t = later ++ x :: earlier)
    (hx : x.ev = ⟨.recv, .ok msg⟩) (henv : validateEnvelope (.obj msg) = .ok env)
    (hsig : b64Item env.payload "signature" = some sig)
    (hdata : buildTranscriptHash P e.nonceC e.nonceS e.preMasterCt = .ok data)
    (hver : P.pssVerify key data sig = true) :
    ∃ y ∈ t, y.label.Holds P key ∧ ∃ me e' peer', Concludes P me e' peer' y ∧
      buildTranscriptHash P e'.nonceC e'.nonceS e'.preMasterCt = .ok data := by
  obtain ⟨y, hy, ⟨type, payload, hsend⟩, z, hz, -, hlabel, hholds, hsigns, -, newer, sig', hpast⟩ :=
    exists_signer hr hu ht hx
      (mem_shown_of_validateEnvelope henv (mem_shown_of_b64Item hsig)) hver
  obtain ⟨me, hme⟩ := hserver z hz hholds
  have hstep : y.label.Step P y.past y.ev.op := hr.guarantee code_guarantee hy
  rw [← hlabel, hme, hsend, hpast, hme] at hstep
  obtain ⟨e', peer', hproven, hdata'⟩ : ∃ e' peer', Proven P me e' peer' data z.past ∧
      buildTranscriptHash P e'.nonceC e'.nonceS e'.preMasterCt = .ok data := by
    rcases hsigns.handshake_inv hlen (.handshake hdata) with ⟨_, _, _, _, hl, -, -⟩ |
      ⟨me', e', peer', hl, hproven, hdata'⟩
    · cases hme.symm.trans hl
    · obtain rfl := Label.server.inj (hme.symm.trans hl)
      exact ⟨e', peer', hproven, hdata'⟩
  obtain ⟨rfl, rfl, rfl⟩ := sessionOk_of_sign hstep
  rw [hme] at hpast
  exact ⟨y, hy, hlabel ▸ hholds, me, e', peer',
    ⟨hlabel.symm.trans hme, data, sig', z.past, hproven, hpast, hsend⟩, hdata'⟩

/-- **A client's signature over a transcript** is its proof in a handshake. -/
theorem exists_proves (hr : (endpoints P).Run s₀ t js s) (hlen : ∀ b, (P.sha256 b).length = 32)
    (hu : Unforgeable P key t) (hclient : ClientKey P key t) (ht : t = later ++ x :: earlier)
    (hx : x.ev = ⟨.recv, .ok msg⟩) (henv : validateEnvelope (.obj msg) = .ok env)
    (hsig : b64Item env.payload "signature" = some sig)
    (hdata : buildTranscriptHash P e.nonceC e.nonceS e.preMasterCt = .ok data)
    (hver : P.pssVerify key data sig = true) :
    ∃ y ∈ t, y.label.Holds P key ∧ ∃ session subject e' peer',
      Proves P session subject e' peer' y ∧
      buildTranscriptHash P e'.nonceC e'.nonceS e'.preMasterCt = .ok data := by
  obtain ⟨-, -, -, z, hz, -, -, hholds, hsigns, hop, -⟩ :=
    exists_signer hr hu ht hx
      (mem_shown_of_validateEnvelope henv (mem_shown_of_b64Item hsig)) hver
  obtain ⟨session, activity, hclient⟩ := hclient z hz hholds
  rcases hsigns.handshake_inv hlen (.handshake hdata) with ⟨session', subject, e', peer', hl, hsent,
    hdata'⟩ | ⟨_, _, _, hl, -, -⟩
  · rw [hl] at hop
    exact ⟨z, hz, hholds, session', subject, e', peer', ⟨hl, hsent, data, hop, hdata'⟩, hdata'⟩
  · cases hclient.symm.trans hl

theorem loadPublic_of_certKey {cert : Obj} {pem : Bytes} (h : certKey P cert = .ok key)
    (hpem : certPem cert = .ok pem) : loadPublic P pem = .ok key := by
  obtain ⟨pem', hpem', h⟩ := bind_eq_ok.mp h
  obtain rfl := Except.ok.inj (hpem.symm.trans hpem')
  exact h

theorem Concludes.transcriptShown (h : Concludes P me e peer x) : TranscriptShown e x.past := by
  obtain ⟨data, sig, g, hproven, hpast, -⟩ := h.proven
  obtain ⟨hc, hs, hct⟩ := transcriptShown_of_proven hproven
  have hsub : ∀ {b}, ShownIn g b → ShownIn x.past b := by
    rintro b ⟨ev, hev, hb⟩
    exact ⟨ev, hpast ▸ List.mem_cons_of_mem _ hev, hb⟩
  exact ⟨hsub hc, hsub hs, hsub hct⟩

/-- The nonce of a concluded exchange was drawn for it. -/
theorem Concludes.drawn (h : Concludes P me e peer x) :
    ⟨.urandom NONCE_BYTES, .ok e.nonceS⟩ ∈ x.past := by
  obtain ⟨data, sig, g, hproven, hpast, -⟩ := h.proven
  exact hpast ▸ List.mem_cons_of_mem _ (events_of_proven hproven).1

/-- What a server has decrypted. -/
theorem Concludes.decrypts (h : Concludes P me e peer x) :
    rsaOaepDecrypt P me.privPem me.password e.preMasterCt = .ok e.preMaster := by
  obtain ⟨data, sig, g, hproven, -, -⟩ := h.proven
  exact (events_of_proven hproven).2.2.1

/-- **The client's end.**  A client that returns with the certificate of an honest server has
made its exchange with a run of that server, which has the same keys, and with that run only. -/
theorem server_of_client (hr : (endpoints P).Run s₀ t js s) (hlen : ∀ b, (P.sha256 b).length = 32)
    (hcoll : CollisionFree P t) (hfresh : FreshNonces t) (hmatch : LoadsMatching P)
    (hfin : Finished js n (.client session (.handshake subject)) state)
    (hkey : certKey P state.peerCert = .ok key) (hu : Unforgeable P key t)
    (hserver : ServerKey P key t) :
    ∃ e peer, state = e.state P peer ∧
      (∃ x ∈ t, x.job = n ∧ Proves P session subject e peer x) ∧
      ∃ y ∈ t, y.label.Holds P key ∧ (∃ me peer', Concludes P me e peer' y) ∧
        (∀ l state', Finished js y.job l state' → Agree state state') ∧
        ∀ z ∈ t, ∀ me' e' peer', Concludes P me' e' peer' z → e'.nonceC = e.nonceC →
          e'.nonceS = e.nonceS → e'.preMasterCt = e.preMasterCt → z.job = y.job := by
  obtain ⟨e, peer, data, rfl, hdata, ⟨x, hx, hjob, hproves⟩, later, r, earlier, msg, env, sig, ht,
    hr', henv, hsig, hverify⟩ := proves_of_finished hr hfin
  obtain ⟨-, -, -, -, -, hpem⟩ := hproves.keySent.hello
  have hpub : loadPublic P peer.pem = .ok key := loadPublic_of_certKey hkey hpem
  obtain ⟨y, hy, hholds, me, e', peer', hconcl, hdata'⟩ :=
    exists_concludes hr hlen hu hserver ht hr' henv hsig hdata (pssVerify_of_rsaVerify hpub hverify)
  have hsame := same_of_transcript hr hcoll hx hy hproves.keySent.transcriptShown
    hconcl.transcriptShown hdata hdata'
  have hdec := hconcl.decrypts
  obtain ⟨k, hk, rfl⟩ := hholds
  rw [hconcl.label] at hk
  rw [← hsame.2.2] at hdec
  obtain rfl : e = e' :=
    exchange_eq hsame (preMaster_eq hr hmatch hx hproves.keySent hk hpub hdec).symm
  refine ⟨e, peer, rfl, ⟨x, hx, hjob, hproves⟩, y, hy, ⟨k, ?_, rfl⟩, ⟨me, peer', hconcl⟩,
    fun l state' hfin' => hconcl.agree hr hy hfin', fun z hz me' e' peer'' hconcl' _ hs _ => ?_⟩
  · rw [hconcl.label]
    exact hk
  · exact job_eq_of_drawn hr hfresh hz hy (hs ▸ hconcl'.drawn) hconcl.drawn

/-- **The server's end.**  A server that returns with the certificate of an honest client has
made its exchange with a run of that client, which has encrypted the pre-master for it. -/
theorem client_of_server (hr : (endpoints P).Run s₀ t js s) (hlen : ∀ b, (P.sha256 b).length = 32)
    (hcoll : CollisionFree P t) (hopens : OaepOpensOnly P t) (hmatch : LoadsMatching P)
    (hfin : Finished js n (.server me) state) (hkey : certKey P state.peerCert = .ok key)
    (hu : Unforgeable P key t) (hclient : ClientKey P key t) :
    ∃ e peer, state = e.state P peer ∧ (∃ x ∈ t, x.job = n ∧ Concludes P me e peer x) ∧
      ∃ y ∈ t, y.label.Holds P key ∧ (∃ session subject peer', Proves P session subject e peer' y ∧
        ∃ k, loadPrivate P me.privPem me.password = .ok k ∧ loadPublic P peer'.pem = .ok k.pub) ∧
        ∀ l state', Finished js y.job l state' → Agree state state' := by
  obtain ⟨e, peer, rfl, x, hx, hjob, hconcl⟩ := concludes_of_finished hr hfin
  obtain ⟨data, sig', g, hproven, hpast, -⟩ := hconcl.proven
  obtain ⟨hdata, hpem, msg, env, sig, hmsg, henv, hsig, hverify⟩ := proof_of_proven hproven
  have hpub : loadPublic P peer.pem = .ok key := loadPublic_of_certKey hkey hpem
  obtain ⟨later, r, earlier, ht, -, -, hr'⟩ :=
    hr.exists_of_mem_past hx (hpast ▸ List.mem_cons_of_mem _ hmsg)
  obtain ⟨y, hy, hholds, session, subject, e', peer', hproves, hdata'⟩ :=
    exists_proves hr hlen hu hclient ht hr' henv hsig hdata (pssVerify_of_rsaVerify hpub hverify)
  have hsame := same_of_transcript hr hcoll hx hy hconcl.transcriptShown
    hproves.keySent.transcriptShown hdata hdata'
  have hdec := hconcl.decrypts
  rw [hsame.2.2] at hdec
  obtain ⟨k, hk, hopen⟩ := (rsaOaepDecrypt_eq_ok P).mp hdec
  obtain ⟨_, w, _, hw, -, -, hwev⟩ := hr.exists_of_mem_past hy hproves.keySent.events.2.2.2.1
  have hfor := hopens w (by simp [hw]) _ _ _ hwev _ _ _ _ hk hopen
  obtain rfl : e = e' :=
    exchange_eq hsame (preMaster_eq hr hmatch hy hproves.keySent hk hfor hdec)
  exact ⟨e, peer, rfl, ⟨x, hx, hjob, hconcl⟩, y, hy, hholds,
    ⟨session, subject, peer', hproves, k, hk, hfor⟩,
    fun l state' hfin' => hproves.agree hr hy hfin'⟩

end

/-- **Authentication and key agreement.**  In every run, whatever the attacker delivers: a client
that returns with an honest server's certificate has made its exchange with exactly one run of that
server, and a server that returns with an honest client's certificate has made its exchange with
a run of that client, which has encrypted the pre-master under the server's key.  Both ends of an
exchange have the same transcript hash and the same keys. -/
theorem handshake_agreement (hr : (endpoints P).Run s₀ t js s)
    (hlen : ∀ b, (P.sha256 b).length = 32) (hcoll : CollisionFree P t) (hfresh : FreshNonces t)
    (hopens : OaepOpensOnly P t) (hmatch : LoadsMatching P) :
    (∀ n session subject state key, Finished js n (.client session (.handshake subject)) state →
      certKey P state.peerCert = .ok key → Unforgeable P key t → ServerKey P key t →
      ∃ e peer, state = e.state P peer ∧
        (∃ x ∈ t, x.job = n ∧ Proves P session subject e peer x) ∧
        ∃ y ∈ t, y.label.Holds P key ∧ (∃ me peer', Concludes P me e peer' y) ∧
          (∀ l state', Finished js y.job l state' → Agree state state') ∧
          ∀ z ∈ t, ∀ me' e' peer', Concludes P me' e' peer' z → e'.nonceC = e.nonceC →
            e'.nonceS = e.nonceS → e'.preMasterCt = e.preMasterCt → z.job = y.job) ∧
    ∀ n me state key, Finished js n (.server me) state → certKey P state.peerCert = .ok key →
      Unforgeable P key t → ClientKey P key t →
      ∃ e peer, state = e.state P peer ∧ (∃ x ∈ t, x.job = n ∧ Concludes P me e peer x) ∧
        ∃ y ∈ t, y.label.Holds P key ∧
          (∃ session subject peer', Proves P session subject e peer' y ∧
            ∃ k, loadPrivate P me.privPem me.password = .ok k ∧
              loadPublic P peer'.pem = .ok k.pub) ∧
          ∀ l state', Finished js y.job l state' → Agree state state' :=
  ⟨fun _ _ _ _ _ hfin hkey hu hserver =>
    server_of_client hr hlen hcoll hfresh hmatch hfin hkey hu hserver,
    fun _ _ _ _ hfin hkey hu hclient =>
      client_of_server hr hlen hcoll hopens hmatch hfin hkey hu hclient⟩

end

/-! ## A sample run -/

/-- The primitives of the run. -/
def plainPrimitives : Primitives := .rolling []

/-- The server has the key `S`. -/
def server : Party := (sampleUser "server" "S").party

/-- What the two ends draw in the run. -/
def sampleExchange : Exchange where
  nonceC := (drawing 0).octets NONCE_BYTES
  nonceS := (drawing 16).octets NONCE_BYTES
  preMasterCt := plainPrimitives.oaepEncrypt (.numbered 83) ((drawing 0).octets PRE_MASTER_BYTES) []
  preMaster := (drawing 0).octets PRE_MASTER_BYTES

/-- The transcript hash of the run. -/
def sampleTranscript : Bytes := plainPrimitives.sha256 sampleExchange.transcriptInput

/-- The key of a number signs the transcript. -/
def transcriptSig (n : UInt8) : Bytes :=
  plainPrimitives.pssSign (.numbered n) sampleTranscript []

/-- `alice` and the server do a handshake, and the server gets the certificate of `user`, whose
key has the number `n`, and a signature of that key. -/
def handshakeMoves (user : Client.Session) (n : UInt8) : List (Move Label Input) :=
  [.start (.client alice (.handshake (some (py "server")))), .start (.server server),
    .step 0 (drawing 0), .step 0 (drawing 0),
    .step 1 (bringing .HELLO (helloPayload user.clientCert sampleExchange.nonceC)),
    .step 1 (drawing 0), .step 1 (drawing 16), .step 1 (drawing 0),
    .step 0 (bringing .HELLO (helloPayload server.cert sampleExchange.nonceS))] ++
  List.replicate 6 (.step 0 (drawing 0)) ++
  [.step 1 (bringing .KEY_EXCHANGE (keyExchangePayload sampleExchange.preMasterCt)),
    .step 1 (bringing .AUTH_RESPONSE (proofPayload (transcriptSig n))),
    .step 1 (drawing 0), .step 1 (drawing 0),
    .step 0 (bringing .SESSION_OK (proofPayload (transcriptSig 83)))]

/-- The run. -/
def handshakeRun (user : Client.Session) (n : UInt8) :
    Config Op Op.Res Input Files Label (Except PyExn Outcome) :=
  (endpoints plainPrimitives).play (fun _ => none) (handshakeMoves user n)

/-- The session that a job has returned. -/
def returned (j : Job Op Op.Res Label (Except PyExn Outcome)) : Option (Label × SessionState) :=
  match j.rest with
  | .pure (.ok (.session state)) => some (j.label, state)
  | _ => none

/-- Whether a program is a server's. -/
def isServer : Label → Bool
  | .server _ => true
  | .client _ _ => false

/-- What is assumed of the attacker, and of the keys of `alice` and the server. -/
structure Assumed (t : Trace) : Prop where
  collisionFree : CollisionFree plainPrimitives t
  freshNonces : FreshNonces t
  opensOnly : OaepOpensOnly plainPrimitives t
  unforgeable : Unforgeable plainPrimitives (.numbered 65) t
  unforgeable' : Unforgeable plainPrimitives (.numbered 83) t
  clientKey : ClientKey plainPrimitives (.numbered 65) t
  serverKey : ServerKey plainPrimitives (.numbered 83) t

/-- The same, decided. -/
def assumed (t : Trace) : Bool :=
  decide ((hashables (seen t).dedup).map rollingHash).Nodup &&
  decide (∀ x ∈ t, ∀ y ∈ t, (drawn x.ev).isSome → drawn x.ev = drawn y.ev → x.job = y.job) &&
  vouched 65 t && vouched 83 t &&
  decide (∀ x ∈ t, x.label.party.privPem = [65] → isServer x.label = false) &&
  decide (∀ x ∈ t, x.label.party.privPem = [83] → isServer x.label = true)

theorem assumed_of_eq_true {t : Trace} {js : Jobs} {s₀ s : Files}
    (hr : (endpoints plainPrimitives).Run s₀ t js s) (h : assumed t = true) : Assumed t := by
  simp only [assumed, Bool.and_eq_true, decide_eq_true_eq] at h
  obtain ⟨⟨⟨⟨⟨hnodup, hdrawn⟩, halice⟩, hserver⟩, hclient⟩, hserver'⟩ := h
  refine ⟨collisionFree_of_nodup hnodup, freshNonces_of_drawn hdrawn, oaepOpensOnly hr,
    unforgeable_of_vouched halice, unforgeable_of_vouched hserver, fun x hx hholds => ?_,
    fun x hx hholds => ?_⟩
  · have hno := hclient x hx (privPem_of_holds hholds)
    cases hl : x.label with
    | client session activity => exact ⟨session, activity, rfl⟩
    | server me =>
      rw [hl] at hno
      cases hno
  · have hyes := hserver' x hx (privPem_of_holds hholds)
    cases hl : x.label with
    | client session activity =>
      rw [hl] at hyes
      cases hyes
    | server me => exact ⟨me, rfl⟩

theorem finished_of_returned {js : Jobs} {n : ℕ} {l : Label} {state : SessionState}
    (h : js[n]?.bind returned = some (l, state)) : Finished js n l state := by
  obtain ⟨⟨l', hist, rest⟩, hj, h⟩ := Option.bind_eq_some_iff.mp h
  cases rest with
  | op e k => cases h
  | pure r =>
    cases r with
    | error x => cases h
    | ok o =>
      cases o with
      | done => cases h
      | session state' =>
        obtain ⟨rfl, rfl⟩ := Prod.mk.inj (Option.some.inj h)
        exact ⟨hist, hj⟩

theorem run_handshakeRun (user : Client.Session) (n : UInt8) :
    (endpoints plainPrimitives).Run (fun _ => none) (handshakeRun user n).trace
      (handshakeRun user n).jobs (handshakeRun user n).store :=
  (endpoints plainPrimitives).run_play _ _

theorem loadsMatching_plain : LoadsMatching plainPrimitives := fun _ _ k _ => rolling_matching k

/-- Who has returned, with whose key, which peer's name and which transcript hash. -/
def sessions (js : Jobs) : List (Option (Label × Option RsaPublicKey × Json × Bytes)) :=
  js.map fun j => (returned j).map fun r =>
    (r.1, (certKey plainPrimitives r.2.peerCert).toOption, r.2.peerSubject, r.2.transcriptHash)

theorem finished_of_sessions {js : Jobs} {n : ℕ} {l : Label} {key : RsaPublicKey} {name : Json}
    {transcript : Bytes} (h : (sessions js)[n]? = some (some (l, some key, name, transcript))) :
    ∃ state, Finished js n l state ∧ certKey plainPrimitives state.peerCert = .ok key ∧
      state.peerSubject = name ∧ state.transcriptHash = transcript := by
  rw [sessions, List.getElem?_map] at h
  obtain ⟨j, hj, h⟩ := Option.map_eq_some_iff.mp h
  obtain ⟨⟨l', state⟩, hret, h⟩ := Option.map_eq_some_iff.mp h
  obtain ⟨rfl, hrest⟩ := Prod.mk.inj h
  obtain ⟨hkey, hrest⟩ := Prod.mk.inj hrest
  obtain ⟨hname, htranscript⟩ := Prod.mk.inj hrest
  refine ⟨state, finished_of_returned (by rw [hj]; exact hret), ?_, hname, htranscript⟩
  cases hcert : certKey plainPrimitives state.peerCert with
  | error e =>
    rw [hcert] at hkey
    cases hkey
  | ok key' =>
    rw [hcert] at hkey
    rw [Option.some.inj hkey]

theorem handshakeRun_alice :
    sessions (handshakeRun alice 65).jobs =
      [some (.client alice (.handshake (some (py "server"))), some (.numbered 83),
          .str (py "server"), sampleTranscript),
        some (.server server, some (.numbered 65), .str (py "alice"), sampleTranscript)] ∧
    assumed (handshakeRun alice 65).trace = true := by
  decide +kernel

/-- `alice` and the server have the same keys. -/
theorem agree_handshakeRun : ∃ state state',
    Finished (handshakeRun alice 65).jobs 0 (.client alice (.handshake (some (py "server")))) state ∧
    Finished (handshakeRun alice 65).jobs 1 (.server server) state' ∧ Agree state state' := by
  obtain ⟨hsessions, hassumed⟩ := handshakeRun_alice
  have hr := run_handshakeRun alice 65
  have ha := assumed_of_eq_true hr hassumed
  obtain ⟨state, hfin, hkey, -⟩ := finished_of_sessions
    (show (sessions (handshakeRun alice 65).jobs)[0]? = some (some (_, some _, _, _)) by
      rw [hsessions]
      rfl)
  obtain ⟨state', hfin', -⟩ := finished_of_sessions
    (show (sessions (handshakeRun alice 65).jobs)[1]? = some (some (_, some _, _, _)) by
      rw [hsessions]
      rfl)
  obtain ⟨e, peer, -, -, y, hy, -, ⟨me, peer', hconcl⟩, hagree, -⟩ :=
    (handshake_agreement hr (fun _ => length_octetsOf 32 _) ha.collisionFree ha.freshNonces
      ha.opensOnly loadsMatching_plain).1 _ _ _ _ _ hfin hkey ha.unforgeable' ha.serverKey
  refine ⟨state, state', hfin, hfin', hagree (.server server) _ ?_⟩
  -- the server is the second of the two jobs
  have hlen : (handshakeRun alice 65).jobs.length = 2 := by
    have := congrArg List.length hsessions
    rwa [sessions, List.length_map] at this
  have hlt : y.job < 2 := hlen ▸ hr.job_lt_of_item hy
  have hne : y.job ≠ 0 := by
    intro hzero
    obtain ⟨h, hj⟩ := hfin
    have hlabel := (hr.mem_hist_of_item hy (hzero ▸ hj)).1
    cases hconcl.label.symm.trans hlabel
  obtain hone : y.job = 1 := by omega
  rw [hone]
  exact hfin'

end Network
end ZeroTrust
