import ZeroTrust.Client.Handshake

/-!
# What the client's end of the handshake has done when it acts

* `Greeted`, `KeySent`: the histories after the `HELLO`s and after `KEY_EXCHANGE`.
* `HandshakeStep`: the one thing the client signs is the transcript of its own exchange.
* `Established`: the history of a returned session; the last message received bears a signature
  of the peer's key over that transcript.
-/

namespace ZeroTrust
namespace Client

open Python Effects Endpoint

variable {P : Primitives} {me : Party} {subject : Option PyStr}

/-- The history after which the server's certificate was accepted. -/
inductive Greeted (P : Primitives) (me : Party) (subject : Option PyStr) (nonceC nonceS : Bytes)
    (peer : Peer) : List Ev → Prop where
  | intro {hello : Obj} {env : Envelope} {now : ℤ} : validateEnvelope (.obj hello) = .ok env →
      env.type = .HELLO → parseHello "server" env.payload = .ok (.obj peer.cert, nonceS) →
      CertCheck P me.caPubkeyPem peer.cert now subject →
      dictGet peer.cert "subject" = some peer.subject → certPem peer.cert = .ok peer.pem →
      Greeted P me subject nonceC nonceS peer
        [⟨.time, .ok now⟩, ⟨.recv, .ok hello⟩, ⟨.send .HELLO (helloPayload me.cert nonceC), .ok ()⟩,
          ⟨.urandom NONCE_BYTES, .ok nonceC⟩]

/-- The history of a client that has sent its pre-master. -/
inductive KeySent (P : Primitives) (me : Party) (subject : Option PyStr) (e : Exchange)
    (peer : Peer) : List Ev → Prop where
  | intro {g : List Ev} : Greeted P me subject e.nonceC e.nonceS peer g →
      KeySent P me subject e peer
        (⟨.send .KEY_EXCHANGE (keyExchangePayload e.preMasterCt), .ok ()⟩ ::
          ⟨.oaepEncrypt peer.pem e.preMaster, .ok e.preMasterCt⟩ ::
          ⟨.urandom PRE_MASTER_BYTES, .ok e.preMaster⟩ :: g)

/-- The history of a client that has signed its transcript. -/
inductive Signed (P : Primitives) (me : Party) (subject : Option PyStr) (e : Exchange)
    (peer : Peer) (transcript sig : Bytes) : List Ev → Prop where
  | intro {g : List Ev} : KeySent P me subject e peer g →
      buildTranscriptHash P e.nonceC e.nonceS e.preMasterCt = .ok transcript →
      Signed P me subject e peer transcript sig
        (⟨.sign me.privPem me.password transcript, .ok sig⟩ :: g)

/-- What a client's handshake has done when it issues an operation. -/
inductive HandshakeStep (P : Primitives) (me : Party) (subject : Option PyStr) :
    List Ev → Op → Prop where
  | other {g : List Ev} {o : Op} : Unsigned g → o.isSign = false → HandshakeStep P me subject g o
  | sign {e : Exchange} {peer : Peer} {transcript : Bytes} {g : List Ev} :
      KeySent P me subject e peer g →
      buildTranscriptHash P e.nonceC e.nonceS e.preMasterCt = .ok transcript →
      HandshakeStep P me subject g (.sign me.privPem me.password transcript)
  | authResponse {e : Exchange} {peer : Peer} {transcript sig : Bytes} {g : List Ev} :
      Signed P me subject e peer transcript sig g →
      HandshakeStep P me subject g (.send .AUTH_RESPONSE (proofPayload sig))
  | recv {g : List Ev} : HandshakeStep P me subject g .recv

/-- The history of a returned session. -/
inductive Established (P : Primitives) (me : Party) (subject : Option PyStr) (e : Exchange)
    (peer : Peer) : List Ev → Prop where
  | intro {msg : Obj} {env : Envelope} {transcript sig serverSig : Bytes} {g : List Ev} :
      Signed P me subject e peer transcript sig g → validateEnvelope (.obj msg) = .ok env →
      env.type = .SESSION_OK → b64Item env.payload "signature" = some serverSig →
      rsaVerify P peer.pem transcript serverSig = .ok true →
      Established P me subject e peer
        (⟨.recv, .ok msg⟩ :: ⟨.send .AUTH_RESPONSE (proofPayload sig), .ok ()⟩ :: g)

theorem Greeted.unsigned {nonceC nonceS : Bytes} {peer : Peer} {g : List Ev}
    (h : Greeted P me subject nonceC nonceS peer g) : Unsigned g := by
  obtain ⟨-, -, -, -, -, -⟩ := h
  simp [Unsigned, Op.isSign]

theorem wpE_greetServer :
    wpE (.isolated (HandshakeStep P me subject)) (greetServer P me subject) []
      fun g r => ∀ nonceC nonceS peer, r = .ok (nonceC, nonceS, peer) →
        Greeted P me subject nonceC nonceS peer g := by
  have hother : ∀ {g o}, Unsigned g → o.isSign = false → HandshakeStep P me subject g o := .other
  rw [greetServer, wpE_act_bind]
  refine ⟨hother unsigned_nil rfl, fun x => by simp, fun nonceC => ?_⟩
  have hdrawn : Unsigned [⟨.urandom NONCE_BYTES, .ok nonceC⟩] := unsigned_cons.mpr ⟨rfl, unsigned_nil⟩
  rw [sendMessage, wpE_act_bind]
  refine ⟨hother hdrawn rfl, fun x => by simp, fun _ => ?_⟩
  have hsent := unsigned_cons.mpr ⟨(rfl : (Event.mk (R := Op.Res) (.send .HELLO
    (helloPayload me.cert nonceC)) (.ok ())).op.isSign = false), hdrawn⟩
  rw [wpE_bind]
  refine wpE_recvEnvelope .recv (fun hello env henv => ?_) fun r x => by simp
  dsimp only
  by_cases htype : env.type = .HELLO
  · rw [if_neg (not_not.mpr htype)]
    cases hparse : parseHello "server" env.payload with
    | error reason => simp
    | ok parsed =>
      obtain ⟨cert, nonceS⟩ := parsed
      refine wpE_verify (hother (unsigned_cons.mpr ⟨rfl, hsent⟩) rfl) (fun c now hcert hcheck => ?_)
        (fun g _ => by simp) fun g x _ => by simp
      subst hcert
      show wpE _ (raising (peerOf (.obj c)) >>= _) _ _
      rw [wpE_bind, wpE_raising]
      cases hpeer : peerOf (.obj c) with
      | error x => simp
      | ok peer =>
        obtain ⟨hc, hsubject, hpem⟩ := peerOf_eq_ok hpeer
        obtain rfl := Json.obj.inj hc
        rintro nonceC' nonceS' peer' ⟨⟩
        exact .intro henv htype hparse hcheck hsubject hpem
  · rw [if_pos htype]
    simp

theorem wpE_proveToServer {nonceC nonceS : Bytes} {peer : Peer} {g : List Ev}
    (hg : Greeted P me subject nonceC nonceS peer g) :
    wpE (.isolated (HandshakeStep P me subject)) (proveToServer P me nonceC nonceS peer) g
      fun h r => ∀ e transcript, r = .ok (e, transcript) → ∃ sig g',
        Signed P me subject e peer transcript sig g' ∧
          h = ⟨.send .AUTH_RESPONSE (proofPayload sig), .ok ()⟩ :: g' := by
  have hother : ∀ {g o}, Unsigned g → o.isSign = false → HandshakeStep P me subject g o := .other
  have hg' := hg.unsigned
  rw [proveToServer, wpE_act_bind]
  refine ⟨hother hg' rfl, fun x => nofun, fun preMaster => ?_⟩
  have hdrawn : Unsigned (⟨.urandom PRE_MASTER_BYTES, .ok preMaster⟩ :: g) :=
    unsigned_cons.mpr ⟨rfl, hg'⟩
  rw [wpE_act_bind]
  refine ⟨hother hdrawn rfl, fun x => nofun, fun preMasterCt => ?_⟩
  rw [sendMessage, wpE_act_bind]
  refine ⟨hother (unsigned_cons.mpr ⟨rfl, hdrawn⟩) rfl, fun x => nofun, fun _ => ?_⟩
  rw [wpE_bind, wpE_raising]
  cases htranscript : buildTranscriptHash P nonceC nonceS preMasterCt with
  | error x => exact nofun
  | ok transcript =>
    have hsent : KeySent P me subject ⟨nonceC, nonceS, preMasterCt, preMaster⟩ peer _ := .intro hg
    dsimp only
    rw [wpE_act_bind]
    refine ⟨.sign hsent htranscript, fun x => nofun, fun sig => ?_⟩
    have hsigned : Signed P me subject _ peer transcript sig _ := .intro hsent htranscript
    rw [sendMessage, wpE_act_bind]
    refine ⟨.authResponse hsigned, fun x => nofun, fun _ => ?_⟩
    rintro e transcript' ⟨⟩
    exact ⟨sig, _, hsigned, rfl⟩

theorem checkSessionOk_eq_ok {peer : Peer} {transcript : Bytes} {env : Envelope}
    (h : checkSessionOk P peer transcript env = .ok ()) :
    env.type = .SESSION_OK ∧ ∃ serverSig, b64Item env.payload "signature" = some serverSig ∧
      rsaVerify P peer.pem transcript serverSig = .ok true := by
  unfold checkSessionOk at h
  split_ifs at h with htype
  refine ⟨not_not.mp htype, ?_⟩
  cases hsig : b64Item env.payload "signature" with
  | none =>
    rw [hsig] at h
    cases h
  | some serverSig =>
    rw [hsig] at h
    obtain ⟨b, hb, h⟩ := bind_eq_ok.mp h
    cases b with
    | false => cases h
    | true => exact ⟨serverSig, rfl, hb⟩

theorem wpE_awaitServer {e : Exchange} {peer : Peer} {transcript sig : Bytes} {g : List Ev}
    (hg : Signed P me subject e peer transcript sig g) :
    wpE (.isolated (HandshakeStep P me subject)) (awaitServer P peer e transcript)
      (⟨.send .AUTH_RESPONSE (proofPayload sig), .ok ()⟩ :: g)
      fun h r => ∀ state, r = .ok state →
        Established P me subject e peer h ∧ state = e.state P peer := by
  have htranscript : buildTranscriptHash P e.nonceC e.nonceS e.preMasterCt = .ok transcript := by
    obtain ⟨-, ht⟩ := hg
    exact ht
  rw [awaitServer, wpE_bind, wpE_attempt]
  refine wpE_recvEnvelope .recv (fun msg env henv => ?_) fun r x => ?_
  · dsimp only
    rw [wpE_bind, wpE_raising]
    cases hcheck : checkSessionOk P peer transcript env with
    | error x => exact nofun
    | ok _ =>
      obtain ⟨htype, serverSig, hsig, hverify⟩ := checkSessionOk_eq_ok hcheck
      dsimp only
      rw [wpE_raising, deriveSession_eq_ok P htranscript]
      rintro state ⟨⟩
      exact ⟨.intro hg henv htype hsig hverify, rfl⟩
  · cases x <;> exact nofun

/-- What a client's handshake does, and what a session that it returns comes from. -/
theorem handshake_guarantee :
    wpE (.isolated (HandshakeStep P me subject)) (performClientHandshake P me subject) []
      fun h r => ∀ state, r = .ok state →
        ∃ e peer, Established P me subject e peer h ∧ state = e.state P peer := by
  rw [performClientHandshake, wpE_bind]
  refine wpE_mono _ wpE_greetServer fun g r hr => ?_
  rcases r with x | ⟨nonceC, nonceS, peer⟩
  · exact nofun
  · dsimp only
    rw [wpE_bind]
    refine wpE_mono _ (wpE_proveToServer (hr _ _ _ rfl)) fun h r hr => ?_
    rcases r with x | ⟨e, transcript⟩
    · exact nofun
    · obtain ⟨sig, g', hsigned, rfl⟩ := hr e transcript rfl
      exact wpE_mono _ (wpE_awaitServer hsigned) fun h r hr state hstate =>
        ⟨e, peer, hr state hstate⟩

end Client
end ZeroTrust
