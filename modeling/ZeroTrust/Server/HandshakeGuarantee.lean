import ZeroTrust.Server.Handshake

/-!
# What the server's end of the handshake has done when it acts

* `Greeted`, `KeyTaken`, `Proven`: the histories after the client's `HELLO`, after its
  pre-master, and after its proof.
* `HandshakeStep`: the server signs once, the transcript of its own exchange, and what it sends
  after that is `SESSION_OK`.
* `Established`: the history of a returned session.
-/

namespace ZeroTrust
namespace Server
namespace Handshake

open Python Effects Endpoint

variable {P : Primitives} {me : Party}

/-- The history after which the client's certificate was accepted. -/
inductive Greeted (P : Primitives) (me : Party) (nonceC : Bytes) (peer : Peer) :
    List Ev → Prop where
  | intro {hello : Obj} {env : Envelope} {now : ℤ} : validateEnvelope (.obj hello) = .ok env →
      env.type = .HELLO → parseHello "client" env.payload = .ok (.obj peer.cert, nonceC) →
      CertCheck P me.caPubkeyPem peer.cert now none →
      dictGet peer.cert "subject" = some peer.subject → certPem peer.cert = .ok peer.pem →
      Greeted P me nonceC peer [⟨.time, .ok now⟩, ⟨.recv, .ok hello⟩]

/-- The history of a server that has the pre-master. -/
inductive KeyTaken (P : Primitives) (me : Party) (e : Exchange) (peer : Peer) :
    List Ev → Prop where
  | intro {keyEx : Obj} {env : Envelope} {g : List Ev} : Greeted P me e.nonceC peer g →
      validateEnvelope (.obj keyEx) = .ok env → env.type = .KEY_EXCHANGE →
      b64Item env.payload "pre_master_ct" = some e.preMasterCt →
      rsaOaepDecrypt P me.privPem me.password e.preMasterCt = .ok e.preMaster →
      e.preMaster.length = PRE_MASTER_BYTES →
      KeyTaken P me e peer
        (⟨.recv, .ok keyEx⟩ :: ⟨.send .HELLO (helloPayload me.cert e.nonceS), .ok ()⟩ ::
          ⟨.urandom NONCE_BYTES, .ok e.nonceS⟩ :: g)

/-- The history of a server that has the client's proof. -/
inductive Proven (P : Primitives) (me : Party) (e : Exchange) (peer : Peer)
    (transcript : Bytes) : List Ev → Prop where
  | intro {authResp : Obj} {env : Envelope} {clientSig : Bytes} {g : List Ev} :
      KeyTaken P me e peer g →
      buildTranscriptHash P e.nonceC e.nonceS e.preMasterCt = .ok transcript →
      validateEnvelope (.obj authResp) = .ok env → env.type = .AUTH_RESPONSE →
      b64Item env.payload "signature" = some clientSig →
      rsaVerify P peer.pem transcript clientSig = .ok true →
      Proven P me e peer transcript (⟨.recv, .ok authResp⟩ :: g)

/-- What a server's handshake has done when it issues an operation. -/
inductive HandshakeStep (P : Primitives) (me : Party) : List Ev → Op → Prop where
  | other {g : List Ev} {o : Op} : Unsigned g → o.isSign = false → HandshakeStep P me g o
  | sign {e : Exchange} {peer : Peer} {transcript : Bytes} {g : List Ev} :
      Proven P me e peer transcript g →
      HandshakeStep P me g (.sign me.privPem me.password transcript)
  | sessionOk {e : Exchange} {peer : Peer} {transcript sig : Bytes} {g : List Ev} :
      Proven P me e peer transcript g →
      HandshakeStep P me (⟨.sign me.privPem me.password transcript, .ok sig⟩ :: g)
        (.send .SESSION_OK (proofPayload sig))

/-- The history of a returned session. -/
inductive Established (P : Primitives) (me : Party) (e : Exchange) (peer : Peer) :
    List Ev → Prop where
  | intro {transcript sig : Bytes} {g : List Ev} : Proven P me e peer transcript g →
      Established P me e peer (⟨.send .SESSION_OK (proofPayload sig), .ok ()⟩ ::
        ⟨.sign me.privPem me.password transcript, .ok sig⟩ :: g)

theorem Greeted.unsigned {nonceC : Bytes} {peer : Peer} {g : List Ev}
    (h : Greeted P me nonceC peer g) : Unsigned g := by
  obtain ⟨-, -, -, -, -, -⟩ := h
  simp [Unsigned, Op.isSign]

theorem KeyTaken.unsigned {e : Exchange} {peer : Peer} {g : List Ev}
    (h : KeyTaken P me e peer g) : Unsigned g := by
  obtain ⟨hg, -, -, -, -, -⟩ := h
  simp only [unsigned_cons, Op.isSign, hg.unsigned, and_self]

theorem Proven.unsigned {e : Exchange} {peer : Peer} {transcript : Bytes} {g : List Ev}
    (h : Proven P me e peer transcript g) : Unsigned g := by
  obtain ⟨hg, -, -, -, -, -⟩ := h
  exact unsigned_cons.mpr ⟨rfl, hg.unsigned⟩

section

variable {α : Type} {h : List Ev}

theorem wpE_fail {reason : PyStr} {Q : List Ev → Except PyExn α → Prop} (hh : Unsigned h)
    (hraise : ∀ g x, Unsigned g → Q g (.error x)) :
    wpE (.isolated (HandshakeStep P me)) (fail reason) h Q := by
  rw [fail, wpE_bind, wpE_attempt, sendMessage, wpE_act]
  refine ⟨.other hh rfl, fun r => ?_⟩
  have hsent := unsigned_cons.mpr ⟨(rfl : (Event.mk (R := Op.Res) (.send .ERROR
    authFailedPayload) r).op.isSign = false), hh⟩
  rcases r with x | _
  · cases x <;> exact hraise _ _ hsent
  · exact hraise _ _ hsent

theorem wpE_receiveOrFail {type : MessageType} {what : String}
    {Q : List Ev → Except PyExn Obj → Prop} (hh : Unsigned h)
    (hok : ∀ msg env, validateEnvelope (.obj msg) = .ok env → env.type = type →
      Q (⟨.recv, .ok msg⟩ :: h) (.ok env.payload))
    (hraise : ∀ g x, Unsigned g → Q g (.error x)) :
    wpE (.isolated (HandshakeStep P me)) (receiveOrFail type what) h Q := by
  have hrecv : ∀ r, Unsigned (⟨.recv, r⟩ :: h) := fun r => unsigned_cons.mpr ⟨rfl, hh⟩
  rw [receiveOrFail, wpE_bind, wpE_attempt]
  refine wpE_recvEnvelope (.other hh rfl) (fun msg env henv => ?_) fun r x => ?_
  · dsimp only
    by_cases htype : env.type = type
    · rw [if_neg (not_not.mpr htype)]
      exact hok msg env henv htype
    · rw [if_pos htype]
      exact wpE_fail (hrecv _) hraise
  · cases x with
    | protocolError msg => exact wpE_fail (hrecv r) hraise
    | _ => exact hraise _ _ (hrecv r)

end

/-- The history of a handshake that raised: before it signed, or in its last operation. -/
def Raised (h : List Ev) : Prop := Unsigned h ∨ ∃ o x g, h = ⟨o, .error x⟩ :: g

/-- What a stage of the handshake leaves behind: its result as `S` says, or an exception. -/
def Stage {α : Type} (S : List Ev → α → Prop) (h : List Ev) : Except PyExn α → Prop
  | .ok a => S h a
  | .error _ => Raised h

/-- A stage before the signature, and the rest. -/
theorem Stage.bind {α β : Type} {S : List Ev → α → Prop} {S' : List Ev → β → Prop}
    {x : EndpointM α} {f : α → EndpointM β} {h : List Ev}
    (hx : wpE (.isolated (HandshakeStep P me)) x h (Stage S))
    (hf : ∀ g a, S g a → wpE (.isolated (HandshakeStep P me)) (f a) g (Stage S')) :
    wpE (.isolated (HandshakeStep P me)) (x >>= f) h (Stage S') := by
  rw [wpE_bind]
  refine wpE_mono _ hx fun g r hr => ?_
  rcases r with x | a
  · exact hr
  · exact hf g a hr

theorem wpE_greetClient :
    wpE (.isolated (HandshakeStep P me)) (greetClient P me) []
      (Stage fun g a => Greeted P me a.1 a.2 g) := by
  rw [greetClient, wpE_bind]
  refine wpE_receiveOrFail unsigned_nil (fun hello env henv htype => ?_) fun g x => .inl
  have hreceived : Unsigned [⟨.recv, .ok hello⟩] := unsigned_cons.mpr ⟨rfl, unsigned_nil⟩
  have hverified : ∀ g, g = [⟨.recv, .ok hello⟩] ∨
      (∃ r, g = [⟨.time, r⟩, ⟨.recv, .ok hello⟩]) → Unsigned g := by
    rintro g (rfl | ⟨r, rfl⟩)
    · exact hreceived
    · exact unsigned_cons.mpr ⟨rfl, hreceived⟩
  dsimp only
  cases hparse : parseHello "client" env.payload with
  | error reason => exact wpE_fail hreceived fun g x => .inl
  | ok parsed =>
    obtain ⟨cert, nonceC⟩ := parsed
    refine wpE_verify (.other hreceived rfl) (fun c now hcert hcheck => ?_)
      (fun g hg => wpE_fail (hverified g hg) fun g x => .inl) fun g x hg => .inl (hverified g hg)
    subst hcert
    show wpE _ (raising (peerOf (.obj c)) >>= _) _ _
    rw [wpE_bind, wpE_raising]
    cases hpeer : peerOf (.obj c) with
    | error x => exact .inl (unsigned_cons.mpr ⟨rfl, hreceived⟩)
    | ok peer =>
      obtain ⟨hc, hsubject, hpem⟩ := peerOf_eq_ok hpeer
      obtain rfl := Json.obj.inj hc
      exact Greeted.intro henv htype hparse hcheck hsubject hpem

theorem wpE_takePreMaster {nonceC : Bytes} {peer : Peer} {g : List Ev}
    (hg : Greeted P me nonceC peer g) :
    wpE (.isolated (HandshakeStep P me)) (takePreMaster P me nonceC) g
      (Stage fun h e => KeyTaken P me e peer h) := by
  have hg' := hg.unsigned
  rw [takePreMaster, wpE_act_bind]
  refine ⟨.other hg' rfl, fun x => .inr ⟨_, _, _, rfl⟩, fun nonceS => ?_⟩
  have hdrawn : Unsigned (⟨.urandom NONCE_BYTES, .ok nonceS⟩ :: g) :=
    unsigned_cons.mpr ⟨rfl, hg'⟩
  rw [sendMessage, wpE_act_bind]
  refine ⟨.other hdrawn rfl, fun x => .inr ⟨_, _, _, rfl⟩, fun _ => ?_⟩
  rw [wpE_bind]
  refine wpE_receiveOrFail (unsigned_cons.mpr ⟨rfl, hdrawn⟩) (fun keyEx env henv htype => ?_)
    fun g x => .inl
  have hreceived : Unsigned (⟨.recv, .ok keyEx⟩ ::
      ⟨.send .HELLO (helloPayload me.cert nonceS), .ok ()⟩ ::
        ⟨.urandom NONCE_BYTES, .ok nonceS⟩ :: g) :=
    unsigned_cons.mpr ⟨rfl, unsigned_cons.mpr ⟨rfl, hdrawn⟩⟩
  dsimp only
  cases hct : b64Item env.payload "pre_master_ct" with
  | none => exact wpE_fail hreceived fun g x => .inl
  | some preMasterCt =>
    dsimp only
    cases hdec : rsaOaepDecrypt P me.privPem me.password preMasterCt with
    | error x =>
      cases x with
      | cryptoError _ => exact wpE_fail hreceived fun g x => .inl
      | _ => exact .inl hreceived
    | ok preMaster =>
      dsimp only
      by_cases hlen : preMaster.length = PRE_MASTER_BYTES
      · rw [if_neg (not_not.mpr hlen)]
        exact KeyTaken.intro hg henv htype hct hdec hlen
      · rw [if_pos hlen]
        exact wpE_fail hreceived fun g x => .inl

theorem wpE_awaitClient {e : Exchange} {peer : Peer} {g : List Ev} (hg : KeyTaken P me e peer g) :
    wpE (.isolated (HandshakeStep P me)) (awaitClient P peer e) g
      (Stage fun h transcript => Proven P me e peer transcript h) := by
  rw [awaitClient, wpE_bind, wpE_raising]
  cases htranscript : buildTranscriptHash P e.nonceC e.nonceS e.preMasterCt with
  | error x => exact .inl hg.unsigned
  | ok transcript =>
    dsimp only
    rw [wpE_bind]
    refine wpE_receiveOrFail hg.unsigned (fun authResp env henv htype => ?_) fun g x => .inl
    have hreceived : Unsigned (⟨.recv, .ok authResp⟩ :: g) := unsigned_cons.mpr ⟨rfl, hg.unsigned⟩
    dsimp only
    cases hsig : b64Item env.payload "signature" with
    | none => exact wpE_fail hreceived fun g x => .inl
    | some clientSig =>
      dsimp only
      rw [wpE_bind, wpE_raising]
      rcases hv : rsaVerify P peer.pem transcript clientSig with x | (_ | _)
      · exact .inl hreceived
      · exact wpE_fail hreceived fun g x => .inl
      · exact Proven.intro hg htranscript henv htype hsig hv

theorem wpE_proveToClient {e : Exchange} {peer : Peer} {transcript : Bytes} {g : List Ev}
    (hg : Proven P me e peer transcript g) :
    wpE (.isolated (HandshakeStep P me)) (proveToClient P me peer e transcript) g
      (Stage fun h state => Established P me e peer h ∧ state = e.state P peer) := by
  have htranscript : buildTranscriptHash P e.nonceC e.nonceS e.preMasterCt = .ok transcript := by
    obtain ⟨-, ht, -, -, -, -⟩ := hg
    exact ht
  rw [proveToClient, wpE_bind, wpE_raising, deriveSession_eq_ok P htranscript]
  dsimp only
  rw [wpE_act_bind]
  refine ⟨.sign hg, fun x => .inr ⟨_, _, _, rfl⟩, fun sig => ?_⟩
  rw [sendMessage, wpE_act_bind]
  exact ⟨.sessionOk hg, fun x => .inr ⟨_, _, _, rfl⟩, fun _ => ⟨.intro hg, rfl⟩⟩

/-- What a server's handshake does, and what a session that it returns comes from. -/
theorem handshake_guarantee :
    wpE (.isolated (HandshakeStep P me)) (performServerHandshake P me) []
      (Stage fun h state => ∃ e peer, Established P me e peer h ∧ state = e.state P peer) := by
  refine Stage.bind wpE_greetClient fun g greeted hgreeted => ?_
  obtain ⟨nonceC, peer⟩ := greeted
  refine Stage.bind (wpE_takePreMaster hgreeted) fun h e htaken => ?_
  refine Stage.bind (wpE_awaitClient htaken) fun h transcript hproven => ?_
  refine wpE_mono _ (wpE_proveToClient hproven) fun h r hr => ?_
  rcases r with x | state
  · exact hr
  · exact ⟨e, peer, hr⟩

end Handshake
end Server
end ZeroTrust
