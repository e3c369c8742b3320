import ZeroTrust.Common.Socket
import ZeroTrust.Network.Checked

/-!
# Handshakes that complete

Two honest ends of one connection, on which octets are delivered as they were sent.  In whatever
order the two ends act, and however the octets are cut on their way, both ends return, with the same
keys, each with the other's name.

* `hail`, `meetServer`, `takeKey`: the two programs, cut where an end waits for the other.
* `Meeting`, `Meeting.Honest`: two ends, what they draw, and what makes them honest.
* `handshake_completes`: every order of the moves comes to the two sessions.
-/

namespace ZeroTrust

open Python Effects Endpoint

/-! ## The two programs, cut -/

/-- A nonce is drawn, and the `HELLO` is sent. -/
def hail (me : Party) : EndpointM Bytes := do
  let nonce ← act (Op.urandom NONCE_BYTES)
  sendMessage .HELLO (helloPayload me.cert nonce)
  return nonce

/-- What follows the `HELLO` is given its nonce. -/
theorem hail_bind (me : Party) {β : Type} (k : Bytes → EndpointM β) :
    hail me >>= k = (do
      let nonce ← act (Op.urandom NONCE_BYTES)
      sendMessage .HELLO (helloPayload me.cert nonce)
      k nonce) := by
  rw [hail, bind_assoc]
  refine bind_congr fun nonce => ?_
  rw [bind_assoc]
  exact bind_congr fun _ => pure_bind nonce k

namespace Client

variable (P : Primitives) (me : Party)

/-- `greetServer`, after the client's `HELLO`. -/
def meetServer (expectedServerSubject : Option PyStr) (nonceC : Bytes) :
    EndpointM (Bytes × Bytes × Peer) := do
  let serverHello ← recvEnvelope
  if serverHello.type ≠ .HELLO then
    throw (.authError (py "expected HELLO from server, got '" ++ serverHello.type.name ++ py "'"))
  else
    match parseHello "server" serverHello.payload with
    | .error reason => throw (.protocolError reason)
    | .ok (serverCert, nonceS) => do
        if ← verifyCertificate P (act Op.time) serverCert me.caPubkeyPem expectedServerSubject then
          let peer ← raising (peerOf serverCert)
          return (nonceC, nonceS, peer)
        else throw (.authError (py "server cert verification failed"))

theorem greetServer_eq {expectedServerSubject : Option PyStr} :
    greetServer P me expectedServerSubject = hail me >>= meetServer P me expectedServerSubject :=
  (hail_bind me _).symm

theorem performClientHandshake_eq {expectedServerSubject : Option PyStr} :
    performClientHandshake P me expectedServerSubject = (do
      let nonceC ← hail me
      let (nonceC, nonceS, peer) ← meetServer P me expectedServerSubject nonceC
      let (e, transcript) ← proveToServer P me nonceC nonceS peer
      awaitServer P peer e transcript) := by
  unfold performClientHandshake
  rw [greetServer_eq]
  exact bind_assoc ..

end Client

namespace Server

variable (P : Primitives) (me : Party)

/-- `takePreMaster`, after the server's `HELLO`. -/
def takeKey (nonceC nonceS : Bytes) : EndpointM Exchange := do
  let payload ← receiveOrFail .KEY_EXCHANGE "KEY_EXCHANGE"
  match b64Item payload "pre_master_ct" with
  | none => fail (py "pre_master_ct not valid base64")
  | some preMasterCt =>
      match rsaOaepDecrypt P me.privPem me.password preMasterCt with
      | .error (.cryptoError _) => fail (py "pre_master OAEP decryption failed")
      | .error x => throw x
      | .ok preMaster =>
          if preMaster.length ≠ PRE_MASTER_BYTES then
            fail (py "pre_master wrong length: " ++ intRepr preMaster.length)
          else return { nonceC, nonceS, preMasterCt, preMaster }

theorem takePreMaster_eq {nonceC : Bytes} :
    takePreMaster P me nonceC = hail me >>= takeKey P me nonceC :=
  (hail_bind me _).symm

theorem performServerHandshake_eq :
    performServerHandshake P me = (do
      let (nonceC, peer) ← greetClient P me
      let nonceS ← hail me
      let e ← takeKey P me nonceC nonceS
      let transcript ← awaitClient P peer e
      proveToClient P me peer e transcript) := by
  unfold performServerHandshake
  refine bind_congr fun client => ?_
  obtain ⟨nonceC, peer⟩ := client
  dsimp only
  rw [takePreMaster_eq]
  exact bind_assoc ..

end Server

namespace Network

variable {P : Primitives} {cut : Input → ℕ → ℕ} {α β : Type} {up : Except PyExn α → Bool}

/-! ## One end alone -/

/-- An end that has issued so many operations, and what is under way to it and from it. -/
structure At (inputs : ℕ → Input) (n : ℕ) (inn out : Bytes) (t : (socket P cut α up).Site) :
    Prop where
  inputs : ∀ k, t.here.inputs k = inputs (n + k)
  inn : t.inn = ⟨inn, false⟩
  out : t.out = ⟨out, false⟩

section

variable {inputs : ℕ → Input} {n : ℕ} {inn out : Bytes} {t : (socket P cut α up).Site}

theorem At.input (h : At inputs n inn out t) : t.here.inputs 0 = inputs n := h.inputs 0

/-- One frame, and nothing after it. -/
theorem At.single (h : At inputs n inn out t) : At inputs n (inn ++ []) out t := by
  rwa [List.append_nil]

/-- An operation that receives nothing, and is answered. -/
theorem At.wp_act (h : At inputs n inn out t) {op : Op} {f : op.Ans → EndpointM β} {a : op.Ans}
    {said : Bytes} {Q : (socket P cut α up).Site → Except PyExn β → Prop}
    (hrecv : isRecv op = false) (hexec : ∀ s, (execFramed P op (inputs n) s).1 = .ok a)
    (hsaid : speakFrame P op (inputs n) (.ok a) = (said, false))
    (hf : ∀ t', At inputs (n + 1) inn (out ++ said) t' → wpE (socket P cut α up).alone (f a) t' Q) :
    wpE (socket P cut α up).alone (act op >>= f) t Q := by
  have hact : t.act op =
      some (.ok a, ⟨Port.took t.here op (inputs n), t.inn, t.out.put said false⟩) := by
    rw [Port.Site.act, h.input]
    have hsupply : (socket P cut α up).supply op (inputs n) t.inn = some (inputs n, t.inn) := by
      rw [Port.supply]
      exact if_neg (ne_true_of_eq_false hrecv)
    rw [hsupply, Option.map_some]
    dsimp only
    rw [hexec, hsaid]
  refine (Port.wp_alone_op hact).mpr (hf _ ⟨fun k => ?_, h.inn, ?_⟩)
  · exact (h.inputs (k + 1)).trans (congrArg inputs (by omega))
  · rw [h.out]
    rfl

/-- An operation that sends nothing either. -/
theorem At.wp_quiet (h : At inputs n inn out t) {op : Op} {f : op.Ans → EndpointM β} {a : op.Ans}
    {Q : (socket P cut α up).Site → Except PyExn β → Prop}
    (hrecv : isRecv op = false) (hexec : ∀ s, (execFramed P op (inputs n) s).1 = .ok a)
    (hsaid : speakFrame P op (inputs n) (.ok a) = ([], false))
    (hf : ∀ t', At inputs (n + 1) inn out t' → wpE (socket P cut α up).alone (f a) t' Q) :
    wpE (socket P cut α up).alone (act op >>= f) t Q := by
  refine h.wp_act hrecv hexec hsaid fun t' ht' => hf t' ?_
  rwa [List.append_nil] at ht'

/-- A message is sent. -/
theorem At.wp_send (h : At inputs n inn out t) {type : MessageType} {payload : Obj}
    {f : Unit → EndpointM β} {frame : Bytes}
    {Q : (socket P cut α up).Site → Except PyExn β → Prop} (hfault : (inputs n).fault = none)
    (hframe : framed P type payload (inputs n) = .ok frame)
    (hf : ∀ t', At inputs (n + 1) inn (out ++ frame) t' →
      wpE (socket P cut α up).alone (f ()) t' Q) :
    wpE (socket P cut α up).alone (sendMessage type payload >>= f) t Q := by
  refine h.wp_act rfl (fun s => ?_) ?_ hf
  · show (reading (inputs n) s _).1 = _
    rw [reading, hfault, hframe]
    rfl
  · show (((framed P type payload (inputs n)).toOption.getD []), false) = _
    rw [hframe]
    rfl

/-- The message arrives as it was sent: it is packed, and `json.loads` reads the text. -/
structure Carried (P : Primitives) (type : MessageType) (payload : Obj) (i : Input)
    (frame : Bytes) : Prop where
  packed : framed P type payload i = .ok frame
  loads : P.jsonLoads (dumps P wireOptions (makeEnvelope type payload (i.octets 16) i.now
    (uuidStr i.uuid))) = .ok (makeEnvelope type payload (i.octets 16) i.now (uuidStr i.uuid))

/-- A message is received. -/
theorem At.wp_recvEnvelope {type : MessageType} {payload : Obj} {i : Input} {frame rest : Bytes}
    {Q : (socket P cut α up).Site → Except PyExn Envelope → Prop}
    (h : At inputs n (frame ++ rest) out t) (hfault : (inputs n).fault = none)
    (hframe : Carried P type payload i frame)
    (hQ : ∀ env t', env.type = type → env.payload = payload → At inputs (n + 1) rest out t' →
      Q t' (.ok env)) :
    wpE (socket P cut α up).alone recvEnvelope t Q := by
  obtain ⟨env, henv, htype, hpayload⟩ := @validateEnvelope_makeEnvelope type payload (i.octets 16)
    i.now (uuidStr i.uuid) (i.length_octets 16)
  obtain ⟨hpacked, hloads⟩ := hframe
  rw [framed] at hpacked
  generalize makeEnvelope type payload (i.octets 16) i.now (uuidStr i.uuid) = msg
    at henv hpacked hloads
  obtain ⟨fields, -, rfl, -⟩ := (packFrame_eq_ok P).mp hpacked
  obtain ⟨calls, hmsg⟩ := @recvMessage_frame P ⟨frame ++ rest, cut (inputs n)⟩ _ _ rest hpacked
    hloads rfl
  have hhear : hearFrame P cut (inputs n) ⟨frame ++ rest, false⟩ =
      some ({ inputs n with message := .ok fields }, rest) := by
    unfold hearFrame
    rw [if_neg (by simp [hfault]), if_neg (by simp [(isFrame_of_packFrame hpacked).whole]), hmsg]
  have hact : t.act .recv = some (.ok fields,
      ⟨Port.took t.here .recv { inputs n with message := .ok fields }, ⟨rest, false⟩, t.out⟩) := by
    have hsupply : (socket P cut α up).supply .recv (inputs n) t.inn =
        some ({ inputs n with message := .ok fields }, ⟨rest, false⟩) := by
      rw [Port.supply, h.inn]
      show ((hearFrame P cut (inputs n) ⟨frame ++ rest, false⟩).map _) = _
      rw [hhear]
      rfl
    have hexec : ∀ s, (execFramed P .recv { inputs n with message := .ok fields } s).1 =
        .ok fields := by
      intro s
      show (reading _ s _).1 = _
      rw [reading, hfault]
    rw [Port.Site.act, h.input, hsupply, Option.map_some]
    dsimp only
    rw [hexec]
    show some (_, Port.Site.mk _ _ (t.out.put [] false)) = _
    rw [Pipe.put_nil_false]
  refine (Port.wp_alone_op hact).mpr ?_
  show wpE _ (raising (validateEnvelope (.obj fields))) _ _
  rw [wpE_raising, henv]
  exact hQ env _ htype hpayload
    ⟨fun k => (h.inputs (k + 1)).trans (congrArg inputs (by omega)), rfl, h.out⟩

/-- A certificate is accepted. -/
theorem At.wp_verify (h : At inputs n inn out t) {cert : Obj} {ca : Bytes} {subject : Option PyStr}
    {f : Bool → EndpointM β} {Q : (socket P cut α up).Site → Except PyExn β → Prop}
    (hcheck : CertCheck P ca cert (inputs n).now subject)
    (hf : ∀ t', At inputs (n + 1) inn out t' → wpE (socket P cut α up).alone (f true) t' Q) :
    wpE (socket P cut α up).alone
      (verifyCertificate P (act Op.time) (.obj cert) ca subject >>= f) t Q := by
  rw [verifyCertificate_of_signed hcheck.signed, bind_assoc]
  refine h.wp_quiet rfl (fun _ => rfl) rfl fun t' ht' => ?_
  rw [wpE_bind, wpE_raising, certVerdict_eq_ok_true.mpr ⟨hcheck.inDate, hcheck.subject⟩]
  exact hf t' ht'

/-! ### The parts of the handshake -/

theorem At.wp_hail (h : At inputs n inn out t) {me : Party} {frame : Bytes}
    {Q : (socket P cut α up).Site → Except PyExn Bytes → Prop}
    (hfault : (inputs (n + 1)).fault = none)
    (hframe : framed P .HELLO (helloPayload me.cert ((inputs n).octets NONCE_BYTES))
      (inputs (n + 1)) = .ok frame)
    (hQ : ∀ t', At inputs (n + 2) inn (out ++ frame) t' →
      Q t' (.ok ((inputs n).octets NONCE_BYTES))) :
    wpE (socket P cut α up).alone (hail me) t Q :=
  h.wp_quiet rfl (fun _ => rfl) rfl fun _ ht₁ => ht₁.wp_send hfault hframe fun t₂ ht₂ => hQ t₂ ht₂

/-- A `HELLO` is read as it was written. -/
theorem parseHello_helloPayload {peer : String} {cert : Obj} {nonce : Bytes}
    (hnonce : nonce.length = NONCE_BYTES) :
    parseHello peer (helloPayload cert nonce) = .ok (.obj cert, nonce) := by
  have hcert : dictGet (helloPayload cert nonce) "cert" = some (.obj cert) := rfl
  have hget : dictGet (helloPayload cert nonce) "nonce" = some (.str (b64encode nonce)) := rfl
  have hitem : b64Item (helloPayload cert nonce) "nonce" = some nonce := b64decode_b64encode nonce
  rw [parseHello, hcert, hget]
  dsimp only
  rw [hitem]
  dsimp only
  rw [if_neg (not_not.mpr hnonce)]

theorem At.wp_meetServer {me server : Party} {subject : Option PyStr} {nonceC nonceS : Bytes}
    {peer : Peer} {i : Input} {frame rest : Bytes}
    {Q : (socket P cut α up).Site → Except PyExn (Bytes × Bytes × Peer) → Prop}
    (h : At inputs n (frame ++ rest) out t) (hfault : (inputs n).fault = none)
    (hframe : Carried P .HELLO (helloPayload server.cert nonceS) i frame)
    (hnonce : nonceS.length = NONCE_BYTES)
    (hcheck : CertCheck P me.caPubkeyPem server.cert (inputs (n + 1)).now subject)
    (hpeer : peerOf (.obj server.cert) = .ok peer)
    (hQ : ∀ t', At inputs (n + 2) rest out t' → Q t' (.ok (nonceC, nonceS, peer))) :
    wpE (socket P cut α up).alone (Client.meetServer P me subject nonceC) t Q := by
  rw [Client.meetServer, wpE_bind]
  refine h.wp_recvEnvelope hfault hframe fun env t₁ htype hpayload ht₁ => ?_
  dsimp only
  rw [if_neg (not_not.mpr htype), hpayload, parseHello_helloPayload hnonce]
  refine ht₁.wp_verify hcheck fun t₂ ht₂ => ?_
  rw [if_pos rfl, wpE_bind, wpE_raising, hpeer]
  exact hQ t₂ ht₂

theorem At.wp_receiveOrFail {type : MessageType} {what : String} {payload : Obj} {i : Input}
    {frame rest : Bytes} {Q : (socket P cut α up).Site → Except PyExn Obj → Prop}
    (h : At inputs n (frame ++ rest) out t) (hfault : (inputs n).fault = none)
    (hframe : Carried P type payload i frame)
    (hQ : ∀ t', At inputs (n + 1) rest out t' → Q t' (.ok payload)) :
    wpE (socket P cut α up).alone (Server.receiveOrFail type what) t Q := by
  rw [Server.receiveOrFail, wpE_bind, wpE_attempt]
  refine h.wp_recvEnvelope hfault hframe fun env t₁ htype hpayload ht₁ => ?_
  dsimp only
  rw [if_neg (not_not.mpr htype), hpayload]
  exact hQ t₁ ht₁

theorem At.wp_greetClient {me client : Party} {nonceC : Bytes} {peer : Peer} {i : Input}
    {frame rest : Bytes} {Q : (socket P cut α up).Site → Except PyExn (Bytes × Peer) → Prop}
    (h : At inputs n (frame ++ rest) out t) (hfault : (inputs n).fault = none)
    (hframe : Carried P .HELLO (helloPayload client.cert nonceC) i frame)
    (hnonce : nonceC.length = NONCE_BYTES)
    (hcheck : CertCheck P me.caPubkeyPem client.cert (inputs (n + 1)).now none)
    (hpeer : peerOf (.obj client.cert) = .ok peer)
    (hQ : ∀ t', At inputs (n + 2) rest out t' → Q t' (.ok (nonceC, peer))) :
    wpE (socket P cut α up).alone (Server.greetClient P me) t Q := by
  rw [Server.greetClient, wpE_bind]
  refine h.wp_receiveOrFail hfault hframe fun t₁ ht₁ => ?_
  dsimp only
  rw [parseHello_helloPayload hnonce]
  refine ht₁.wp_verify hcheck fun t₂ ht₂ => ?_
  rw [if_pos rfl, wpE_bind, wpE_raising, hpeer]
  exact hQ t₂ ht₂

theorem At.wp_proveToServer {me : Party} {e : Exchange} {peer : Peer} {pub : RsaPublicKey}
    {key : RsaPrivateKey} {transcript frame frame' : Bytes}
    {Q : (socket P cut α up).Site → Except PyExn (Exchange × Bytes) → Prop}
    (h : At inputs n inn out t) (hfault : ∀ k, (inputs k).fault = none)
    (hpre : e.preMaster = (inputs n).octets PRE_MASTER_BYTES)
    (hpub : loadPublic P peer.pem = .ok pub)
    (hct : e.preMasterCt = P.oaepEncrypt pub e.preMaster ((inputs (n + 1)).octets 32))
    (hframe : framed P .KEY_EXCHANGE (keyExchangePayload e.preMasterCt) (inputs (n + 2)) = .ok frame)
    (htranscript : buildTranscriptHash P e.nonceC e.nonceS e.preMasterCt = .ok transcript)
    (hkey : loadPrivate P me.privPem me.password = .ok key)
    (hframe' : framed P .AUTH_RESPONSE (proofPayload (P.pssSign key transcript
      ((inputs (n + 3)).octets 32))) (inputs (n + 4)) = .ok frame')
    (hQ : ∀ t', At inputs (n + 5) inn (out ++ frame ++ frame') t' → Q t' (.ok (e, transcript))) :
    wpE (socket P cut α up).alone (Client.proveToServer P me e.nonceC e.nonceS peer) t Q := by
  obtain ⟨nonceC, nonceS, preMasterCt, preMaster⟩ := e
  dsimp only at hpre hct hframe htranscript hQ ⊢
  subst hpre
  have hencrypt : ∀ s, (execFramed P (.oaepEncrypt peer.pem ((inputs n).octets PRE_MASTER_BYTES))
      (inputs (n + 1)) s).1 = .ok preMasterCt := by
    intro s
    show rsaOaepEncrypt P _ _ _ = _
    rw [rsaOaepEncrypt, hpub, hct]
    rfl
  have hsign : ∀ s, (execFramed P (.sign me.privPem me.password transcript) (inputs (n + 3)) s).1 =
      .ok (P.pssSign key transcript ((inputs (n + 3)).octets 32)) := by
    intro s
    show rsaSign P _ _ _ _ = _
    rw [rsaSign, hkey]
    rfl
  refine h.wp_quiet rfl (fun _ => rfl) rfl fun t₁ ht₁ => ?_
  refine ht₁.wp_quiet rfl hencrypt rfl fun t₂ ht₂ => ?_
  refine ht₂.wp_send (hfault _) hframe fun t₃ ht₃ => ?_
  rw [wpE_bind, wpE_raising, htranscript]
  refine ht₃.wp_quiet rfl hsign rfl fun t₄ ht₄ => ?_
  exact ht₄.wp_send (hfault _) hframe' fun t₅ ht₅ => hQ t₅ ht₅

theorem At.wp_takeKey {me : Party} {e : Exchange} {key : RsaPrivateKey} {i : Input}
    {frame rest : Bytes} {Q : (socket P cut α up).Site → Except PyExn Exchange → Prop}
    (h : At inputs n (frame ++ rest) out t) (hfault : (inputs n).fault = none)
    (hframe : Carried P .KEY_EXCHANGE (keyExchangePayload e.preMasterCt) i frame)
    (hkey : loadPrivate P me.privPem me.password = .ok key)
    (hopen : P.oaepDecrypt key e.preMasterCt = some e.preMaster)
    (hlen : e.preMaster.length = PRE_MASTER_BYTES)
    (hQ : ∀ t', At inputs (n + 1) rest out t' → Q t' (.ok e)) :
    wpE (socket P cut α up).alone (Server.takeKey P me e.nonceC e.nonceS) t Q := by
  have hitem : b64Item (keyExchangePayload e.preMasterCt) "pre_master_ct" = some e.preMasterCt :=
    b64decode_b64encode e.preMasterCt
  rw [Server.takeKey, wpE_bind]
  refine h.wp_receiveOrFail hfault hframe fun t₁ ht₁ => ?_
  dsimp only
  rw [hitem]
  dsimp only
  rw [(rsaOaepDecrypt_eq_ok P).mpr ⟨key, hkey, hopen⟩]
  dsimp only
  rw [if_neg (not_not.mpr hlen)]
  exact hQ t₁ ht₁

theorem At.wp_awaitClient {e : Exchange} {peer : Peer} {pub : RsaPublicKey}
    {transcript sig : Bytes} {i : Input} {frame rest : Bytes}
    {Q : (socket P cut α up).Site → Except PyExn Bytes → Prop}
    (h : At inputs n (frame ++ rest) out t) (hfault : (inputs n).fault = none)
    (htranscript : buildTranscriptHash P e.nonceC e.nonceS e.preMasterCt = .ok transcript)
    (hframe : Carried P .AUTH_RESPONSE (proofPayload sig) i frame)
    (hpub : loadPublic P peer.pem = .ok pub) (hsig : P.pssVerify pub transcript sig = true)
    (hQ : ∀ t', At inputs (n + 1) rest out t' → Q t' (.ok transcript)) :
    wpE (socket P cut α up).alone (Server.awaitClient P peer e) t Q := by
  have hitem : b64Item (proofPayload sig) "signature" = some sig := b64decode_b64encode sig
  rw [Server.awaitClient, wpE_bind, wpE_raising, htranscript]
  dsimp only
  rw [wpE_bind]
  refine h.wp_receiveOrFail hfault hframe fun t₁ ht₁ => ?_
  dsimp only
  rw [hitem]
  dsimp only
  rw [wpE_bind, wpE_raising, (rsaVerify_eq_ok_true P).mpr ⟨pub, hpub, hsig⟩]
  exact hQ t₁ ht₁

theorem At.wp_proveToClient {me : Party} {e : Exchange} {peer : Peer} {key : RsaPrivateKey}
    {transcript frame : Bytes} {Q : (socket P cut α up).Site → Except PyExn SessionState → Prop}
    (h : At inputs n inn out t) (hfault : (inputs (n + 1)).fault = none)
    (htranscript : buildTranscriptHash P e.nonceC e.nonceS e.preMasterCt = .ok transcript)
    (hkey : loadPrivate P me.privPem me.password = .ok key)
    (hframe : framed P .SESSION_OK (proofPayload (P.pssSign key transcript
      ((inputs n).octets 32))) (inputs (n + 1)) = .ok frame)
    (hQ : ∀ t', At inputs (n + 2) inn (out ++ frame) t' → Q t' (.ok (e.state P peer))) :
    wpE (socket P cut α up).alone (Server.proveToClient P me peer e transcript) t Q := by
  have hsign : ∀ s, (execFramed P (.sign me.privPem me.password transcript) (inputs n) s).1 =
      .ok (P.pssSign key transcript ((inputs n).octets 32)) := by
    intro s
    show rsaSign P _ _ _ _ = _
    rw [rsaSign, hkey]
    rfl
  rw [Server.proveToClient, wpE_bind, wpE_raising, deriveSession_eq_ok P htranscript]
  refine h.wp_quiet rfl hsign rfl fun t₁ ht₁ => ?_
  exact ht₁.wp_send hfault hframe fun t₂ ht₂ => hQ t₂ ht₂

theorem At.wp_awaitServer {e : Exchange} {peer : Peer} {pub : RsaPublicKey}
    {transcript sig : Bytes} {i : Input} {frame rest : Bytes}
    {Q : (socket P cut α up).Site → Except PyExn SessionState → Prop}
    (h : At inputs n (frame ++ rest) out t) (hfault : (inputs n).fault = none)
    (htranscript : buildTranscriptHash P e.nonceC e.nonceS e.preMasterCt = .ok transcript)
    (hframe : Carried P .SESSION_OK (proofPayload sig) i frame)
    (hpub : loadPublic P peer.pem = .ok pub) (hsig : P.pssVerify pub transcript sig = true)
    (hQ : ∀ t', At inputs (n + 1) rest out t' → Q t' (.ok (e.state P peer))) :
    wpE (socket P cut α up).alone (Client.awaitServer P peer e transcript) t Q := by
  have hitem : b64Item (proofPayload sig) "signature" = some sig := b64decode_b64encode sig
  have hcheck : ∀ env : Envelope, env.type = .SESSION_OK → env.payload = proofPayload sig →
      Client.checkSessionOk P peer transcript env = .ok () := by
    intro env htype hpayload
    rw [Client.checkSessionOk, if_neg (not_not.mpr htype), hpayload, hitem]
    dsimp only
    rw [(rsaVerify_eq_ok_true P).mpr ⟨pub, hpub, hsig⟩]
    rfl
  rw [Client.awaitServer, wpE_bind, wpE_attempt]
  refine h.wp_recvEnvelope hfault hframe fun env t₁ htype hpayload ht₁ => ?_
  dsimp only
  rw [wpE_bind, wpE_raising, hcheck env htype hpayload]
  dsimp only
  rw [wpE_raising, deriveSession_eq_ok P htranscript]
  exact hQ t₁ ht₁

end

/-! ## Two ends -/

/-- Two ends of a connection, and what the environment supplies to them. -/
structure Meeting where
  client : Party
  server : Party
  /-- The server's name, where the client knows it. -/
  expectedServerSubject : Option PyStr
  clientInputs : ℕ → Input
  serverInputs : ℕ → Input
  clientFiles : Files
  serverFiles : Files
  /-- How the octets come in pieces, at either end. -/
  clientCut : Input → ℕ → ℕ
  serverCut : Input → ℕ → ℕ

/-- An end of a handshake: it closes the connection where it raises. -/
abbrev handshakeEnd (P : Primitives) (cut : Input → ℕ → ℕ) : Port UInt8 :=
  socket P cut SessionState fun r => !r.isOk

namespace Meeting

variable (m : Meeting) (P : Primitives)

/-- The client's end. -/
abbrev clientEnd : Port UInt8 := handshakeEnd P m.clientCut

/-- The server's end. -/
abbrev serverEnd : Port UInt8 := handshakeEnd P m.serverCut

/-- Both ends begin. -/
def start : Link (m.clientEnd P) (m.serverEnd P) where
  left := ⟨(Client.performClientHandshake P m.client m.expectedServerSubject).run,
    .start m.clientFiles m.clientInputs⟩
  right := ⟨(Server.performServerHandshake P m.server).run, .start m.serverFiles m.serverInputs⟩
  toRight := ⟨[], false⟩
  toLeft := ⟨[], false⟩

/-- What the two ends draw, and what the client encrypts for the server's key. -/
def exchange (serverKey : RsaPrivateKey) : Exchange where
  nonceC := (m.clientInputs 0).octets NONCE_BYTES
  nonceS := (m.serverInputs 2).octets NONCE_BYTES
  preMasterCt := P.oaepEncrypt serverKey.pub ((m.clientInputs 4).octets PRE_MASTER_BYTES)
    ((m.clientInputs 5).octets 32)
  preMaster := (m.clientInputs 4).octets PRE_MASTER_BYTES

/-- The transcript of the two ends. -/
def transcript (serverKey : RsaPrivateKey) : Bytes :=
  P.sha256 (m.exchange P serverKey).transcriptInput

/-- The five messages, each with the input of its sending. -/
def messages (clientKey serverKey : RsaPrivateKey) : List (MessageType × Obj × Input) :=
  [(.HELLO, helloPayload m.client.cert (m.exchange P serverKey).nonceC, m.clientInputs 1),
    (.HELLO, helloPayload m.server.cert (m.exchange P serverKey).nonceS, m.serverInputs 3),
    (.KEY_EXCHANGE, keyExchangePayload (m.exchange P serverKey).preMasterCt, m.clientInputs 6),
    (.AUTH_RESPONSE, proofPayload (P.pssSign clientKey (m.transcript P serverKey)
      ((m.clientInputs 7).octets 32)), m.clientInputs 8),
    (.SESSION_OK, proofPayload (P.pssSign serverKey (m.transcript P serverKey)
      ((m.serverInputs 6).octets 32)), m.serverInputs 7)]

end Meeting

/-- A party whose certificate the other end accepts at a time, and whose key it is. -/
structure Shows (P : Primitives) (me : Party) (ca : Bytes) (subject : Option PyStr) (now : ℤ)
    (peer : Peer) (key : RsaPrivateKey) : Prop where
  checked : CertCheck P ca me.cert now subject
  shown : peerOf (.obj me.cert) = .ok peer
  privateKey : loadPrivate P me.privPem me.password = .ok key
  publicKey : loadPublic P peer.pem = .ok key.pub
  matching : P.Matching key

/-- Two honest ends: each accepts the other's certificate when it comes to check it, the keys are
those of the certificates, the operations do not fail, and the messages are carried. -/
structure Meeting.Honest (m : Meeting) (P : Primitives) (clientPeer serverPeer : Peer)
    (clientKey serverKey : RsaPrivateKey) : Prop where
  client : Shows P m.client m.server.caPubkeyPem none (m.serverInputs 1).now clientPeer clientKey
  server : Shows P m.server m.client.caPubkeyPem m.expectedServerSubject (m.clientInputs 3).now
    serverPeer serverKey
  clientHealthy : ∀ n, (m.clientInputs n).fault = none
  serverHealthy : ∀ n, (m.serverInputs n).fault = none
  encrypted : (m.exchange P serverKey).preMasterCt.length ≠ 0
  carried : ∀ x ∈ m.messages P clientKey serverKey, ∃ frame, Carried P x.1 x.2.1 x.2.2 frame

/-- Where the two ends have come to: what is left of their programs, how many operations they have
issued, and what is under way. -/
structure Meets (m : Meeting) (P : Primitives) (x : EndpointM SessionState) (n : ℕ)
    (y : EndpointM SessionState) (k : ℕ) (toRight toLeft : Bytes)
    (c : Link (m.clientEnd P) (m.serverEnd P)) : Prop where
  left : c.left.rest = x.run
  right : c.right.rest = y.run
  leftAt : At m.clientInputs n toLeft toRight c.leftSite
  rightAt : At m.serverInputs k toRight toLeft c.rightSite

section

variable {m : Meeting} {n n' k k' : ℕ} {toRight toRight' toLeft toLeft' : Bytes}
  {c : Link (m.clientEnd P) (m.serverEnd P)} {b : β}

theorem Meets.congr_left {x x' y : EndpointM SessionState} (h : Meets m P x n y k toRight toLeft c)
    (hx : x = x') : Meets m P x' n y k toRight toLeft c := hx ▸ h

/-- The client runs a part of its program. -/
theorem Meets.run_left {x : EndpointM β} {f : β → EndpointM SessionState}
    {y : EndpointM SessionState} (h : Meets m P (x >>= f) n y k toRight toLeft c)
    (hx : wpE (m.clientEnd P).alone x c.leftSite fun t r =>
      r = .ok b ∧ At m.clientInputs n' toLeft' toRight' t) :
    ∃ d, Relation.ReflTransGen Link.Step c d ∧ Meets m P (f b) n' y k toRight' toLeft' d := by
  obtain ⟨t, r, ⟨rfl, ht⟩, hreach⟩ := Port.reaches_left hx (ExceptT.bindCont f) c.right
  have hc : c = .ofLeft (x >>= f).run c.leftSite c.right := by
    obtain ⟨⟨rest, here⟩, right, toRight, toLeft⟩ := c
    exact congrArg (fun p => Link.mk (Port.End.mk p _) _ _ _) h.left
  rw [hc]
  exact ⟨_, hreach, rfl, h.right, ht, h.rightAt.inputs, ht.out, ht.inn⟩

/-- The server runs a part of its program. -/
theorem Meets.run_right {x : EndpointM SessionState} {y : EndpointM β}
    {f : β → EndpointM SessionState} (h : Meets m P x n (y >>= f) k toRight toLeft c)
    (hy : wpE (m.serverEnd P).alone y c.rightSite fun u r =>
      r = .ok b ∧ At m.serverInputs k' toRight' toLeft' u) :
    ∃ d, Relation.ReflTransGen Link.Step c d ∧ Meets m P x n (f b) k' toRight' toLeft' d := by
  obtain ⟨u, r, ⟨rfl, hu⟩, hreach⟩ := Port.reaches_right hy (ExceptT.bindCont f) c.left
  have hc : c = .ofRight c.left (y >>= f).run c.rightSite := by
    obtain ⟨left, ⟨rest, here⟩, toRight, toLeft⟩ := c
    exact congrArg (fun p => Link.mk _ (Port.End.mk p _) _ _) h.right
  rw [hc]
  exact ⟨_, hreach, h.left, rfl, ⟨h.leftAt.inputs, hu.out, hu.inn⟩, hu⟩

/-- Both ends have returned. -/
theorem Meets.stuck {state state' : SessionState}
    (h : Meets m P (pure state) n (pure state') k toRight toLeft c) : c.Stuck := by
  intro d hstep
  cases hstep with
  | left hmove =>
    rw [h.left] at hmove
    cases hmove.of_pure.1
  | right hmove =>
    rw [h.right] at hmove
    cases hmove.of_pure.1

end

section

variable {m : Meeting} {clientPeer serverPeer : Peer} {clientKey serverKey : RsaPrivateKey}

/-- The two sessions of a handshake. -/
def Meeting.Complete (m : Meeting) (P : Primitives) (clientPeer serverPeer : Peer)
    (serverKey : RsaPrivateKey) (c : Link (m.clientEnd P) (m.serverEnd P)) : Prop :=
  c.left.rest = .pure (.ok ((m.exchange P serverKey).state P serverPeer)) ∧
    c.right.rest = .pure (.ok ((m.exchange P serverKey).state P clientPeer))

/-- **Handshakes complete.**  Two honest ends, in whatever order they act and however the octets are
cut, come after the same number of operations to the same end: both have returned the session of
their exchange, each with the other's certificate. -/
theorem handshake_completes (h : m.Honest P clientPeer serverPeer clientKey serverKey) :
    (m.start P).ComesTo (m.Complete P clientPeer serverPeer serverKey) := by
  obtain ⟨hclient, hserver, hok, hok', hct, hcarried⟩ := h
  simp only [Meeting.messages, List.forall_mem_cons] at hcarried
  obtain ⟨⟨hello, hhello⟩, ⟨hello', hhello'⟩, ⟨keyEx, hkeyEx⟩, ⟨auth, hauth⟩,
    ⟨sessionOk, hsessionOk⟩, -⟩ := hcarried
  have htranscript : buildTranscriptHash P (m.exchange P serverKey).nonceC
      (m.exchange P serverKey).nonceS (m.exchange P serverKey).preMasterCt =
        .ok (m.transcript P serverKey) :=
    (buildTranscriptHash_eq_ok P).mpr ⟨Input.length_octets .., Input.length_octets .., hct, rfl⟩
  have hopen : P.oaepDecrypt serverKey (m.exchange P serverKey).preMasterCt =
      some (m.exchange P serverKey).preMaster :=
    hserver.matching.decrypt_encrypt _ _ (Input.length_octets ..)
  have hstart : Meets m P (Client.performClientHandshake P m.client m.expectedServerSubject) 0
      (Server.performServerHandshake P m.server) 0 [] [] (m.start P) :=
    ⟨rfl, rfl, ⟨fun k => congrArg _ (Nat.zero_add k).symm, rfl, rfl⟩,
      fun k => congrArg _ (Nat.zero_add k).symm, rfl, rfl⟩
  rw [Client.performClientHandshake_eq, Server.performServerHandshake_eq] at hstart
  -- the client's HELLO is on its way
  obtain ⟨c₁, hreach₁, h₁⟩ := hstart.run_left
    (hstart.leftAt.wp_hail (hok 1) hhello.packed fun t ht => ⟨rfl, ht⟩)
  -- the server accepts it, and answers
  obtain ⟨c₂, hreach₂, h₂⟩ := h₁.run_right (h₁.rightAt.single.wp_greetClient (hok' 0) hhello
    (Input.length_octets ..) hclient.checked hclient.shown fun u hu => ⟨rfl, hu⟩)
  obtain ⟨c₃, hreach₃, h₃⟩ := h₂.run_right
    (h₂.rightAt.wp_hail (hok' 3) hhello'.packed fun u hu => ⟨rfl, hu⟩)
  -- the client accepts the answer, and sends the pre-master and its proof
  obtain ⟨c₄, hreach₄, h₄⟩ := h₃.run_left (h₃.leftAt.single.wp_meetServer (hok 2) hhello'
    (Input.length_octets ..) hserver.checked hserver.shown fun t ht => ⟨rfl, ht⟩)
  obtain ⟨c₅, hreach₅, h₅⟩ := h₄.run_left (@At.wp_proveToServer P _ _ _ _ 4 _ _ _ m.client
    (m.exchange P serverKey) _ _ _ _ _ _ _ h₄.leftAt hok rfl hserver.publicKey rfl hkeyEx.packed
    htranscript hclient.privateKey hauth.packed fun t ht => ⟨rfl, ht⟩)
  -- the server takes the pre-master, accepts the proof, and sends its own
  obtain ⟨c₆, hreach₆, h₆⟩ := h₅.run_right (@At.wp_takeKey P _ _ _ _ 4 _ _ m.server
    (m.exchange P serverKey) _ _ _ _ _ h₅.rightAt (hok' 4) hkeyEx hserver.privateKey hopen
    (Input.length_octets ..) fun u hu => ⟨rfl, hu⟩)
  obtain ⟨c₇, hreach₇, h₇⟩ := h₆.run_right (h₆.rightAt.single.wp_awaitClient (hok' 5) htranscript
    hauth hclient.publicKey (hclient.matching.verify_sign _ _) fun u hu => ⟨rfl, hu⟩)
  rw [← bind_pure (Server.proveToClient P m.server _ _ _)] at h₇
  obtain ⟨c₈, hreach₈, h₈⟩ := h₇.run_right (h₇.rightAt.wp_proveToClient (hok' 7) htranscript
    hserver.privateKey hsessionOk.packed fun u hu => ⟨rfl, hu⟩)
  -- the client accepts it
  replace h₈ := h₈.congr_left (bind_pure (Client.awaitServer P serverPeer (m.exchange P serverKey)
    (m.transcript P serverKey))).symm
  obtain ⟨c₉, hreach₉, h₉⟩ := h₈.run_left (h₈.leftAt.single.wp_awaitServer (hok 9) htranscript
    hsessionOk hserver.publicKey (hserver.matching.verify_sign _ _) fun t ht => ⟨rfl, ht⟩)
  exact Link.comesTo_of_reaches (hreach₁.trans <| hreach₂.trans <| hreach₃.trans <|
    hreach₄.trans <| hreach₅.trans <| hreach₆.trans <| hreach₇.trans <| hreach₈.trans hreach₉)
    h₉.stuck ⟨h₉.left, h₉.right⟩

end

/-! ### A sample meeting -/

/-- `alice` meets the server, and the octets come one by one. -/
def sampleMeeting : Meeting where
  client := alice.party
  server := (sampleUser "server" "S").party
  expectedServerSubject := some (py "server")
  clientInputs _ := drawing 0
  serverInputs _ := drawing 16
  clientFiles _ := none
  serverFiles _ := none
  clientCut _ _ := 1
  serverCut _ _ := 1

/-- The text of a message and what `json.loads` makes of it. -/
def legible (x : MessageType × Obj × Input) : PyStr × Json :=
  (dumps (.rolling []) wireOptions (makeEnvelope x.1 x.2.1 (x.2.2.octets 16) x.2.2.now
    (uuidStr x.2.2.uuid)),
  makeEnvelope x.1 x.2.1 (x.2.2.octets 16) x.2.2.now (uuidStr x.2.2.uuid))

/-- Primitives whose `json.loads` reads the five messages. -/
def meetingPrimitives : Primitives :=
  .rolling ((sampleMeeting.messages (.rolling []) (.numbered 65) (.numbered 83)).map legible)

/-- `alice`, and the server, as the other sees them. -/
def samplePeer (subject pem : String) : Peer where
  subject := .str (py subject)
  cert := certFor (py subject) (py pem)
  pem := pem.toUTF8.data.toList

theorem sampleMeeting_checks :
    (∀ x ∈ sampleMeeting.messages meetingPrimitives (.numbered 65) (.numbered 83),
      (framed meetingPrimitives x.1 x.2.1 x.2.2).isOk = true ∧
        meetingPrimitives.jsonLoads (dumps meetingPrimitives wireOptions (legible x).2) =
          .ok (legible x).2) ∧
    certSignatureOk meetingPrimitives alice.clientCert [1] = .ok true ∧
    certSignatureOk meetingPrimitives (sampleUser "server" "S").clientCert [1] = .ok true := by
  decide +kernel

theorem honest_sampleMeeting : sampleMeeting.Honest meetingPrimitives (samplePeer "alice" "A")
    (samplePeer "server" "S") (.numbered 65) (.numbered 83) := by
  obtain ⟨hmessages, halice, hserver⟩ := sampleMeeting_checks
  refine ⟨⟨⟨halice, by decide, rfl⟩, rfl, rfl, rfl, rolling_matching _⟩,
    ⟨⟨hserver, by decide, by decide⟩, rfl, rfl, rfl, rolling_matching _⟩, fun _ => rfl, fun _ => rfl,
    by decide, fun x hx => ?_⟩
  obtain ⟨hframe, hloads⟩ := hmessages x hx
  cases hpacked : framed meetingPrimitives x.1 x.2.1 x.2.2 with
  | error e =>
    rw [hpacked] at hframe
    cases hframe
  | ok frame => exact ⟨frame, hpacked, hloads⟩

/-- The meeting is complete. -/
theorem handshake_completes_sampleMeeting : (sampleMeeting.start meetingPrimitives).ComesTo
    (sampleMeeting.Complete meetingPrimitives (samplePeer "alice" "A") (samplePeer "server" "S")
      (.numbered 83)) :=
  handshake_completes honest_sampleMeeting

end Network
end ZeroTrust
