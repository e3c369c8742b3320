import ZeroTrust.Network.Attacker

/-!
# The two ends of a handshake

What the histories of a client's and of a server's handshake say of the exchange they are about,
and when the two are about the same one: the transcript hash fixes the two nonces and the
encrypted pre-master, and the pre-master that comes out of the ciphertext is the one that went in.

* `Proves`, `Concludes`: a client signs its transcript; a server sends `SESSION_OK`.
* `Proves.agree`, `Concludes.agree`: the session that an end returns is that of its exchange.
* `same_of_transcript`: one transcript hash, one exchange.
* `preMaster_eq`: the server decrypts what the client has encrypted for it.
-/

namespace ZeroTrust

open Python Effects Endpoint

theorem b64Item_of_parseHello {peer : String} {payload : Obj} {cert : Json} {nonce : Bytes}
    (h : parseHello peer payload = .ok (cert, nonce)) : b64Item payload "nonce" = some nonce := by
  unfold parseHello at h
  split at h
  · split at h
    · cases h
    · next hitem =>
      split_ifs at h
      cases h
      exact hitem
  · cases h

namespace Network

/-- A history has sent or received a message that shows the octets. -/
def ShownIn (h : List Ev) (b : Bytes) : Prop := ∃ ev ∈ h, b ∈ shownBy ev

/-- The messages of a history show what the transcript is made of. -/
structure TranscriptShown (e : Exchange) (h : List Ev) : Prop where
  nonceC : ShownIn h e.nonceC
  nonceS : ShownIn h e.nonceS
  preMasterCt : ShownIn h e.preMasterCt

theorem shownIn_recv {h : List Ev} {msg : Obj} {env : Envelope} {name : String} {b : Bytes}
    (hmem : (⟨.recv, .ok msg⟩ : Ev) ∈ h) (henv : validateEnvelope (.obj msg) = .ok env)
    (hb : b64Item env.payload name = some b) : ShownIn h b :=
  ⟨_, hmem, mem_shown_of_validateEnvelope henv (mem_shown_of_b64Item hb)⟩

theorem shownIn_send {h : List Ev} {type : MessageType} {payload : Obj} {r : Except PyExn Unit}
    {name : String} {b : Bytes} (hmem : (⟨.send type payload, r⟩ : Ev) ∈ h)
    (hb : b64Item payload name = some b) : ShownIn h b :=
  ⟨_, hmem, mem_shown_of_b64Item hb⟩

theorem b64Item_nonce (cert : Obj) (nonce : Bytes) :
    b64Item (helloPayload cert nonce) "nonce" = some nonce := b64decode_b64encode nonce

theorem b64Item_preMasterCt (preMasterCt : Bytes) :
    b64Item (keyExchangePayload preMasterCt) "pre_master_ct" = some preMasterCt :=
  b64decode_b64encode preMasterCt

end Network

namespace Client

open Network

variable {P : Primitives} {me : Party} {subject : Option PyStr} {e : Exchange} {peer : Peer}
  {g : List Ev}

theorem KeySent.unsigned (h : KeySent P me subject e peer g) : Unsigned g := by
  obtain ⟨hg⟩ := h
  simp only [unsigned_cons, Op.isSign, hg.unsigned, and_self]

/-- What the client has drawn, sent and encrypted. -/
theorem KeySent.events (h : KeySent P me subject e peer g) :
    ⟨.urandom NONCE_BYTES, .ok e.nonceC⟩ ∈ g ∧
      ⟨.send .HELLO (helloPayload me.cert e.nonceC), .ok ()⟩ ∈ g ∧
      ⟨.urandom PRE_MASTER_BYTES, .ok e.preMaster⟩ ∈ g ∧
      ⟨.oaepEncrypt peer.pem e.preMaster, .ok e.preMasterCt⟩ ∈ g ∧
      ⟨.send .KEY_EXCHANGE (keyExchangePayload e.preMasterCt), .ok ()⟩ ∈ g := by
  obtain ⟨hg⟩ := h
  obtain ⟨-, -, -, -, -, -⟩ := hg
  simp

/-- What the client has received. -/
theorem KeySent.hello (h : KeySent P me subject e peer g) : ∃ msg env,
    ⟨.recv, .ok msg⟩ ∈ g ∧ validateEnvelope (.obj msg) = .ok env ∧
      parseHello "server" env.payload = .ok (.obj peer.cert, e.nonceS) ∧
      certPem peer.cert = .ok peer.pem := by
  obtain ⟨hg⟩ := h
  obtain ⟨henv, -, hparse, -, -, hpem⟩ := hg
  exact ⟨_, _, by simp, henv, hparse, hpem⟩

theorem KeySent.transcriptShown (h : KeySent P me subject e peer g) : TranscriptShown e g := by
  obtain ⟨-, hsent, -, -, hct⟩ := h.events
  obtain ⟨msg, env, hmsg, henv, hparse, -⟩ := h.hello
  exact ⟨shownIn_send hsent (b64Item_nonce _ _),
    shownIn_recv hmsg henv (b64Item_of_parseHello hparse), shownIn_send hct (b64Item_preMasterCt _)⟩

/-- A history is of one exchange. -/
theorem KeySent.unique {e' : Exchange} {peer' : Peer} (h : KeySent P me subject e peer g)
    (h' : KeySent P me subject e' peer' g) : e = e' := by
  obtain ⟨nonceC, nonceS, preMasterCt, preMaster⟩ := e
  obtain ⟨nonceC', nonceS', preMasterCt', preMaster'⟩ := e'
  generalize hl : g = l at h'
  obtain ⟨hg⟩ := h
  obtain ⟨henv, -, hparse, -, -, -⟩ := hg
  obtain ⟨hg⟩ := h'
  obtain ⟨henv', -, hparse', -, -, -⟩ := hg
  simp only [List.cons.injEq, Event.mk.injEq, Op.oaepEncrypt.injEq, Except.ok.injEq, heq_eq_eq,
    true_and, and_true] at hl
  obtain ⟨-, ⟨⟨-, rfl⟩, rfl⟩, -, -, rfl, -, rfl⟩ := hl
  obtain rfl := Except.ok.inj (henv.symm.trans henv')
  obtain ⟨-, rfl⟩ := Prod.mk.inj (Except.ok.inj (hparse.symm.trans hparse'))
  rfl

end Client

namespace Network

open Server.Handshake (Proven)

section

variable {P : Primitives} {me : Party} {e : Exchange} {peer : Peer} {transcript : Bytes}
  {g : List Ev}

/-- What the server has drawn, sent, received and decrypted. -/
theorem events_of_proven (h : Proven P me e peer transcript g) :
    ⟨.urandom NONCE_BYTES, .ok e.nonceS⟩ ∈ g ∧
      ⟨.send .HELLO (helloPayload me.cert e.nonceS), .ok ()⟩ ∈ g ∧
      rsaOaepDecrypt P me.privPem me.password e.preMasterCt = .ok e.preMaster ∧
      (∃ msg env, ⟨.recv, .ok msg⟩ ∈ g ∧ validateEnvelope (.obj msg) = .ok env ∧
        parseHello "client" env.payload = .ok (.obj peer.cert, e.nonceC)) ∧
      ∃ msg env, ⟨.recv, .ok msg⟩ ∈ g ∧ validateEnvelope (.obj msg) = .ok env ∧
        b64Item env.payload "pre_master_ct" = some e.preMasterCt := by
  obtain ⟨hg, -, -, -, -, -⟩ := h
  obtain ⟨hg, henv, -, hct, hdec, -⟩ := hg
  obtain ⟨henv', -, hparse, -, -, -⟩ := hg
  exact ⟨by simp, by simp, hdec, ⟨_, _, by simp, henv', hparse⟩, _, _, by simp, henv, hct⟩

/-- The proof that the server has received. -/
theorem proof_of_proven (h : Proven P me e peer transcript g) :
    buildTranscriptHash P e.nonceC e.nonceS e.preMasterCt = .ok transcript ∧
      certPem peer.cert = .ok peer.pem ∧ ∃ msg env sig, ⟨.recv, .ok msg⟩ ∈ g ∧
        validateEnvelope (.obj msg) = .ok env ∧ b64Item env.payload "signature" = some sig ∧
        rsaVerify P peer.pem transcript sig = .ok true := by
  obtain ⟨hg, htranscript, henv, -, hsig, hverify⟩ := h
  obtain ⟨hg, -, -, -, -, -⟩ := hg
  obtain ⟨-, -, -, -, -, hpem⟩ := hg
  exact ⟨htranscript, hpem, _, _, _, by simp, henv, hsig, hverify⟩

theorem transcriptShown_of_proven (h : Proven P me e peer transcript g) : TranscriptShown e g := by
  obtain ⟨-, hsent, -, ⟨msg, env, hmsg, henv, hparse⟩, msg', env', hmsg', henv', hct⟩ :=
    events_of_proven h
  exact ⟨shownIn_recv hmsg henv (b64Item_of_parseHello hparse), shownIn_send hsent (b64Item_nonce _ _),
    shownIn_recv hmsg' henv' hct⟩

/-- A history is of one exchange. -/
theorem unique_of_proven {e' : Exchange} {peer' : Peer} {transcript' : Bytes}
    (h : Proven P me e peer transcript g) (h' : Proven P me e' peer' transcript' g) : e = e' := by
  obtain ⟨nonceC, nonceS, preMasterCt, preMaster⟩ := e
  obtain ⟨nonceC', nonceS', preMasterCt', preMaster'⟩ := e'
  generalize hl : g = l at h'
  obtain ⟨hg, -, -, -, -, -⟩ := h
  obtain ⟨hg, henv, -, hct, hdec, -⟩ := hg
  obtain ⟨hhello, -, hparse, -, -, -⟩ := hg
  obtain ⟨hg, -, -, -, -, -⟩ := h'
  obtain ⟨hg, henv', -, hct', hdec', -⟩ := hg
  obtain ⟨hhello', -, hparse', -, -, -⟩ := hg
  simp only [List.cons.injEq, Event.mk.injEq, Except.ok.injEq, heq_eq_eq, true_and,
    and_true] at hl
  obtain ⟨-, rfl, -, rfl, -, rfl⟩ := hl
  obtain rfl := Except.ok.inj (henv.symm.trans henv')
  obtain rfl := Except.ok.inj (hhello.symm.trans hhello')
  obtain rfl : preMasterCt = preMasterCt' := Option.some.inj (hct.symm.trans hct')
  obtain ⟨-, rfl⟩ := Prod.mk.inj (Except.ok.inj (hparse.symm.trans hparse'))
  obtain rfl : preMaster = preMaster' := Except.ok.inj (hdec.symm.trans hdec')
  rfl

end

/-! ## The two ends -/

/-- A job has returned a session. -/
def Finished (js : Jobs) (n : ℕ) (l : Label) (state : SessionState) : Prop :=
  ∃ h, js[n]? = some ⟨l, h, .pure (.ok (.session state))⟩

/-- A client that has sent its pre-master signs the transcript. -/
structure Proves (P : Primitives) (session : Client.Session) (subject : Option PyStr)
    (e : Exchange) (peer : Peer) (x : Item Op Op.Res Input Files Label) : Prop where
  label : x.label = .client session (.handshake subject)
  keySent : Client.KeySent P session.party subject e peer x.past
  signs : ∃ data, x.ev.op = .sign session.clientPrivPem session.clientPassword data ∧
    buildTranscriptHash P e.nonceC e.nonceS e.preMasterCt = .ok data

/-- A server that has the client's proof sends `SESSION_OK`. -/
structure Concludes (P : Primitives) (me : Party) (e : Exchange) (peer : Peer)
    (x : Item Op Op.Res Input Files Label) : Prop where
  label : x.label = .server me
  proven : ∃ data sig g, Proven P me e peer data g ∧
    x.past = ⟨.sign me.privPem me.password data, .ok sig⟩ :: g ∧
    x.ev.op = .send .SESSION_OK (proofPayload sig)

/-- Two sessions have one transcript hash, and the same keys. -/
structure Agree (a b : SessionState) : Prop where
  transcriptHash : a.transcriptHash = b.transcriptHash
  c2sKey : a.c2sKey = b.c2sKey
  s2cKey : a.s2cKey = b.s2cKey

theorem agree_state {P : Primitives} (e : Exchange) (peer peer' : Peer) :
    Agree (e.state P peer) (e.state P peer') := ⟨rfl, rfl, rfl⟩

/-- A history has one signature only. -/
theorem eq_of_signed_suffix (newer : List Ev) {g g' : List Ev} {a b : Ev} (ha : a.op.isSign = true)
    (hnewer : Unsigned newer) (hg' : Unsigned g') (h : a :: g <:+ newer ++ b :: g') :
    a = b ∧ g = g' := by
  obtain ⟨u, hu⟩ := h
  have hne : ∀ {l : List Ev}, Unsigned l → a ∉ l := by
    intro l hl hmem
    exact Bool.false_ne_true ((hl a hmem).symm.trans ha)
  rcases List.append_eq_append_iff.mp hu with ⟨m, hm, hrest⟩ | ⟨m, hm, hrest⟩
  · cases m with
    | nil => exact List.cons.inj hrest
    | cons c m =>
      obtain ⟨rfl, -⟩ := List.cons.inj hrest
      exact absurd (by simp [hm]) (hne hnewer)
  · cases m with
    | nil =>
      obtain ⟨hab, hg⟩ := List.cons.inj hrest
      exact ⟨hab.symm, hg.symm⟩
    | cons c m =>
      obtain ⟨-, hrest⟩ := List.cons.inj hrest
      exact absurd (by simp [hrest]) (hne hg')

section

variable {P : Primitives} {s₀ s : Files} {t : Trace} {js : Jobs}
  {x y : Item Op Op.Res Input Files Label} {session : Client.Session} {subject : Option PyStr}
  {me : Party} {e e' : Exchange} {peer peer' : Peer} {state : SessionState} {n : ℕ} {data : Bytes}

/-- A client that has returned a session has signed its transcript, and received a signature of
its peer's over it. -/
theorem proves_of_finished (hr : (endpoints P).Run s₀ t js s)
    (h : Finished js n (.client session (.handshake subject)) state) :
    ∃ e peer data, state = e.state P peer ∧
      buildTranscriptHash P e.nonceC e.nonceS e.preMasterCt = .ok data ∧
      (∃ x ∈ t, x.job = n ∧ Proves P session subject e peer x) ∧
      ∃ later y earlier msg env sig, t = later ++ y :: earlier ∧ y.ev = ⟨.recv, .ok msg⟩ ∧
        validateEnvelope (.obj msg) = .ok env ∧ b64Item env.payload "signature" = some sig ∧
        rsaVerify P peer.pem data sig = .ok true := by
  obtain ⟨h, hj⟩ := h
  obtain ⟨e, peer, hest, rfl⟩ :
      Label.Returned P (.client session (.handshake subject)) h (.session state) :=
    hr.post_of_finished code_guarantee hj
  obtain ⟨hsigned, henv, -, hsig, hverify⟩ := hest
  obtain ⟨hsent, hdata⟩ := hsigned
  have hsince : js[n]? = some ⟨_, [_, _] ++ _ :: _, _⟩ := hj
  obtain ⟨x, hx, hjob, hlabel, hev, hpast⟩ := hr.exists_item_of_hist_append hsince
  obtain ⟨later, y, earlier, ht, -, -, hy, -, -⟩ := hr.exists_item_of_hist hj
  exact ⟨e, peer, _, rfl, hdata, ⟨x, hx, hjob, hlabel, hpast ▸ hsent, _,
    congrArg Event.op hev, hdata⟩,
    later, y, earlier, _, _, _, ht, hy, henv, hsig, hverify⟩

/-- A server that has returned a session has sent `SESSION_OK`, after it had received a signature
of its peer's over the transcript. -/
theorem concludes_of_finished (hr : (endpoints P).Run s₀ t js s)
    (h : Finished js n (.server me) state) :
    ∃ e peer, state = e.state P peer ∧ ∃ x ∈ t, x.job = n ∧ Concludes P me e peer x := by
  obtain ⟨h, hj⟩ := h
  obtain ⟨e, peer, hest, rfl⟩ : Label.Returned P (.server me) h (.session state) :=
    hr.post_of_finished code_guarantee hj
  obtain ⟨hproven⟩ := hest
  obtain ⟨since, x, before, rfl, hjob, hlabel, hev, hpast, -⟩ := hr.exists_item_of_hist hj
  exact ⟨e, peer, rfl, x, by simp, hjob, hlabel, _, _, _, hproven, hpast, by rw [hev]⟩

/-- The session that a client returns is that of the exchange it has signed. -/
theorem Proves.agree (hr : (endpoints P).Run s₀ t js s) (hx : x ∈ t)
    (h : Proves P session subject e peer x) {l : Label} (hfin : Finished js x.job l state) :
    Agree (e.state P peer') state := by
  obtain ⟨h', hj⟩ := hfin
  obtain ⟨hlabel, hsuffix⟩ := hr.suffix_hist_of_item hx hj
  obtain rfl : Label.client session (.handshake subject) = l := h.label.symm.trans hlabel
  obtain ⟨e', peer', hest, rfl⟩ :
      Label.Returned P (.client session (.handshake subject)) h' (.session state) :=
    hr.post_of_finished code_guarantee hj
  obtain ⟨hsigned, -, -, -, -⟩ := hest
  obtain ⟨hsent, -⟩ := hsigned
  obtain ⟨data, hop, -⟩ := h.signs
  obtain ⟨-, hpast⟩ := eq_of_signed_suffix [_, _] (by rw [hop]; rfl)
    (by simp [Unsigned, Op.isSign]) hsent.unsigned hsuffix
  obtain rfl := h.keySent.unique (hpast ▸ hsent)
  exact agree_state ..

/-- The session that a server returns is that of the exchange it has concluded. -/
theorem Concludes.agree (hr : (endpoints P).Run s₀ t js s) (hx : x ∈ t)
    (h : Concludes P me e peer x) {l : Label} (hfin : Finished js x.job l state) :
    Agree (e.state P peer') state := by
  obtain ⟨h', hj⟩ := hfin
  obtain ⟨hlabel, hsuffix⟩ := hr.suffix_hist_of_item hx hj
  obtain rfl : Label.server me = l := h.label.symm.trans hlabel
  obtain ⟨e', peer', hest, rfl⟩ : Label.Returned P (.server me) h' (.session state) :=
    hr.post_of_finished code_guarantee hj
  obtain ⟨hproven'⟩ := hest
  obtain ⟨data, sig, g, hproven, hpast, -⟩ := h.proven
  rw [hpast] at hsuffix
  obtain ⟨-, rfl⟩ := eq_of_signed_suffix [_] rfl (by simp [Unsigned, Op.isSign])
    hproven'.unsigned ((List.suffix_cons _ _).trans hsuffix)
  obtain rfl := unique_of_proven hproven hproven'
  exact agree_state ..

/-! ## One transcript, one exchange -/

theorem mem_seen_of_shownIn (hr : (endpoints P).Run s₀ t js s) (hx : x ∈ t) {b : Bytes}
    (h : ShownIn x.past b) : b ∈ seen t := by
  obtain ⟨ev, hev, hb⟩ := h
  obtain ⟨later, y, earlier, rfl, -, -, rfl⟩ := hr.exists_of_mem_past hx hev
  exact mem_seen (by simp) hb

/-- **One transcript hash, one exchange**: the two nonces and the encrypted pre-master. -/
theorem same_of_transcript (hr : (endpoints P).Run s₀ t js s) (hcoll : CollisionFree P t)
    (hx : x ∈ t) (hy : y ∈ t) (hshown : TranscriptShown e x.past)
    (hshown' : TranscriptShown e' y.past)
    (h : buildTranscriptHash P e.nonceC e.nonceS e.preMasterCt = .ok data)
    (h' : buildTranscriptHash P e'.nonceC e'.nonceS e'.preMasterCt = .ok data) :
    e.nonceC = e'.nonceC ∧ e.nonceS = e'.nonceS ∧ e.preMasterCt = e'.preMasterCt := by
  obtain ⟨hlc, hls, -, hhash⟩ := (buildTranscriptHash_eq_ok P).mp h
  obtain ⟨hlc', hls', -, hhash'⟩ := (buildTranscriptHash_eq_ok P).mp h'
  have hinput : e.nonceC ++ e.nonceS ++ e.preMasterCt = e'.nonceC ++ e'.nonceS ++ e'.preMasterCt :=
    hcoll (.transcript (mem_seen_of_shownIn hr hx hshown.nonceC)
        (mem_seen_of_shownIn hr hx hshown.nonceS) (mem_seen_of_shownIn hr hx hshown.preMasterCt)
        hlc hls)
      (.transcript (mem_seen_of_shownIn hr hy hshown'.nonceC)
        (mem_seen_of_shownIn hr hy hshown'.nonceS) (mem_seen_of_shownIn hr hy hshown'.preMasterCt)
        hlc' hls') (hhash.trans hhash'.symm)
  rw [List.append_assoc, List.append_assoc] at hinput
  obtain ⟨hc, hrest⟩ := List.append_inj hinput (hlc.trans hlc'.symm)
  obtain ⟨hs, hct⟩ := List.append_inj hrest (hls.trans hls'.symm)
  exact ⟨hc, hs, hct⟩

theorem exchange_eq (hsame : e.nonceC = e'.nonceC ∧ e.nonceS = e'.nonceS ∧
    e.preMasterCt = e'.preMasterCt) (hpreMaster : e.preMaster = e'.preMaster) : e = e' := by
  obtain ⟨hc, hs, hct⟩ := hsame
  cases e
  cases e'
  simp_all only

/-- One nonce, one program. -/
theorem job_eq_of_drawn (hr : (endpoints P).Run s₀ t js s) (hfresh : FreshNonces t) (hx : x ∈ t)
    (hy : y ∈ t) {b : Bytes} (hbx : ⟨.urandom NONCE_BYTES, .ok b⟩ ∈ x.past)
    (hby : ⟨.urandom NONCE_BYTES, .ok b⟩ ∈ y.past) : x.job = y.job := by
  obtain ⟨_, x', _, hx', hxjob, -, hxev⟩ := hr.exists_of_mem_past hx hbx
  obtain ⟨_, y', _, hy', hyjob, -, hyev⟩ := hr.exists_of_mem_past hy hby
  have hjob := hfresh x' (by simp [hx']) y' (by simp [hy']) b hxev hyev
  exact hxjob.symm.trans (hjob.trans hyjob)

/-- Keys that `load_pem_private_key` gives out belong to their public keys. -/
def LoadsMatching (P : Primitives) : Prop :=
  ∀ pem password k, loadPrivate P pem password = .ok k → P.Matching k

/-- **The server decrypts what the client has encrypted for it.** -/
theorem preMaster_eq (hr : (endpoints P).Run s₀ t js s) (hmatch : LoadsMatching P) (hx : x ∈ t)
    (hsent : Client.KeySent P session.party subject e peer x.past) {k : RsaPrivateKey}
    (hk : loadPrivate P me.privPem me.password = .ok k) (hpub : loadPublic P peer.pem = .ok k.pub)
    {out : Bytes} (hdec : rsaOaepDecrypt P me.privPem me.password e.preMasterCt = .ok out) :
    out = e.preMaster := by
  obtain ⟨-, -, hdrawn, henc, -⟩ := hsent.events
  obtain ⟨_, d, _, hd, -, -, hdev⟩ := hr.exists_of_mem_past hx hdrawn
  obtain ⟨_, y, _, hy, -, -, hyev⟩ := hr.exists_of_mem_past hx henc
  have hlen : e.preMaster.length = AES_KEY_BYTES := by
    have hexec := hr.exec_eq (show d ∈ t by simp [hd])
    rw [hdev] at hexec
    obtain ⟨hoctets, -⟩ := Prod.mk.inj hexec
    rw [← Except.ok.inj hoctets, Input.length_octets]
    rfl
  have hexec := hr.exec_eq (show y ∈ t by simp [hy])
  rw [hyev] at hexec
  obtain ⟨pub, hpub', hct⟩ := bind_eq_ok.mp (Prod.mk.inj hexec).1
  obtain rfl := Except.ok.inj (hpub.symm.trans hpub')
  obtain ⟨k', hk', hdec⟩ := (rsaOaepDecrypt_eq_ok P).mp hdec
  obtain rfl := Except.ok.inj (hk.symm.trans hk')
  rw [← pure_eq_ok.mp hct, (hmatch _ _ _ hk).decrypt_encrypt _ _ hlen] at hdec
  exact (Option.some.inj hdec).symm

end

end Network
end ZeroTrust
