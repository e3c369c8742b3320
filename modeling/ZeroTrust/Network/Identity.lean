import ZeroTrust.Network.Authentication

/-!
# Whom a transcript is with

The transcript hash covers the nonces and the encrypted pre-master, and no name.  An attacker
that has a certificate of its own can put it in the place of a client's, sign the client's
transcript with its own key, and so have the server take it for the client.  What it cannot do
is have the server take the client for another honest one.

* `SameClient`: the two ends of a transcript agree on the client.
* `client_of_transcript`: they do where the server's peer is honest.
* `not_sameClient_mallory`: they need not otherwise.
-/

namespace ZeroTrust
namespace Network

open Python Effects Endpoint

variable {P : Primitives} {s₀ s : Files} {t : Trace} {js : Jobs} {n m : ℕ}
  {session : Client.Session} {subject : Option PyStr} {me : Party} {key : RsaPublicKey}
  {state state' : SessionState}

/-- **One transcript hash, one client**: a client that has returned with an honest server, and a
server that has returned with the same transcript hash, agree on the client's name. -/
def SameClient (P : Primitives) (t : Trace) (js : Jobs) : Prop :=
  ∀ n m session subject me keyC keyS state state',
    Finished js n (.client session (.handshake subject)) state →
    Finished js m (.server me) state' → state.transcriptHash = state'.transcriptHash →
    (Label.client session (.handshake subject)).Holds P keyC → Unforgeable P keyC t →
    ClientKey P keyC t → certKey P state.peerCert = .ok keyS → (Label.server me).Holds P keyS →
    Unforgeable P keyS t → ServerKey P keyS t →
    dictGet session.clientCert "subject" = some state'.peerSubject

/-- A server returns what its peer's certificate names as the subject. -/
theorem peerSubject_of_finished (hr : (endpoints P).Run s₀ t js s)
    (hfin : Finished js n (.server me) state) :
    dictGet state.peerCert "subject" = some state.peerSubject := by
  obtain ⟨e, peer, rfl, x, hx, -, hconcl⟩ := concludes_of_finished hr hfin
  obtain ⟨data, sig, g, hproven, -, -⟩ := hconcl.proven
  obtain ⟨hg, -, -, -, -, -⟩ := hproven
  obtain ⟨hg, -, -, -, -, -⟩ := hg
  obtain ⟨-, -, -, -, hsubject, -⟩ := hg
  exact hsubject

/-- **Where the server's peer is honest, it is the client**: the key in the certificate that the
server has accepted is the client's own, and the two have the same keys.  So if the CA has
certified the client's key for no other subject, the server has the client's name. -/
theorem client_of_transcript (hr : (endpoints P).Run s₀ t js s)
    (hlen : ∀ b, (P.sha256 b).length = 32) (hcoll : CollisionFree P t) (hfresh : FreshNonces t)
    (hopens : OaepOpensOnly P t) (hmatch : LoadsMatching P)
    (hfin : Finished js n (.client session (.handshake subject)) state)
    (hfin' : Finished js m (.server me) state')
    (htranscript : state.transcriptHash = state'.transcriptHash)
    (hkey : certKey P state'.peerCert = .ok key) (hu : Unforgeable P key t)
    (hclient : ClientKey P key t) :
    (Label.client session (.handshake subject)).Holds P key ∧ Agree state state' ∧
      ((∀ k, loadPrivate P session.clientPrivPem session.clientPassword = .ok k →
          certKey P session.clientCert = .ok k.pub) →
        (certKey P session.clientCert = certKey P state'.peerCert →
          dictGet session.clientCert "subject" = dictGet state'.peerCert "subject") →
        dictGet session.clientCert "subject" = some state'.peerSubject) := by
  obtain ⟨e', peer', rfl, ⟨y, hy, -, hconcl⟩, z, hz, hholds, ⟨session', subject', peer'', hproves',
    -⟩, hagree⟩ := client_of_server hr hlen hcoll hopens hmatch hfin' hkey hu hclient
  obtain ⟨e, peer, data, rfl, hdata, ⟨x, hx, hxn, hproves⟩, -⟩ := proves_of_finished hr hfin
  obtain ⟨data', -, hdata'⟩ := hproves'.signs
  -- the two transcripts are the same, so the two proofs are of one run
  obtain rfl : data = data' := by
    obtain ⟨-, -, -, rfl⟩ := (buildTranscriptHash_eq_ok P).mp hdata
    obtain ⟨-, -, -, rfl⟩ := (buildTranscriptHash_eq_ok P).mp hdata'
    exact htranscript
  have hsame := same_of_transcript hr hcoll hx hz hproves.keySent.transcriptShown
    hproves'.keySent.transcriptShown hdata hdata'
  have hjob : z.job = n := by
    rw [← hxn]
    exact (job_eq_of_drawn hr hfresh hx hz hproves.keySent.events.1
      (hsame.1 ▸ hproves'.keySent.events.1)).symm
  have hfinz : Finished js z.job (.client session (.handshake subject)) (e.state P peer) :=
    hjob ▸ hfin
  have hstate := hagree _ _ hfinz
  obtain ⟨h, hj⟩ := hfinz
  have hlabel : z.label = .client session (.handshake subject) := (hr.mem_hist_of_item hz hj).1
  rw [hlabel] at hholds
  refine ⟨hholds, ⟨hstate.1.symm, hstate.2.symm, hstate.3.symm⟩, fun hown hone => ?_⟩
  obtain ⟨k, hk, rfl⟩ := hholds
  rw [hone ((hown k hk).trans hkey.symm)]
  exact peerSubject_of_finished hr hfin'

theorem certKey_alice : certKey plainPrimitives alice.clientCert = .ok (.numbered 65) := rfl

theorem subject_alice : dictGet alice.clientCert "subject" = some (.str (py "alice")) := by
  decide +kernel

theorem holds_alice {activity : Activity} :
    (Label.client alice activity).Holds plainPrimitives (.numbered 65) :=
  ⟨.numbered 65, rfl, rfl⟩

/-- Where `alice`'s own certificate and proof reach the server, it has her name. -/
theorem sameName_alice : ∃ state',
    Finished (handshakeRun alice 65).jobs 1 (.server server) state' ∧
      dictGet alice.clientCert "subject" = some state'.peerSubject := by
  obtain ⟨hsessions, hassumed⟩ := handshakeRun_alice
  have hr := run_handshakeRun alice 65
  have ha := assumed_of_eq_true hr hassumed
  obtain ⟨state, hfin, -, -, htranscript⟩ := finished_of_sessions
    (show (sessions (handshakeRun alice 65).jobs)[0]? = some (some (_, some _, _, _)) by
      rw [hsessions]
      rfl)
  obtain ⟨state', hfin', hkey, hname, htranscript'⟩ := finished_of_sessions
    (show (sessions (handshakeRun alice 65).jobs)[1]? = some (some (_, some _, _, _)) by
      rw [hsessions]
      rfl)
  obtain ⟨-, -, hsame⟩ := client_of_transcript hr (fun _ => length_octetsOf 32 _) ha.collisionFree
    ha.freshNonces ha.opensOnly loadsMatching_plain hfin hfin'
    (htranscript.trans htranscript'.symm) hkey ha.unforgeable ha.clientKey
  refine ⟨state', hfin', hsame (fun k hk => ?_) fun _ => ?_⟩
  · obtain ⟨n, hn, rfl⟩ := rolling_loadPrivate hk
    obtain rfl : 65 = n := (List.cons.inj hn).1
    exact certKey_alice
  · rw [peerSubject_of_finished hr hfin', hname, subject_alice]

/-! ## An attack -/

/-- `mallory` has the key `M`. -/
def mallory : Client.Session := sampleUser "mallory" "M"

theorem handshakeRun_mallory :
    sessions (handshakeRun mallory 77).jobs =
      [some (.client alice (.handshake (some (py "server"))), some (.numbered 83),
          .str (py "server"), sampleTranscript),
        some (.server server, some (.numbered 77), .str (py "mallory"), sampleTranscript)] ∧
    assumed (handshakeRun mallory 77).trace = true := by
  decide +kernel

/-- `mallory` puts her certificate and her signature in the place of `alice`'s, and the server
takes her for the client of `alice`'s transcript. -/
theorem not_sameClient_mallory : Assumed (handshakeRun mallory 77).trace ∧
    ¬ SameClient plainPrimitives (handshakeRun mallory 77).trace (handshakeRun mallory 77).jobs := by
  obtain ⟨hsessions, hassumed⟩ := handshakeRun_mallory
  have ha := assumed_of_eq_true (run_handshakeRun mallory 77) hassumed
  refine ⟨ha, fun hsame => ?_⟩
  obtain ⟨state, hfin, hkey, -, htranscript⟩ := finished_of_sessions
    (show (sessions (handshakeRun mallory 77).jobs)[0]? = some (some (_, some _, _, _)) by
      rw [hsessions]
      rfl)
  obtain ⟨state', hfin', -, hname, htranscript'⟩ := finished_of_sessions
    (show (sessions (handshakeRun mallory 77).jobs)[1]? = some (some (_, some _, _, _)) by
      rw [hsessions]
      rfl)
  have hsubject := hsame _ _ _ _ _ _ _ _ _ hfin hfin' (htranscript.trans htranscript'.symm)
    holds_alice ha.unforgeable ha.clientKey hkey ⟨.numbered 83, rfl, rfl⟩ ha.unforgeable'
    ha.serverKey
  rw [subject_alice, hname] at hsubject
  exact absurd hsubject (by decide)

end Network
end ZeroTrust
