import ZeroTrust.Client.Saving
import ZeroTrust.Network.Received
import ZeroTrust.Server.Acknowledgement

/-!
# The last copy of a file

A file leaves the server when the server gets the acknowledgement, and it comes to the client when
the client writes it.  The client acknowledges first.  Whatever the server is and whatever else it
does between the operations of the acknowledgement, and whatever the network and the local disk do,
the file is in one of the two places --- except where an acknowledgement that some server accepts
goes out, and something after it fails.

* `NothingLost`: a file that an operation of the acknowledgement moves to `downloaded`, in any
  interleaved run of a server, is at the client.
* `Loses`: the acknowledgement goes out, and the plaintext is not written.
* `nothingLost_iff`: the first is the failure of the second.
-/

namespace ZeroTrust
namespace Network

open Python Effects Endpoint Client

variable (P : Primitives) (session : Client.Session) (fileId : PyStr) (plaintext : Bytes)

/-- **Nothing is lost**: if in a run of some server, from whatever store and with whatever requests
and passes interleaved, an operation of an acknowledgement that this download has handed to the
network moves the file to `downloaded`, then the whole plaintext is at the client's output path. -/
def NothingLost (t : Alone) : Prop :=
  ∀ ca s₀ tr js s x payload, Server.Run P ca s₀ tr js s → x ∈ tr →
    Server.Consumes payload fileId x → Handed payload t.hist →
      t.store (downloadPath session.username fileId) = some plaintext

/-- **The download loses its plaintext**: an acknowledgement that some server accepts goes out, its
sending breaks off or its reply is not an envelope or a local write fails, and the file was not
there before. -/
structure Loses (s : Files) (inputs : ℕ → Input) : Prop where
  acknowledged : ∃ payload, Acknowledges P session fileId inputs payload ∧
    ∃ req, Server.Acceptable P payload req
  fails : ¬ Completes inputs
  absent : s (downloadPath session.username fileId) ≠ some plaintext

variable {P session fileId plaintext}

/-- What is read from an acknowledgement. -/
theorem fileId_of_acceptable {ts : ℤ} {sig : Bytes} {req : Server.SignedRequest}
    (h : Server.Acceptable P (signedPayload fileId ts sig) req) : req.fileId = fileId :=
  (Json.str.inj (Option.some.inj (Server.readFrom_of_parseSignedRequest h.parsed).fileId)).symm

/-- **A download keeps the last copy of its file unless it loses it.** -/
theorem nothingLost_iff {s : Files} {inputs : ℕ → Input}
    (h : ((Solo.start s inputs).run (exec P) (obtainPlaintext P session fileId).run).value =
      .ok plaintext) :
    NothingLost P session fileId plaintext
        ((Solo.start s inputs).run (exec P) (downloadFile P session fileId).run).solo ↔
      ¬ Loses P session fileId plaintext s fun n => inputs (n + 3) := by
  obtain ⟨hhanded, hkept⟩ := finished_downloadFile h
  have hfirst : ∀ {payload}, Handed payload
      ((Solo.start s inputs).run (exec P) (downloadFile P session fileId).run).solo.hist ↔
      Acknowledges P session fileId (fun n => inputs (n + 3)) payload := by
    intro payload
    refine (hhanded payload).trans (or_iff_right ?_)
    rintro ⟨_, hmem, -⟩
    exact List.not_mem_nil hmem
  constructor
  · rintro hnothing ⟨⟨payload, hack, req, hacc⟩, hfails, habsent⟩
    obtain ⟨ca, s₀, tr, js, s', x, hr, hx, hconsumes⟩ := hacc.exists_consumes
    obtain ⟨_, sig, -, -, hpayload⟩ := hack.signed
    rw [fileId_of_acceptable (hpayload ▸ hacc)] at hconsumes
    have hthere := hnothing ca s₀ tr js s' x payload hr hx hconsumes (hfirst.mpr hack)
    exact ((hkept _ hack).mp hthere).elim hfails habsent
  · intro hnot ca s₀ tr js s' x payload hr hx hconsumes hsent
    have hack := hfirst.mp hsent
    obtain ⟨req, hacc, -⟩ := hconsumes.acceptable hr hx
    by_contra hlost
    refine hnot ⟨⟨_, hack, req, hacc⟩, fun hc => ?_, fun hbefore => ?_⟩
    · exact hlost ((hkept _ hack).mpr (.inl hc))
    · exact hlost ((hkept _ hack).mpr (.inr hbefore))

/-! ## A sample download -/

/-- What is read from an acknowledgement of a file with a canonical id. -/
theorem parseSignedRequest_signedPayload {ts : ℤ} {sig : Bytes}
    (h : isCanonicalUuid fileId = true) :
    Server.parseSignedRequest (signedPayload fileId ts sig) = .ok ⟨fileId, .int ts, ts, sig⟩ := by
  have hid : Server.parseFileId (.str fileId) = .ok fileId :=
    Server.parseFileId_eq_ok.mpr ⟨rfl, h⟩
  have hsig : decodeB64Field (signedPayload fileId ts sig) "signature" = .ok sig :=
    decodeB64Field_eq_ok.mpr (b64decode_b64encode sig)
  have hfile : dictItem (signedPayload fileId ts sig) "file_id" = .ok (.str fileId) := rfl
  have htime : dictItem (signedPayload fileId ts sig) "timestamp" = .ok (.int ts) := rfl
  rw [Server.parseSignedRequest, hfile, ok_bind, htime, ok_bind, hid, ok_bind, hsig]
  rfl

/-- `bob` gets the file, and no reply to his acknowledgement. -/
def unanswered (n : ℕ) : Input :=
  if n = 1 then bringing .DOWNLOAD_RESPONSE
    (Server.downloadPayload (.str relayedId) relayedRow relayedPackage.ciphertext)
  else drawing 0

/-- What `bob` signs. -/
def unansweredText : Bytes := (ackCanonical relayPrimitives relayedId (.int 100)).toOption.getD []

/-- His signature. -/
def unansweredSignature : Bytes :=
  relayPrimitives.pssSign (.numbered 66) unansweredText ((drawing 0).octets 32)

theorem unanswered_checks :
    ((Solo.start (fun _ => none) unanswered).run (exec relayPrimitives)
      (obtainPlaintext relayPrimitives bob relayedId).run).value = .ok [7, 8, 9] ∧
    ackCanonical relayPrimitives relayedId (.int 100) = .ok unansweredText ∧
    (packMessage relayPrimitives (makeEnvelope .DOWNLOAD_ACK
      (signedPayload relayedId 100 unansweredSignature) ((drawing 0).octets 16) 100
      (uuidStr 0))).isOk = true ∧
    certSignatureOk relayPrimitives bob.clientCert [1] = .ok true ∧
    Server.verifyAck relayPrimitives bob.clientCert ⟨relayedId, .int 100, 100, unansweredSignature⟩ =
      .ok true := by
  decide +kernel

/-- No reply comes to `bob`'s acknowledgement: a server that has got it has given the file up, and
`bob` has not written it. -/
theorem not_nothingLost_unanswered :
    ¬ NothingLost relayPrimitives bob relayedId [7, 8, 9] ((Solo.start (fun _ => none)
      unanswered).run (exec relayPrimitives) (downloadFile relayPrimitives bob relayedId).run).solo := by
  obtain ⟨hobtained, hcanonical, hframe, hsigned, hverified⟩ := unanswered_checks
  rw [nothingLost_iff hobtained, not_not]
  refine ⟨⟨signedPayload relayedId 100 unansweredSignature,
    ⟨⟨unansweredText, unansweredSignature, hcanonical, rfl, rfl⟩, ?_⟩, _,
    parseSignedRequest_signedPayload (by decide +kernel), [1], bob.clientCert, 100, py "bob",
    ⟨hsigned, by decide +kernel, by decide +kernel⟩, hverified⟩, ?_, by simp⟩
  · show ∃ frame, packMessage relayPrimitives _ = .ok frame
    cases hpack : packMessage relayPrimitives (makeEnvelope .DOWNLOAD_ACK
        (signedPayload relayedId 100 unansweredSignature) ((drawing 0).octets 16) 100
        (uuidStr 0)) with
    | ok frame => exact ⟨frame, hpack⟩
    | error e =>
      rw [hpack] at hframe
      cases hframe
  · rintro ⟨-, ⟨-, msg, env, hmsg, -⟩, -⟩
    cases hmsg

end Network
end ZeroTrust
