import ZeroTrust.Client.Guarantee
import ZeroTrust.Client.HandshakeGuarantee
import ZeroTrust.Effects.Interleaving
import ZeroTrust.Server.HandshakeGuarantee

/-!
# Parties on a network

Any number of clients and of server handshakes run at the same time, over connections on which
an attacker delivers what it likes: a received message is an input of the run.  What the
attacker cannot do is said of the run as a whole.

* `Label`, `endpoints`: the programs of honest parties, and the system they form.
* `Label.Step`, `Label.Post`: what each program has done when it acts, and when it has ended;
  `code_guarantee`: the programs do so.
* `sign_inv`: what each program signs.
-/

namespace ZeroTrust
namespace Network

open Python Effects Endpoint

/-- What a client is run for. -/
inductive Activity where
  | upload (recipientUsername : PyStr) (filePath : LocalPath) (expirationSeconds : ℤ)
  | download (fileId : PyStr)
  | revoke (fileId : PyStr)
  | listPending
  | handshake (expectedServerSubject : Option PyStr)

/-- A party, and what it does. -/
inductive Label where
  | client (session : Client.Session) (activity : Activity)
  | server (me : Party)

/-- What a program returns. -/
inductive Outcome where
  | done
  | session (state : SessionState)

end Network

/-- What a session's user gives to the handshake. -/
def Client.Session.party (session : Client.Session) : Party where
  cert := session.clientCert
  privPem := session.clientPrivPem
  password := session.clientPassword
  caPubkeyPem := session.caPubkeyPem

namespace Network

open Python Effects Endpoint

/-- Whose key, certificate and trust anchor a program uses. -/
def Label.party : Label → Party
  | .client session _ => session.party
  | .server me => me

variable (P : Primitives)

/-- The program of a client. -/
def clientCode (session : Client.Session) : Activity → EndpointM Outcome
  | .upload recipient path expiration => do
      let _ ← Client.uploadFile P session recipient path expiration
      return .done
  | .download fileId => do
      let _ ← Client.downloadFile P session fileId
      return .done
  | .revoke fileId => do
      let _ ← Client.revokeFile P session fileId
      return .done
  | .listPending => do
      let _ ← Client.listPending P
      return .done
  | .handshake subject => do
      let state ← Client.performClientHandshake P session.party subject
      return .session state

/-- The program of a party. -/
def code : Label → EndpointM Outcome
  | .client session activity => clientCode P session activity
  | .server me => do
      let state ← Server.performServerHandshake P me
      return .session state

/-- The parties, over their local files. -/
def endpoints : System Op Op.Res Input Files Label (Except PyExn Outcome) where
  exec := exec P
  code l := (code P l).run

/-- The trace of a run of parties. -/
abbrev Trace := List (Item Op Op.Res Input Files Label)

/-- The jobs of a run of parties. -/
abbrev Jobs := List (Job Op Op.Res Label (Except PyExn Outcome))

/-! ## What the programs guarantee -/

/-- What a party has done when it issues an operation. -/
def Label.Step : Label → List Ev → Op → Prop
  | .client session (.upload recipient path expiration) =>
      Client.UploadStep P session recipient path expiration
  | .client session (.download fileId) => Client.DownloadStep P session fileId
  | .client session (.revoke fileId) => Client.RevokeStep P session fileId
  | .client _ .listPending => fun _ o => o.isSign = false
  | .client session (.handshake subject) => Client.HandshakeStep P session.party subject
  | .server me => Server.Handshake.HandshakeStep P me

/-- What a party has done when it has returned. -/
def Label.Returned : Label → List Ev → Outcome → Prop
  | .client session (.upload recipient path expiration), h, .done =>
      Client.Uploaded P session recipient path expiration h
  | .client session (.handshake subject), h, .session state =>
      ∃ e peer, Client.Established P session.party subject e peer h ∧ state = e.state P peer
  | .server me, h, .session state =>
      ∃ e peer, Server.Handshake.Established P me e peer h ∧ state = e.state P peer
  | _, _, .done => True
  | _, _, .session _ => False

/-- What a party has done when it has ended. -/
def Label.Post (l : Label) (h : List Ev) : Except PyExn Outcome → Prop
  | .ok o => l.Returned P h o
  | .error _ =>
      match l with
      | .server _ => Server.Handshake.Raised h
      | .client _ _ => True

variable {P}

/-- A program and what its result is wrapped in. -/
theorem wpE_wrap {α : Type} {A : List Ev → Op → Prop} {x : EndpointM α} {f : α → Outcome}
    {S : List Ev → Except PyExn α → Prop} {Q : List Ev → Except PyExn Outcome → Prop}
    (hx : wpE (.isolated A) x [] S) (hok : ∀ h a, S h (.ok a) → Q h (.ok (f a)))
    (herr : ∀ h e, S h (.error e) → Q h (.error e)) :
    wpE (.isolated A) (do let a ← x; return f a) [] Q := by
  rw [wpE_bind]
  refine wpE_mono _ hx fun h r hr => ?_
  rcases r with e | a
  · exact herr h e hr
  · exact hok h a hr

theorem listPending_guarantee :
    wpE (.isolated fun _ (o : Op) => o.isSign = false) (Client.listPending P) []
      fun _ _ => True := by
  rw [Client.listPending, wpE_bind]
  refine wpE_request rfl rfl (fun msg env _ _ => ?_) fun _ _ => trivial
  dsimp only
  cases dictGet env.payload "files" with
  | none => trivial
  | some v =>
    cases v with
    | arr files =>
      dsimp only
      split <;> trivial
    | _ => trivial

/-- **Every party's program does what its label says.** -/
theorem code_guarantee (l : Label) :
    (code P l).run.wp (.isolated (l.Step P)) [] (l.Post P) := by
  match l with
  | .client session (.upload recipient path expiration) =>
    exact wpE_wrap Client.upload_guarantee (fun h reply hr => hr reply rfl) fun _ _ _ => trivial
  | .client session (.download fileId) =>
    exact wpE_wrap Client.download_guarantee (fun _ _ _ => trivial) fun _ _ _ => trivial
  | .client session (.revoke fileId) =>
    exact wpE_wrap Client.revoke_guarantee (fun _ _ _ => trivial) fun _ _ _ => trivial
  | .client session .listPending =>
    exact wpE_wrap listPending_guarantee (fun _ _ _ => trivial) fun _ _ _ => trivial
  | .client session (.handshake subject) =>
    exact wpE_wrap Client.handshake_guarantee (fun h state hr => hr state rfl)
      fun _ _ _ => trivial
  | .server me =>
    exact wpE_wrap Server.Handshake.handshake_guarantee (fun _ _ hr => hr) fun _ _ hr => hr

/-! ## What the programs sign -/

/-- What a program signs after a history. -/
inductive Label.Signs (P : Primitives) : Label → List Ev → Bytes → Prop where
  | proof {session : Client.Session} {subject : Option PyStr} {e : Exchange} {peer : Peer}
      {data : Bytes} {g : List Ev} : Client.KeySent P session.party subject e peer g →
      buildTranscriptHash P e.nonceC e.nonceS e.preMasterCt = .ok data →
      Label.Signs P (.client session (.handshake subject)) g data
  | sessionOk {me : Party} {e : Exchange} {peer : Peer} {data : Bytes} {g : List Ev} :
      Server.Handshake.Proven P me e peer data g → Label.Signs P (.server me) g data
  | origin {session : Client.Session} {recipient : PyStr} {path : LocalPath} {expiration : ℤ}
      {plaintext data : Bytes} {pkg : Client.Package} {g : List Ev} :
      Client.Packed P session recipient path expiration plaintext pkg g →
      originCanonical P (pkg.origin P session.username) = .ok data →
      Label.Signs P (.client session (.upload recipient path expiration)) g data
  | revoke {session : Client.Session} {fileId : PyStr} {ts : ℤ} {data : Bytes} {g : List Ev} :
      revokeCanonical P session.username fileId (.int ts) = .ok data →
      Label.Signs P (.client session (.revoke fileId)) g data
  | ack {session : Client.Session} {fileId : PyStr} {ts : ℤ} {data : Bytes} {g : List Ev} :
      ackCanonical P fileId (.int ts) = .ok data →
      Label.Signs P (.client session (.download fileId)) g data

/-- **A party signs under its own key, and what it signs is one of the five.** -/
theorem sign_inv {l : Label} {g : List Ev} {pem password data : Bytes}
    (h : l.Step P g (.sign pem password data)) :
    pem = l.party.privPem ∧ password = l.party.password ∧ l.Signs P g data := by
  match l, h with
  | .client session (.upload recipient path expiration), h =>
    cases h with
    | other _ ho => cases ho
    | sign hpkg hdata => exact ⟨rfl, rfl, .origin hpkg hdata⟩
  | .client session (.download fileId), h =>
    cases h with
    | sign _ hdata => exact ⟨rfl, rfl, .ack hdata⟩
    | write _ ho => cases ho
  | .client session (.revoke fileId), h =>
    cases h with
    | other _ ho => cases ho
    | sign hdata => exact ⟨rfl, rfl, .revoke hdata⟩
  | .client session .listPending, h => cases h
  | .client session (.handshake subject), h =>
    cases h with
    | other _ ho => cases ho
    | sign hsent hdata => exact ⟨rfl, rfl, .proof hsent hdata⟩
  | .server me, h =>
    cases h with
    | other _ ho => cases ho
    | sign hproven => exact ⟨rfl, rfl, .sessionOk hproven⟩

end Network
end ZeroTrust
