import ZeroTrust.Client.Download
import ZeroTrust.Client.Handshake

/-!
# What a client has done when it acts

For every client function, the operations it may issue after each of its own histories, and the
history of a returned result.  Nothing is assumed of the answers, so the peer and the network
are arbitrary.

* `Fetched`, `Packed`, `UploadStep`: an upload, up to the history with which it is signed.
* `Opened`, `DownloadStep`: a download; an acknowledgement and a write come after the response
  has been verified and decrypted.
* `RevokeStep`: a revocation.
* `KeySent`, `HandshakeStep`, `Established`: the client's end of the handshake.
-/

namespace ZeroTrust
namespace Client

open Python Effects Endpoint

variable {P : Primitives} {session : Session}

/-! ## Uploads -/

/-- The history with which a peer's certificate was fetched and verified. -/
inductive Fetched (P : Primitives) (ca : Bytes) (username : PyStr) (cert : Obj) :
    List Ev → Prop where
  | intro {msg : Obj} {env : Envelope} {now : ℤ} : validateEnvelope (.obj msg) = .ok env →
      env.type = .PUBKEY_RESPONSE → dictGet env.payload "cert" = some (.obj cert) →
      CertCheck P ca cert now (some username) →
      Fetched P ca username cert
        [⟨.time, .ok now⟩, ⟨.recv, .ok msg⟩,
          ⟨.send .GET_PUBKEY [(py "username", .str username)], .ok ()⟩]

/-- The history with which a file was read, encrypted and wrapped for its recipient. -/
inductive Packed (P : Primitives) (session : Session) (recipient : PyStr) (path : LocalPath)
    (expirationSeconds : ℤ) (plaintext : Bytes) (pkg : Package) : List Ev → Prop where
  | intro {cert : Obj} {pem aesKey aad : Bytes} {g older : List Ev} :
      Fetched P session.caPubkeyPem recipient cert g → certPem cert = .ok pem →
      fileAad pkg.fileId session.username recipient = .ok aad → pkg.recipient = recipient →
      aesKey.length = AES_KEY_BYTES →
      pkg.ciphertext = P.aesGcmEncrypt aesKey pkg.nonce plaintext aad →
      pkg.expiration = pkg.timestamp + expirationSeconds → Unsigned older →
      Packed P session recipient path expirationSeconds plaintext pkg
        (⟨.time, .ok pkg.timestamp⟩ :: ⟨.oaepEncrypt pem aesKey, .ok pkg.wrappedKey⟩ ::
          ⟨.urandom AES_NONCE_BYTES, .ok pkg.nonce⟩ :: ⟨.urandom AES_KEY_BYTES, .ok aesKey⟩ ::
          ⟨.uuid4, .ok pkg.fileId⟩ :: ⟨.readFile path, .ok plaintext⟩ :: (g ++ older))

/-- The payload of the upload of a package. -/
def Package.payload (pkg : Package) (signature : Bytes) : Obj :=
  uploadPayload pkg.fileId pkg.recipient pkg.ciphertext pkg.nonce pkg.wrappedKey signature
    pkg.timestamp pkg.expiration

/-- What an upload has done when it issues an operation. -/
inductive UploadStep (P : Primitives) (session : Session) (recipient : PyStr) (path : LocalPath)
    (expirationSeconds : ℤ) : List Ev → Op → Prop where
  | other {g : List Ev} {o : Op} : Unsigned g → o.isSign = false →
      UploadStep P session recipient path expirationSeconds g o
  | sign {plaintext data : Bytes} {pkg : Package} {g : List Ev} :
      Packed P session recipient path expirationSeconds plaintext pkg g →
      originCanonical P (pkg.origin P session.username) = .ok data →
      UploadStep P session recipient path expirationSeconds g
        (.sign session.clientPrivPem session.clientPassword data)
  | send {plaintext data sig : Bytes} {pkg : Package} {g : List Ev} :
      Packed P session recipient path expirationSeconds plaintext pkg g →
      originCanonical P (pkg.origin P session.username) = .ok data →
      UploadStep P session recipient path expirationSeconds
        (⟨.sign session.clientPrivPem session.clientPassword data, .ok sig⟩ :: g)
        (.send .UPLOAD_REQUEST (pkg.payload sig))
  | recv {g : List Ev} : UploadStep P session recipient path expirationSeconds g .recv

/-- The history of an upload that was answered with `UPLOAD_ACK`. -/
inductive Uploaded (P : Primitives) (session : Session) (recipient : PyStr) (path : LocalPath)
    (expirationSeconds : ℤ) : List Ev → Prop where
  | intro {plaintext data sig : Bytes} {pkg : Package} {msg : Obj} {env : Envelope}
      {g : List Ev} : Packed P session recipient path expirationSeconds plaintext pkg g →
      originCanonical P (pkg.origin P session.username) = .ok data →
      validateEnvelope (.obj msg) = .ok env → env.type = .UPLOAD_ACK →
      Uploaded P session recipient path expirationSeconds
        (⟨.recv, .ok msg⟩ :: ⟨.send .UPLOAD_REQUEST (pkg.payload sig), .ok ()⟩ ::
          ⟨.sign session.clientPrivPem session.clientPassword data, .ok sig⟩ :: g)

theorem Fetched.unsigned {ca : Bytes} {username : PyStr} {cert : Obj} {g : List Ev}
    (h : Fetched P ca username cert g) : Unsigned g := by
  obtain ⟨-, -, -, -⟩ := h
  simp [Unsigned, Op.isSign]

theorem Packed.unsigned {recipient : PyStr} {path : LocalPath} {expirationSeconds : ℤ}
    {plaintext : Bytes} {pkg : Package} {g : List Ev}
    (h : Packed P session recipient path expirationSeconds plaintext pkg g) : Unsigned g := by
  obtain ⟨hf, -, -, -, -, -, -, ho⟩ := h
  simp only [unsigned_cons, unsigned_append, Op.isSign, hf.unsigned, ho, and_self]

theorem wpE_fetchPeerCert {A : List Ev → Op → Prop} {older : List Ev} {username : PyStr}
    {Q : List Ev → Except PyExn Obj → Prop} (holder : Unsigned older)
    (hA : ∀ g o, Unsigned g → o.isSign = false → A g o)
    (hok : ∀ g cert, Fetched P session.caPubkeyPem username cert g → Q (g ++ older) (.ok cert))
    (hraise : ∀ g x, Q g (.error x)) :
    wpE (.isolated A) (fetchPeerCert P session username) older Q := by
  rw [fetchPeerCert, wpE_bind]
  refine wpE_request (hA _ _ holder rfl) (hA _ _ (unsigned_cons.mpr ⟨rfl, holder⟩) rfl)
    (fun msg env henv htype => ?_) fun g x => hraise g x
  dsimp only
  have hquiet : Unsigned (⟨.recv, .ok msg⟩ ::
      ⟨.send .GET_PUBKEY [(py "username", .str username)], .ok ()⟩ :: older) :=
    unsigned_cons.mpr ⟨rfl, unsigned_cons.mpr ⟨rfl, holder⟩⟩
  cases hc : dictGet env.payload "cert" with
  | none => exact hraise _ _
  | some v =>
    cases v with
    | obj cert =>
      refine wpE_verify (hA _ _ hquiet rfl) (fun c now hcert hcheck => ?_) (fun g _ => ?_)
        fun g x _ => hraise g x
      · obtain rfl := Json.obj.inj hcert
        exact hok _ _ (.intro henv htype hc hcheck)
      · exact hraise _ _
    | _ => exact hraise _ _

theorem wpE_encryptFileBlob {A : List Ev → Op → Prop} {older : List Ev} {plaintext : Bytes}
    {fileId sender recipient : PyStr} {Q : List Ev → Except PyExn (Bytes × Bytes × Bytes) → Prop}
    (hA : ∀ n, A older (.urandom n))
    (hA' : ∀ n key, A (⟨.urandom AES_KEY_BYTES, .ok key⟩ :: older) (.urandom n))
    (hok : ∀ key nonce aad, key.length = AES_KEY_BYTES →
      fileAad fileId sender recipient = .ok aad →
      Q (⟨.urandom AES_NONCE_BYTES, .ok nonce⟩ :: ⟨.urandom AES_KEY_BYTES, .ok key⟩ :: older)
        (.ok (nonce, P.aesGcmEncrypt key nonce plaintext aad, key)))
    (hraise : ∀ g x, Q g (.error x)) :
    wpE (.isolated A) (encryptFileBlob P plaintext fileId sender recipient) older Q := by
  rw [encryptFileBlob, wpE_act_bind]
  refine ⟨hA _, fun x => hraise _ x, fun key => ?_⟩
  rw [wpE_bind, wpE_raising]
  cases haad : fileAad fileId sender recipient with
  | error x => exact hraise _ x
  | ok aad =>
    dsimp only
    rw [aesGcmEncrypt]
    by_cases hlen : key.length = AES_KEY_BYTES
    · rw [if_neg (not_not.mpr hlen), wpE_bind, wpE_act_bind]
      exact ⟨hA' _ key, fun x => hraise _ x, fun nonce => hok key nonce aad hlen haad⟩
    · rw [if_pos hlen]
      exact hraise _ _

section

variable {recipient : PyStr} {path : LocalPath} {expirationSeconds : ℤ}

theorem wpE_buildPackage {cert : Obj} {plaintext : Bytes} {g older : List Ev}
    (hg : Fetched P session.caPubkeyPem recipient cert g) (holder : Unsigned older) :
    wpE (.isolated (UploadStep P session recipient path expirationSeconds))
      (buildPackage P session cert recipient plaintext expirationSeconds)
      (⟨.readFile path, .ok plaintext⟩ :: (g ++ older))
      fun h r => ∀ pkg, r = .ok pkg →
        Packed P session recipient path expirationSeconds plaintext pkg h := by
  have hquiet : Unsigned (⟨.readFile path, .ok plaintext⟩ :: (g ++ older)) :=
    unsigned_cons.mpr ⟨rfl, unsigned_append.mpr ⟨hg.unsigned, holder⟩⟩
  rw [buildPackage, wpE_act_bind]
  refine ⟨.other hquiet rfl, fun x => nofun, fun fileId => ?_⟩
  have hid : Unsigned (⟨.uuid4, .ok fileId⟩ :: ⟨.readFile path, .ok plaintext⟩ :: (g ++ older)) :=
    unsigned_cons.mpr ⟨rfl, hquiet⟩
  rw [wpE_bind]
  refine wpE_encryptFileBlob (fun n => .other hid rfl)
    (fun n key => .other (unsigned_cons.mpr ⟨rfl, hid⟩) rfl)
    (fun key nonce aad hlen haad => ?_) fun g x => nofun
  have hdrawn : Unsigned (⟨.urandom AES_NONCE_BYTES, .ok nonce⟩ ::
      ⟨.urandom AES_KEY_BYTES, .ok key⟩ :: ⟨.uuid4, .ok fileId⟩ ::
        ⟨.readFile path, .ok plaintext⟩ :: (g ++ older)) :=
    unsigned_cons.mpr ⟨rfl, unsigned_cons.mpr ⟨rfl, hid⟩⟩
  dsimp only
  rw [wpE_bind, wrapAesKeyFor, if_neg (not_not.mpr hlen), wpE_bind, wpE_raising]
  cases hpem : certPem cert with
  | error x => exact nofun
  | ok pem =>
    refine wpE_act.mpr ⟨.other hdrawn rfl, fun r => ?_⟩
    rcases r with x | wrapped
    · exact nofun
    · dsimp only
      rw [wpE_act_bind]
      refine ⟨.other (unsigned_cons.mpr ⟨rfl, hdrawn⟩) rfl, fun x => nofun, fun now => ?_⟩
      rintro pkg ⟨⟩
      exact .intro hg hpem haad rfl hlen rfl rfl holder

/-- What an upload does: it signs what it has packed, and sends it. -/
theorem upload_guarantee :
    wpE (.isolated (UploadStep P session recipient path expirationSeconds))
      (uploadFile P session recipient path expirationSeconds) []
      fun h r => ∀ reply, r = .ok reply →
        Uploaded P session recipient path expirationSeconds h := by
  rw [uploadFile, wpE_act_bind]
  refine ⟨.other unsigned_nil rfl, fun x => nofun, fun there => ?_⟩
  have hfile : Unsigned [⟨.isFile path, .ok there⟩] := unsigned_cons.mpr ⟨rfl, unsigned_nil⟩
  cases there with
  | false => exact nofun
  | true =>
    show wpE _ (act (Op.statSize path) >>= _) _ _
    rw [wpE_act_bind]
    refine ⟨.other hfile rfl, fun x => nofun, fun size => ?_⟩
    have hsize : Unsigned [⟨.statSize path, .ok size⟩, ⟨.isFile path, .ok true⟩] :=
      unsigned_cons.mpr ⟨rfl, hfile⟩
    by_cases hlarge : MAX_MESSAGE_BYTES < size
    · rw [if_pos hlarge]
      exact nofun
    · rw [if_neg hlarge]
      show wpE _ (fetchPeerCert P session recipient >>= _) _ _
      rw [wpE_bind]
      refine wpE_fetchPeerCert hsize (fun g o => .other) (fun g cert hg => ?_) fun g x => nofun
      dsimp only
      rw [wpE_act_bind]
      refine ⟨.other (unsigned_append.mpr ⟨hg.unsigned, hsize⟩) rfl, fun x => nofun,
        fun plaintext => ?_⟩
      rw [wpE_bind]
      refine wpE_mono _ (wpE_buildPackage hg hsize) fun h r hr => ?_
      rcases r with x | pkg
      · exact nofun
      · have hpkg := hr pkg rfl
        dsimp only
        rw [wpE_bind, wpE_raising]
        cases hdata : originCanonical P (pkg.origin P session.username) with
        | error x => exact nofun
        | ok data =>
          dsimp only
          rw [wpE_act_bind]
          refine ⟨.sign hpkg hdata, fun x => nofun, fun sig => ?_⟩
          refine wpE_request (.send hpkg hdata) .recv (fun msg env henv htype => ?_)
            fun g x => nofun
          exact fun _ _ => .intro hpkg hdata henv htype

end

/-! ## Revocations -/

/-- What a revocation has done when it issues an operation. -/
inductive RevokeStep (P : Primitives) (session : Session) (fileId : PyStr) :
    List Ev → Op → Prop where
  | other {g : List Ev} {o : Op} : Unsigned g → o.isSign = false →
      RevokeStep P session fileId g o
  | sign {ts : ℤ} {data : Bytes} : revokeCanonical P session.username fileId (.int ts) = .ok data →
      RevokeStep P session fileId [⟨.time, .ok ts⟩]
        (.sign session.clientPrivPem session.clientPassword data)
  | send {ts : ℤ} {data sig : Bytes} :
      RevokeStep P session fileId
        [⟨.sign session.clientPrivPem session.clientPassword data, .ok sig⟩, ⟨.time, .ok ts⟩]
        (.send .REVOKE_REQUEST (signedPayload fileId ts sig))
  | recv {g : List Ev} : RevokeStep P session fileId g .recv

theorem revoke_guarantee {fileId : PyStr} :
    wpE (.isolated (RevokeStep P session fileId)) (revokeFile P session fileId) []
      fun _ _ => True := by
  unfold revokeFile
  by_cases hnil : fileId = []
  · rw [if_pos hnil]
    trivial
  · rw [if_neg hnil]
    show wpE _ (act Op.time >>= _) _ _
    rw [wpE_act_bind]
    refine ⟨.other unsigned_nil rfl, fun x => trivial, fun ts => ?_⟩
    rw [wpE_bind, wpE_raising]
    cases hdata : revokeCanonical P session.username fileId (.int ts) with
    | error x => trivial
    | ok data =>
      dsimp only
      rw [wpE_act_bind]
      refine ⟨.sign hdata, fun x => trivial, fun sig => ?_⟩
      exact wpE_request .send .recv (fun _ _ _ _ => trivial) fun _ _ => trivial

/-! ## Downloads -/

/-- The history with which a response was verified and decrypted. -/
inductive Opened (P : Primitives) (session : Session) (fileId : PyStr) (resp : Response)
    (plaintext : Bytes) : List Ev → Prop where
  | intro {msg : Obj} {env : Envelope} {now : ℤ} : validateEnvelope (.obj msg) = .ok env →
      env.type = .DOWNLOAD_RESPONSE → parseDownload P env.payload (some fileId) = .ok resp →
      CertCheck P session.caPubkeyPem resp.senderCert now (some resp.sender) →
      openResponse P session resp = .ok plaintext →
      Opened P session fileId resp plaintext
        [⟨.time, .ok now⟩, ⟨.recv, .ok msg⟩,
          ⟨.send .DOWNLOAD_REQUEST [(py "file_id", .str fileId)], .ok ()⟩]

/-- The operations of `_atomic_write` of a download. -/
inductive Writing (session : Session) (fileId : PyStr) (plaintext : Bytes) : Op → Prop where
  | makeParent : Writing session fileId plaintext
      (.makeParent (downloadPath session.username fileId))
  | writeFile : Writing session fileId plaintext
      (.writeFile (downloadTmpPath session.username fileId) plaintext)
  | replace : Writing session fileId plaintext
      (.replace (downloadTmpPath session.username fileId)
        (downloadPath session.username fileId))
  | unlink : Writing session fileId plaintext
      (.unlink (downloadTmpPath session.username fileId))

/-- What a download has done when it issues an operation. -/
inductive DownloadStep (P : Primitives) (session : Session) (fileId : PyStr) :
    List Ev → Op → Prop where
  | request : DownloadStep P session fileId []
      (.send .DOWNLOAD_REQUEST [(py "file_id", .str fileId)])
  | recv {g : List Ev} : DownloadStep P session fileId g .recv
  | time {g : List Ev} : DownloadStep P session fileId g .time
  | sign {resp : Response} {plaintext data : Bytes} {ts : ℤ} {g : List Ev} :
      Opened P session fileId resp plaintext g → ackCanonical P fileId (.int ts) = .ok data →
      DownloadStep P session fileId (⟨.time, .ok ts⟩ :: g)
        (.sign session.clientPrivPem session.clientPassword data)
  | acknowledge {resp : Response} {plaintext data sig : Bytes} {ts : ℤ} {g : List Ev} :
      Opened P session fileId resp plaintext g →
      DownloadStep P session fileId
        (⟨.sign session.clientPrivPem session.clientPassword data, .ok sig⟩ ::
          ⟨.time, .ok ts⟩ :: g)
        (.send .DOWNLOAD_ACK (signedPayload fileId ts sig))
  | write {resp : Response} {plaintext : Bytes} {g newer : List Ev} {o : Op} :
      Opened P session fileId resp plaintext g → Writing session fileId plaintext o →
      DownloadStep P session fileId (newer ++ g) o

section

variable {fileId : PyStr}

theorem wpE_verifyAndDecryptDownload {msg : Obj} {env : Envelope}
    (henv : validateEnvelope (.obj msg) = .ok env) (htype : env.type = .DOWNLOAD_RESPONSE) :
    wpE (.isolated (DownloadStep P session fileId))
      (verifyAndDecryptDownload P session env.payload (some fileId))
      [⟨.recv, .ok msg⟩, ⟨.send .DOWNLOAD_REQUEST [(py "file_id", .str fileId)], .ok ()⟩]
      fun g r => ∀ plaintext, r = .ok plaintext →
        ∃ resp, Opened P session fileId resp plaintext g := by
  rw [verifyAndDecryptDownload, wpE_bind, wpE_raising]
  cases hresp : parseDownload P env.payload (some fileId) with
  | error x => exact nofun
  | ok resp =>
    refine wpE_verify .time (fun c now hcert hcheck => ?_) (fun g _ => nofun) fun g x _ => nofun
    obtain rfl := Json.obj.inj hcert
    exact fun plaintext hopen => ⟨resp, .intro henv htype hresp hcheck hopen⟩

theorem wpE_acknowledge {resp : Response} {plaintext : Bytes} {g : List Ev}
    (hg : Opened P session fileId resp plaintext g) :
    wpE (.isolated (DownloadStep P session fileId)) (acknowledge P session fileId) g
      fun h _ => ∃ newer, h = newer ++ g := by
  rw [acknowledge, wpE_act_bind]
  refine ⟨.time, fun x => ⟨[_], rfl⟩, fun ts => ?_⟩
  rw [wpE_bind, wpE_raising]
  cases hdata : ackCanonical P fileId (.int ts) with
  | error x => exact ⟨[_], rfl⟩
  | ok data =>
    dsimp only
    rw [wpE_act_bind]
    refine ⟨.sign hg hdata, fun x => ⟨[_, _], rfl⟩, fun sig => ?_⟩
    rw [sendMessage, wpE_act_bind]
    refine ⟨.acknowledge hg, fun x => ⟨[_, _, _], rfl⟩, fun _ => ?_⟩
    rw [wpE_bind]
    refine wpE_recvEnvelope .recv (fun msg env _ => ?_) fun r x => ?_
    · exact ⟨[_, _, _, _], rfl⟩
    · exact ⟨[_, _, _, _], rfl⟩

theorem wpE_discardTmp {resp : Response} {plaintext : Bytes} {g newer : List Ev}
    (hg : Opened P session fileId resp plaintext g) :
    wpE (.isolated (DownloadStep P session fileId))
      (discardTmp (downloadTmpPath session.username fileId)) (newer ++ g) fun _ _ => True := by
  rw [discardTmp, wpE_bind, wpE_attempt, wpE_act]
  refine ⟨.write hg .unlink, fun r => ?_⟩
  rcases r with x | _
  · cases x <;> trivial
  · trivial

theorem wpE_atomicWrite {resp : Response} {plaintext : Bytes} {g newer : List Ev}
    (hg : Opened P session fileId resp plaintext g) :
    wpE (.isolated (DownloadStep P session fileId))
      (atomicWrite (downloadTmpPath session.username fileId) (downloadPath session.username fileId)
        plaintext) (newer ++ g) fun _ _ => True := by
  have hwrite : ∀ {o} newer, Writing session fileId plaintext o →
      DownloadStep P session fileId (newer ++ g) o := fun _ ho => .write hg ho
  have hdiscard : ∀ newer, wpE (.isolated (DownloadStep P session fileId))
      (discardTmp (downloadTmpPath session.username fileId)) (newer ++ g) fun _ _ => True :=
    fun _ => wpE_discardTmp hg
  rw [atomicWrite, wpE_act_bind]
  refine ⟨hwrite newer .makeParent, fun x => trivial, fun _ => ?_⟩
  rw [wpE_bind, wpE_attempt, writeAndReplace, wpE_act_bind]
  refine ⟨hwrite (_ :: newer) .writeFile, fun x => ?_, fun _ => ?_⟩
  · cases x with
    | osError => exact hdiscard (_ :: _ :: newer)
    | _ => trivial
  · rw [wpE_act]
    refine ⟨hwrite (_ :: _ :: newer) .replace, fun r => ?_⟩
    rcases r with x | _
    · cases x with
      | osError => exact hdiscard (_ :: _ :: _ :: newer)
      | _ => trivial
    · trivial

/-- What a download does: it acknowledges and writes only what it has verified and
decrypted. -/
theorem download_guarantee :
    wpE (.isolated (DownloadStep P session fileId)) (downloadFile P session fileId) []
      fun _ _ => True := by
  rw [downloadFile, wpE_bind]
  refine wpE_request .request .recv (fun msg env henv htype => ?_) fun g x => trivial
  dsimp only
  rw [wpE_bind]
  refine wpE_mono _ (wpE_verifyAndDecryptDownload henv htype) fun g r hr => ?_
  rcases r with x | plaintext
  · trivial
  · obtain ⟨resp, hg⟩ := hr plaintext rfl
    dsimp only
    rw [wpE_bind]
    refine wpE_mono _ (wpE_acknowledge hg) fun h r hr => ?_
    obtain ⟨newer, rfl⟩ := hr
    rcases r with x | _
    · trivial
    · dsimp only
      rw [wpE_bind]
      refine wpE_mono _ (wpE_atomicWrite hg) fun h r _ => ?_
      rcases r with x | _
      · trivial
      · trivial

end

end Client
end ZeroTrust
