import ZeroTrust.Network.Received
import ZeroTrust.Server.Delivery
import ZeroTrust.Server.Evidence
import ZeroTrust.Server.Listing
import ZeroTrust.Server.Resting

/-!
# From one user to another

A file passes through six hands: the sender packs it, the wire carries it, the server checks and
stores it, the file waits there, the server builds a response, and the recipient checks and opens
it.  They spell the same things differently, and agree on them: what comes out is what went in.

* `certCheck_of_same`: the certificate that is stored is as good as the one that was sent.
* `Sealed`: what an upload has made, for the keys of its two ends.
* `open_sealed`: the recipient opens what the server has stored of it.
* `round_trip`: a file that was uploaded and left alone is listed, and comes out as it went in.
-/

namespace ZeroTrust

open Python Effects

/-! ## Certificates that are read back -/

/-- Pairs that agree item by item agree without some of the keys. -/
theorem filter_items {items items' : Obj} (p : PyStr → Bool)
    (hkeys : items.map Prod.fst = items'.map Prod.fst)
    (hvals : List.Forall₂ Json.Same (items.map Prod.snd) (items'.map Prod.snd)) :
    (items.filter fun x => p x.1).map Prod.fst = (items'.filter fun x => p x.1).map Prod.fst ∧
      List.Forall₂ Json.Same ((items.filter fun x => p x.1).map Prod.snd)
        ((items'.filter fun x => p x.1).map Prod.snd) := by
  induction items generalizing items' with
  | nil =>
    obtain rfl := List.map_eq_nil_iff.mp hkeys.symm
    exact ⟨rfl, .nil⟩
  | cons x items ih =>
    cases items' with
    | nil => cases hkeys
    | cons y items' =>
      obtain ⟨hkey, hkeys⟩ := List.cons.inj hkeys
      obtain ⟨hval, hvals⟩ := List.forall₂_cons.mp hvals
      obtain ⟨h1, h2⟩ := ih hkeys hvals
      have hkey : x.1 = y.1 := hkey
      rw [List.filter_cons, List.filter_cons, hkey]
      split_ifs
      · rw [List.map_cons, List.map_cons, List.map_cons, List.map_cons, h1, hkey]
        exact ⟨rfl, .cons hval h2⟩
      · exact ⟨h1, h2⟩

theorem Python.Json.Same.filter {fields fields' : Obj} (p : PyStr → Bool)
    (h : (Json.obj fields).Same (.obj fields')) :
    (Json.obj (fields.filter fun x => p x.1)).Same (.obj (fields'.filter fun x => p x.1)) := by
  cases h with
  | obj hleft hkeys hvals hright =>
    obtain ⟨hkeys, hvals⟩ := filter_items p hkeys hvals
    exact .obj (hleft.filter _) hkeys hvals (hright.filter _)

section

variable {v w : Json}

theorem asStr_of_same (h : v.Same w) : v.asStr = w.asStr := by cases h <;> rfl

theorem leInt_of_same {now : ℤ} (h : v.Same w) : v.leInt now = w.leInt now := by cases h <;> rfl

theorem geInt_of_same {now : ℤ} (h : v.Same w) : v.geInt now = w.geInt now := by cases h <;> rfl

end

section

variable {P : Primitives} {text : PyStr → Prop} {cert cert' : Obj}

/-- What reads only one item of an object, and the same values in the same way, reads the same. -/
theorem dictItem_bind_of_same {α : Type} {f : Json → Except PyExn α} (key : String)
    (hf : ∀ {v w : Json}, v.Same w → f v = f w) (h : (Json.obj cert).Same (.obj cert'))
    (hnodup : (cert.map Prod.fst).Nodup) : (dictItem cert key >>= f) = (dictItem cert' key >>= f) := by
  have hitem := h.lookup hnodup (py key)
  unfold dictItem dictGet
  generalize cert.lookup (py key) = v, cert'.lookup (py key) = v' at hitem
  cases hitem with
  | none => rfl
  | some h => exact hf h

/-- The CA's signature is good on the same certificate. -/
theorem certSignatureOk_of_same {ca : Bytes} (hbuilt : (Json.obj cert).Built text)
    (h : (Json.obj cert).Same (.obj cert')) :
    certSignatureOk P cert ca = certSignatureOk P cert' ca := by
  have hnodup : (cert.map Prod.fst).Nodup := by cases hbuilt; assumption
  have hnone : ∀ key : String, (dictGet cert key).isNone = (dictGet cert' key).isNone := by
    intro key
    have hitem := h.lookup hnodup (py key)
    unfold dictGet
    generalize cert.lookup (py key) = v, cert'.lookup (py key) = v' at hitem
    cases hitem <;> rfl
  have hsig : (dictGet cert "signature").bind Json.asStr =
      (dictGet cert' "signature").bind Json.asStr := by
    have hitem := h.lookup hnodup (py "signature")
    unfold dictGet
    generalize cert.lookup (py "signature") = v, cert'.lookup (py "signature") = v' at hitem
    cases hitem with
    | none => rfl
    | some h => exact asStr_of_same h
  have hbody : canonicalJson P (.obj (stripSignature cert)) =
      canonicalJson P (.obj (stripSignature cert')) :=
    congrArg encodeText (dumps_eq_of_same rfl (built_stripSignature hbuilt)
      (h.filter fun key => key ≠ py "signature"))
  simp only [certSignatureOk, hnone, hsig, hbody]

/-- The same certificate is valid at the same times. -/
theorem certInDate_of_same {now : ℤ} (h : (Json.obj cert).Same (.obj cert'))
    (hnodup : (cert.map Prod.fst).Nodup) : certInDate cert now = certInDate cert' now := by
  unfold certInDate
  refine (dictItem_bind_of_same "valid_from" (fun hv => ?_) h hnodup).trans ?_
  · rw [leInt_of_same hv]
  · refine bind_congr fun v => bind_congr fun good => ?_
    split_ifs
    · exact dictItem_bind_of_same "valid_until" geInt_of_same h hnodup
    · rfl

/-- **The same certificate is as good.** -/
theorem certCheck_of_same {ca : Bytes} {now : ℤ} {subject : PyStr}
    (hbuilt : (Json.obj cert).Built text) (h : (Json.obj cert).Same (.obj cert'))
    (hcheck : CertCheck P ca cert now (some subject)) :
    CertCheck P ca cert' now (some subject) := by
  have hnodup : (cert.map Prod.fst).Nodup := by cases hbuilt; assumption
  refine ⟨(certSignatureOk_of_same hbuilt h) ▸ hcheck.signed, ?_, ?_⟩
  · exact (certInDate_of_same h hnodup).symm.trans hcheck.inDate
  · have hsubject : dictGet cert "subject" = some (.str subject) := of_decide_eq_true hcheck.subject
    have hitem := h.lookup hnodup (py "subject")
    refine decide_eq_true ?_
    unfold dictGet at hsubject ⊢
    rw [hsubject] at hitem
    generalize cert'.lookup (py "subject") = v' at hitem
    cases hitem with
    | some h => cases h; rfl

/-- What the CA issues is built from texts and integers. -/
theorem built_of_issueCertificate {subject pem serial : PyStr} {caPrivPem caPassword salt : Bytes}
    {now validityDays : ℤ}
    (h : issueCertificate P subject pem caPrivPem caPassword now validityDays serial salt =
      .ok cert) : (Json.obj cert).Built fun _ => True := by
  obtain ⟨data, -, h⟩ := bind_eq_ok.mp h
  obtain ⟨sig, -, h⟩ := bind_eq_ok.mp h
  obtain rfl := pure_eq_ok.mp h
  have hkeys : (requiredCertFields.map py).Nodup := by decide +kernel
  refine .obj hkeys (fun _ _ => trivial) ?_
  simp only [signedBody, certBody, List.cons_append, List.nil_append, List.forall_mem_cons]
  exact ⟨.str trivial, .str trivial, .str trivial, .int _, .int _, .str trivial, .str trivial,
    List.forall_mem_nil _⟩

theorem built_certFor (subject pem : PyStr) : (Json.obj (certFor subject pem)).Built fun _ => True := by
  unfold certFor
  split
  · next h => exact built_of_issueCertificate h
  · exact .obj List.nodup_nil (List.forall_mem_nil _) (List.forall_mem_nil _)

end

namespace Client

open Endpoint

/-- A message of the history shows a certificate that the CA has signed for the user. -/
def Fetches (P : Primitives) (ca : Bytes) (user : PyStr) (cert : Obj) (h : List Ev) : Prop :=
  ∃ msg env now, (⟨.recv, .ok msg⟩ : Ev) ∈ h ∧ validateEnvelope (.obj msg) = .ok env ∧
    dictGet env.payload "cert" = some (.obj cert) ∧ CertCheck P ca cert now (some user)

/-- What a package was made of, and of which answers. -/
theorem Packed.parts {P : Primitives} {session : Session} {recipient : PyStr} {path : LocalPath}
    {expirationSeconds : ℤ} {plaintext : Bytes} {pkg : Package} {g : List Ev}
    (h : Packed P session recipient path expirationSeconds plaintext pkg g) :
    pkg.recipient = recipient ∧ pkg.expiration = pkg.timestamp + expirationSeconds ∧
      (⟨.readFile path, .ok plaintext⟩ : Ev) ∈ g ∧
      ∃ cert pem aesKey aad, Fetches P session.caPubkeyPem recipient cert g ∧
        certPem cert = .ok pem ∧ (⟨.oaepEncrypt pem aesKey, .ok pkg.wrappedKey⟩ : Ev) ∈ g ∧
        (⟨.urandom AES_NONCE_BYTES, .ok pkg.nonce⟩ : Ev) ∈ g ∧
        fileAad pkg.fileId session.username recipient = .ok aad ∧
        aesKey.length = AES_KEY_BYTES ∧
        pkg.ciphertext = P.aesGcmEncrypt aesKey pkg.nonce plaintext aad := by
  obtain ⟨⟨henv, -, hitem, hcert⟩, hpem, haad, hrec, hlen, hct, hexp, -⟩ := h
  exact ⟨hrec, hexp, by simp, _, _, _, _, ⟨_, _, _, by simp, henv, hitem, hcert⟩, hpem, by simp,
    by simp, haad, hlen, hct⟩

/-- The upload that the server reads. -/
def Package.upload (pkg : Package) (sig : Bytes) : Server.Upload where
  fileId := pkg.fileId
  recipient := pkg.recipient
  timestamp := .int pkg.timestamp
  expiration := .int pkg.expiration
  timestampInt := pkg.timestamp
  expirationInt := pkg.expiration
  ciphertext := pkg.ciphertext
  aesNonce := pkg.nonce
  wrappedKey := pkg.wrappedKey
  signature := sig

end Client

namespace Network

open Client Endpoint

/-! ## Packing -/

/-- **What an upload makes of a plaintext**, for the key of its sender and that of its
recipient. -/
structure Sealed (P : Primitives) (sender : PyStr) (ks : RsaPublicKey) (kr : RsaPrivateKey)
    (plaintext : Bytes) (pkg : Package) (sig : Bytes) : Prop where
  signed : ∃ data, originCanonical P (pkg.origin P sender) = .ok data ∧
    P.pssVerify ks data sig = true
  encrypted : ∃ aesKey aad, aesKey.length = AES_KEY_BYTES ∧
    P.oaepDecrypt kr pkg.wrappedKey = some aesKey ∧
    fileAad pkg.fileId sender pkg.recipient = .ok aad ∧
    pkg.ciphertext = P.aesGcmEncrypt aesKey pkg.nonce plaintext aad
  nonce : pkg.nonce.length = AES_NONCE_BYTES

/-- A user has a private key. -/
structure HasKey (P : Primitives) (session : Client.Session) (key : RsaPrivateKey) : Prop where
  loads : loadPrivate P session.clientPrivPem session.clientPassword = .ok key
  matching : P.Matching key

/-- **The CA vouches for one key of a user**: the certificates that the history shows, and that the
CA has signed for the user, are over that key. -/
def Vouches (P : Primitives) (ca : Bytes) (user : PyStr) (key : RsaPublicKey) (h : List Ev) :
    Prop :=
  ∀ cert, Fetches P ca user cert h → certKey P cert = .ok key

section

variable {P : Primitives} {s₀ s : Files} {t : Trace} {js : Jobs} {n : ℕ}
  {sender recipient : Client.Session} {ks kr : RsaPrivateKey}

/-- The events of a job are executions. -/
theorem exec_of_mem_hist (hr : (endpoints P).Run s₀ t js s) {l : Label} {h : List Ev}
    {p : Prog Op Op.Res (Except PyExn Outcome)} (hj : js[n]? = some ⟨l, h, p⟩) {ev : Ev}
    (hev : ev ∈ h) : ∃ i pre post, exec P ev.op i pre = (ev.res, post) := by
  obtain ⟨newer, older, rfl⟩ := List.append_of_mem hev
  obtain ⟨y, hy, -, -, rfl, -⟩ := hr.exists_item_of_hist_append hj
  exact ⟨_, _, _, hr.exec_eq hy⟩

/-- **An upload that has ended has sent what it made of its file.** -/
theorem sealed_of_finished (hr : (endpoints P).Run s₀ t js s) {recipientName : PyStr}
    {path : LocalPath} {expirationSeconds : ℤ} {h : List Ev}
    (hj : js[n]? = some ⟨.client sender (.upload recipientName path expirationSeconds), h,
      .pure (.ok .done)⟩) (hks : HasKey P sender ks) (hkr : P.Matching kr)
    (hca : Vouches P sender.caPubkeyPem recipientName kr.pub h) :
    ∃ plaintext pkg sig, (⟨.readFile path, .ok plaintext⟩ : Ev) ∈ h ∧
      (⟨.send .UPLOAD_REQUEST (pkg.payload sig), .ok ()⟩ : Ev) ∈ h ∧
      pkg.recipient = recipientName ∧ pkg.expiration = pkg.timestamp + expirationSeconds ∧
      Sealed P sender.username ks.pub kr plaintext pkg sig := by
  obtain @⟨plaintext, data, sig, pkg, msg, env, g, hpacked, hdata, -, -⟩ :=
    hr.post_of_finished code_guarantee hj
  obtain ⟨hrec, hexp, hread, cert, pem, aesKey, aad, ⟨msg', env', now, hmsg, hcert⟩, hpem, hwrap, hdraw, haad, hlen,
    hct⟩ := hpacked.parts
  have hpast : ∀ {ev : Ev}, ev ∈ g → ∃ i pre post, exec P ev.op i pre = (ev.res, post) :=
    fun hev => exec_of_mem_hist hr hj (by simp [hev])
  refine ⟨plaintext, pkg, sig, by simp [hread], by simp, hrec, hexp, ⟨data, hdata, ?_⟩,
    ⟨aesKey, aad, hlen, ?_, hrec ▸ haad, hct⟩, ?_⟩
  · obtain ⟨i, pre, post, hsign⟩ := @exec_of_mem_hist P s₀ s t js n hr _ _ _ hj
      ⟨.sign sender.clientPrivPem sender.clientPassword data, .ok sig⟩ (by simp)
    obtain ⟨key, hkey, hsig⟩ := bind_eq_ok.mp (Prod.mk.inj hsign).1
    obtain rfl := Except.ok.inj (hks.loads.symm.trans hkey)
    rw [← pure_eq_ok.mp hsig]
    exact hks.matching.verify_sign ..
  · obtain ⟨i, pre, post, henc⟩ := hpast hwrap
    obtain ⟨key, hkey, hwrapped⟩ := bind_eq_ok.mp (Prod.mk.inj henc).1
    have hpub := hca cert ⟨msg', env', now, by simp [hmsg], hcert⟩
    rw [certKey, hpem] at hpub
    obtain rfl := Except.ok.inj (hkey.symm.trans hpub)
    rw [← pure_eq_ok.mp hwrapped]
    exact hkr.decrypt_encrypt _ _ hlen
  · obtain ⟨i, pre, post, hdrawn⟩ := hpast hdraw
    rw [← Except.ok.inj (Prod.mk.inj hdrawn).1, Input.length_octets]

end

/-! ## What the server reads, and sends -/

/-- What the server reads of a package is all that was put into it. -/
theorem eq_upload_of_parseUpload {pkg : Package} {sig : Bytes} {up : Server.Upload}
    (h : Server.parseUpload (pkg.payload sig) = .ok up) :
    up = pkg.upload sig ∧ isCanonicalUuid pkg.fileId = true := by
  have hread := Server.readFrom_of_parseUpload h
  have hid : pkg.fileId = up.fileId := Json.str.inj (Option.some.inj hread.fileId)
  have hname : pkg.recipient = up.recipient := Json.str.inj (Option.some.inj hread.recipient)
  have hcanon : isCanonicalUuid pkg.fileId = true := hid ▸ hread.canonical
  have hvalid : Server.validUsername (.str pkg.recipient) = true := hname ▸ hread.username
  have hparse : Server.parseUpload (pkg.payload sig) = .ok (pkg.upload sig) :=
    Server.parseUpload_of_readFrom (Server.readFrom_uploadPayload hcanon hvalid)
  exact ⟨Except.ok.inj (h.symm.trans hparse), hcanon⟩

/-- Two texts of a canonical id are compared. -/
theorem compareDigestText_self {f : PyStr} (h : isCanonicalUuid f = true) :
    compareDigestText f f = .ok true := by
  have hplain : f.all (fun c => decide (c.val < 0x80)) = true := by
    have hall := Server.isPlain_of_isCanonicalUuid h
    rw [List.all_eq_true] at hall ⊢
    intro c hc
    have := of_decide_eq_true (hall c hc)
    exact decide_eq_true (by omega)
  rw [compareDigestText, if_pos ⟨hplain, hplain⟩, decide_eq_true rfl]

section

variable {P : Primitives} {peer : Server.Session} {pkg : Package} {sig aad : Bytes} {cert' : Obj}

/-- What the recipient reads of a response. -/
def readBack (peer : Server.Session) (pkg : Package) (sig aad : Bytes) (cert' : Obj) :
    Response where
  fileId := pkg.fileId
  sender := peer.peerSubject
  timestamp := .int pkg.timestamp
  expiration := .int pkg.expiration
  ciphertext := pkg.ciphertext
  wrappedKey := pkg.wrappedKey
  aesNonce := pkg.nonce
  sentAad := aad
  signature := sig
  senderCert := cert'

/-- **What the recipient reads is what the sender has packed.** -/
theorem parseDownload_response (hid : isCanonicalUuid pkg.fileId = true)
    (hloads : P.jsonLoads (dumps P storedOptions (.obj peer.peerCert)) = .ok (.obj cert')) :
    parseDownload P ((pkg.upload sig).response P peer aad) (some pkg.fileId) =
      .ok (readBack peer pkg sig aad cert') := by
  have hfield : ∀ {payload : Obj} {field : String} {data : Bytes},
      dictGet payload field = some (.str (b64encode data)) →
      decodeB64Field payload field = .ok data := by
    intro payload field data h
    rw [decodeB64Field_eq_ok, b64Item, h]
    exact b64decode_b64encode data
  have hrouting : parseRouting ((pkg.upload sig).response P peer aad) (some pkg.fileId) =
      .ok (pkg.fileId, peer.peerSubject, .int pkg.timestamp, .int pkg.expiration) := by
    have hcompare := compareDigestText_self hid
    show (compareDigestText pkg.fileId pkg.fileId >>= _) = _
    rw [hcompare]
    rfl
  have hcert : loadSenderCert P ((pkg.upload sig).response P peer aad) = .ok cert' := by
    have hraw : (dictGet ((pkg.upload sig).response P peer aad) "sender_cert_json").bind Json.asStr =
        some (dumps P storedOptions (.obj peer.peerCert)) := rfl
    rw [loadSenderCert, hraw]
    dsimp only
    rw [hloads]
  rw [parseDownload, hrouting, ok_bind]
  dsimp only
  rw [@hfield _ "ciphertext" _ rfl, ok_bind,
    @hfield _ "wrapped_key" _ rfl, ok_bind, @hfield _ "aes_nonce" _ rfl, ok_bind,
    @hfield _ "aes_aad" _ rfl, ok_bind, @hfield _ "sender_signature" _ rfl, ok_bind, hcert]
  rfl

variable {ks : RsaPublicKey} {kr : RsaPrivateKey} {recipient : Client.Session} {plaintext : Bytes}

/-- What is read back opens. -/
theorem openResponse_readBack (hsealed : Sealed P peer.peerSubject ks kr plaintext pkg sig)
    (hkr : HasKey P recipient kr) (hname : pkg.recipient = recipient.username)
    (haad : Server.aadBytes pkg.fileId peer.peerSubject pkg.recipient = .ok aad)
    (hkey : certKey P cert' = .ok ks) (hdec : P.DecryptsGcm) :
    openResponse P recipient (readBack peer pkg sig aad cert') = .ok plaintext := by
  obtain ⟨⟨data, hdata, hverify⟩, ⟨aesKey, aad', hlen, hunwrap, haad', hct⟩, hnonce⟩ := hsealed
  obtain rfl : aad = aad' := Except.ok.inj (haad.symm.trans haad')
  obtain ⟨pem, hpem, hpub⟩ := bind_eq_ok.mp hkey
  have horigin : (readBack peer pkg sig aad cert').origin P recipient.username =
      pkg.origin P peer.peerSubject := by
    rw [← hname]
    rfl
  have hsigned : verifyOriginStruct P cert' sig (pkg.origin P peer.peerSubject) = .ok true :=
    (verifyStruct_eq_ok_true P).mpr
      ⟨pem, data, hpem, hdata, (rsaVerify_eq_ok_true P).mpr ⟨ks, hpub, hverify⟩⟩
  have haad : downloadAad pkg.fileId peer.peerSubject recipient.username = .ok aad := hname ▸ haad
  have hunwrapped : unwrapAesKey P recipient.clientPrivPem recipient.clientPassword pkg.wrappedKey =
      .ok aesKey := (rsaOaepDecrypt_eq_ok P).mpr ⟨kr, hkr.loads, hunwrap⟩
  have hopened : decryptFileBlob P aesKey pkg.nonce pkg.ciphertext pkg.fileId peer.peerSubject
      recipient.username = .ok plaintext :=
    bind_eq_ok.mpr ⟨aad, haad, (aesGcmDecrypt_eq_ok P).mpr
      ⟨hlen, hnonce, hct ▸ hdec aesKey pkg.nonce plaintext aad⟩⟩
  rw [openResponse, horigin]
  show (verifyOriginStruct P cert' sig _ >>= _) = _
  rw [hsigned, ok_bind, if_pos rfl]
  show (downloadAad pkg.fileId peer.peerSubject recipient.username >>= _) = _
  rw [haad, ok_bind]
  show (if aad ≠ aad then _ else _) = _
  rw [if_neg (not_not.mpr rfl)]
  show (unwrapAesKey P recipient.clientPrivPem recipient.clientPassword pkg.wrappedKey >>= _) = _
  rw [hunwrapped]
  exact hopened

/-- **The recipient opens what the server has stored.** -/
theorem open_sealed (hsealed : Sealed P peer.peerSubject ks kr plaintext pkg sig)
    (hkr : HasKey P recipient kr) (hname : pkg.recipient = recipient.username)
    (hid : isCanonicalUuid pkg.fileId = true)
    (haad : Server.aadBytes pkg.fileId peer.peerSubject pkg.recipient = .ok aad)
    (hkey : certKey P peer.peerCert = .ok ks)
    (hbuilt : (Json.obj peer.peerCert).Built fun _ => True)
    (hback : Server.ReadsBack P peer.peerCert) (hdec : P.DecryptsGcm) {u : Solo Op Op.Res Input Files}
    (hcert : CertCheck P recipient.caPubkeyPem peer.peerCert (u.inputs 0).now
      (some peer.peerSubject)) :
    (u.run (exec P) (verifyAndDecryptDownload P recipient ((pkg.upload sig).response P peer aad)
      (some pkg.fileId)).run).value = .ok plaintext := by
  obtain ⟨cert', hloads, hsame⟩ := hback
  have hnodup : (peer.peerCert.map Prod.fst).Nodup := by cases hbuilt; assumption
  have hcert' := certCheck_of_same hbuilt hsame hcert
  have hkey' : certKey P cert' = .ok ks := by
    rw [certKey, Server.certPem_of_same hsame hnodup]
    exact hkey
  have hverdict := certVerdict_eq_ok_true.mpr ⟨hcert'.inDate, hcert'.subject⟩
  have hwp : wpE (.solo (exec P)) (verifyAndDecryptDownload P recipient
      ((pkg.upload sig).response P peer aad) (some pkg.fileId)) u fun _ r => r = .ok plaintext := by
    rw [verifyAndDecryptDownload, wpE_bind, wpE_raising, parseDownload_response hid hloads]
    dsimp only
    have hclock : u.answer (exec P) .time = .ok (u.inputs 0).now := rfl
    rw [show (readBack peer pkg sig aad cert').senderCert = cert' from rfl,
      verifyCertificate_of_signed hcert'.signed, wpE_bind, wpE_bind, wpE_solo_act, hclock]
    dsimp only
    rw [show (readBack peer pkg sig aad cert').sender = peer.peerSubject from rfl, wpE_raising,
      hverdict]
    show wpE _ (raising (openResponse P recipient _)) _ _
    rw [wpE_raising, openResponse_readBack hsealed hkr hname haad hkey' hdec]
  exact wp_solo_iff.mp hwp

end

/-! ## The whole way -/

variable {P : Primitives} {s₀ s : Files} {t : Trace} {js : Jobs} {n : ℕ}
  {sender recipient : Client.Session} {ks kr : RsaPrivateKey}

/-- A session of the user with a certificate over the key, which `json.dumps` and `json.loads`
carry to the recipient. -/
structure SpeaksFor (P : Primitives) (peer : Server.Session) (user : PyStr) (key : RsaPublicKey) :
    Prop where
  subject : peer.peerSubject = user
  key : certKey P peer.peerCert = .ok key
  built : (Json.obj peer.peerCert).Built fun _ => True
  readsBack : Server.ReadsBack P peer.peerCert

/-- The file of a package is there for its recipient, in a store of the server: it is listed, and
the answer to a download of it opens as the plaintext. -/
structure Available (P : Primitives) (ca : Bytes) (peer : Server.Session)
    (recipient : Client.Session) (plaintext : Bytes) (pkg : Package) (sig : Bytes)
    (db : Server.ServerState) : Prop where
  listed : ∀ reader now ids, reader.peerSubject = recipient.username →
    Server.Replies P ca reader db now ids → now < pkg.expiration → .str pkg.fileId ∈ ids
  delivered : ∃ response,
    (∀ reader env inputs, Server.Undisturbed inputs → reader.peerSubject = recipient.username →
      Server.AsksFor reader env inputs db (pkg.upload sig) →
      Server.Fits P .DOWNLOAD_RESPONSE response (inputs 6) →
      Server.sent (Server.serve P ca reader env db inputs).hist =
        [(.DOWNLOAD_RESPONSE, response)]) ∧
    ∀ u : Solo Op Op.Res Input Files,
      CertCheck P recipient.caPubkeyPem peer.peerCert (u.inputs 0).now (some peer.peerSubject) →
      (u.run (exec P) (verifyAndDecryptDownload P recipient response (some pkg.fileId)).run).value =
        .ok plaintext

/-- What is stored is available. -/
theorem available_of_stored {ca : Bytes} {peer : Server.Session} {plaintext sig : Bytes}
    {pkg : Package} {db : Server.ServerState} {user : PyStr} {key : RsaPublicKey}
    (hsealed : Sealed P user key kr plaintext pkg sig) (hkr : HasKey P recipient kr)
    (hname : pkg.recipient = recipient.username) (hid : isCanonicalUuid pkg.fileId = true)
    (hpeer : SpeaksFor P peer user key) (hdec : P.DecryptsGcm)
    (hstored : Server.Stored P peer db (pkg.upload sig)) :
    Available P ca peer recipient plaintext pkg sig db := by
  obtain ⟨rfl, hkey, hbuilt, hback⟩ := hpeer
  obtain ⟨aad, haad, hrow, hblob⟩ := hstored
  constructor
  · intro reader now ids hreader hids hnow
    rw [Server.listed_of_replies hids, Server.mem_listed_iff]
    exact ⟨_, rfl, _, hrow, hname.trans hreader.symm, rfl, hnow⟩
  · refine ⟨(pkg.upload sig).response P peer aad, fun reader env inputs hund _ hask hfits => ?_,
      fun u hcert => open_sealed hsealed hkr hname hid haad hkey hbuilt hback hdec hcert⟩
    exact (Server.sent_serve_of_stored hund hask hid hrow hblob).1 hfits

/-- **From one user to another.**  A sender's upload has read a file and ended with its
acknowledgement.  Whatever server has taken the upload, in a session of the sender's, and
acknowledged it: after every run of that server that leaves the file alone, it is listed for the
recipient, and what answers the recipient's download is opened as the content of the file. -/
theorem round_trip (hr : (endpoints P).Run s₀ t js s) {path : LocalPath} {expirationSeconds : ℤ}
    {h : List Ev}
    (hj : js[n]? = some ⟨.client sender (.upload recipient.username path expirationSeconds), h,
      .pure (.ok .done)⟩) (hks : HasKey P sender ks) (hkr : HasKey P recipient kr)
    (hca : Vouches P sender.caPubkeyPem recipient.username kr.pub h) (hdec : P.DecryptsGcm) :
    ∃ plaintext pkg sig, (⟨.readFile path, .ok plaintext⟩ : Ev) ∈ h ∧
      (⟨.send .UPLOAD_REQUEST (pkg.payload sig), .ok ()⟩ : Ev) ∈ h ∧
      pkg.expiration = pkg.timestamp + expirationSeconds ∧
      ∀ ca peer env db inputs later jobs db', SpeaksFor P peer sender.username ks.pub →
        Server.Undisturbed inputs → env.type = .UPLOAD_REQUEST → env.payload = pkg.payload sig →
        (∃ ack, (MessageType.UPLOAD_ACK, ack) ∈
          Server.sent (Server.serve P ca peer env db inputs).hist) →
        Server.Run P ca (Server.serve P ca peer env db inputs).store later jobs db' →
        Server.LeftAlone pkg.fileId pkg.expiration later →
        Available P ca peer recipient plaintext pkg sig db' := by
  obtain ⟨plaintext, pkg, sig, hread, hsent, hname, hexp, hsealed⟩ :=
    sealed_of_finished hr hj hks hkr.matching hca
  refine ⟨plaintext, pkg, sig, hread, hsent, hexp, ?_⟩
  intro ca peer env db inputs later jobs db' hpeer hund htype hpayload hack hrun hleft
  obtain ⟨up, hparse, hstored⟩ := Server.stored_of_acknowledged hund htype hack
  rw [hpayload] at hparse
  obtain ⟨rfl, hid⟩ := eq_upload_of_parseUpload hparse
  exact available_of_stored hsealed hkr hname hid hpeer hdec
    (Server.stored_of_leftAlone hrun hid hleft hstored)

/-! ### A sample file -/

/-- The sample primitives with the certificates of both users. -/
def sharedPrimitives : Primitives :=
  .rolling [(aliceText, .obj alice.clientCert), (Server.bobText, .obj Server.bob.peerCert)]

/-- `alice` uploads a file for `bob`. -/
def notesLabel : Label := .client alice (.upload bob.username [py "notes"] 900)

/-- Her upload, up to the acknowledgement. -/
def notesMoves : List (Move Label Input) :=
  [.start notesLabel, .step 0 (drawing 0), .step 0 (drawing 0), .step 0 (drawing 0),
    .step 0 (bringing .PUBKEY_RESPONSE [(py "cert", .obj bob.clientCert)])] ++
  List.replicate 4 (.step 0 (drawing 0)) ++ .step 0 (drawing 32) ::
  List.replicate 4 (.step 0 (drawing 0)) ++ [.step 0 (bringing .UPLOAD_ACK [])]

/-- The run. -/
def notesRun : Config Op Op.Res Input Files Label (Except PyExn Outcome) :=
  (endpoints sharedPrimitives).play relayFiles notesMoves

/-- What a job that has ended well was started for, and its history. -/
def ended (j : Job Op Op.Res Label (Except PyExn Outcome)) : Option (Label × List Ev) :=
  match j.rest with
  | .pure (.ok .done) => some (j.label, j.hist)
  | _ => none

theorem ended_eq_some {j : Job Op Op.Res Label (Except PyExn Outcome)} {l : Label} {h : List Ev}
    (hj : ended j = some (l, h)) : j = ⟨l, h, .pure (.ok .done)⟩ := by
  obtain ⟨l', h', rest⟩ := j
  unfold ended at hj
  split at hj
  · next heq =>
    obtain ⟨rfl, rfl⟩ := Prod.mk.inj (Option.some.inj hj)
    exact congrArg _ heq
  · cases hj

/-- What an event reads of a file, what it sends, and the key of the certificate that it brings. -/
def readOf : Ev → Option Bytes
  | ⟨.readFile _, .ok data⟩ => some data
  | _ => none

def packageOf : Ev → Option Obj
  | ⟨.send .UPLOAD_REQUEST payload, .ok _⟩ => some payload
  | _ => none

def fetchedKey : Ev → Option (Option RsaPublicKey)
  | ⟨.recv, .ok msg⟩ =>
      match validateEnvelope (.obj msg) with
      | .ok env =>
          match dictGet env.payload "cert" with
          | some (.obj cert) => some (certKey sharedPrimitives cert).toOption
          | _ => none
      | .error _ => none
  | _ => none

/-- The history of her upload. -/
def notesHist : List Ev := ((notesRun.jobs[0]?.bind ended).map Prod.snd).getD []

/-- The request that the server gets. -/
def notesEnvelope : Envelope :=
  .numbered 1 .UPLOAD_REQUEST 100 ((notesHist.filterMap packageOf).head?.getD [])

theorem notes_checks :
    (notesRun.jobs[0]?.bind ended).map Prod.fst = some notesLabel ∧
    notesHist.filterMap readOf = [[7, 8, 9]] ∧ (notesHist.filterMap packageOf).length = 1 ∧
    notesHist.filterMap fetchedKey = [some (.numbered 66)] ∧
    (Server.sent (Server.serve sharedPrimitives [1] Server.alice notesEnvelope Server.sampleInit
      fun _ => Server.sampleInput 100).hist).map Prod.fst = [.UPLOAD_ACK] ∧
    (sharedPrimitives.jsonLoads
      (dumps sharedPrimitives storedOptions (.obj Server.alice.peerCert))).toOption =
        some (.obj Server.alice.peerCert) := by
  decide +kernel

/-- A session with `alice`. -/
theorem speaksFor_alice : SpeaksFor sharedPrimitives Server.alice alice.username (.numbered 65) where
  subject := rfl
  key := rfl
  built := built_certFor (py "alice") (py "A")
  readsBack := by
    obtain ⟨-, -, -, -, -, hloads⟩ := notes_checks
    refine ⟨Server.alice.peerCert, ?_, .refl _⟩
    generalize sharedPrimitives.jsonLoads _ = r at hloads ⊢
    cases r with
    | error e => cases hloads
    | ok v => exact congrArg Except.ok (Option.some.inj hloads)

/-- What `alice` has uploaded is there for `bob`. -/
theorem available_notes :
    ∃ pkg sig, notesEnvelope.payload = pkg.payload sig ∧
      Available sharedPrimitives [1] Server.alice bob [7, 8, 9] pkg sig
        (Server.serve sharedPrimitives [1] Server.alice notesEnvelope Server.sampleInit
          fun _ => Server.sampleInput 100).store := by
  obtain ⟨hended, hreads, hlength, hkeys, hsent, -⟩ := notes_checks
  obtain ⟨⟨l, h⟩, hjob, rfl⟩ := Option.map_eq_some_iff.mp hended
  obtain ⟨j, hj, hend⟩ := Option.bind_eq_some_iff.mp hjob
  obtain rfl := ended_eq_some hend
  have hhist : notesHist = h := by rw [notesHist, hjob]; rfl
  have hks : HasKey sharedPrimitives alice (.numbered 65) := ⟨rfl, rolling_matching _⟩
  have hkr : HasKey sharedPrimitives bob (.numbered 66) := ⟨rfl, rolling_matching _⟩
  have hca : Vouches sharedPrimitives alice.caPubkeyPem bob.username (.numbered 66) h := by
    rintro cert ⟨msg, env, now, hmsg, henv, hitem, -⟩
    have hmem : (certKey sharedPrimitives cert).toOption ∈ notesHist.filterMap fetchedKey := by
      refine List.mem_filterMap.mpr ⟨_, hhist ▸ hmsg, ?_⟩
      rw [fetchedKey, henv]
      dsimp only
      rw [hitem]
    rw [hkeys, List.mem_singleton] at hmem
    cases hkey : certKey sharedPrimitives cert with
    | error e =>
      rw [hkey] at hmem
      cases hmem
    | ok key =>
      rw [hkey] at hmem
      exact congrArg Except.ok (Option.some.inj hmem)
  obtain ⟨plaintext, pkg, sig, hread, hpackage, -, havailable⟩ :=
    @round_trip sharedPrimitives _ _ _ _ _ alice bob _ _
      ((endpoints sharedPrimitives).run_play relayFiles notesMoves) _ _ _ hj hks hkr hca
      rolling_idealAead.decrypts
  have hplain : plaintext ∈ notesHist.filterMap readOf :=
    List.mem_filterMap.mpr ⟨_, hhist ▸ hread, rfl⟩
  rw [hreads, List.mem_singleton] at hplain
  have hpayload : notesEnvelope.payload = pkg.payload sig := by
    have hmem : pkg.payload sig ∈ notesHist.filterMap packageOf :=
      List.mem_filterMap.mpr ⟨_, hhist ▸ hpackage, rfl⟩
    obtain ⟨payload, hone⟩ := List.length_eq_one_iff.mp hlength
    have hpayload : ∀ payload, (Envelope.numbered 1 .UPLOAD_REQUEST 100 payload).payload = payload :=
      fun _ => rfl
    rw [hone, List.mem_singleton] at hmem
    rw [notesEnvelope, hpayload, hone, hmem]
    rfl
  subst hplain
  refine ⟨pkg, sig, hpayload, havailable [1] Server.alice notesEnvelope Server.sampleInit
    (fun _ => Server.sampleInput 100) [] [] _ speaksFor_alice
    (Server.undisturbed_sampleInput (by decide)) rfl hpayload ?_ .init
    ⟨List.forall_mem_nil _, List.forall_mem_nil _⟩⟩
  have hmem := List.mem_singleton_self MessageType.UPLOAD_ACK
  rw [← hsent] at hmem
  obtain ⟨⟨type, payload⟩, hm, rfl⟩ := List.mem_map.mp hmem
  exact ⟨payload, hm⟩

end Network
end ZeroTrust
