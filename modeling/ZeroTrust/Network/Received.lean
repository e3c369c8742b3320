import ZeroTrust.Network.Checked

/-!
# What a download has received

A download that writes, or acknowledges, has a response that bears the signature of the sender
named in it over everything that its plaintext comes from.  Where that sender's signatures are
not forged, the plaintext is the one that an upload of the sender's has read.

* `Response.Sound`: what the checks of `verify_and_decrypt_download` come to.
* `Received`: the response was read from a message that the download received.
* `IdealAead`: a ciphertext decrypts only as what it was made of.
* `exists_upload`: the upload that a sound response comes from.
-/

namespace ZeroTrust

open Python Effects Endpoint

theorem decodeB64Field_eq_ok {payload : Obj} {name : String} {data : Bytes} :
    decodeB64Field payload name = .ok data ↔ b64Item payload name = some data := by
  unfold decodeB64Field b64Item
  cases (dictGet payload name).bind Json.asStr with
  | none => simp
  | some text => cases hb : b64decode text <;> simp [hb]

namespace Client

variable {P : Primitives} {session : Session} {fileId : PyStr}

/-- What a response is of which the checks go through: the certificate in it is the sender's,
its key has signed the origin struct, and the ciphertext decrypts to the plaintext. -/
structure Response.Sound (P : Primitives) (session : Session) (fileId : PyStr) (resp : Response)
    (plaintext : Bytes) : Prop where
  fileId_eq : resp.fileId = fileId
  certified : ∃ now, CertCheck P session.caPubkeyPem resp.senderCert now (some resp.sender)
  signed : verifyOriginStruct P resp.senderCert resp.signature (resp.origin P session.username) =
    .ok true
  decrypted : ∃ aesKey aad,
    unwrapAesKey P session.clientPrivPem session.clientPassword resp.wrappedKey = .ok aesKey ∧
    encodeText (aadText fileId resp.sender session.username) = .ok aad ∧
    aesGcmDecrypt P aesKey resp.aesNonce resp.ciphertext aad = .ok plaintext

/-- A message of the history carries the response. -/
def Response.Received (P : Primitives) (fileId : PyStr) (resp : Response) (h : List Ev) : Prop :=
  ∃ msg env, (⟨.recv, .ok msg⟩ : Ev) ∈ h ∧ validateEnvelope (.obj msg) = .ok env ∧
    env.type = .DOWNLOAD_RESPONSE ∧ parseDownload P env.payload (some fileId) = .ok resp

/-- What is read from a response, for the file that was asked for. -/
theorem parseDownload_eq_ok {payload : Obj} {resp : Response}
    (h : parseDownload P payload (some fileId) = .ok resp) :
    resp.fileId = fileId ∧ resp.timestamp.asInt.isSome = true ∧
      resp.expiration.asInt.isSome = true ∧ resp.ciphertext ∈ shown payload ∧
      resp.wrappedKey ∈ shown payload ∧ resp.signature ∈ shown payload := by
  obtain ⟨routing, hrouting, h⟩ := bind_eq_ok.mp h
  obtain ⟨ciphertext, hciphertext, h⟩ := bind_eq_ok.mp h
  obtain ⟨wrappedKey, hwrappedKey, h⟩ := bind_eq_ok.mp h
  obtain ⟨aesNonce, -, h⟩ := bind_eq_ok.mp h
  obtain ⟨sentAad, -, h⟩ := bind_eq_ok.mp h
  obtain ⟨signature, hsignature, h⟩ := bind_eq_ok.mp h
  obtain ⟨senderCert, -, h⟩ := bind_eq_ok.mp h
  obtain rfl := pure_eq_ok.mp h
  have hfields : routing.1 = fileId ∧ routing.2.2.1.asInt.isSome = true ∧
      routing.2.2.2.asInt.isSome = true := by
    unfold parseRouting at hrouting
    split at hrouting
    · cases hrouting
    · obtain ⟨same, -, hrouting⟩ := bind_eq_ok.mp hrouting
      split_ifs at hrouting
      · split at hrouting
        · split_ifs at hrouting with hints
          · obtain rfl := pure_eq_ok.mp hrouting
            exact ⟨rfl, hints⟩
        · cases hrouting
  exact ⟨hfields.1, hfields.2.1, hfields.2.2, mem_shown_of_b64Item (decodeB64Field_eq_ok.mp
    hciphertext), mem_shown_of_b64Item (decodeB64Field_eq_ok.mp hwrappedKey),
    mem_shown_of_b64Item (decodeB64Field_eq_ok.mp hsignature)⟩

/-- **A response that was opened is sound.** -/
theorem Opened.sound {resp : Response} {plaintext : Bytes} {h : List Ev}
    (hopened : Opened P session fileId resp plaintext h) :
    resp.Sound P session fileId plaintext ∧ resp.Received P fileId h := by
  obtain ⟨henv, htype, hparse, hcert, hopen⟩ := hopened
  obtain ⟨rfl, -⟩ := parseDownload_eq_ok hparse
  obtain ⟨good, hsigned, hopen⟩ := bind_eq_ok.mp hopen
  cases good with
  | false => cases hopen
  | true =>
    obtain ⟨aad, haad, hopen⟩ := bind_eq_ok.mp hopen
    split_ifs at hopen
    obtain ⟨aesKey, hkey, hopen⟩ := bind_eq_ok.mp hopen
    obtain ⟨aad', haad', hopen⟩ := bind_eq_ok.mp hopen
    exact ⟨⟨rfl, ⟨_, hcert⟩, hsigned, aesKey, aad', hkey, haad', hopen⟩, _, _, by simp, henv, htype,
      hparse⟩

/-- A download that writes a file writes the plaintext of a response that it has opened. -/
theorem DownloadStep.of_writeFile {h : List Ev} {path : LocalPath} {data : Bytes}
    (hstep : DownloadStep P session fileId h (.writeFile path data)) :
    ∃ resp newer g, h = newer ++ g ∧ Opened P session fileId resp data g := by
  cases hstep with
  | write hopened hwriting =>
    cases hwriting
    exact ⟨_, _, _, rfl, hopened⟩

/-- A download that acknowledges has opened a response. -/
theorem DownloadStep.of_acknowledge {h : List Ev} {payload : Obj}
    (hstep : DownloadStep P session fileId h (.send .DOWNLOAD_ACK payload)) :
    ∃ resp plaintext newer g, h = newer ++ g ∧ Opened P session fileId resp plaintext g := by
  cases hstep with
  | acknowledge hopened => exact ⟨_, _, [_, _], _, rfl, hopened⟩
  | write hopened hwriting => cases hwriting

/-- A package is for its recipient, and its ciphertext is that of the plaintext. -/
theorem Packed.ciphertext {recipient : PyStr} {path : LocalPath} {expirationSeconds : ℤ}
    {plaintext : Bytes} {pkg : Package} {g : List Ev}
    (hpacked : Packed P session recipient path expirationSeconds plaintext pkg g) :
    pkg.recipient = recipient ∧
      ∃ aesKey aad, pkg.ciphertext = P.aesGcmEncrypt aesKey pkg.nonce plaintext aad := by
  obtain ⟨-, -, -, hrecipient, -, hciphertext, -, -⟩ := hpacked
  exact ⟨hrecipient, _, _, hciphertext⟩

/-- What an upload has done when it sends something after it has signed. -/
theorem UploadStep.of_sign {recipient : PyStr} {path : LocalPath} {expirationSeconds : ℤ}
    {g newer : List Ev} {data sig : Bytes} {type : MessageType} {payload : Obj}
    (hstep : UploadStep P session recipient path expirationSeconds
      (newer ++ ⟨.sign session.clientPrivPem session.clientPassword data, .ok sig⟩ :: g)
      (.send type payload)) :
    ∃ plaintext pkg sig' g', type = .UPLOAD_REQUEST ∧ payload = pkg.payload sig' ∧
      newer ++ (⟨.sign session.clientPrivPem session.clientPassword data, .ok sig⟩ : Ev) :: g =
        ⟨.sign session.clientPrivPem session.clientPassword data, .ok sig'⟩ :: g' ∧
      Packed P session recipient path expirationSeconds plaintext pkg g' ∧
      originCanonical P (pkg.origin P session.username) = .ok data := by
  generalize hh : newer ++ (⟨.sign session.clientPrivPem session.clientPassword data, .ok sig⟩ : Ev)
    :: g = h at hstep
  have hmem : (⟨.sign session.clientPrivPem session.clientPassword data, .ok sig⟩ : Ev) ∈ h := by
    rw [← hh]
    simp
  cases hstep with
  | other hunsigned _ => exact absurd (hunsigned _ hmem) (by simp [Op.isSign])
  | @send plaintext data' sig' pkg g' hpacked hdata =>
    rcases List.mem_cons.mp hmem with hev | hmem
    · injection hev with hop _
      injection hop with _ _ hdata'
      subst hdata'
      exact ⟨plaintext, pkg, sig', g', rfl, rfl, rfl, hpacked, hdata⟩
    · exact absurd (hpacked.unsigned _ hmem) (by simp [Op.isSign])

end Client

namespace Network

open Client

variable {P : Primitives} {s₀ s : Files} {t later earlier : Trace} {js : Jobs}
  {x : Item Op Op.Res Input Files Label} {session : Client.Session} {fileId : PyStr}

theorem shownBy_send {ev : Ev} {type : MessageType} {payload : Obj}
    (h : ev.op = .send type payload) : shownBy ev = shown payload := by
  obtain ⟨op, res⟩ := ev
  obtain rfl : op = .send type payload := h
  rfl

/-- What an upload sends shows its ciphertext and its wrapped key. -/
theorem mem_shown_of_package (pkg : Package) (sig : Bytes) :
    pkg.ciphertext ∈ shown (pkg.payload sig) ∧ pkg.wrappedKey ∈ shown (pkg.payload sig) := by
  have hitem : b64Item (pkg.payload sig) "ciphertext" = some pkg.ciphertext ∧
      b64Item (pkg.payload sig) "wrapped_key" = some pkg.wrappedKey :=
    ⟨b64decode_b64encode _, b64decode_b64encode _⟩
  exact ⟨mem_shown_of_b64Item hitem.1, mem_shown_of_b64Item hitem.2⟩

/-- An upload of a run by a program that holds the key: it has sent a package that it had made of a
plaintext. -/
def UploadedIn (P : Primitives) (t : Trace) (key : RsaPublicKey) (sender recipient fileId : PyStr)
    (plaintext : Bytes) : Prop :=
  ∃ y ∈ t, ∃ (session : Client.Session) (path : LocalPath) (expirationSeconds : ℤ) (pkg : Package)
    (data sig : Bytes) (g : List Ev),
    session.username = sender ∧ pkg.fileId = fileId ∧
    y.label = .client session (.upload recipient path expirationSeconds) ∧ y.label.Holds P key ∧
    Packed P session recipient path expirationSeconds plaintext pkg g ∧
    y.past = ⟨.sign session.clientPrivPem session.clientPassword data, .ok sig⟩ :: g ∧
    y.ev.op = .send .UPLOAD_REQUEST (pkg.payload sig)

/-- **The upload that a sound response comes from.**  The signature fixes the sender, the
recipient, the file id and the hashes of the ciphertext and of the wrapped key; the ciphertext
fixes the plaintext. -/
theorem exists_upload (hr : (endpoints P).Run s₀ t js s) (hlen : ∀ b, (P.sha256 b).length = 32)
    (hcoll : CollisionFree P t) (haead : P.IdealAead) (hx : x ∈ t) {resp : Response}
    {plaintext : Bytes} (hsound : resp.Sound P session fileId plaintext)
    (hreceived : resp.Received P fileId x.past) {key : RsaPublicKey}
    (hkey : certKey P resp.senderCert = .ok key) (hu : Unforgeable P key t) :
    UploadedIn P t key resp.sender session.username fileId plaintext := by
  obtain ⟨msg, env, hmsg, henv, -, hparse⟩ := hreceived
  obtain ⟨-, htimestamp, hexpiration, hciphertext, hwrapped, hsignature⟩ :=
    parseDownload_eq_ok hparse
  obtain ⟨later, w, earlier, ht, -, -, hw⟩ := hr.exists_of_mem_past hx hmsg
  have hseen : ∀ {c}, c ∈ shown env.payload → c ∈ seen t := by
    intro c hc
    refine mem_seen (x := w) (by simp [ht]) ?_
    rw [hw]
    exact mem_shown_of_validateEnvelope henv hc
  -- who signed what was verified
  obtain ⟨pem, data, hpem, hdata, hverify⟩ := (verifyStruct_eq_ok_true P).mp hsound.signed
  obtain ⟨pem', hpem', hkey⟩ := bind_eq_ok.mp hkey
  obtain rfl := Except.ok.inj (hpem.symm.trans hpem')
  obtain ⟨y, hy, ⟨type, payload, hsend⟩, z, -, -, hlabel, hholds, hsigns, -, newer, sig, hypast⟩ :=
    exists_signer hr hu ht hw (mem_shown_of_validateEnvelope henv hsignature)
      (pssVerify_of_rsaVerify hkey hverify)
  have hbuilt : (resp.origin P session.username).toJson.Built fun _ => True :=
    Origin.built (fun _ _ => trivial) (fun _ _ => trivial) htimestamp hexpiration
  obtain ⟨sender, recipient, path, expirationSeconds, -, -, hz, -, -⟩ :=
    hsigns.origin_inv hlen (.origin hbuilt hdata)
  have hstep : y.label.Step P y.past y.ev.op := hr.guarantee code_guarantee hy
  rw [← hlabel, hz, hsend, hypast, hz] at hstep
  obtain ⟨plaintext', pkg, sig', g, rfl, rfl, hg, hpacked, hdata'⟩ := UploadStep.of_sign hstep
  -- the two structs are the same, and so are the ciphertexts
  have hbuilt' : (pkg.origin P sender.username).toJson.Built fun _ => True :=
    Origin.built (fun _ _ => trivial) (fun _ _ => trivial) rfl rfl
  have horigin := Origin.eq_of_same htimestamp hexpiration
    (same_of_canonicalJson hbuilt hbuilt' hdata hdata')
  obtain ⟨hsender, hrecipient, hfileId, hsha, -, -, -⟩ := Origin.mk.inj horigin
  have hseen' : pkg.ciphertext ∈ seen t :=
    mem_seen hy (shownBy_send hsend ▸ (mem_shown_of_package pkg sig').1)
  have hct : resp.ciphertext = pkg.ciphertext :=
    hcoll (.single (hseen hciphertext)) (.single hseen') (hexdigest_inj hsha)
  obtain ⟨hfor, aesKey', aad', hpkgct⟩ := hpacked.ciphertext
  obtain ⟨aesKey, aad, -, -, hdec⟩ := hsound.decrypted
  obtain ⟨-, -, hdec⟩ := (aesGcmDecrypt_eq_ok P).mp hdec
  rw [hct, hpkgct] at hdec
  obtain rfl := haead.eq_plaintext hdec
  obtain rfl : recipient = session.username := hfor.symm.trans hrecipient.symm
  exact ⟨y, hy, sender, path, expirationSeconds, pkg, data, sig', g, hsender.symm,
    hfileId.symm.trans hsound.fileId_eq, hlabel.symm.trans hz, hlabel ▸ hholds, hpacked,
    hypast.trans (hz ▸ hg), hsend⟩

/-- **A download writes and acknowledges only what its sender has signed for it, and what an
honest sender has sent.**  Whatever the server has answered, the response carries a certificate
of the sender, whose key has signed who sent what to whom under which id, and the plaintext is
the decryption of what was signed; where the sender's signatures are not forged, an upload of the
sender's for this recipient, under this file id, by a program that holds that key, was made of just
that plaintext. -/
theorem download_received (hr : (endpoints P).Run s₀ t js s) (hx : x ∈ t)
    (hl : x.label = .client session (.download fileId))
    (hop : (∃ path data, x.ev.op = .writeFile path data) ∨
      ∃ payload, x.ev.op = .send .DOWNLOAD_ACK payload) :
    ∃ (resp : Response) (plaintext : Bytes),
      (∀ path data, x.ev.op = .writeFile path data → data = plaintext) ∧
      resp.Received P fileId x.past ∧ resp.Sound P session fileId plaintext ∧
      ∀ key, certKey P resp.senderCert = .ok key → Unforgeable P key t →
        (∀ b, (P.sha256 b).length = 32) → CollisionFree P t → P.IdealAead →
        UploadedIn P t key resp.sender session.username fileId plaintext := by
  have hstep : x.label.Step P x.past x.ev.op := hr.guarantee code_guarantee hx
  rw [hl] at hstep
  obtain ⟨resp, plaintext, newer, g, hpast, hopened, hdata⟩ : ∃ (resp : Response) (plaintext : Bytes) (newer g : List Ev),
      x.past = newer ++ g ∧ Opened P session fileId resp plaintext g ∧
      ∀ path data, x.ev.op = .writeFile path data → data = plaintext := by
    rcases hop with ⟨path, data, hop⟩ | ⟨payload, hop⟩
    · rw [hop] at hstep
      obtain ⟨resp, newer, g, hpast, hopened⟩ := DownloadStep.of_writeFile hstep
      refine ⟨resp, data, newer, g, hpast, hopened, fun path' data' hop' => ?_⟩
      exact (Op.writeFile.inj (hop'.symm.trans hop)).2
    · rw [hop] at hstep
      obtain ⟨resp, plaintext, newer, g, hpast, hopened⟩ := DownloadStep.of_acknowledge hstep
      refine ⟨resp, plaintext, newer, g, hpast, hopened, fun path' data' hop' => ?_⟩
      cases hop.symm.trans hop'
  obtain ⟨hsound, msg, env, hmsg, hrest⟩ := hopened.sound
  have hreceived : resp.Received P fileId x.past :=
    ⟨msg, env, hpast ▸ List.mem_append_right _ hmsg, hrest⟩
  exact ⟨resp, plaintext, hdata, hreceived, hsound, fun key hkey hu hlen hcoll haead =>
    exists_upload hr hlen hcoll haead hx hsound hreceived hkey hu⟩

/-! ## A sample run -/

/-- `bob` has the key `B`. -/
def bob : Client.Session := sampleUser "bob" "B"

/-- The text of `alice`'s certificate. -/
def aliceText : PyStr := dumps (.transparent []) storedOptions (.obj alice.clientCert)

/-- The primitives of the run. -/
def relayPrimitives : Primitives := .rolling [(aliceText, .obj alice.clientCert)]

/-- The id of the file. -/
def relayedId : PyStr := uuidStr 0

/-- The routing context of the file. -/
def relayedAad : Bytes := (aadText relayedId (py "alice") (py "bob")).flatMap utf8Char

/-- What `alice` uploads for `bob`. -/
def relayedPackage : Package where
  fileId := relayedId
  recipient := py "bob"
  nonce := (drawing 32).octets AES_NONCE_BYTES
  ciphertext := relayPrimitives.aesGcmEncrypt ((drawing 0).octets AES_KEY_BYTES)
    ((drawing 32).octets AES_NONCE_BYTES) [7, 8, 9] relayedAad
  wrappedKey := relayPrimitives.oaepEncrypt (.numbered 66) ((drawing 0).octets AES_KEY_BYTES) []
  timestamp := 100
  expiration := 1000

/-- What the server has of it, and sends to `bob`. -/
def relayedRow : Server.FileRow where
  fileId := relayedId
  senderId := py "alice"
  recipientId := py "bob"
  uploadTimestamp := 100
  expiration := 1000
  status := .pending
  ciphertextPath := []
  ciphertextSha256 := []
  wrappedKey := relayedPackage.wrappedKey
  aesNonce := relayedPackage.nonce
  aesAad := relayedAad
  senderSignature := match originCanonical relayPrimitives
      (relayedPackage.origin relayPrimitives (py "alice")) with
    | .ok data => relayPrimitives.pssSign (.numbered 65) data []
    | .error _ => []
  senderCertJson := aliceText

/-- `alice` uploads a file, and `bob` downloads it. -/
def relayMoves : List (Move Label Input) :=
  [.start (.client alice (.upload (py "bob") [py "notes"] 900)), .step 0 (drawing 0),
    .step 0 (drawing 0), .step 0 (drawing 0),
    .step 0 (bringing .PUBKEY_RESPONSE [(py "cert", .obj bob.clientCert)])] ++
  List.replicate 4 (.step 0 (drawing 0)) ++ .step 0 (drawing 32) ::
  List.replicate 4 (.step 0 (drawing 0)) ++
  [.start (.client bob (.download relayedId)), .step 1 (drawing 0),
    .step 1 (bringing .DOWNLOAD_RESPONSE
      (Server.downloadPayload (.str relayedId) relayedRow relayedPackage.ciphertext))] ++
  List.replicate 4 (.step 1 (drawing 0)) ++
  [.step 1 (bringing .ACK_OK []), .step 1 (drawing 0), .step 1 (drawing 0)]

/-- The local files: one that `alice` has. -/
def relayFiles : Files := fun path => if path = [py "notes"] then some [7, 8, 9] else none

/-- The run. -/
def relayed : Config Op Op.Res Input Files Label (Except PyExn Outcome) :=
  (endpoints relayPrimitives).play relayFiles relayMoves

theorem run_relayed :
    (endpoints relayPrimitives).Run relayFiles relayed.trace relayed.jobs relayed.store :=
  (endpoints relayPrimitives).run_play relayFiles relayMoves

/-- Whom a received response names as its sender, and the key it shows. -/
def senderOf : Ev → Option (PyStr × Option RsaPublicKey)
  | ⟨.recv, .ok msg⟩ =>
      match (do parseDownload relayPrimitives (← validateEnvelope (.obj msg)).payload relayedId) with
      | .ok resp => some (resp.sender, (certKey relayPrimitives resp.senderCert).toOption)
      | .error _ => none
  | _ => none

theorem relayed_checks :
    relayed.trace.head?.map (fun x => (x.label, x.ev.op, x.past.filterMap senderOf)) =
      some (.client bob (.download relayedId),
        .writeFile (downloadTmpPath (py "bob") relayedId) [7, 8, 9],
        [(py "alice", some (.numbered 65))]) ∧
    vouched 65 relayed.trace = true ∧
    ((hashables (seen relayed.trace).dedup).map relayPrimitives.sha256).Nodup := by
  decide +kernel

/-- What `bob` writes is what `alice` has uploaded. -/
theorem uploadedIn_relayed :
    UploadedIn relayPrimitives relayed.trace (.numbered 65) (py "alice") (py "bob") relayedId
      [7, 8, 9] := by
  obtain ⟨hhead, hvouched, hnodup⟩ := relayed_checks
  obtain ⟨x, hx, hfacts⟩ := Option.map_eq_some_iff.mp hhead
  obtain ⟨hl, hfacts⟩ := Prod.mk.inj hfacts
  obtain ⟨hop, hsenders⟩ := Prod.mk.inj hfacts
  obtain ⟨resp, plaintext, hdata, ⟨msg, env, hmsg, henv, -, hparse⟩, -, hupload⟩ :=
    download_received run_relayed (List.mem_of_mem_head? hx) hl (.inl ⟨_, _, hop⟩)
  obtain rfl := hdata _ _ hop
  have hsender : (resp.sender, (certKey relayPrimitives resp.senderCert).toOption) ∈
      x.past.filterMap senderOf := by
    refine List.mem_filterMap.mpr ⟨_, hmsg, ?_⟩
    rw [senderOf, henv, ok_bind, hparse]
  have hforged : Unforgeable relayPrimitives (.numbered 65) relayed.trace :=
    unforgeable_of_vouched hvouched
  rw [hsenders, List.mem_singleton] at hsender
  obtain ⟨hname, hkey⟩ := Prod.mk.inj hsender
  cases hcert : certKey relayPrimitives resp.senderCert with
  | error e =>
    rw [hcert] at hkey
    cases hkey
  | ok key =>
    rw [hcert] at hkey
    obtain rfl := Option.some.inj hkey
    rw [← hname]
    exact hupload _ hcert hforged (fun _ => length_octetsOf 32 _)
      (collisionFree_of_nodup hnodup) rolling_idealAead

end Network
end ZeroTrust
