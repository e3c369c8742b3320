import ZeroTrust.Ca.Decision
import ZeroTrust.Server.Access
import ZeroTrust.Server.Undisturbed

/-!
# The public key directory

A look-up in the directory reads a file, decodes it, parses it and verifies what it holds, and
each of these steps has exceptions of its own.  The handler has two answers for all of them:
the certificate, or `NOT_FOUND`.

* `LookupRaises`: the contents of a file on which a look-up raises.
* `wp_lookup`: what a look-up comes to, for every content of the file.
* `answersDirectory_iff`: where the handler has an answer.
-/

namespace ZeroTrust
namespace Server

open Python Effects

variable {P : Primitives} {ca : Bytes} {t : Alone}

/-- The contents of a file on which a look-up raises: they are not UTF-8, or `json.loads` raises
something else than `JSONDecodeError` on them, or they are an object that cannot be checked. -/
inductive Unreadable (P : Primitives) (ca data : Bytes) (now : ℤ) : Prop where
  | decode : utf8Decode data = none → Unreadable P ca data now
  | parse {text : PyStr} {e : PyExn} : utf8Decode data = some text → P.jsonLoads text = .error e →
      isMiss e = false → Unreadable P ca data now
  | verify {text : PyStr} {cert : Obj} : utf8Decode data = some text →
      P.jsonLoads text = .ok (.obj cert) → CertRaises P ca cert now → Unreadable P ca data now

/-- A look-up raises: the username is one, and its file cannot be read. -/
def LookupRaises (P : Primitives) (ca : Bytes) (s : ServerState) (username : Json) (now : ℤ) :
    Prop :=
  ∃ path data, pubkeyPathFor username = some path ∧ s.disk path = some data ∧
    Unreadable P ca data now

theorem unreadable_iff {data : Bytes} {text : PyStr} {now : ℤ} (htext : utf8Decode data = some text) :
    Unreadable P ca data now ↔ (∃ e, P.jsonLoads text = .error e ∧ isMiss e = false) ∨
      ∃ cert, P.jsonLoads text = .ok (.obj cert) ∧ CertRaises P ca cert now := by
  constructor
  · rintro (hdecode | ⟨htext', herr, hmiss⟩ | ⟨htext', hjson, hraises⟩)
    · cases htext.symm.trans hdecode
    · obtain rfl := Option.some.inj (htext.symm.trans htext')
      exact .inl ⟨_, herr, hmiss⟩
    · obtain rfl := Option.some.inj (htext.symm.trans htext')
      exact .inr ⟨_, hjson, hraises⟩
  · rintro (⟨e, herr, hmiss⟩ | ⟨cert, hjson, hraises⟩)
    · exact .parse htext herr hmiss
    · exact .verify htext hjson hraises

/-- The look-up of a username whose file is there. -/
theorem lookupRaises_iff {s : ServerState} {username : Json} {path : Path} {data : Bytes} {now : ℤ}
    (hpath : pubkeyPathFor username = some path) (hdata : s.disk path = some data) :
    LookupRaises P ca s username now ↔ Unreadable P ca data now := by
  constructor
  · rintro ⟨path', data', hpath', hdata', h⟩
    obtain rfl := Option.some.inj (hpath.symm.trans hpath')
    obtain rfl := Option.some.inj (hdata.symm.trans hdata')
    exact h
  · exact fun h => ⟨path, data, hpath, hdata, h⟩

theorem listed_iff {s : ServerState} {username : Json} {path : Path} {data : Bytes} {text : PyStr}
    {now : ℤ} {cert : Obj} (hpath : pubkeyPathFor username = some path)
    (hdata : s.disk path = some data) (htext : utf8Decode data = some text) :
    Listed P ca s username now cert ↔ P.jsonLoads text = .ok (.obj cert) ∧
      certOutcome P ca cert now username.asStr = .ok true := by
  constructor
  · rintro ⟨path', data', text', hpath', hdata', htext', hjson, hcheck⟩
    obtain rfl := Option.some.inj (hpath.symm.trans hpath')
    obtain rfl := Option.some.inj (hdata.symm.trans hdata')
    obtain rfl := Option.some.inj (htext.symm.trans htext')
    exact ⟨hjson, certCheck_iff.mp hcheck⟩
  · rintro ⟨hjson, hcheck⟩
    exact ⟨path, data, text, hpath, hdata, htext, hjson, certCheck_iff.mpr hcheck⟩

/-- Where a certificate is listed, its file can be read. -/
theorem Listed.not_raises {key : RsaPublicKey} (hkey : loadPublic P ca = .ok key)
    {s : ServerState} {username : Json} {now : ℤ} {cert : Obj}
    (h : Listed P ca s username now cert) : ¬ LookupRaises P ca s username now := by
  obtain ⟨path, data, text, hpath, hdata, htext, hjson, hcheck⟩ := h
  rw [lookupRaises_iff hpath hdata, unreadable_iff htext]
  rintro (⟨e, herr, -⟩ | ⟨cert', hjson', hraises⟩)
  · cases hjson.symm.trans herr
  · obtain rfl := Json.obj.inj (Except.ok.inj (hjson.symm.trans hjson'))
    obtain ⟨e, he⟩ := (certOutcome_raises hkey).mpr hraises
    cases (certCheck_iff.mp hcheck).symm.trans he

/-- Where a look-up raises, by the content of the file. -/
theorem lookupOutcome_raises {key : RsaPublicKey} (hkey : loadPublic P ca = .ok key)
    {s : ServerState} {username : Json} {now : ℤ} :
    (∃ e, lookupOutcome P ca s username none none now = .error e) ↔
      LookupRaises P ca s username now := by
  unfold lookupOutcome
  cases hpath : pubkeyPathFor username with
  | none =>
    refine iff_of_false (by simp) ?_
    rintro ⟨path, -, hpath', -⟩
    cases hpath.symm.trans hpath'
  | some path =>
    dsimp only
    cases hdata : s.disk path with
    | none =>
      refine iff_of_false (by simp) ?_
      rintro ⟨path', data, hpath', hdata', -⟩
      obtain rfl := Option.some.inj (hpath.symm.trans hpath')
      cases hdata.symm.trans hdata'
    | some data =>
      rw [lookupRaises_iff hpath hdata]
      dsimp only
      cases htext : utf8Decode data with
      | none =>
        have hread : jsonOutcome P none data = .error .unicodeDecodeError := by
          simp only [jsonOutcome, htext]
        exact iff_of_true ⟨_, by rw [hread]; rfl⟩ (.decode htext)
      | some text =>
        rw [unreadable_iff htext]
        cases hjson : P.jsonLoads text with
        | error e =>
          have hread : jsonOutcome P none data = .error e := by
            simp only [jsonOutcome, htext, hjson]
          rw [hread, certFound]
          cases hmiss : isMiss e <;> simp [hmiss]
        | ok v =>
          cases v with
          | obj cert =>
            have hread : jsonOutcome P none data = .ok cert := by
              simp only [jsonOutcome, htext, hjson]
            have hraises := @certOutcome_raises P ca cert now username.asStr key hkey
            rw [hread, certFound]
            cases hout : certOutcome P ca cert now username.asStr with
            | error e => exact iff_of_true ⟨e, rfl⟩ (.inr ⟨cert, rfl, hraises.mp ⟨e, hout⟩⟩)
            | ok b =>
              have hcalm : ¬ CertRaises P ca cert now := by
                intro h
                obtain ⟨e, he⟩ := hraises.mpr h
                cases hout.symm.trans he
              refine iff_of_false ?_ ?_
              · rintro ⟨e, he⟩
                cases b <;> cases he
              · rintro (⟨e, herr, -⟩ | ⟨cert', hjson', h⟩)
                · cases herr
                · obtain rfl := Json.obj.inj (Except.ok.inj hjson')
                  exact hcalm h
          | _ =>
            have hread : jsonOutcome P none data =
                .error (.protocolError (py "must contain a JSON object")) := by
              simp only [jsonOutcome, htext, hjson]
            refine iff_of_false ?_ (by simp)
            rintro ⟨e, he⟩
            rw [hread] at he
            cases he

/-- **A look-up, for every content of the file.** -/
theorem wp_lookup {username : Json} {Q : Alone → Except PyExn (Option Obj) → Prop}
    {key : RsaPublicKey} (hkey : loadPublic P ca = .ok key) (hund : Undisturbed t.inputs)
    (hnone : ∀ k t', Quietly t k t' →
      (∀ cert, ¬ Listed P ca t.store username (t.inputs 2).now cert) →
      ¬ LookupRaises P ca t.store username (t.inputs 2).now → Q t' (.ok none))
    (hsome : ∀ cert t', Quietly t 3 t' → Listed P ca t.store username (t.inputs 2).now cert →
      Q t' (.ok (some cert)))
    (hraise : ∀ e k t', Quietly t k t' →
      LookupRaises P ca t.store username (t.inputs 2).now → Q t' (.error e)) :
    wpE (.solo (exec P)) (loadVerifiedPubkeyCert P ca username) t Q := by
  refine wp_lookupOutcome fun k t' r hr hq hk => ?_
  rw [(hund 0).fault, (hund 1).fault] at hr
  have hraises := @lookupOutcome_raises P ca key hkey t.store username (t.inputs 2).now
  cases r with
  | error e => exact hraise e k t' hq (hraises.mp ⟨e, hr.symm⟩)
  | ok found =>
    cases found with
    | some cert =>
      obtain rfl := hk cert rfl
      exact hsome cert t' hq (lookupOutcome_eq_some.mp hr.symm).2.2
    | none =>
      refine hnone k t' hq (fun cert hl => ?_) fun h => ?_
      · cases hr.trans (lookupOutcome_eq_some.mpr ⟨rfl, rfl, hl⟩)
      · obtain ⟨e, he⟩ := hraises.mpr h
        cases hr.trans he

/-! ## The handler -/

/-- The username that a request asks for. -/
def requested (env : Envelope) : Json := (dictGet env.payload "username").getD .null

/-- The payload of `PUBKEY_RESPONSE`. -/
def pubkeyPayload (cert : Obj) : Obj := [(py "cert", .obj cert)]

/-- The run of `_handle_get_pubkey`. -/
def servePubkey (P : Primitives) (ca : Bytes) (env : Envelope) (s : ServerState)
    (inputs : ℕ → Input) : Outcome Op Op.Res Input ServerState (Except PyExn Unit) :=
  (Solo.start s inputs).run (exec P) (handleGetPubkey P ca env).run

/-- The run of `_load_verified_pubkey_cert`. -/
def lookUp (P : Primitives) (ca : Bytes) (username : Json) (s : ServerState) (inputs : ℕ → Input) :
    Outcome Op Op.Res Input ServerState (Except PyExn (Option Obj)) :=
  (Solo.start s inputs).run (exec P) (loadVerifiedPubkeyCert P ca username).run

/-- The directory has an answer: the certificate that is listed, or `NOT_FOUND`, and no look-up
raises. -/
structure AnswersDirectory (P : Primitives) (ca : Bytes) (env : Envelope) (s : ServerState)
    (inputs : ℕ → Input) : Prop where
  found : ∀ cert, Listed P ca s (requested env) (inputs 2).now cert →
    sent (servePubkey P ca env s inputs).hist = [(.PUBKEY_RESPONSE, pubkeyPayload cert)]
  missed : (∀ cert, ¬ Listed P ca s (requested env) (inputs 2).now cert) →
    sent (servePubkey P ca env s inputs).hist = [(.ERROR, errorPayload "NOT_FOUND")]
  lookup : ∃ cert, (lookUp P ca (requested env) s inputs).value = .ok cert

/-- What reaches the client, by the content of the file. -/
inductive DirectoryReply (P : Primitives) (ca : Bytes) (username : Json) (s : ServerState)
    (inputs : ℕ → Input) : List (MessageType × Obj) → Prop where
  | found {cert : Obj} : Listed P ca s username (inputs 2).now cert →
      Fits P .PUBKEY_RESPONSE (pubkeyPayload cert) (inputs 3) →
      DirectoryReply P ca username s inputs [(.PUBKEY_RESPONSE, pubkeyPayload cert)]
  | tooLong {cert : Obj} : Listed P ca s username (inputs 2).now cert →
      ¬ Fits P .PUBKEY_RESPONSE (pubkeyPayload cert) (inputs 3) →
      DirectoryReply P ca username s inputs []
  | missed : (∀ cert, ¬ Listed P ca s username (inputs 2).now cert) →
      ¬ LookupRaises P ca s username (inputs 2).now →
      DirectoryReply P ca username s inputs [(.ERROR, errorPayload "NOT_FOUND")]
  | raised : LookupRaises P ca s username (inputs 2).now → DirectoryReply P ca username s inputs []

variable {env : Envelope} {s : ServerState} {inputs : ℕ → Input} {key : RsaPublicKey}

theorem sent_servePubkey (hkey : loadPublic P ca = .ok key) (hund : Undisturbed inputs) :
    DirectoryReply P ca (requested env) s inputs (sent (servePubkey P ca env s inputs).hist) := by
  suffices h : wpE (.solo (exec P)) (handleGetPubkey P ca env) (.start s inputs) fun t' _ =>
      DirectoryReply P ca (requested env) s inputs (sent t'.hist) from wp_solo_iff.mp h
  unfold handleGetPubkey
  refine (wpE_bind ..).mpr (wp_lookup hkey hund ?_ ?_ ?_)
  · intro k t' hq hnone hcalm
    refine wp_sendError (hq.undisturbed hund 0) (by decide) fun t'' _ hsent => ?_
    rw [hsent, hq.sent]
    exact .missed hnone hcalm
  · intro cert t' hq hlisted
    have hinput : t'.inputs 0 = inputs 3 := by
      rw [hq.inputs]
      rfl
    refine wp_sendMessage (hq.undisturbed hund 0) (fun hfits t'' _ hsent => ?_)
      fun hlong e t'' _ hsent => ?_
    · rw [hsent, hq.sent]
      exact .found hlisted (hinput ▸ hfits)
    · rw [hsent, hq.sent]
      exact .tooLong hlisted (hinput ▸ hlong)
  · intro e k t' hq hraises
    show DirectoryReply _ _ _ _ _ (sent t'.hist)
    rw [hq.sent]
    exact .raised hraises

/-- A look-up by itself. -/
theorem value_lookUp {username : Json} (hkey : loadPublic P ca = .ok key)
    (hund : Undisturbed inputs) :
    (∃ cert, (lookUp P ca username s inputs).value = .ok cert) ↔
      ¬ LookupRaises P ca s username (inputs 2).now := by
  suffices h : wpE (.solo (exec P)) (loadVerifiedPubkeyCert P ca username) (.start s inputs)
      fun _ r => (∃ cert, r = .ok cert) ↔ ¬ LookupRaises P ca s username (inputs 2).now from
    wp_solo_iff.mp h
  refine wp_lookup hkey hund ?_ ?_ ?_
  · exact fun k t' _ _ hcalm => iff_of_true ⟨_, rfl⟩ hcalm
  · exact fun cert t' _ hlisted => iff_of_true ⟨_, rfl⟩ (hlisted.not_raises hkey)
  · exact fun e k t' _ hraises => iff_of_false (by simp) (not_not.mpr hraises)

/-- **The directory has an answer** unless the file of the username cannot be read, or holds a
good certificate that is too long to be sent. -/
theorem answersDirectory_iff (hkey : loadPublic P ca = .ok key) (hund : Undisturbed inputs) :
    AnswersDirectory P ca env s inputs ↔
      ¬ LookupRaises P ca s (requested env) (inputs 2).now ∧
        ∀ cert, Listed P ca s (requested env) (inputs 2).now cert →
          Fits P .PUBKEY_RESPONSE (pubkeyPayload cert) (inputs 3) := by
  have hvalue := @value_lookUp P ca s inputs key (requested env) hkey hund
  have hreply := @sent_servePubkey P ca env s inputs key hkey hund
  generalize hsent : sent (servePubkey P ca env s inputs).hist = msgs at hreply
  constructor
  · intro h
    have hcalm := hvalue.mp h.lookup
    refine ⟨hcalm, fun cert hlisted => ?_⟩
    have hfound := hsent.symm.trans (h.found cert hlisted)
    cases hreply with
    | found hlisted' hfits =>
      obtain rfl := hlisted.unique hlisted'
      exact hfits
    | tooLong => cases hfound
    | missed hnone => exact absurd hlisted (hnone cert)
    | raised hraises => exact absurd hraises hcalm
  · rintro ⟨hcalm, hfits⟩
    cases hreply with
    | @found cert hlisted =>
      refine ⟨fun cert' hlisted' => ?_, fun hnone => absurd hlisted (hnone cert), hvalue.mpr hcalm⟩
      obtain rfl := hlisted.unique hlisted'
      exact hsent
    | tooLong hlisted hlong => exact absurd (hfits _ hlisted) hlong
    | missed hnone => exact ⟨fun cert hlisted => absurd hlisted (hnone cert), fun _ => hsent,
        hvalue.mpr hcalm⟩
    | raised hraises => exact absurd hraises hcalm

/-! ### Sample directories -/

theorem listed_bob : Listed samplePrimitives [1] sampleInit (.str (py "bob")) 100 bob.peerCert := by
  have hpath : pubkeyPathFor (.str (py "bob")) = some ⟨.pubkeys, py "bob.json"⟩ := by
    decide
  obtain ⟨data, hdata⟩ : ∃ data, sampleInit.disk ⟨.pubkeys, py "bob.json"⟩ = some data :=
    Option.isSome_iff_exists.mp (by decide +kernel)
  exact ⟨_, data, bobText, hpath, hdata, (disk_sampleInit hdata).1, jsonLoads_bobText,
    certCheck_bob⟩

/-- A request for the key of `bob`. -/
def askForBob : Envelope := .numbered 1 .GET_PUBKEY 100 [(py "username", .str (py "bob"))]

theorem fits_pubkeyPayload_bob :
    Fits samplePrimitives .PUBKEY_RESPONSE (pubkeyPayload bob.peerCert) (sampleInput 100) :=
  fits_of_le ⟨rfl, by decide, rfl, 0, rfl⟩ (by decide +kernel)

/-- The sample directory has an answer. -/
theorem answersDirectory_bob :
    AnswersDirectory samplePrimitives [1] askForBob sampleInit fun _ => sampleInput 100 := by
  have hkey : loadPublic samplePrimitives [1] = .ok (.numbered 1) := rfl
  have hund : Undisturbed fun _ => sampleInput 100 := undisturbed_sampleInput (by decide)
  refine (answersDirectory_iff hkey hund).mpr ⟨listed_bob.not_raises hkey, fun cert hlisted => ?_⟩
  obtain rfl := listed_bob.unique hlisted
  exact fits_pubkeyPayload_bob

/-- A directory where the file of `bob` is one octet that is not UTF-8. -/
def garbledInit : ServerState := .init fun name => if name = py "bob.json" then some [0xFF] else none

/-- It has no answer: `UnicodeDecodeError` is raised. -/
theorem garbledInit_no_answer :
    ¬ AnswersDirectory samplePrimitives [1] askForBob garbledInit fun _ => sampleInput 100 := by
  have hvalue : (lookUp samplePrimitives [1] (requested askForBob) garbledInit
      fun _ => sampleInput 100).value = .error .unicodeDecodeError := by decide +kernel
  intro h
  obtain ⟨cert, hcert⟩ := h.lookup
  cases hvalue.symm.trans hcert

end Server
end ZeroTrust
