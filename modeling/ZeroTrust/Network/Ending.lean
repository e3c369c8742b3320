import ZeroTrust.Effects.InTurn
import ZeroTrust.Network.Completion

/-!
# Handshakes that end

Whatever the two ends of a connection are given, and whatever fails, neither waits for ever: the
five messages have an order, and an end hears only what it is the other's turn to say.

* `clientTurn`, `serverTurn`: whose messages they are.
* `speech`: an end of a connection says and hears messages.
* `keepsTo_performClientHandshake`, `keepsTo_performServerHandshake`: both ends keep to the order.
* `handshake_ends`: every order of the moves comes to the same two results.
-/

namespace ZeroTrust
namespace Network

open Python Effects Endpoint

/-- The client says `HELLO`, `KEY_EXCHANGE` and `AUTH_RESPONSE`. -/
def clientTurn (n : ℕ) : Bool := n = 0 || n = 2 || n = 3

/-- The server says `HELLO` and `SESSION_OK`. -/
def serverTurn (n : ℕ) : Bool := n = 1 || n = 4

theorem takeTurns : TakeTurns clientTurn serverTurn := by
  intro n h
  simp only [clientTurn, serverTurn, Bool.or_eq_true, decide_eq_true_iff, Bool.or_eq_false_iff,
    decide_eq_false_iff_not] at h ⊢
  omega

theorem selfDelimiting_isFrame : SelfDelimiting IsFrame where
  ne_nil h := h.ne_nil
  append_inj h h' heq := h.append_inj h' heq

variable {P : Primitives} {cut : Input → ℕ → ℕ} {α β : Type} {up : Except PyExn α → Bool}

/-- An operation that answers has not failed. -/
theorem exists_of_reading {γ : Type} {x : Except PyExn γ} {i : Input} {s : Files}
    (h : (reading i s x).1.isOk = true) :
    i.fault = none ∧ ∃ a, x = .ok a ∧ (reading i s x).1 = .ok a := by
  unfold reading at h ⊢
  cases hfault : i.fault with
  | some e =>
    rw [hfault] at h
    cases h
  | none =>
    rw [hfault] at h
    cases x with
    | error e => cases h
    | ok a => exact ⟨rfl, a, rfl, rfl⟩

variable (P cut α up) in
/-- An end of a connection says frames, and hears frames. -/
def speech : Speech (socket P cut α up) IsFrame where
  speaks := isSending
  good {_} r := r.isOk
  silent {e} h := by
    cases e with
    | recv => rfl
    | _ => cases h
  speak_of_not {e} i r h := by
    cases e with
    | send => cases h
    | _ => rfl
  speak_whole {e i s} h hgood := by
    cases e with
    | send type payload =>
      obtain ⟨-, _, hmap, hok⟩ := exists_of_reading hgood
      cases hframe : framed P type payload i with
      | error e =>
        rw [hframe] at hmap
        cases hmap
      | ok frame =>
        refine ⟨frame, isFrame_of_packFrame hframe, ?_⟩
        show speakFrame P _ i (reading i s _).1 = _
        rw [hok]
        show (((framed P type payload i).toOption.getD []), false) = _
        rw [hframe]
        rfl
    | _ => cases h
  hear_whole {e i i' p rest s} h hhear hgood := by
    cases e with
    | recv =>
      obtain ⟨hfault, msg, hmsg, -⟩ := exists_of_reading hgood
      have hhear : hearFrame P cut i p = some (i', rest) := hhear
      unfold hearFrame at hhear
      split_ifs at hhear with hi
      · obtain ⟨rfl, rfl⟩ := Prod.mk.inj (Option.some.inj hhear)
        rw [hfault] at hi
        cases hi
      · obtain ⟨rfl, rfl⟩ := Prod.mk.inj (Option.some.inj hhear)
        obtain ⟨frame, rest, hframe, hdata, hrest⟩ := exists_frame_of_received hmsg
        exact ⟨frame, hframe, hdata.trans (congrArg (frame ++ ·) hrest.symm)⟩
    | _ => cases h
  hear_of_whole {i w rest closed} hw := by
    show hearFrame P cut i ⟨w ++ rest, closed⟩ ≠ none
    unfold hearFrame
    rw [hw.whole, Bool.false_and, if_neg Bool.false_ne_true]
    split_ifs <;> exact Option.some_ne_none _
  hear_of_closed {i data} := by
    show hearFrame P cut i ⟨data, true⟩ ≠ none
    unfold hearFrame
    rw [Bool.not_true, Bool.and_false, if_neg Bool.false_ne_true]
    split_ifs <;> exact Option.some_ne_none _

/-! ## The parts of the handshake -/

section

variable {mine theirs : ℕ → Bool} {n : ℕ}

/-- An operation that neither sends nor receives. -/
theorem keepsTo_act {op : Op} (hs : isSending op = false) (hh : isRecv op = false) :
    (speech P cut α up).KeepsTo mine theirs (act op : EndpointM op.Ans) n n :=
  fun _ hn => wpE_act.mpr ⟨fun hhears => absurd hhears (ne_true_of_eq_false hh),
    fun _ _ _ => (Speech.place_of_other hs hh).trans hn⟩

theorem keepsTo_sendMessage {type : MessageType} {payload : Obj} (hmine : mine n = true) :
    (speech P cut α up).KeepsTo mine theirs (sendMessage type payload) n (n + 1) := by
  refine fun h hn => wpE_act.mpr ⟨fun hhears => absurd hhears Bool.false_ne_true, fun r a ha => ?_⟩
  subst ha
  exact (Speech.place_speaks rfl).mpr ⟨n, hn, rfl, hmine, rfl⟩

theorem keepsTo_recvEnvelope (htheirs : theirs n = true) :
    (speech P cut α up).KeepsTo mine theirs recvEnvelope n (n + 1) := by
  refine .bind (m := n + 1) (fun h hn => wpE_act.mpr ⟨fun _ => ⟨n, hn, htheirs⟩, fun r a ha => ?_⟩)
    fun _ => Speech.keepsTo_raising _
  subst ha
  exact (Speech.place_hears rfl).mpr ⟨n, hn, rfl, htheirs, rfl⟩

theorem keepsTo_verifyCertificate {cert : Json} {ca : Bytes} {subject : Option PyStr} :
    (speech P cut α up).KeepsTo mine theirs
      (verifyCertificate P (act Op.time : EndpointM ℤ) cert ca subject) n n := by
  intro h hn
  refine wpE_verifyCertificate (fun _ _ _ _ => hn) fun c _ _ => ?_
  refine wpE_mono _ (@keepsTo_act P cut α up _ _ n .time rfl rfl h hn) fun h' r hr => ?_
  cases r with
  | ok now => exact fun _ _ => hr now rfl
  | error e =>
    intro a ha
    cases ha

theorem raises_fail {γ : Type} {reason : PyStr} :
    (speech P cut α up).Raises mine theirs (Server.fail reason : EndpointM γ) := by
  refine .attempt (fun h => wpE_act.mpr
    ⟨fun hhears => absurd hhears Bool.false_ne_true, fun _ => trivial⟩) fun r => ?_
  split <;> exact Speech.raises_throw _

theorem keepsTo_receiveOrFail {type : MessageType} {what : String} (htheirs : theirs n = true) :
    (speech P cut α up).KeepsTo mine theirs (Server.receiveOrFail type what) n (n + 1) := by
  refine (keepsTo_recvEnvelope htheirs).attempt (fun env => ?_) fun e => ?_
  · dsimp only
    split_ifs
    · exact raises_fail.keepsTo
    · exact Speech.keepsTo_pure _
  · cases e with
    | protocolError msg => exact raises_fail
    | _ => exact Speech.raises_throw _

end

variable {me : Party}

/-- **The client keeps to the order.** -/
theorem keepsTo_performClientHandshake {subject : Option PyStr} :
    (speech P cut α up).KeepsTo clientTurn serverTurn
      (Client.performClientHandshake P me subject) 0 5 := by
  refine .bind (m := 2) ?_ fun x => .bind (m := 4) ?_ fun y => ?_
  · refine (keepsTo_act rfl rfl).bind fun nonce => (keepsTo_sendMessage rfl).bind fun _ =>
      (keepsTo_recvEnvelope rfl).bind fun hello => ?_
    split_ifs
    · exact (Speech.raises_throw _).keepsTo
    · split
      · exact (Speech.raises_throw _).keepsTo
      · refine keepsTo_verifyCertificate.bind fun good => ?_
        cases good with
        | false => exact (Speech.raises_throw _).keepsTo
        | true => exact (Speech.keepsTo_raising _).bind fun _ => Speech.keepsTo_pure _
  · exact (keepsTo_act rfl rfl).bind fun _ => (keepsTo_act rfl rfl).bind fun _ =>
      (keepsTo_sendMessage rfl).bind fun _ => (Speech.keepsTo_raising _).bind fun _ =>
        (keepsTo_act rfl rfl).bind fun _ => (keepsTo_sendMessage rfl).bind fun _ =>
          Speech.keepsTo_pure _
  · refine (keepsTo_recvEnvelope rfl).attempt (fun reply => ?_) fun e => ?_
    · exact (Speech.keepsTo_raising _).bind fun _ => Speech.keepsTo_raising _
    · cases e <;> exact Speech.raises_throw _

/-- **The server keeps to the order.** -/
theorem keepsTo_performServerHandshake :
    (speech P cut α up).KeepsTo serverTurn clientTurn (Server.performServerHandshake P me) 0 5 := by
  refine .bind (m := 1) ?_ fun x => .bind (m := 3) ?_ fun e => .bind (m := 4) ?_ fun h => ?_
  · refine (keepsTo_receiveOrFail rfl).bind fun payload => ?_
    split
    · exact raises_fail.keepsTo
    · refine keepsTo_verifyCertificate.bind fun good => ?_
      cases good with
      | false => exact raises_fail.keepsTo
      | true => exact (Speech.keepsTo_raising _).bind fun _ => Speech.keepsTo_pure _
  · refine (keepsTo_act rfl rfl).bind fun nonce => (keepsTo_sendMessage rfl).bind fun _ =>
      (keepsTo_receiveOrFail rfl).bind fun payload => ?_
    split
    · exact raises_fail.keepsTo
    · split
      · exact raises_fail.keepsTo
      · exact (Speech.raises_throw _).keepsTo
      · split_ifs
        · exact raises_fail.keepsTo
        · exact Speech.keepsTo_pure _
  · refine (Speech.keepsTo_raising _).bind fun data => (keepsTo_receiveOrFail rfl).bind
      fun payload => ?_
    split
    · exact raises_fail.keepsTo
    · refine (Speech.keepsTo_raising _).bind fun good => ?_
      cases good with
      | false => exact raises_fail.keepsTo
      | true => exact Speech.keepsTo_pure _
  · exact (Speech.keepsTo_raising _).bind fun _ => (keepsTo_act rfl rfl).bind fun _ =>
      (keepsTo_sendMessage rfl).bind fun _ => Speech.keepsTo_pure _

/-! ## Two ends -/

/-- An end of a handshake attends to the other, from the beginning. -/
theorem attends_of_keepsTo {mine theirs : ℕ → Bool} {x : EndpointM SessionState}
    (hx : (speech P cut SessionState fun r => !r.isOk).KeepsTo mine theirs x 0 5)
    (hlast : ∀ m, 5 ≤ m → mine m = false) {t : (handshakeEnd P cut).Site} (hist : t.here.hist = [])
    (hopen : t.out.closed = false) :
    (speech P cut SessionState fun r => !r.isOk).Attends mine theirs x.run t where
  patient := by
    rw [hist]
    refine Prog.wp_mono _ (hx [] rfl) fun h r hr => ?_
    cases r with
    | ok state => exact .inr ⟨5, hr state rfl, hlast⟩
    | error e => exact .inl rfl
  closed hc := by
    rw [hopen] at hc
    cases hc

/-- **Handshakes end.**  Whatever certificates, keys and inputs the two ends have, whatever fails,
and however the octets are cut: no order of the operations goes on for ever or leaves an end
waiting, and all orders come to the same two results. -/
theorem handshake_ends (P : Primitives) (m : Meeting) : (m.start P).ComesTo Ended := by
  have hclient : ∀ k, 5 ≤ k → clientTurn k = false := by
    intro k hk
    simp only [clientTurn, Bool.or_eq_false_iff, decide_eq_false_iff_not]
    omega
  have hserver : ∀ k, 5 ≤ k → serverTurn k = false := by
    intro k hk
    simp only [serverTurn, Bool.or_eq_false_iff, decide_eq_false_iff_not]
    omega
  have hstart : Ordered (speech P m.clientCut SessionState fun r => !r.isOk)
      (speech P m.serverCut SessionState fun r => !r.isOk) clientTurn serverTurn (m.start P) := by
    refine ⟨attends_of_keepsTo keepsTo_performClientHandshake hclient rfl rfl,
      attends_of_keepsTo keepsTo_performServerHandshake hserver rfl rfl, ?_⟩
    rintro i j ⟨⟩ ⟨⟩
    exact ⟨.nil, .nil, fun n hn hlt => absurd hlt (Nat.not_lt_zero n),
      fun n hn hlt => absurd hlt (Nat.not_lt_zero n)⟩
  exact comesTo_ended hstart selfDelimiting_isFrame takeTurns

end Network
end ZeroTrust
