import ZeroTrust.Effects.Link

/-!
# Ends that speak in turn

Messages are numbered as they are said, and it is the turn of one end to say each of them.  An end
that hears only when it is the other's turn, and only as long as nothing has gone wrong, may still
speak out of turn, or end at any time: it does not keep the other one waiting if it then hangs up,
or has nothing more to say.  Two such ends never wait for each other.

* `Speech`: which operations of an end speak and hear, and what messages are.
* `Speech.place`: how many messages an end has said and heard in turn.
* `Speech.KeepsTo`: a part of a program hears in turn only; its rules follow the program.
* `Speech.Passes`: what a move does to the place of an end, and to what is under way.
* `Between`: what one end has said and the other has not heard is under way.
* `comesTo_ended`: every run of two ends that speak in turn comes to an end.
-/

namespace ZeroTrust
namespace Effects

variable {M : Type}

/-! ## Messages -/

/-- Messages that can be told apart in a stream. -/
structure SelfDelimiting (Whole : List M → Prop) : Prop where
  ne_nil : ∀ {w}, Whole w → w ≠ []
  append_inj : ∀ {w w' rest rest'}, Whole w → Whole w' → w ++ rest = w' ++ rest' →
    w = w' ∧ rest = rest'

/-- So many messages in a row. -/
inductive Messages (Whole : List M → Prop) : ℕ → List M → Prop where
  | nil : Messages Whole 0 []
  | cons {k : ℕ} {w data : List M} : Whole w → Messages Whole k data →
      Messages Whole (k + 1) (w ++ data)

section

variable {Whole : List M → Prop} {k : ℕ} {w data rest : List M}

theorem Messages.concat (h : Messages Whole k data) (hw : Whole w) :
    Messages Whole (k + 1) (data ++ w) := by
  induction h with
  | nil =>
    rw [List.nil_append, ← List.append_nil w]
    exact .cons hw .nil
  | cons hw' _ ih =>
    rw [List.append_assoc]
    exact .cons hw' ih

/-- Hearing takes the first message. -/
theorem Messages.of_append (hself : SelfDelimiting Whole) (h : Messages Whole k (w ++ rest))
    (hw : Whole w) : ∃ n, k = n + 1 ∧ Messages Whole n rest := by
  generalize hdata : w ++ rest = data at h
  cases h with
  | nil => exact absurd (List.append_eq_nil_iff.mp hdata).1 (hself.ne_nil hw)
  | cons hw' hrest =>
    obtain ⟨-, rfl⟩ := hself.append_inj hw hw' hdata
    exact ⟨_, rfl, hrest⟩

theorem Messages.exists_whole (h : Messages Whole k data) (hk : 0 < k) :
    ∃ w rest, Whole w ∧ data = w ++ rest := by
  cases h with
  | nil => exact absurd hk (Nat.lt_irrefl 0)
  | cons hw _ => exact ⟨_, _, hw, rfl⟩

end

/-- No message is the turn of both ends. -/
def TakeTurns (mine theirs : ℕ → Bool) : Prop := ∀ n, mine n = true → theirs n = false

theorem TakeTurns.symm {mine theirs : ℕ → Bool} (h : TakeTurns mine theirs) :
    TakeTurns theirs mine := by
  intro n htheirs
  rw [Bool.eq_false_iff]
  exact fun hmine => Bool.false_ne_true ((h n hmine).symm.trans htheirs)

/-- How an end speaks and hears, message by message. -/
structure Speech (A : Port M) (Whole : List M → Prop) where
  /-- Whether an operation speaks. -/
  speaks : A.E → Bool
  /-- Whether an operation has done what it was to do. -/
  good : {e : A.E} → A.R e → Bool
  silent : ∀ {e}, A.hears e = true → speaks e = false
  speak_of_not : ∀ {e i r}, speaks e = false → A.speak e i r = ([], false)
  speak_whole : ∀ {e i s}, speaks e = true → good (A.exec e i s).1 = true →
    ∃ w, Whole w ∧ A.speak e i (A.exec e i s).1 = (w, false)
  hear_whole : ∀ {e i i' p rest s}, A.hears e = true → A.hear i p = some (i', rest) →
    good (A.exec e i' s).1 = true → ∃ w, Whole w ∧ p.data = w ++ rest
  hear_of_whole : ∀ {i w rest closed}, Whole w → A.hear i ⟨w ++ rest, closed⟩ ≠ none
  hear_of_closed : ∀ {i data}, A.hear i ⟨data, true⟩ ≠ none

namespace Speech

variable {A B : Port M} {Whole : List M → Prop} (S : Speech A Whole) (T : Speech B Whole)
  (mine theirs : ℕ → Bool)

/-! ## One end -/

/-- One more message, in turn. -/
def advance (turn : ℕ → Bool) (good : Bool) (n : ℕ) : Option ℕ :=
  if good && turn n then some (n + 1) else none

/-- How many messages have been said and heard in turn; `none` where anything else has been said,
or anything has failed. -/
def place : List (Event A.E A.R) → Option ℕ
  | [] => some 0
  | ev :: h =>
      if S.speaks ev.op then (place h).bind (advance mine (S.good ev.res))
      else if A.hears ev.op then (place h).bind (advance theirs (S.good ev.res))
      else place h

/-- What is heard is heard in turn. -/
def Patient (h : List (Event A.E A.R)) (e : A.E) : Prop :=
  A.hears e = true → ∃ n, S.place mine theirs h = some n ∧ theirs n = true

/-- An end may end: it hangs up, or has said all it has to say. -/
def Settled (h : List (Event A.E A.R)) (a : A.α) : Prop :=
  A.hangsUp a = true ∨
    ∃ n, S.place mine theirs h = some n ∧ ∀ m, n ≤ m → mine m = false

/-- An end hears in turn only, and closes the connection no earlier than it must. -/
structure Attends (p : Prog A.E A.R A.α) (t : A.Site) : Prop where
  patient : p.wp (.isolated (S.Patient mine theirs)) t.here.hist (S.Settled mine theirs)
  closed : t.out.closed = true →
    (∃ a, p = .pure a) ∨ S.place mine theirs t.here.hist = none

/-- What a move does to the place of an end, and to what is under way. -/
inductive Passes (t t' : A.Site) : Prop where
  | astray : S.place mine theirs t'.here.hist = none → Passes t t'
  | said {i : ℕ} {w : List M} : S.place mine theirs t.here.hist = some i → mine i = true →
      S.place mine theirs t'.here.hist = some (i + 1) → Whole w →
      t'.out.data = t.out.data ++ w → t'.inn.data = t.inn.data → Passes t t'
  | heard {i : ℕ} {w : List M} : S.place mine theirs t.here.hist = some i →
      S.place mine theirs t'.here.hist = some (i + 1) → Whole w →
      t.inn.data = w ++ t'.inn.data → t'.out.data = t.out.data → Passes t t'
  | other : S.place mine theirs t'.here.hist = S.place mine theirs t.here.hist →
      t'.out.data = t.out.data → t'.inn.data = t.inn.data → Passes t t'

variable {S T mine theirs}

theorem advance_eq_some {turn : ℕ → Bool} {good : Bool} {n k : ℕ} :
    advance turn good n = some k ↔ good = true ∧ turn n = true ∧ k = n + 1 := by
  rw [advance, Option.ite_none_right_eq_some, Bool.and_eq_true, Option.some.injEq, and_assoc,
    @eq_comm _ (n + 1)]

section

variable {h : List (Event A.E A.R)} {ev : Event A.E A.R} {k : ℕ}

theorem place_of_other (hs : S.speaks ev.op = false) (hh : A.hears ev.op = false) :
    S.place mine theirs (ev :: h) = S.place mine theirs h := by
  rw [place, if_neg (ne_true_of_eq_false hs), if_neg (ne_true_of_eq_false hh)]

theorem place_speaks (hs : S.speaks ev.op = true) :
    S.place mine theirs (ev :: h) = some k ↔ ∃ n, S.place mine theirs h = some n ∧
      S.good ev.res = true ∧ mine n = true ∧ k = n + 1 := by
  simp only [place, if_pos hs, Option.bind_eq_some_iff, advance_eq_some]

theorem place_hears (hh : A.hears ev.op = true) :
    S.place mine theirs (ev :: h) = some k ↔ ∃ n, S.place mine theirs h = some n ∧
      S.good ev.res = true ∧ theirs n = true ∧ k = n + 1 := by
  simp only [place, if_neg (ne_true_of_eq_false (S.silent hh)), if_pos hh, Option.bind_eq_some_iff,
    advance_eq_some]

/-- What has gone wrong stays wrong. -/
theorem place_cons_of_none (hp : S.place mine theirs h = none) :
    S.place mine theirs (ev :: h) = none := by
  rw [place, hp]
  simp only [Option.bind_none, ite_self]

end

/-- **What an operation does**, by what kind of operation it is. -/
theorem passes_of_act {t t' : A.Site} {e : A.E} {r : A.R e}
    (hclosed : t.out.closed = true → S.place mine theirs t.here.hist = none)
    (hact : t.act e = some (r, t')) : S.Passes mine theirs t t' := by
  obtain ⟨i, inn, hsupply, rfl, rfl⟩ := Port.Site.act_eq_some.mp hact
  cases hplace : S.place mine theirs
      (⟨e, (A.exec e i t.here.store).1⟩ :: t.here.hist) with
  | none => exact .astray hplace
  | some k =>
    cases hs : S.speaks e with
    | true =>
      obtain ⟨n, hn, hgood, hmine, rfl⟩ := (place_speaks hs).mp hplace
      obtain ⟨w, hw, hspeak⟩ := S.speak_whole hs hgood
      have hopen : t.out.closed = false := by
        rw [Bool.eq_false_iff]
        exact fun hc => Option.some_ne_none n (hn.symm.trans (hclosed hc))
      have hh : A.hears e = false := by
        rw [Bool.eq_false_iff]
        exact fun hh => Bool.false_ne_true ((S.silent hh).symm.trans hs)
      rw [Port.supply, if_neg (ne_true_of_eq_false hh)] at hsupply
      obtain ⟨rfl, rfl⟩ := Prod.mk.inj (Option.some.inj hsupply)
      refine .said hn hmine hplace hw ?_ rfl
      dsimp only
      rw [hspeak, Pipe.put_of_open hopen]
    | false =>
      have hquiet : t.out.put (A.speak e i (A.exec e i t.here.store).1).1
          (A.speak e i (A.exec e i t.here.store).1).2 = t.out := by
        rw [S.speak_of_not hs, Pipe.put_nil_false]
      cases hh : A.hears e with
      | true =>
        obtain ⟨n, hn, hgood, -, rfl⟩ := (place_hears hh).mp hplace
        rw [Port.supply, if_pos hh] at hsupply
        obtain ⟨⟨i', rest⟩, hhear, hx⟩ := Option.map_eq_some_iff.mp hsupply
        obtain ⟨rfl, rfl⟩ := Prod.mk.inj hx
        obtain ⟨w, hw, hdata⟩ := S.hear_whole hh hhear hgood
        exact .heard hn hplace hw hdata (congrArg Pipe.data hquiet)
      | false =>
        rw [Port.supply, if_neg (ne_true_of_eq_false hh)] at hsupply
        obtain ⟨rfl, rfl⟩ := Prod.mk.inj (Option.some.inj hsupply)
        exact .other (place_of_other hs hh) (congrArg Pipe.data hquiet) rfl

/-! ### Parts of a program -/

section

variable {α β ε : Type}

variable (S mine theirs) in
/-- A part of a program hears in turn only, and takes the end from one place to another. -/
def KeepsTo (x : ExceptT ε (Prog A.E A.R) α) (n m : ℕ) : Prop :=
  ∀ h, S.place mine theirs h = some n → wpE (.isolated (S.Patient mine theirs)) x h
    fun h' r => ∀ a, r = .ok a → S.place mine theirs h' = some m

variable (S mine theirs) in
/-- A part of a program hears nothing, and raises. -/
def Raises (x : ExceptT ε (Prog A.E A.R) α) : Prop :=
  ∀ h, wpE (.isolated (S.Patient mine theirs)) x h fun _ r => ∀ a, r ≠ .ok a

variable {x : ExceptT ε (Prog A.E A.R) α} {n m k : ℕ}

theorem raises_throw (e : ε) :
    S.Raises mine theirs (throw e : ExceptT ε (Prog A.E A.R) α) := by
  intro h
  rw [wpE_throw]
  intro a ha
  cases ha

theorem Raises.wp (hx : S.Raises mine theirs x) (h : List (Event A.E A.R))
    {Q : List (Event A.E A.R) → α → Prop} :
    wpE (.isolated (S.Patient mine theirs)) x h fun h' r => ∀ a, r = .ok a → Q h' a :=
  wpE_mono _ (hx h) fun _ _ hr a ha => absurd ha (hr a)

theorem Raises.keepsTo (hx : S.Raises mine theirs x) : S.KeepsTo mine theirs x n m :=
  fun h _ => hx.wp h

theorem keepsTo_raising (r : Except ε α) :
    S.KeepsTo mine theirs (raising r : ExceptT ε (Prog A.E A.R) α) n n :=
  fun _ hg _ _ => hg

theorem keepsTo_pure (a : α) :
    S.KeepsTo mine theirs (pure a : ExceptT ε (Prog A.E A.R) α) n n :=
  fun _ hg _ _ => hg

/-- **Sequencing.** -/
theorem KeepsTo.bind {f : α → ExceptT ε (Prog A.E A.R) β} (hx : S.KeepsTo mine theirs x n m)
    (hf : ∀ a, S.KeepsTo mine theirs (f a) m k) : S.KeepsTo mine theirs (x >>= f) n k := by
  intro g hg
  rw [wpE_bind]
  refine wpE_mono _ (hx g hg) fun g' r hr => ?_
  cases r with
  | ok a => exact hf a g' (hr a rfl)
  | error e =>
    intro a ha
    cases ha

/-- **Handlers.**  Where something has been raised, nothing is heard any more. -/
theorem KeepsTo.attempt {f : Except ε α → ExceptT ε (Prog A.E A.R) β}
    (hx : S.KeepsTo mine theirs x n m) (hok : ∀ a, S.KeepsTo mine theirs (f (.ok a)) m k)
    (herror : ∀ e, S.Raises mine theirs (f (.error e))) :
    S.KeepsTo mine theirs (attempt x >>= f) n k := by
  intro g hg
  rw [wpE_bind, wpE_attempt]
  refine wpE_mono _ (hx g hg) fun g' r hr => ?_
  cases r with
  | ok a => exact hok a g' (hr a rfl)
  | error e => exact (herror e).wp g'

/-- Something is tried, and then something is raised. -/
theorem Raises.attempt {f : Except ε α → ExceptT ε (Prog A.E A.R) β}
    (hx : ∀ h, wpE (.isolated (S.Patient mine theirs)) x h fun _ _ => True)
    (hf : ∀ r, S.Raises mine theirs (f r)) : S.Raises mine theirs (attempt x >>= f) := by
  intro g
  rw [wpE_bind, wpE_attempt]
  exact wpE_mono _ (hx g) fun g' _ _ => hf _ g'

end

/-- A direction that is closed was closed before, or by what has gone wrong. -/
theorem place_of_closed {t t' : A.Site} {e : A.E} {r : A.R e}
    (hclosed : t.out.closed = true → S.place mine theirs t.here.hist = none)
    (hact : t.act e = some (r, t')) (h : t'.out.closed = true) :
    S.place mine theirs t'.here.hist = none := by
  obtain ⟨i, inn, -, rfl, rfl⟩ := Port.Site.act_eq_some.mp hact
  cases hc : t.out.closed with
  | true => exact place_cons_of_none (hclosed hc)
  | false =>
    dsimp only at h ⊢
    rw [Pipe.put_of_open hc] at h
    by_contra hsome
    obtain ⟨k, hk⟩ := Option.ne_none_iff_exists'.mp hsome
    cases hs : S.speaks e with
    | true =>
      obtain ⟨-, -, hgood, -⟩ := (place_speaks hs).mp hk
      obtain ⟨w, -, hspeak⟩ := S.speak_whole hs hgood
      rw [hspeak] at h
      cases h
    | false =>
      rw [S.speak_of_not hs] at h
      cases h

/-- **An end goes on as it is.** -/
theorem Attends.moves {t t' : A.Site} {p p' : Prog A.E A.R A.α} (h : S.Attends mine theirs p t)
    (hmove : t.Moves p p' t') : S.Attends mine theirs p' t' ∧ S.Passes mine theirs t t' := by
  cases hmove with
  | close hup hopen =>
    refine ⟨⟨.inl hup, fun _ => .inl ⟨_, rfl⟩⟩, .other rfl ?_ rfl⟩
    dsimp only
    rw [Pipe.put_of_open hopen, List.append_nil]
  | @op e k r t' hact =>
    obtain ⟨-, hwp⟩ := wp_isolated_op.mp h.patient
    have hclosed : t.out.closed = true → S.place mine theirs t.here.hist = none := by
      intro hc
      refine (h.closed hc).resolve_left ?_
      rintro ⟨a, ha⟩
      cases ha
    refine ⟨⟨?_, fun hc => .inr (place_of_closed hclosed hact hc)⟩, passes_of_act hclosed hact⟩
    obtain ⟨i, inn, -, rfl, rfl⟩ := Port.Site.act_eq_some.mp hact
    exact hwp _

/-- An end that does not move. -/
inductive Halted (mine theirs : ℕ → Bool) (p : Prog A.E A.R A.α) (t : A.Site) : Prop where
  | gone {a : A.α} : p = .pure a → t.out.closed = true → Halted mine theirs p t
  | ended {a : A.α} {n : ℕ} : p = .pure a → A.hangsUp a = false →
      S.place mine theirs t.here.hist = some n → (∀ m, n ≤ m → mine m = false) →
      Halted mine theirs p t
  | waits {n : ℕ} : S.place mine theirs t.here.hist = some n → theirs n = true →
      t.inn.closed = false → (∀ w rest, Whole w → t.inn.data ≠ w ++ rest) →
      Halted mine theirs p t

theorem Attends.halted {t : A.Site} {p : Prog A.E A.R A.α} (h : S.Attends mine theirs p t)
    (hstuck : ∀ p' t', ¬ t.Moves p p' t') : S.Halted mine theirs p t := by
  cases p with
  | pure a =>
    cases hup : A.hangsUp a with
    | true =>
      cases hc : t.out.closed with
      | true => exact .gone rfl hc
      | false => exact absurd (.close hup hc) (hstuck _ _)
    | false =>
      obtain ⟨n, hn, hsaid⟩ := Or.resolve_left h.patient (ne_true_of_eq_false hup)
      exact .ended rfl hup hn hsaid
  | op e k =>
    have hwaits : A.supply e (t.here.inputs 0) t.inn = none := by
      rw [Option.eq_none_iff_forall_ne_some]
      rintro ⟨i, inn⟩ hsupply
      exact hstuck _ _ (.op (Port.Site.act_eq_some.mpr ⟨i, inn, hsupply, rfl, rfl⟩))
    unfold Port.supply at hwaits
    split_ifs at hwaits with hh
    rw [Option.map_eq_none_iff] at hwaits
    obtain ⟨n, hn, htheirs⟩ := (wp_isolated_op.mp h.patient).1 hh
    refine .waits hn htheirs ?_ fun w rest hw hdata => ?_
    · rw [Bool.eq_false_iff]
      intro hc
      exact S.hear_of_closed ((congrArg (A.hear _ ⟨t.inn.data, ·⟩) hc).symm.trans hwaits)
    · exact S.hear_of_whole hw ((congrArg (A.hear _ ⟨·, t.inn.closed⟩) hdata).symm.trans hwaits)

end Speech

/-! ## Two ends -/

section

variable {A B : Port M} {Whole : List M → Prop} {mine theirs : ℕ → Bool}

/-- One end has come to a place, and the other to another: the messages between the two places are
under way. -/
structure Between (Whole : List M → Prop) (mine theirs : ℕ → Bool) (i j : ℕ) (out inn : List M) :
    Prop where
  out : Messages Whole (i - j) out
  inn : Messages Whole (j - i) inn
  ahead : ∀ n, j ≤ n → n < i → mine n = true
  behind : ∀ n, i ≤ n → n < j → theirs n = true

namespace Between

variable {i j : ℕ} {out inn w : List M}

theorem symm (h : Between Whole mine theirs i j out inn) : Between Whole theirs mine j i inn out :=
  ⟨h.inn, h.out, h.behind, h.ahead⟩

/-- A message is said in turn. -/
theorem said (h : Between Whole mine theirs i j out inn)
    (hturns : TakeTurns mine theirs) (hmine : mine i = true) (hw : Whole w) :
    Between Whole mine theirs (i + 1) j (out ++ w) inn := by
  have hle : j ≤ i := by
    by_contra hlt
    have htheirs := h.behind i (Nat.le_refl i) (Nat.lt_of_not_le hlt)
    rw [hturns i hmine] at htheirs
    cases htheirs
  refine ⟨?_, ?_, fun n hn hlt => ?_, fun n hn hlt => by omega⟩
  · rw [Nat.succ_sub hle]
    exact h.out.concat hw
  · rw [show j - (i + 1) = j - i by omega]
    exact h.inn
  · rcases Nat.lt_succ_iff_lt_or_eq.mp hlt with hlt | rfl
    · exact h.ahead n hn hlt
    · exact hmine

/-- A message is heard. -/
theorem heard (h : Between Whole mine theirs i j out (w ++ inn)) (hself : SelfDelimiting Whole)
    (hw : Whole w) : Between Whole mine theirs (i + 1) j out inn := by
  obtain ⟨k, hk, hrest⟩ := h.inn.of_append hself hw
  refine ⟨?_, ?_, fun n hn hlt => by omega, fun n hn hlt => h.behind n (by omega) hlt⟩
  · rw [show i + 1 - j = i - j by omega]
    exact h.out
  · rw [show j - (i + 1) = k by omega]
    exact hrest

end Between

namespace Speech

variable {S : Speech A Whole} {T : Speech B Whole}

/-- **A move keeps two ends in step**, unless the one that moves goes astray. -/
theorem Passes.between {t t' : A.Site} (h : S.Passes mine theirs t t')
    (hself : SelfDelimiting Whole) (hturns : TakeTurns mine theirs) {j k : ℕ}
    (hstep : ∀ i, S.place mine theirs t.here.hist = some i →
      Between Whole mine theirs i j t.out.data t.inn.data)
    (hk : S.place mine theirs t'.here.hist = some k) :
    Between Whole mine theirs k j t'.out.data t'.inn.data := by
  cases h with
  | astray hnone =>
    rw [hnone] at hk
    cases hk
  | said hi hmine hi' hw hout hinn =>
    obtain rfl := Option.some.inj (hi'.symm.trans hk)
    rw [hout, hinn]
    exact (hstep _ hi).said hturns hmine hw
  | heard hi hi' hw hinn hout =>
    obtain rfl := Option.some.inj (hi'.symm.trans hk)
    have hbefore := hstep _ hi
    rw [hinn] at hbefore
    rw [hout]
    exact hbefore.heard hself hw
  | other hi hout hinn =>
    rw [hout, hinn]
    exact hstep k (hi.symm.trans hk)

/-- **No end waits for an end that has halted.** -/
theorem Halted.not_waits {t : A.Site} {u : B.Site} {p : Prog B.E B.R B.α}
    (h : T.Halted theirs mine p u) (hturns : TakeTurns mine theirs)
    (hout : u.inn = t.out) (hinn : u.out = t.inn)
    (hstep : ∀ i j, S.place mine theirs t.here.hist = some i →
      T.place theirs mine u.here.hist = some j →
      Between Whole mine theirs i j t.out.data t.inn.data)
    {i : ℕ} (hi : S.place mine theirs t.here.hist = some i) (htheirs : theirs i = true)
    (hopen : t.inn.closed = false) (hno : ∀ w rest, Whole w → t.inn.data ≠ w ++ rest) : False := by
  have hle : ∀ {j}, Between Whole mine theirs i j t.out.data t.inn.data → j ≤ i := by
    intro j hij
    by_contra hlt
    obtain ⟨w, rest, hw, hdata⟩ := hij.inn.exists_whole (by omega)
    exact hno w rest hw hdata
  cases h with
  | gone hp hclosed =>
    rw [hinn, hopen] at hclosed
    cases hclosed
  | ended hp _ hj hsaid =>
    have hsilent := hsaid i (hle (hstep _ _ hi hj))
    rw [htheirs] at hsilent
    cases hsilent
  | @waits j hj hmine hopen' hno' =>
    have hij := hstep _ _ hi hj
    rcases Nat.lt_or_eq_of_le (hle hij) with hlt | rfl
    · obtain ⟨w, rest, hw, hdata⟩ := hij.out.exists_whole (by omega)
      exact hno' w rest hw ((congrArg Pipe.data hout).trans hdata)
    · rw [hturns j hmine] at htheirs
      cases htheirs

end Speech

/-! ## Runs -/

/-- Two ends that hear in turn only, and are in step as long as neither goes astray. -/
structure Ordered (S : Speech A Whole) (T : Speech B Whole) (mine theirs : ℕ → Bool)
    (c : Link A B) : Prop where
  left : S.Attends mine theirs c.left.rest c.leftSite
  right : T.Attends theirs mine c.right.rest c.rightSite
  between : ∀ i j, S.place mine theirs c.left.here.hist = some i →
    T.place theirs mine c.right.here.hist = some j →
    Between Whole mine theirs i j c.toRight.data c.toLeft.data

/-- Both ends have come to their results, and have hung up where they were to. -/
def Ended (c : Link A B) : Prop :=
  (∃ a, c.left.rest = .pure a ∧ (A.hangsUp a = true → c.toRight.closed = true)) ∧
    ∃ b, c.right.rest = .pure b ∧ (B.hangsUp b = true → c.toLeft.closed = true)

variable {S : Speech A Whole} {T : Speech B Whole} {c d : Link A B}

theorem Ordered.step (h : Ordered S T mine theirs c) (hself : SelfDelimiting Whole)
    (hturns : TakeTurns mine theirs) (hstep : Link.Step c d) :
    Ordered S T mine theirs d := by
  cases hstep with
  | @left p t hmove =>
    obtain ⟨hattends, hpasses⟩ := h.left.moves hmove
    refine ⟨hattends, ⟨h.right.patient, fun hc => h.right.closed ?_⟩, fun i j hi hj => ?_⟩
    · obtain ⟨-, -, -, hinn, -⟩ := hmove.frame
      exact (congrArg Pipe.closed hinn).trans hc
    · exact hpasses.between hself hturns (fun i hi => h.between i j hi hj) hi
  | @right q u hmove =>
    obtain ⟨hattends, hpasses⟩ := h.right.moves hmove
    refine ⟨⟨h.left.patient, fun hc => h.left.closed ?_⟩, hattends, fun i j hi hj => ?_⟩
    · obtain ⟨-, -, -, hinn, -⟩ := hmove.frame
      exact (congrArg Pipe.closed hinn).trans hc
    · exact (hpasses.between hself hturns.symm (fun j hj => (h.between i j hi hj).symm) hj).symm

/-- Where no move is left, both ends have come to their results. -/
theorem Ordered.ended (h : Ordered S T mine theirs c)
    (hturns : TakeTurns mine theirs) (hstuck : c.Stuck) : Ended c := by
  have hleft := h.left.halted fun p t hmove => hstuck _ (.left hmove)
  have hright := h.right.halted fun q u hmove => hstuck _ (.right hmove)
  constructor
  · cases hleft with
    | gone hp hclosed => exact ⟨_, hp, fun _ => hclosed⟩
    | ended hp hup => exact ⟨_, hp, fun h => absurd h (ne_true_of_eq_false hup)⟩
    | waits hi htheirs hopen hno =>
      exact (hright.not_waits hturns rfl rfl h.between hi htheirs hopen hno).elim
  · cases hright with
    | gone hp hclosed => exact ⟨_, hp, fun _ => hclosed⟩
    | ended hp hup => exact ⟨_, hp, fun h => absurd h (ne_true_of_eq_false hup)⟩
    | waits hj hmine hopen hno =>
      exact (hleft.not_waits hturns.symm rfl rfl (fun j i hj hi => (h.between i j hi hj).symm) hj
        hmine hopen hno).elim

/-- **Two ends that speak in turn come to their results**, in whatever order they move. -/
theorem comesTo_ended (h : Ordered S T mine theirs c) (hself : SelfDelimiting Whole)
    (hturns : TakeTurns mine theirs) : c.ComesTo Ended := by
  obtain ⟨d, hreach, hstuck⟩ := c.exists_stuck
  have hd : Ordered S T mine theirs d := by
    clear hstuck
    induction hreach with
    | refl => exact h
    | tail _ hstep ih => exact ih.step hself hturns hstep
  exact Link.comesTo_of_reaches hreach hstuck (hd.ended hturns hstuck)

end

end Effects
end ZeroTrust
