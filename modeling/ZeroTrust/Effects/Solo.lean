import ZeroTrust.Effects.Program

/-!
# Programs that run alone on given inputs

Where no other program interferes and the inputs are given, a program has one run.  The
ghost state is then the whole situation: what has happened, the store, and the inputs still
to come.  Weakest preconditions for it say neither more nor less than what the run ends in,
so a statement about two runs is a weakest precondition inside another.

* `Solo`, `Semantics.solo`: the situation, and its moves.
* `wp_solo_iff`: a weakest precondition is a statement about the end of the run.
* `wpE_solo_act`, `wpE_solo_act_bind`: the rules for single operations.
* `Blind`: an operation that answers alike in related stores and keeps them related.
* `wpPair`: two runs side by side, and the rule for sequencing them.
* `Solo.Alike`: two situations that look alike; `Solo.Later`: a situation of the same run.
* `Issues`: a program of one kind of operations; `Issues.keeps`: a program of operations that
  keep an invariant; `Issues.pair`, `Issues.pair_bind`: a program of blind operations.
-/

namespace ZeroTrust
namespace Effects

/-- Where a program that runs alone has come to. -/
structure Solo (E : Type) (R : E → Type) (I σ : Type) where
  /-- The events so far, most recent first. -/
  hist : List (Event E R)
  /-- The store. -/
  store : σ
  /-- The inputs still to come. -/
  inputs : ℕ → I

variable {E : Type} {R : E → Type} {I σ α β ε ω : Type}

/-- A program about to start. -/
def Solo.start (s : σ) (inputs : ℕ → I) : Solo E R I σ := ⟨[], s, inputs⟩

variable (exec : Exec E R I σ)

/-- What an operation answers. -/
def Solo.answer (t : Solo E R I σ) (e : E) : R e := (exec e (t.inputs 0) t.store).1

/-- The situation after an operation. -/
def Solo.next (t : Solo E R I σ) (e : E) : Solo E R I σ where
  hist := ⟨e, t.answer exec e⟩ :: t.hist
  store := (exec e (t.inputs 0) t.store).2
  inputs n := t.inputs (n + 1)

/-- Running alone on given inputs. -/
def Semantics.solo : Semantics E R (Solo E R I σ) where
  guar _ _ := True
  step t e r t' := r = t.answer exec e ∧ t' = t.next exec e

/-- The situation that a run ends in. -/
def Outcome.solo (o : Outcome E R I σ α) : Solo E R I σ := ⟨o.hist, o.store, o.inputs⟩

/-- The run of a program from a situation. -/
def Solo.run (t : Solo E R I σ) (p : Prog E R α) : Outcome E R I σ α :=
  p.run exec t.inputs t.hist t.store

variable {exec}

theorem wp_solo_op {e : E} {k : R e → Prog E R α} {t : Solo E R I σ}
    {Q : Solo E R I σ → α → Prop} :
    (Prog.op e k).wp (.solo exec) t Q ↔
      (k (t.answer exec e)).wp (.solo exec) (t.next exec e) Q := by
  rw [Prog.wp_op]
  constructor
  · rintro ⟨-, hk⟩
    exact hk _ _ ⟨rfl, rfl⟩
  · refine fun hk => ⟨trivial, ?_⟩
    rintro r t' ⟨rfl, rfl⟩
    exact hk

/-- **A weakest precondition is a statement about the end of the run.** -/
theorem wp_solo_iff {p : Prog E R α} {t : Solo E R I σ} {Q : Solo E R I σ → α → Prop} :
    p.wp (.solo exec) t Q ↔ Q (t.run exec p).solo (t.run exec p).value := by
  induction p generalizing t with
  | pure a => exact Iff.rfl
  | op e k ih => exact wp_solo_op.trans (ih _)

/-- A run does not end in two ways. -/
theorem wp_solo_unique {p : Prog E R α} {t : Solo E R I σ} {Q Q' : Solo E R I σ → α → Prop}
    (h : p.wp (.solo exec) t Q) (h' : p.wp (.solo exec) t Q') : ∃ t' a, Q t' a ∧ Q' t' a :=
  ⟨_, _, wp_solo_iff.mp h, wp_solo_iff.mp h'⟩

section

variable {Ans : E → Type} {exec : Exec E (fun e => Except ε (Ans e)) I σ} {e : E}
  {t : Solo E (fun e => Except ε (Ans e)) I σ}

theorem wpE_solo_act {Q : Solo E (fun e => Except ε (Ans e)) I σ → Except ε (Ans e) → Prop} :
    wpE (.solo exec) (act e) t Q ↔ Q (t.next exec e) (t.answer exec e) :=
  wp_solo_op

/-- An operation that is answered, and what follows it. -/
theorem wpE_solo_act_bind {f : Ans e → ExceptT ε (Prog E fun e => Except ε (Ans e)) α}
    {Q : Solo E (fun e => Except ε (Ans e)) I σ → Except ε α → Prop} {a : Ans e}
    (ha : t.answer exec e = .ok a) :
    wpE (.solo exec) (act e >>= f) t Q ↔ wpE (.solo exec) (f a) (t.next exec e) Q := by
  rw [wpE_bind, wpE_solo_act, ha]

/-- An operation that raises. -/
theorem wpE_solo_act_bind_error {f : Ans e → ExceptT ε (Prog E fun e => Except ε (Ans e)) α}
    {Q : Solo E (fun e => Except ε (Ans e)) I σ → Except ε α → Prop} {x : ε}
    (hx : t.answer exec e = .error x) :
    wpE (.solo exec) (act e >>= f) t Q ↔ Q (t.next exec e) (.error x) := by
  rw [wpE_bind, wpE_solo_act, hx]

end

/-! ## Two runs side by side -/

/-- Two programs that run alone, each from its own situation, end as `Q` says. -/
def wpPair (exec : Exec E R I σ) (x : ExceptT ε (Prog E R) α) (y : ExceptT ε (Prog E R) β)
    (t u : Solo E R I σ)
    (Q : Solo E R I σ → Except ε α → Solo E R I σ → Except ε β → Prop) : Prop :=
  wpE (.solo exec) x t fun t' a => wpE (.solo exec) y u fun u' b => Q t' a u' b

/-- The two ends are those of the two runs. -/
theorem wpPair_iff {x : ExceptT ε (Prog E R) α} {y : ExceptT ε (Prog E R) β}
    {t u : Solo E R I σ}
    {Q : Solo E R I σ → Except ε α → Solo E R I σ → Except ε β → Prop} :
    wpPair exec x y t u Q ↔ Q (t.run exec x.run).solo (t.run exec x.run).value
      (u.run exec y.run).solo (u.run exec y.run).value :=
  wp_solo_iff.trans wp_solo_iff

theorem wpPair_mono {x : ExceptT ε (Prog E R) α} {y : ExceptT ε (Prog E R) β}
    {t u : Solo E R I σ}
    {Q Q' : Solo E R I σ → Except ε α → Solo E R I σ → Except ε β → Prop}
    (h : wpPair exec x y t u Q) (hQ : ∀ t' a u' b, Q t' a u' b → Q' t' a u' b) :
    wpPair exec x y t u Q' :=
  wpE_mono _ h fun t' a h' => wpE_mono _ h' fun u' b => hQ t' a u' b

/-- **Sequencing two runs.**  Where both first halves return the second halves are compared,
and where both raise the runs are over. -/
theorem wpPair_bind {γ : Type} {x : ExceptT ε (Prog E R) α} {y : ExceptT ε (Prog E R) α}
    {f g : α → ExceptT ε (Prog E R) γ} {t u : Solo E R I σ}
    {S : Solo E R I σ → Except ε α → Solo E R I σ → Except ε α → Prop}
    {Q : Solo E R I σ → Except ε γ → Solo E R I σ → Except ε γ → Prop}
    (h : wpPair exec x y t u S)
    (hS : ∀ t' a u' b, S t' a u' b →
      (∃ c d, a = .ok c ∧ b = .ok d ∧ wpPair exec (f c) (g d) t' u' Q) ∨
        ∃ c d, a = .error c ∧ b = .error d ∧ Q t' (.error c) u' (.error d)) :
    wpPair exec (x >>= f) (y >>= g) t u Q := by
  refine (wpE_bind ..).mpr (wp_solo_iff.mpr ?_)
  have hend := hS _ _ _ _ (wpPair_iff.mp h)
  generalize hv : (t.run exec x.run).value = a at hend ⊢
  generalize hw : (u.run exec y.run).value = b at hend
  rcases hend with ⟨c, d, rfl, rfl, hcd⟩ | ⟨c, d, rfl, rfl, hQ⟩
  · refine wpE_mono _ hcd fun t' r hr => (wpE_bind ..).mpr (wp_solo_iff.mpr ?_)
    rw [hw]
    exact hr
  · refine (wpE_bind ..).mpr (wp_solo_iff.mpr ?_)
    rw [hw]
    exact hQ

section

variable {Ans : E → Type} {exec : Exec E (fun e => Except ε (Ans e)) I σ} {e : E}
  {t u : Solo E (fun e => Except ε (Ans e)) I σ}
  {f g : Ans e → ExceptT ε (Prog E fun e => Except ε (Ans e)) α}
  {Q : Solo E (fun e => Except ε (Ans e)) I σ → Except ε α →
    Solo E (fun e => Except ε (Ans e)) I σ → Except ε α → Prop}

/-- An operation that both runs issue and that answers both. -/
theorem wpPair_act_bind {a b : Ans e} (ha : t.answer exec e = .ok a) (hb : u.answer exec e = .ok b) :
    wpPair exec (act e >>= f) (act e >>= g) t u Q ↔
      wpPair exec (f a) (g b) (t.next exec e) (u.next exec e) Q := by
  simp only [wpPair, wpE_solo_act_bind ha, wpE_solo_act_bind hb]

/-- An operation that both runs issue and that raises in both. -/
theorem wpPair_act_bind_error {x y : ε} (hx : t.answer exec e = .error x)
    (hy : u.answer exec e = .error y) :
    wpPair exec (act e >>= f) (act e >>= g) t u Q ↔
      Q (t.next exec e) (.error x) (u.next exec e) (.error y) := by
  simp only [wpPair, wpE_solo_act_bind_error hx, wpE_solo_act_bind_error hy]

end

/-! ### Operations that cannot tell two stores apart -/

/-- The operation answers alike in related stores, and keeps them related. -/
def Blind (exec : Exec E R I σ) (Rel : σ → σ → Prop) (e : E) : Prop :=
  ∀ i s s', Rel s s' →
    (exec e i s).1 = (exec e i s').1 ∧ Rel (exec e i s).2 (exec e i s').2

/-- Two situations that differ in their stores only, and in events that are not looked at. -/
structure Solo.Alike (view : Event E R → Option ω) (Rel : σ → σ → Prop)
    (t u : Solo E R I σ) : Prop where
  hist : t.hist.filterMap view = u.hist.filterMap view
  store : Rel t.store u.store
  inputs : t.inputs = u.inputs

variable {view : Event E R → Option ω} {Rel : σ → σ → Prop} {t t' t'' u u' : Solo E R I σ}

theorem Solo.Alike.answer {e : E} (he : Blind exec Rel e) (h : t.Alike view Rel u) :
    t.answer exec e = u.answer exec e := by
  show (exec e (t.inputs 0) t.store).1 = _
  rw [h.inputs]
  exact (he _ _ _ h.store).1

theorem Solo.Alike.next {e : E} (he : Blind exec Rel e) (h : t.Alike view Rel u) :
    (t.next exec e).Alike view Rel (u.next exec e) where
  hist := by
    show (Event.mk e (t.answer exec e) :: t.hist).filterMap view =
      (Event.mk e (u.answer exec e) :: u.hist).filterMap view
    rw [h.answer he, List.filterMap_cons, List.filterMap_cons, h.hist]
  store := by
    show Rel (exec e (t.inputs 0) t.store).2 _
    rw [h.inputs]
    exact (he _ _ _ h.store).2
  inputs := by
    show (fun n => t.inputs (n + 1)) = _
    rw [h.inputs]
    rfl

/-- A situation after which some more inputs have been used up. -/
def Solo.Later (t t' : Solo E R I σ) : Prop := ∃ k, t'.inputs = fun n => t.inputs (n + k)

theorem Solo.Later.refl (t : Solo E R I σ) : t.Later t := ⟨0, rfl⟩

theorem Solo.later_next (t : Solo E R I σ) (e : E) : t.Later (t.next exec e) := ⟨1, rfl⟩

theorem Solo.Later.trans (h : t.Later t') (h' : t'.Later t'') : t.Later t'' := by
  obtain ⟨k, hk⟩ := h
  obtain ⟨k', hk'⟩ := h'
  refine ⟨k + k', ?_⟩
  rw [hk', hk]
  exact funext fun n => congrArg t.inputs (by omega)

/-- What all inputs satisfy, those that are left satisfy. -/
theorem Solo.Later.forall (h : t.Later t') {J : I → Prop} (hJ : ∀ n, J (t.inputs n)) (n : ℕ) :
    J (t'.inputs n) := by
  obtain ⟨k, hk⟩ := h
  rw [hk]
  exact hJ (n + k)

theorem Solo.later_run (t : Solo E R I σ) (p : Prog E R α) : t.Later (t.run exec p).solo := by
  induction p generalizing t with
  | pure a => exact .refl t
  | op e k ih => exact (t.later_next e).trans (ih _ _)

/-- **A program of blind operations cannot tell related stores apart.** -/
theorem alike_of_blind {p : Prog E R α} {h : List (Event E R)}
    {Q : List (Event E R) → α → Prop} (hp : p.wp (.isolated fun _ => Blind exec Rel) h Q)
    (htu : t.Alike view Rel u) :
    (t.run exec p).solo.Alike view Rel (u.run exec p).solo ∧
      (t.run exec p).value = (u.run exec p).value := by
  induction p generalizing t u h with
  | pure a => exact ⟨htu, rfl⟩
  | op e k ih =>
    obtain ⟨he, hk⟩ := wp_isolated_op.mp hp
    have hnext := ih (t.answer exec e) (hk _) (htu.next he)
    have hanswer := htu.answer he
    show ((t.next exec e).run exec (k (t.answer exec e))).solo.Alike view Rel
        ((u.next exec e).run exec (k (u.answer exec e))).solo ∧
      ((t.next exec e).run exec (k (t.answer exec e))).value =
        ((u.next exec e).run exec (k (u.answer exec e))).value
    rw [← hanswer]
    exact hnext

/-! ### Programs of one kind of operations -/

section

variable {Ans : E → Type} {B C : E → Prop}

/-- Every operation that the program may issue is of a kind. -/
def Issues (B : E → Prop) (x : ExceptT ε (Prog E R) α) : Prop :=
  ∀ h, wpE (.isolated fun _ => B) x h fun _ _ => True

theorem issues_pure (a : α) : Issues B (pure a : ExceptT ε (Prog E R) α) := fun _ => trivial

theorem issues_throw (e : ε) : Issues B (throw e : ExceptT ε (Prog E R) α) := fun _ => trivial

theorem issues_raising (x : Except ε α) : Issues B (raising x : ExceptT ε (Prog E R) α) :=
  fun _ => trivial

theorem issues_act {e : E} (he : B e) :
    Issues B (act e : ExceptT ε (Prog E fun e => Except ε (Ans e)) (Ans e)) :=
  fun _ => wpE_act.mpr ⟨he, fun _ => trivial⟩

theorem Issues.bind {x : ExceptT ε (Prog E R) α} {f : α → ExceptT ε (Prog E R) β}
    (hx : Issues B x) (hf : ∀ a, Issues B (f a)) : Issues B (x >>= f) := by
  refine fun h => (wpE_bind ..).mpr (wpE_mono _ (hx h) fun h' r _ => ?_)
  cases r with
  | ok a => exact hf a h'
  | error e => trivial

theorem Issues.attempt {x : ExceptT ε (Prog E R) α} (hx : Issues B x) : Issues B (attempt x) :=
  fun h => (wpE_attempt ..).mpr (wpE_mono _ (hx h) fun _ _ _ => trivial)

theorem Issues.mono {x : ExceptT ε (Prog E R) α} (hx : Issues B x) (h : ∀ e, B e → C e) :
    Issues C x :=
  fun g => wp_isolated_mono (hx g) fun _ => h

end

/-- **A program of operations that keep an invariant** keeps it. -/
theorem Issues.keeps {B : E → Prop} {J : Solo E R I σ → Prop} {x : ExceptT ε (Prog E R) α}
    (hx : Issues B x) (hB : ∀ t e, B e → J t → J (t.next exec e)) (ht : J t) :
    wpE (.solo exec) x t fun t' _ => J t' := by
  have hrun : ∀ {β : Type} {p : Prog E R β} {h : List (Event E R)} {t : Solo E R I σ},
      p.wp (.isolated fun _ => B) h (fun _ _ => True) → J t → J (t.run exec p).solo := by
    intro β p
    induction p with
    | pure a => exact fun _ hJ => hJ
    | op e k ih =>
      intro h t hp hJ
      obtain ⟨he, hk⟩ := wp_isolated_op.mp hp
      exact ih (t.answer exec e) (t := t.next exec e) (hk _) (hB t e he hJ)
  exact wp_solo_iff.mpr (hrun (hx []) ht)

/-- **A program of blind operations** ends alike from situations that are alike. -/
theorem Issues.pair {x : ExceptT ε (Prog E R) α} (hx : Issues (Blind exec Rel) x)
    (htu : t.Alike view Rel u) :
    wpPair exec x x t u fun t' a u' b => t'.Alike view Rel u' ∧ t.Later t' ∧ a = b := by
  obtain ⟨halike, hvalue⟩ := alike_of_blind (hx []) htu
  exact wpPair_iff.mpr ⟨halike, t.later_run _, hvalue⟩

/-- Two programs that begin with the same blind part. -/
theorem Issues.pair_bind {x : ExceptT ε (Prog E R) α} {f g : α → ExceptT ε (Prog E R) β}
    {Q : Solo E R I σ → Except ε β → Solo E R I σ → Except ε β → Prop}
    (hx : Issues (Blind exec Rel) x) (htu : t.Alike view Rel u)
    (hfg : ∀ a t' u', t'.Alike view Rel u' → t.Later t' → wpPair exec (f a) (g a) t' u' Q)
    (herr : ∀ e t' u', t'.Alike view Rel u' → t.Later t' → Q t' (.error e) u' (.error e)) :
    wpPair exec (x >>= f) (x >>= g) t u Q := by
  refine wpPair_bind (hx.pair htu) fun t' a u' b h => ?_
  obtain ⟨halike, hlater, rfl⟩ := h
  cases a with
  | ok a => exact .inl ⟨a, a, rfl, rfl, hfg a t' u' halike hlater⟩
  | error e => exact .inr ⟨e, e, rfl, rfl, herr e t' u' halike hlater⟩

end Effects
end ZeroTrust
