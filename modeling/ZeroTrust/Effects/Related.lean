import ZeroTrust.Effects.Solo
import ZeroTrust.Effects.Interleaving
import Mathlib.Data.List.Forall2

/-!
# Two systems in step

Two systems over one interface do the same, up to what their operations and answers may differ
in: then for every run of the one there is a run of the other, item by item in step with it.

* `Likeness`: in what operations and events may differ.
* `Prog.Related`, `RelatedE`: two programs that differ in no more, and the rules for sequencing,
  operations and handlers.
* `Issues.related`: a program of operations that do not differ.
* `InStep`, `Run.exists_inStep`: two systems in step, and the run of the second.
-/

namespace ZeroTrust
namespace Effects

variable {E : Type} {R : E → Type} {I σ L α β γ δ ε : Type}

/-- In what the operations of two systems may differ, and in what the events. -/
structure Likeness (E : Type) (R : E → Type) where
  /-- The operations that stand for each other. -/
  ops : E → E → Prop
  /-- The events that stand for each other. -/
  evs : Event E R → Event E R → Prop

/-! ## Programs -/

section

variable (K : Likeness E R)

/-- Two programs that issue operations that stand for each other, as long as they are answered
with events that stand for each other, and return what `S` relates. -/
inductive Prog.Related (S : α → β → Prop) : Prog E R α → Prog E R β → Prop where
  | pure {a : α} {b : β} : S a b → Related S (.pure a) (.pure b)
  | op {e e' : E} {k : R e → Prog E R α} {k' : R e' → Prog E R β} : K.ops e e' →
      (∀ r r', K.evs ⟨e, r⟩ ⟨e', r'⟩ → Related S (k r) (k' r')) →
      Related S (.op e k) (.op e' k')

/-- Two results that `S` relates, or one exception. -/
inductive ResultRel (S : α → β → Prop) : Except ε α → Except ε β → Prop where
  | ok {a : α} {b : β} : S a b → ResultRel S (.ok a) (.ok b)
  | error (x : ε) : ResultRel S (.error x) (.error x)

/-- Two programs that may raise: they raise alike. -/
def RelatedE (S : α → β → Prop) (x : ExceptT ε (Prog E R) α) (y : ExceptT ε (Prog E R) β) : Prop :=
  Prog.Related K (ResultRel S) x.run y.run

end

variable {K : Likeness E R} {S : α → β → Prop} {T : γ → δ → Prop}

theorem ResultRel.of_eq {r r' : Except ε α} (h : r = r') : ResultRel Eq r r' := by
  subst h
  cases r with
  | ok a => exact .ok rfl
  | error x => exact .error x

/-- Sequencing: by induction on the first pair. -/
theorem Prog.Related.bind {p : Prog E R α} {q : Prog E R β} {f : α → Prog E R γ}
    {g : β → Prog E R δ} (hpq : p.Related K S q) (hfg : ∀ a b, S a b → (f a).Related K T (g b)) :
    (p.bind f).Related K T (q.bind g) := by
  induction hpq with
  | pure hab => exact hfg _ _ hab
  | op he _ ih => exact .op he ih

theorem RelatedE.bind {x : ExceptT ε (Prog E R) α} {y : ExceptT ε (Prog E R) β}
    {f : α → ExceptT ε (Prog E R) γ} {g : β → ExceptT ε (Prog E R) δ} (hxy : RelatedE K S x y)
    (hfg : ∀ a b, S a b → RelatedE K T (f a) (g b)) : RelatedE K T (x >>= f) (y >>= g) := by
  refine Prog.Related.bind hxy fun a b hab => ?_
  cases hab with
  | ok hab => exact hfg _ _ hab
  | error e => exact .pure (.error e)

theorem relatedE_pure {a : α} {b : β} (h : S a b) :
    RelatedE K S (pure a : ExceptT ε (Prog E R) α) (pure b) :=
  Prog.Related.pure (.ok h)

theorem relatedE_throw (e : ε) :
    RelatedE K S (throw e : ExceptT ε (Prog E R) α) (throw e) :=
  Prog.Related.pure (.error e)

theorem relatedE_raising {x : Except ε α} {y : Except ε β} (h : ResultRel S x y) :
    RelatedE K S (raising x : ExceptT ε (Prog E R) α) (raising y) :=
  Prog.Related.pure h

theorem relatedE_attempt {x : ExceptT ε (Prog E R) α} {y : ExceptT ε (Prog E R) β}
    (h : RelatedE K S x y) :
    RelatedE K (ResultRel S) (attempt x) (attempt y) :=
  Prog.Related.bind h fun _ _ hab => .pure (.ok hab)

/-- A check that both make, and what follows it. -/
theorem relatedE_guard (c : Prop) [Decidable c] (e : ε) {x : ExceptT ε (Prog E R) α}
    {y : ExceptT ε (Prog E R) β} (h : RelatedE K S x y) :
    RelatedE K S (if c then (throw e : ExceptT ε (Prog E R) Unit) >>= fun _ => x else x)
      (if c then (throw e : ExceptT ε (Prog E R) Unit) >>= fun _ => y else y) := by
  split_ifs
  · exact RelatedE.bind (S := Eq) (relatedE_throw e) fun _ _ _ => h
  · exact h

section

variable {Ans : E → Type} {K : Likeness E fun e => Except ε (Ans e)}

/-- Two operations that stand for each other, by what their events say of the answers. -/
theorem relatedE_act {e e' : E} {S : Ans e → Ans e' → Prop} (he : K.ops e e')
    (hr : ∀ r r', K.evs ⟨e, r⟩ ⟨e', r'⟩ → ResultRel S r r') :
    RelatedE K S (act e) (act e') :=
  .op he fun r r' hev => .pure (hr r r' hev)

end

/-- An operation that does not differ, and neither do its answers. -/
def Likeness.Fixed (K : Likeness E R) (e : E) : Prop :=
  K.ops e e ∧ ∀ r r', K.evs ⟨e, r⟩ ⟨e, r'⟩ → r = r'

/-- **A program of operations that do not differ** is in step with itself. -/
theorem Issues.related {x : ExceptT ε (Prog E R) α} (hx : Issues K.Fixed x) : RelatedE K Eq x x := by
  have hprog : ∀ {p : Prog E R (Except ε α)} {h : List (Event E R)},
      p.wp (.isolated fun _ => K.Fixed) h (fun _ _ => True) → p.Related K (ResultRel Eq) p := by
    intro p
    induction p with
    | pure a => exact fun _ => .pure (.of_eq rfl)
    | op e k ih =>
      intro h hp
      obtain ⟨⟨hop, hanswers⟩, hk⟩ := wp_isolated_op.mp hp
      refine .op hop fun r r' hev => ?_
      obtain rfl := hanswers r r' hev
      exact ih r (hk r)
  exact hprog (hx [])

/-! ## Systems -/

/-- Two systems in step: from stores that `Rel` relates and on the same input, operations that
stand for each other give events that do, and their programs are related. -/
structure InStep (K : Likeness E R) (Rel : σ → σ → Prop) (Out : α → α → Prop)
    (S S' : System E R I σ L α) : Prop where
  exec : ∀ {e e' : E} {s s' : σ} (i : I), K.ops e e' → Rel s s' →
    K.evs ⟨e, (S.exec e i s).1⟩ ⟨e', (S'.exec e' i s').1⟩ ∧
      Rel (S.exec e i s).2 (S'.exec e' i s').2
  code : ∀ l, (S.code l).Related K Out (S'.code l)

/-- An item of the one run and its counterpart in the other. -/
structure ItemInStep (K : Likeness E R) (Rel : σ → σ → Prop) (x y : Item E R I σ L) : Prop where
  job : x.job = y.job
  label : x.label = y.label
  past : List.Forall₂ K.evs x.past y.past
  ev : K.evs x.ev y.ev
  input : x.input = y.input
  pre : Rel x.pre y.pre
  post : Rel x.post y.post

/-- A job of the one run and its counterpart in the other. -/
structure JobInStep (K : Likeness E R) (Out : α → α → Prop) (j j' : Job E R L α) : Prop where
  label : j.label = j'.label
  hist : List.Forall₂ K.evs j.hist j'.hist
  rest : j.rest.Related K Out j'.rest

theorem forall₂_set {S : α → β → Prop} {as : List α} {bs : List β} (h : List.Forall₂ S as bs)
    {a : α} {b : β} (hab : S a b) (n : ℕ) : List.Forall₂ S (as.set n a) (bs.set n b) := by
  induction h generalizing n with
  | nil => exact .nil
  | cons hxy htl ih =>
    cases n with
    | zero => exact .cons hab htl
    | succ n => exact .cons hxy (ih n)

theorem exists_getElem?_of_forall₂ {S : α → β → Prop} {as : List α} {bs : List β}
    (h : List.Forall₂ S as bs) {n : ℕ} {a : α} (ha : as[n]? = some a) :
    ∃ b, bs[n]? = some b ∧ S a b := by
  induction h generalizing n with
  | nil => cases ha
  | cons hxy _ ih =>
    cases n with
    | zero => exact ⟨_, rfl, Option.some.inj ha ▸ hxy⟩
    | succ n => exact ih ha

/-- **For every run of the first system there is a run of the second in step with it.** -/
theorem System.Run.exists_inStep {Rel : σ → σ → Prop} {Out : α → α → Prop}
    {S S' : System E R I σ L α} (hS : InStep K Rel Out S S') {s₀ s₀' s : σ}
    {t : List (Item E R I σ L)} {js : List (Job E R L α)} (hr : S.Run s₀ t js s)
    (h₀ : Rel s₀ s₀') :
    ∃ t' js' s', S'.Run s₀' t' js' s' ∧ List.Forall₂ (ItemInStep K Rel) t t' ∧
      List.Forall₂ (JobInStep K Out) js js' ∧ Rel s s' := by
  induction hr with
  | init => exact ⟨[], [], s₀', .init, .nil, .nil, h₀⟩
  | start l _ ih =>
    obtain ⟨t', js', s', hr', ht, hjs, hs⟩ := ih
    refine ⟨t', _, s', hr'.start l, ht, ?_, hs⟩
    exact List.rel_append hjs (.cons ⟨rfl, .nil, hS.code l⟩ .nil)
  | @move t js s n l h e k i _ hj ih =>
    obtain ⟨t', js', s', hr', ht, hjs, hs⟩ := ih
    obtain ⟨⟨l', h', p⟩, hj', hlabel, hhist, hrest⟩ := exists_getElem?_of_forall₂ hjs hj
    obtain rfl : l = l' := hlabel
    change (Prog.op e k).Related K Out p at hrest
    cases hrest with
    | @op _ e' _ k' he hk =>
      obtain ⟨hev, hpost⟩ := hS.exec i he hs
      have hjob : JobInStep K Out
          ⟨l, ⟨e, (S.exec e i s).1⟩ :: h, k (S.exec e i s).1⟩
          ⟨l, ⟨e', (S'.exec e' i s').1⟩ :: h', k' (S'.exec e' i s').1⟩ :=
        ⟨rfl, .cons hev hhist, hk _ _ hev⟩
      exact ⟨_, _, _, hr'.move i hj', .cons ⟨rfl, rfl, hhist, hev, rfl, hs, hpost⟩ ht,
        forall₂_set hjs hjob n, hpost⟩

end Effects
end ZeroTrust
