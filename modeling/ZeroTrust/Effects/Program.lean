import Mathlib.Logic.Basic
import Mathlib.Data.List.Basic

/-!
# Programs over an interface of atomic operations

A program that reads and writes shared state through a fixed set of atomic
operations is a tree: either it returns, or it names the next operation and says
how it goes on for every answer.  The tree says nothing about who else touches
the state between two operations, so the same program can be run alone, from one
state to the next, or interleaved with others.

* `Prog`: the trees, and their monad structure.
* `Semantics`: what a program is watched against --- a ghost state, what may be
  issued in it, and how an answer moves it.
* `Prog.wp`: the weakest precondition of a program for a semantics, with its rules
  for sequencing, exceptions and handlers.
* `Semantics.isolated`: the ghost state is the program's own history, most recent
  event first, and answers are unconstrained.  What is proved there holds whatever
  other programs do.
* `Semantics.atomic`: the ghost state also has the store, and answers come from
  executing the operation on it.  What is proved there holds of runs alone.
-/

namespace ZeroTrust
namespace Effects

/-- One executed operation together with its answer. -/
structure Event (E : Type) (R : E → Type) where
  /-- The operation. -/
  op : E
  /-- Its answer. -/
  res : R op

/-- Events are compared by their operations, and then by their answers. -/
instance {E : Type} {R : E → Type} [DecidableEq E] [∀ e, DecidableEq (R e)] :
    DecidableEq (Event E R)
  | ⟨e, r⟩, ⟨e', r'⟩ =>
    if h : e = e' then decidable_of_iff (h ▸ r = r') (by subst h; simp)
    else .isFalse fun hev => h (congrArg Event.op hev)

/-- A program over the operations `E`, each operation `e` answered in `R e`. -/
inductive Prog (E : Type) (R : E → Type) (α : Type) where
  | pure : α → Prog E R α
  | op : (e : E) → (R e → Prog E R α) → Prog E R α

variable {E : Type} {R : E → Type} {α β γ ε : Type}

namespace Prog

/-- Sequencing: graft the second program onto every return of the first. -/
def bind : Prog E R α → (α → Prog E R β) → Prog E R β
  | .pure a, f => f a
  | .op e k, f => .op e fun r => (k r).bind f

instance : Monad (Prog E R) where
  pure := Prog.pure
  bind := Prog.bind

/-- The program that issues one operation and returns its answer. -/
def perform (e : E) : Prog E R (R e) := .op e .pure

@[simp] theorem bind_pure' (a : α) (f : α → Prog E R β) :
    (Prog.pure a : Prog E R α).bind f = f a := rfl

@[simp] theorem bind_op (e : E) (k : R e → Prog E R α) (f : α → Prog E R β) :
    (Prog.op e k).bind f = .op e fun r => (k r).bind f := rfl

theorem bind_assoc' (p : Prog E R α) (f : α → Prog E R β) (g : β → Prog E R γ) :
    (p.bind f).bind g = p.bind fun a => (f a).bind g := by
  induction p with
  | pure a => rfl
  | op e k ih =>
    rw [bind_op, bind_op, bind_op]
    exact congrArg (Prog.op e) (funext ih)

theorem bind_pure_right (p : Prog E R α) : p.bind Prog.pure = p := by
  induction p with
  | pure a => rfl
  | op e k ih =>
    rw [bind_op]
    exact congrArg (Prog.op e) (funext ih)

instance : LawfulMonad (Prog E R) :=
  LawfulMonad.mk' _ bind_pure_right (fun _ _ => rfl) bind_assoc'

end Prog

/-! ## Weakest preconditions -/

/-- What a program is watched against: which operations may be issued in a ghost
state, and which ghost states an answer may lead to. -/
structure Semantics (E : Type) (R : E → Type) (τ : Type) where
  /-- The operations that may be issued. -/
  guar : τ → E → Prop
  /-- The moves of the ghost state. -/
  step : τ → (e : E) → R e → τ → Prop

variable {τ : Type} (M : Semantics E R τ)

/-- From the ghost state `t`, every operation `p` issues is allowed, and every
return satisfies `Q`. -/
def Prog.wp : Prog E R α → τ → (τ → α → Prop) → Prop
  | .pure a, t, Q => Q t a
  | .op e k, t, Q => M.guar t e ∧ ∀ r t', M.step t e r t' → (k r).wp t' Q

@[simp] theorem Prog.wp_pure (a : α) (t : τ) (Q : τ → α → Prop) :
    (Prog.pure a : Prog E R α).wp M t Q ↔ Q t a := Iff.rfl

theorem Prog.wp_op (e : E) (k : R e → Prog E R α) (t : τ) (Q : τ → α → Prop) :
    (Prog.op e k).wp M t Q ↔
      M.guar t e ∧ ∀ r t', M.step t e r t' → (k r).wp M t' Q := Iff.rfl

/-- **Sequencing.**  The induction follows the first program's tree. -/
theorem Prog.wp_bind (p : Prog E R α) (f : α → Prog E R β) (t : τ) (Q : τ → β → Prop) :
    (p.bind f).wp M t Q ↔ p.wp M t fun t' a => (f a).wp M t' Q := by
  induction p generalizing t with
  | pure a => exact Iff.rfl
  | op e k ih =>
    rw [Prog.bind_op, Prog.wp_op, Prog.wp_op]
    exact and_congr Iff.rfl (forall₃_congr fun r t' _ => ih r t')

/-- Postconditions may be weakened. -/
theorem Prog.wp_mono {p : Prog E R α} {t : τ} {Q Q' : τ → α → Prop}
    (h : p.wp M t Q) (hQ : ∀ t' a, Q t' a → Q' t' a) : p.wp M t Q' := by
  induction p generalizing t with
  | pure a => exact hQ t a h
  | op e k ih => exact ⟨h.1, fun r t' ht => ih r (h.2 r t' ht)⟩

/-- Two facts about one program are proved separately. -/
theorem Prog.wp_and {p : Prog E R α} {t : τ} {Q Q' : τ → α → Prop}
    (h : p.wp M t Q) (h' : p.wp M t Q') : p.wp M t fun t' a => Q t' a ∧ Q' t' a := by
  induction p generalizing t with
  | pure a => exact ⟨h, h'⟩
  | op e k ih => exact ⟨h.1, fun r t' ht => ih r (h.2 r t' ht) (h'.2 r t' ht)⟩

/-! ### Programs that may raise -/

/-- The weakest precondition of a program that may raise: the postcondition sees
the returned value or the exception. -/
def wpE (x : ExceptT ε (Prog E R) α) (t : τ) (Q : τ → Except ε α → Prop) : Prop :=
  Prog.wp M x.run t Q

@[simp] theorem wpE_pure (a : α) (t : τ) (Q : τ → Except ε α → Prop) :
    wpE M (pure a : ExceptT ε (Prog E R) α) t Q ↔ Q t (.ok a) := Iff.rfl

@[simp] theorem wpE_throw (e : ε) (t : τ) (Q : τ → Except ε α → Prop) :
    wpE M (throw e : ExceptT ε (Prog E R) α) t Q ↔ Q t (.error e) := Iff.rfl

theorem wpE_mk (p : Prog E R (Except ε α)) (t : τ) (Q : τ → Except ε α → Prop) :
    wpE M (ExceptT.mk p) t Q ↔ p.wp M t Q := Iff.rfl

/-- Sequencing: an exception of the first program skips the second. -/
theorem wpE_bind (x : ExceptT ε (Prog E R) α) (f : α → ExceptT ε (Prog E R) β) (t : τ)
    (Q : τ → Except ε β → Prop) :
    wpE M (x >>= f) t Q ↔ wpE M x t fun t' r =>
      match r with
      | .ok a => wpE M (f a) t' Q
      | .error e => Q t' (.error e) := by
  show Prog.wp M (Prog.bind x.run (ExceptT.bindCont f)) t Q ↔ _
  rw [Prog.wp_bind]
  constructor
  · refine fun h => Prog.wp_mono M h fun t' r hr => ?_
    cases r with
    | ok a => exact hr
    | error e => exact hr
  · refine fun h => Prog.wp_mono M h fun t' r hr => ?_
    cases r with
    | ok a => exact hr
    | error e => exact hr

/-- A handler runs where the program raised. -/
theorem wpE_tryCatch (x : ExceptT ε (Prog E R) α) (f : ε → ExceptT ε (Prog E R) α) (t : τ)
    (Q : τ → Except ε α → Prop) :
    wpE M (tryCatch x f) t Q ↔ wpE M x t fun t' r =>
      match r with
      | .ok a => Q t' (.ok a)
      | .error e => wpE M (f e) t' Q := by
  show Prog.wp M (Prog.bind x.run _) t Q ↔ _
  rw [Prog.wp_bind]
  constructor
  · refine fun h => Prog.wp_mono M h fun t' r hr => ?_
    cases r with
    | ok a => exact hr
    | error e => exact hr
  · refine fun h => Prog.wp_mono M h fun t' r hr => ?_
    cases r with
    | ok a => exact hr
    | error e => exact hr

theorem wpE_lift (p : Prog E R α) (t : τ) (Q : τ → Except ε α → Prop) :
    wpE M (monadLift p : ExceptT ε (Prog E R) α) t Q ↔ p.wp M t fun t' a => Q t' (.ok a) := by
  show Prog.wp M (Prog.bind p _) t Q ↔ _
  rw [Prog.wp_bind]
  exact Iff.rfl

/-- Raise what a pure computation raises. -/
def raising (x : Except ε α) : ExceptT ε (Prog E R) α := ExceptT.mk (.pure x)

@[simp] theorem wpE_raising (x : Except ε α) (t : τ) (Q : τ → Except ε α → Prop) :
    wpE M (raising x : ExceptT ε (Prog E R) α) t Q ↔ Q t x := Iff.rfl

theorem wpE_mono {x : ExceptT ε (Prog E R) α} {t : τ} {Q Q' : τ → Except ε α → Prop}
    (h : wpE M x t Q) (hQ : ∀ t' r, Q t' r → Q' t' r) : wpE M x t Q' :=
  Prog.wp_mono M h hQ

/-- `try`: what a computation raises becomes its value. -/
def attempt (x : ExceptT ε (Prog E R) α) : ExceptT ε (Prog E R) (Except ε α) :=
  monadLift x.run

@[simp] theorem wpE_attempt (x : ExceptT ε (Prog E R) α) (t : τ)
    (Q : τ → Except ε (Except ε α) → Prop) :
    wpE M (attempt x) t Q ↔ wpE M x t fun t' r => Q t' (.ok r) :=
  wpE_lift M x.run t Q

/-! ### Operations that may raise -/

/-- Issue an operation that answers or raises. -/
def act {Ans : E → Type} (e : E) : ExceptT ε (Prog E fun e => Except ε (Ans e)) (Ans e) :=
  ExceptT.mk (Prog.perform e)

/-! ## A program and its own history -/

/-- The ghost state is the history, most recent event first; an operation `e` may be
issued after `h` when `A h e`, and any answer may come. -/
def Semantics.isolated (A : List (Event E R) → E → Prop) : Semantics E R (List (Event E R)) where
  guar := A
  step h e r h' := h' = ⟨e, r⟩ :: h

theorem wp_isolated_op {A : List (Event E R) → E → Prop} {e : E} {k : R e → Prog E R α}
    {h : List (Event E R)} {Q : List (Event E R) → α → Prop} :
    (Prog.op e k).wp (.isolated A) h Q ↔
      A h e ∧ ∀ r, (k r).wp (.isolated A) (⟨e, r⟩ :: h) Q := by
  rw [Prog.wp_op]
  simp only [Semantics.isolated, forall_eq]

/-- **Framing.**  What a program does from the history `g` on its own, it does on top of
any older events. -/
theorem wp_isolated_append {A B : List (Event E R) → E → Prop} {p : Prog E R α}
    {g older : List (Event E R)} {Q Q' : List (Event E R) → α → Prop}
    (hp : p.wp (.isolated B) g Q) (hA : ∀ g e, B g e → A (g ++ older) e)
    (hQ : ∀ g a, Q g a → Q' (g ++ older) a) : p.wp (.isolated A) (g ++ older) Q' := by
  induction p generalizing g with
  | pure a => exact hQ g a hp
  | op e k ih =>
    obtain ⟨hb, hk⟩ := wp_isolated_op.mp hp
    exact wp_isolated_op.mpr ⟨hA g e hb, fun r => ih r (hk r)⟩

/-- Without a restriction every program goes through. -/
theorem wp_isolated_true (p : Prog E R α) (h : List (Event E R)) :
    p.wp (.isolated fun _ _ => True) h fun _ _ => True := by
  induction p generalizing h with
  | pure a => trivial
  | op e k ih => exact wp_isolated_op.mpr ⟨trivial, fun r => ih r _⟩

/-- Allowing more changes nothing. -/
theorem wp_isolated_mono {A B : List (Event E R) → E → Prop} {p : Prog E R α}
    {g : List (Event E R)} {Q : List (Event E R) → α → Prop}
    (hp : p.wp (.isolated B) g Q) (hA : ∀ g e, B g e → A g e) : p.wp (.isolated A) g Q := by
  induction p generalizing g with
  | pure a => exact hp
  | op e k ih =>
    obtain ⟨hb, hk⟩ := wp_isolated_op.mp hp
    exact wp_isolated_op.mpr ⟨hA g e hb, fun r => ih r (hk r)⟩

/-- **Calls.**  A program that calls another is shown what the callee ensures of its own
history. -/
theorem wpE_call {A B : List (Event E R) → E → Prop} {x : ExceptT ε (Prog E R) α}
    {f : α → ExceptT ε (Prog E R) β} {older : List (Event E R)}
    {S : List (Event E R) → Except ε α → Prop} {Q : List (Event E R) → Except ε β → Prop}
    (hx : wpE (.isolated B) x [] S) (hA : ∀ g e, B g e → A (g ++ older) e)
    (hok : ∀ g a, S g (.ok a) → wpE (.isolated A) (f a) (g ++ older) Q)
    (herr : ∀ g e, S g (.error e) → Q (g ++ older) (.error e)) :
    wpE (.isolated A) (x >>= f) older Q := by
  rw [wpE_bind]
  refine wp_isolated_append hx hA fun g r hr => ?_
  cases r with
  | ok a => exact hok g a hr
  | error e => exact herr g e hr

/-- A call before anything has happened. -/
theorem wpE_call_nil {A B : List (Event E R) → E → Prop} {x : ExceptT ε (Prog E R) α}
    {f : α → ExceptT ε (Prog E R) β} {S : List (Event E R) → Except ε α → Prop}
    {Q : List (Event E R) → Except ε β → Prop}
    (hx : wpE (.isolated B) x [] S) (hA : ∀ g e, B g e → A g e)
    (hok : ∀ g a, S g (.ok a) → wpE (.isolated A) (f a) g Q)
    (herr : ∀ g e, S g (.error e) → Q g (.error e)) :
    wpE (.isolated A) (x >>= f) [] Q := by
  refine wpE_call hx ?_ ?_ ?_ <;> simp only [List.append_nil]
  · exact hA
  · exact hok
  · exact herr

section

variable {Ans : E → Type} {A : List (Event E fun e => Except ε (Ans e)) → E → Prop} {e : E}
  {h : List (Event E fun e => Except ε (Ans e))}

theorem wpE_act {Q : List (Event E fun e => Except ε (Ans e)) → Except ε (Ans e) → Prop} :
    wpE (.isolated A) (act e) h Q ↔ A h e ∧ ∀ r, Q (⟨e, r⟩ :: h) r :=
  wp_isolated_op

/-- An operation and what follows it: either it raises, or the rest goes on with its
answer. -/
theorem wpE_act_bind {f : Ans e → ExceptT ε (Prog E fun e => Except ε (Ans e)) α}
    {Q : List (Event E fun e => Except ε (Ans e)) → Except ε α → Prop} :
    wpE (.isolated A) (act e >>= f) h Q ↔
      A h e ∧ (∀ x, Q (⟨e, .error x⟩ :: h) (.error x)) ∧
        ∀ a, wpE (.isolated A) (f a) (⟨e, .ok a⟩ :: h) Q := by
  rw [wpE_bind, wpE_act]
  refine and_congr Iff.rfl ⟨fun hr => ⟨fun x => hr (.error x), fun a => hr (.ok a)⟩, ?_⟩
  rintro ⟨he, ha⟩ r
  cases r with
  | error x => exact he x
  | ok a => exact ha a

end

/-- `p.After h q`: after the events `h`, what is left of `p` is `q`. -/
inductive Prog.After (p : Prog E R α) : List (Event E R) → Prog E R α → Prop where
  | nil : p.After [] p
  | cons {h : List (Event E R)} {e : E} {k : R e → Prog E R α} (r : R e) :
      p.After h (.op e k) → p.After (⟨e, r⟩ :: h) (k r)

/-- What is left of a program meets what the program met. -/
theorem Prog.After.wp {A : List (Event E R) → E → Prop} {p q : Prog E R α}
    {h : List (Event E R)} {Q : List (Event E R) → α → Prop} (hpq : p.After h q)
    (hp : p.wp (.isolated A) [] Q) : q.wp (.isolated A) h Q := by
  induction hpq with
  | nil => exact hp
  | cons r _ ih => exact (wp_isolated_op.mp ih).2 r

/-- The next operation of a program is allowed after its history. -/
theorem Prog.After.guar {A : List (Event E R) → E → Prop} {p : Prog E R α} {e : E}
    {k : R e → Prog E R α} {h : List (Event E R)} {Q : List (Event E R) → α → Prop}
    (hpq : p.After h (.op e k)) (hp : p.wp (.isolated A) [] Q) : A h e :=
  (hpq.wp hp).1

/-! ## A program run alone -/

/-- How operations execute: the environment's input and the store give the answer
and the next store. -/
abbrev Exec (E : Type) (R : E → Type) (I σ : Type) := (e : E) → I → σ → R e × σ

variable {I σ : Type}

/-- What a run leaves behind. -/
structure Outcome (E : Type) (R : E → Type) (I σ α : Type) where
  /-- The returned value. -/
  value : α
  /-- The events, most recent first. -/
  hist : List (Event E R)
  /-- The store at the end. -/
  store : σ
  /-- The inputs that were not used. -/
  inputs : ℕ → I

/-- Run a program alone, reading one input for each operation. -/
def Prog.run (exec : Exec E R I σ) : Prog E R α → (ℕ → I) → List (Event E R) → σ →
    Outcome E R I σ α
  | .pure a, inp, h, s => ⟨a, h, s, inp⟩
  | .op e k, inp, h, s =>
      (k (exec e (inp 0) s).1).run exec (fun n => inp (n + 1)) (⟨e, (exec e (inp 0) s).1⟩ :: h)
        (exec e (inp 0) s).2

/-- Running alone: the ghost state is the history and the store, and an answer is
one the operation can give for an input in `P`. -/
def Semantics.atomic (exec : Exec E R I σ) (P : I → Prop) :
    Semantics E R (List (Event E R) × σ) where
  guar _ _ := True
  step t e r t' := ∃ i, P i ∧ exec e i t.2 = (r, t'.2) ∧ t'.1 = ⟨e, r⟩ :: t.1

theorem wp_atomic_op {exec : Exec E R I σ} {P : I → Prop} {e : E} {k : R e → Prog E R α}
    {h : List (Event E R)} {s : σ} {Q : List (Event E R) × σ → α → Prop} :
    (Prog.op e k).wp (.atomic exec P) (h, s) Q ↔
      ∀ i, P i → (k (exec e i s).1).wp (.atomic exec P)
        (⟨e, (exec e i s).1⟩ :: h, (exec e i s).2) Q := by
  rw [Prog.wp_op]
  constructor
  · rintro ⟨-, hk⟩ i hi
    exact hk _ _ ⟨i, hi, rfl, rfl⟩
  · refine fun hk => ⟨trivial, ?_⟩
    rintro r ⟨h', s'⟩ ⟨i, hi, he, rfl⟩
    have hr : (exec e i s).1 = r := congrArg Prod.fst he
    have hs : (exec e i s).2 = s' := congrArg Prod.snd he
    subst hr hs
    exact hk i hi

/-- **Soundness.**  A run whose inputs are all in `P` ends as the weakest
precondition says. -/
theorem Prog.run_of_wp {exec : Exec E R I σ} {P : I → Prop} {p : Prog E R α}
    {Q : List (Event E R) × σ → α → Prop} {inp : ℕ → I} (hP : ∀ n, P (inp n))
    {h : List (Event E R)} {s : σ} (hp : p.wp (.atomic exec P) (h, s) Q) :
    Q ((p.run exec inp h s).hist, (p.run exec inp h s).store) (p.run exec inp h s).value := by
  induction p generalizing inp h s with
  | pure a => exact hp
  | op e k ih => exact ih _ (fun n => hP (n + 1)) (wp_atomic_op.mp hp (inp 0) (hP 0))

/-- A run leaves behind a tail of the inputs it was given. -/
theorem Prog.run_inputs {exec : Exec E R I σ} {P : I → Prop} (p : Prog E R α)
    {inp : ℕ → I} (hP : ∀ n, P (inp n)) (h : List (Event E R)) (s : σ) :
    ∀ n, P ((p.run exec inp h s).inputs n) := by
  induction p generalizing inp h s with
  | pure a => exact hP
  | op e k ih => exact ih _ (fun n => hP (n + 1)) _ _

end Effects
end ZeroTrust
