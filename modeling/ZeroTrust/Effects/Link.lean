import ZeroTrust.Effects.Solo
import Mathlib.Logic.Relation

/-!
# Two programs and the connection between them

A program at either end of a connection, each on a store and on inputs of its own.  What one says
is under way until the other hears it, in the order in which it was said; a program that is to hear
more than has arrived waits.  The two ends move in any order.

The ends do not share anything but the connection, so the order of their moves is of no account:
where one order has come to an end, every order comes to it, after the same number of moves.

* `Steps.within`: relations whose steps commute.
* `Pipe`, `Port`, `Link`: what is under way, how an end uses it, and the two ends.
* `Link.step_comm`: a move of one end and a move of the other commute.
* `Link.ComesTo`, `Link.comesTo_of_reaches`: one run to an end is every run to an end.
* `Link.exists_stuck`: no run goes on for ever.
* `Port.alone`: an end runs while the other one rests.
-/

namespace ZeroTrust
namespace Effects

/-! ## Steps that commute -/

/-- So many steps of a relation. -/
inductive Steps {α : Type*} (r : α → α → Prop) : ℕ → α → α → Prop where
  | refl (a : α) : Steps r 0 a a
  | cons {n : ℕ} {a b c : α} : r a b → Steps r n b c → Steps r (n + 1) a c

section

variable {α : Type*} {r : α → α → Prop} {n k : ℕ} {a b c d : α}

theorem exists_steps (h : Relation.ReflTransGen r a b) : ∃ n, Steps r n a b := by
  induction h using Relation.ReflTransGen.head_induction_on with
  | refl => exact ⟨0, .refl _⟩
  | head hstep _ ih =>
    obtain ⟨n, hn⟩ := ih
    exact ⟨n + 1, .cons hstep hn⟩

/-- Two different steps from one place can be taken one after the other, in either order. -/
def Commuting (r : α → α → Prop) : Prop :=
  ∀ {a b c : α}, r a b → r a c → b = c ∨ ∃ d, r b d ∧ r c d

/-- A step from the beginning of a run to an end is one of the run's: by induction on the run, into
which the step is moved. -/
theorem Steps.of_step (hcomm : Commuting r) (hend : ∀ e, ¬ r d e) (hn : Steps r n a d)
    (hab : r a b) : ∃ m, n = m + 1 ∧ Steps r m b d := by
  induction hn generalizing b with
  | refl => exact absurd hab (hend _)
  | @cons n a a' d haa' hrest ih =>
    rcases hcomm hab haa' with rfl | ⟨e, hbe, ha'e⟩
    · exact ⟨n, rfl, hrest⟩
    · obtain ⟨m, rfl, hed⟩ := ih hend ha'e
      exact ⟨m + 1, rfl, .cons hbe hed⟩

/-- **Where one run ends, every run ends**, after as many steps. -/
theorem Steps.within (hcomm : Commuting r) (hend : ∀ e, ¬ r d e) (hn : Steps r n a d)
    (hk : Steps r k a b) : k ≤ n ∧ Steps r (n - k) b d := by
  induction hk generalizing n with
  | refl => exact ⟨Nat.zero_le n, hn⟩
  | @cons k a a' b haa' _ ih =>
    obtain ⟨m, rfl, hm⟩ := Steps.of_step hcomm hend hn haa'
    obtain ⟨hle, hrest⟩ := ih hm
    exact ⟨Nat.succ_le_succ hle, by rwa [Nat.add_sub_add_right]⟩

end

/-! ## What is left of a program -/

/-- A program has gone on by one operation. -/
inductive Prog.GoesOn {E : Type} {R : E → Type} {α : Type} : Prog E R α → Prog E R α → Prop where
  | intro {e : E} (k : R e → Prog E R α) (r : R e) : GoesOn (k r) (.op e k)

/-- A program comes to an end, whatever its operations answer. -/
theorem Prog.goesOn_wf {E : Type} {R : E → Type} {α : Type} : WellFounded (@GoesOn E R α) := by
  refine ⟨fun p => ?_⟩
  induction p with
  | pure a => exact ⟨_, fun q h => by cases h⟩
  | op e k ih =>
    refine ⟨_, fun q h => ?_⟩
    cases h with
    | intro _ r => exact ih r

/-! ## A connection -/

/-- One direction of a connection. -/
structure Pipe (M : Type) where
  /-- What is under way, the next to arrive first. -/
  data : List M
  /-- Nothing more will be said. -/
  closed : Bool

namespace Pipe

variable {M : Type}

/-- Something is said, and perhaps the direction is closed with it. -/
def put (p : Pipe M) (said : List M) (close : Bool) : Pipe M :=
  if p.closed then p else ⟨p.data ++ said, close⟩

/-- Something has been heard, and this is left. -/
def leave (p : Pipe M) (rest : List M) : Pipe M := ⟨rest, p.closed⟩

@[simp] theorem closed_leave (p : Pipe M) (rest : List M) : (p.leave rest).closed = p.closed := rfl

theorem put_of_closed {p : Pipe M} {said : List M} {close : Bool} (h : p.closed = true) :
    p.put said close = p := if_pos h

theorem put_of_open {p : Pipe M} {said : List M} {close : Bool} (h : p.closed = false) :
    p.put said close = ⟨p.data ++ said, close⟩ :=
  if_neg (ne_true_of_eq_false h)

@[simp] theorem put_nil_false (p : Pipe M) : p.put [] false = p := by
  cases hc : p.closed with
  | true => exact put_of_closed hc
  | false =>
    rw [put_of_open hc, List.append_nil, ← hc]

end Pipe

/-- How the program at an end of a connection runs. -/
structure Port (M : Type) : Type 1 where
  /-- Its operations. -/
  E : Type
  /-- Their answers. -/
  R : E → Type
  /-- What the environment supplies to an operation. -/
  I : Type
  /-- The store of the end. -/
  σ : Type
  /-- What the program returns. -/
  α : Type
  /-- How operations execute. -/
  exec : Exec E R I σ
  /-- Whether an operation hears what the other end says. -/
  hears : E → Bool
  /-- What has arrived becomes part of the input, and the rest is left; `none` is to wait. -/
  hear : I → Pipe M → Option (I × List M)
  /-- What an operation says by its answer, and whether the direction is closed with it. -/
  speak : (e : E) → I → R e → List M × Bool
  /-- Whether the end closes its direction after such a result. -/
  hangsUp : α → Bool
  /-- What arrives later does not change what has been heard. -/
  hear_append : ∀ {i i' : I} {data rest said : List M} {close : Bool},
    hear i ⟨data, false⟩ = some (i', rest) → hear i ⟨data ++ said, close⟩ = some (i', rest ++ said)

namespace Port

variable {M : Type} (A : Port M)

/-- A program at an end, and where it has come to. -/
structure End where
  /-- What is left to run. -/
  rest : Prog A.E A.R A.α
  /-- Its history, its store, and its inputs. -/
  here : Solo A.E A.R A.I A.σ

/-- What an end is in touch with. -/
structure Site where
  here : Solo A.E A.R A.I A.σ
  /-- What the other end has said. -/
  inn : Pipe M
  /-- What this end has said. -/
  out : Pipe M

/-- The input of an operation, and what is left under way to it. -/
def supply (e : A.E) (i : A.I) (inn : Pipe M) : Option (A.I × Pipe M) :=
  if A.hears e then (A.hear i inn).map fun x => (x.1, inn.leave x.2) else some (i, inn)

variable {A}

/-- A solo program after an operation on a given input. -/
def took (here : Solo A.E A.R A.I A.σ) (e : A.E) (i : A.I) : Solo A.E A.R A.I A.σ where
  hist := ⟨e, (A.exec e i here.store).1⟩ :: here.hist
  store := (A.exec e i here.store).2
  inputs n := here.inputs (n + 1)

/-- An operation at a site, unless it has to wait. -/
def Site.act (t : A.Site) (e : A.E) : Option (A.R e × A.Site) :=
  (A.supply e (t.here.inputs 0) t.inn).map fun x =>
    let r := (A.exec e x.1 t.here.store).1
    (r, ⟨took t.here e x.1, x.2, t.out.put (A.speak e x.1 r).1 (A.speak e x.1 r).2⟩)

theorem Site.act_eq_some {t t' : A.Site} {e : A.E} {r : A.R e} :
    t.act e = some (r, t') ↔ ∃ i inn, A.supply e (t.here.inputs 0) t.inn = some (i, inn) ∧
      (A.exec e i t.here.store).1 = r ∧
      ⟨took t.here e i, inn, t.out.put (A.speak e i r).1 (A.speak e i r).2⟩ = t' := by
  rw [Site.act, Option.map_eq_some_iff]
  constructor
  · rintro ⟨⟨i, inn⟩, hsupply, h⟩
    obtain ⟨rfl, rfl⟩ := Prod.mk.inj h
    exact ⟨i, inn, hsupply, rfl, rfl⟩
  · rintro ⟨i, inn, hsupply, rfl, rfl⟩
    exact ⟨_, hsupply, rfl⟩

/-- A move of a program: the connection is closed after a result, or an operation is taken. -/
inductive Site.Moves (t : A.Site) : Prog A.E A.R A.α → Prog A.E A.R A.α → A.Site → Prop where
  | close {a : A.α} : A.hangsUp a = true → t.out.closed = false →
      t.Moves (.pure a) (.pure a) ⟨t.here, t.inn, t.out.put [] true⟩
  | op {e : A.E} {k : A.R e → Prog A.E A.R A.α} {r : A.R e} {t' : A.Site} :
      t.act e = some (r, t') → t.Moves (.op e k) (k r) t'

/-- A program moves in one way only. -/
theorem Site.Moves.unique {t t' t'' : A.Site} {p p' p'' : Prog A.E A.R A.α} (h : t.Moves p p' t')
    (h' : t.Moves p p'' t'') : p' = p'' ∧ t' = t'' := by
  cases h with
  | close =>
    cases h' with
    | close => exact ⟨rfl, rfl⟩
  | op hact =>
    cases h' with
    | op hact' =>
      obtain ⟨rfl, rfl⟩ := Prod.mk.inj (Option.some.inj (hact.symm.trans hact'))
      exact ⟨rfl, rfl⟩

/-- Nothing but the closing is left after a result. -/
theorem Site.Moves.of_pure {t t' : A.Site} {a : A.α} {p : Prog A.E A.R A.α}
    (h : t.Moves (.pure a) p t') : A.hangsUp a = true ∧ t.out.closed = false := by
  cases h with
  | close hup hopen => exact ⟨hup, hopen⟩

/-! ### What a move depends on -/

theorem supply_put {e : A.E} {i i' : A.I} {inn inn' : Pipe M} (h : A.supply e i inn = some (i', inn'))
    (said : List M) (close : Bool) :
    A.supply e i (inn.put said close) = some (i', inn'.put said close) := by
  unfold supply at h ⊢
  split_ifs at h ⊢ with hhears
  · obtain ⟨⟨i₁, rest⟩, hhear, hx⟩ := Option.map_eq_some_iff.mp h
    obtain ⟨rfl, rfl⟩ := Prod.mk.inj hx
    obtain ⟨data, closed⟩ := inn
    cases closed with
    | true =>
      rw [Pipe.put_of_closed rfl, Pipe.put_of_closed rfl, hhear]
      rfl
    | false =>
      rw [Pipe.put_of_open rfl, Pipe.put_of_open rfl, A.hear_append hhear]
      rfl
  · obtain ⟨rfl, rfl⟩ := Prod.mk.inj (Option.some.inj h)
    rfl

theorem leave_of_supply {e : A.E} {i i' : A.I} {inn inn' : Pipe M}
    (h : A.supply e i inn = some (i', inn')) : inn.leave inn'.data = inn' := by
  unfold supply at h
  split_ifs at h
  · obtain ⟨x, -, hx⟩ := Option.map_eq_some_iff.mp h
    obtain ⟨rfl, rfl⟩ := Prod.mk.inj hx
    rfl
  · obtain ⟨rfl, rfl⟩ := Prod.mk.inj (Option.some.inj h)
    rfl

/-- **What a move does to the connection**, whatever else is under way: it takes from one direction
and adds to the other. -/
theorem Site.Moves.frame {t t' : A.Site} {p p' : Prog A.E A.R A.α} (h : t.Moves p p' t') :
    ∃ said close, t'.out = t.out.put said close ∧ t.inn.leave t'.inn.data = t'.inn ∧
      ∀ said' close' rest', Site.Moves ⟨t.here, t.inn.put said' close', t.out.leave rest'⟩ p p'
        ⟨t'.here, t'.inn.put said' close', (t.out.leave rest').put said close⟩ := by
  cases h with
  | close hup hopen => exact ⟨[], true, rfl, rfl, fun _ _ _ => .close hup hopen⟩
  | op hact =>
    obtain ⟨i, inn, hsupply, rfl, rfl⟩ := Site.act_eq_some.mp hact
    exact ⟨_, _, rfl, leave_of_supply hsupply, fun said' close' rest' =>
      .op (Site.act_eq_some.mpr ⟨i, _, supply_put hsupply said' close', rfl, rfl⟩)⟩

end Port

/-! ## The two ends -/

/-- Two ends of a connection. -/
structure Link {M : Type} (A B : Port M) where
  left : A.End
  right : B.End
  toRight : Pipe M
  toLeft : Pipe M

namespace Link

variable {M : Type} {A B : Port M}

/-- The link with its left end at a site. -/
def ofLeft (p : Prog A.E A.R A.α) (t : A.Site) (y : B.End) : Link A B :=
  ⟨⟨p, t.here⟩, y, t.out, t.inn⟩

/-- The link with its right end at a site. -/
def ofRight (x : A.End) (p : Prog B.E B.R B.α) (u : B.Site) : Link A B :=
  ⟨x, ⟨p, u.here⟩, u.inn, u.out⟩

/-- What the left end is in touch with. -/
def leftSite (c : Link A B) : A.Site := ⟨c.left.here, c.toLeft, c.toRight⟩

/-- What the right end is in touch with. -/
def rightSite (c : Link A B) : B.Site := ⟨c.right.here, c.toRight, c.toLeft⟩

/-- One end moves. -/
inductive Step : Link A B → Link A B → Prop where
  | left {c : Link A B} {p : Prog A.E A.R A.α} {t : A.Site} :
      c.leftSite.Moves c.left.rest p t → Step c (ofLeft p t c.right)
  | right {c : Link A B} {p : Prog B.E B.R B.α} {u : B.Site} :
      c.rightSite.Moves c.right.rest p u → Step c (ofRight c.left p u)

/-- The two moves, one after the other, in either order. -/
theorem exists_both {c : Link A B} {p : Prog A.E A.R A.α} {t : A.Site} {q : Prog B.E B.R B.α}
    {u : B.Site} (hleft : c.leftSite.Moves c.left.rest p t)
    (hright : c.rightSite.Moves c.right.rest q u) :
    ∃ d, Step (ofLeft p t c.right) d ∧ Step (ofRight c.left q u) d := by
  obtain ⟨said, close, hout, hinn, hframe⟩ := hleft.frame
  obtain ⟨said', close', hout', hinn', hframe'⟩ := hright.frame
  have hafter : (ofLeft p t c.right).rightSite.Moves c.right.rest q
      ⟨u.here, u.inn.put said close, t.inn.put said' close'⟩ := by
    have hmove := hframe' said close t.inn.data
    rw [show c.rightSite.out.leave t.inn.data = t.inn from hinn] at hmove
    rw [show (ofLeft p t c.right).rightSite = ⟨c.right.here, c.toRight.put said close, t.inn⟩ from
      congrArg (Port.Site.mk _ · _) hout]
    exact hmove
  have hafter' : (ofRight c.left q u).leftSite.Moves c.left.rest p
      ⟨t.here, t.inn.put said' close', u.inn.put said close⟩ := by
    have hmove := hframe said' close' u.inn.data
    rw [show c.leftSite.out.leave u.inn.data = u.inn from hinn'] at hmove
    rw [show (ofRight c.left q u).leftSite = ⟨c.left.here, c.toLeft.put said' close', u.inn⟩ from
      congrArg (Port.Site.mk _ · _) hout']
    exact hmove
  exact ⟨_, .right hafter, .left hafter'⟩

/-- **The moves of the two ends commute.** -/
theorem step_comm : Commuting (@Step M A B) := by
  intro c a b ha hb
  cases ha with
  | left hp =>
    cases hb with
    | left hq =>
      obtain ⟨rfl, rfl⟩ := hp.unique hq
      exact .inl rfl
    | right hq => exact .inr (exists_both hp hq)
  | right hp =>
    cases hb with
    | right hq =>
      obtain ⟨rfl, rfl⟩ := hp.unique hq
      exact .inl rfl
    | left hq =>
      obtain ⟨d, had, hbd⟩ := exists_both hq hp
      exact .inr ⟨d, hbd, had⟩

/-- Neither end can move. -/
def Stuck (c : Link A B) : Prop := ∀ d, ¬ Step c d

/-- **Every order of the moves comes to an end**, to one at which `Done` holds, after the same
number of moves: no order goes on for ever, and none gets stuck before. -/
def ComesTo (c : Link A B) (Done : Link A B → Prop) : Prop :=
  ∃ n d, Done d ∧ Stuck d ∧ ∀ k b, Steps Step k c b → k ≤ n ∧ Steps Step (n - k) b d

/-- One order that comes to an end will do. -/
theorem comesTo_of_reaches {c d : Link A B} {Done : Link A B → Prop}
    (h : Relation.ReflTransGen Step c d) (hstuck : Stuck d) (hdone : Done d) : c.ComesTo Done := by
  obtain ⟨n, hn⟩ := exists_steps h
  exact ⟨n, d, hdone, hstuck, fun k b hk => hn.within step_comm hstuck hk⟩

/-! ### Moves come to an end -/

/-- How many directions may still be closed. -/
def opened (c : Link A B) : ℕ := (!c.toRight.closed).toNat + (!c.toLeft.closed).toNat

/-- What is left of the two programs, and of the directions. -/
def remaining (c : Link A B) : Prog A.E A.R A.α × Prog B.E B.R B.α × ℕ :=
  (c.left.rest, c.right.rest, c.opened)

/-- Less is left: a program has gone on, or a direction has been closed. -/
abbrev Less : Prog A.E A.R A.α × Prog B.E B.R B.α × ℕ →
    Prog A.E A.R A.α × Prog B.E B.R B.α × ℕ → Prop :=
  Prod.Lex Prog.GoesOn (Prod.Lex Prog.GoesOn (· < ·))

theorem less_of_step {c d : Link A B} (h : Step c d) : Less d.remaining c.remaining := by
  obtain ⟨⟨rest, here⟩, ⟨rest', here'⟩, toRight, toLeft⟩ := c
  cases h with
  | left hmove =>
    cases hmove with
    | close hup hopen =>
      refine .right _ (.right _ ?_)
      have hopen : toRight.closed = false := hopen
      simp [opened, ofLeft, leftSite, Pipe.put, hopen]
    | op => exact .left _ _ (.intro _ _)
  | right hmove =>
    cases hmove with
    | close hup hopen =>
      refine .right _ (.right _ ?_)
      have hopen : toLeft.closed = false := hopen
      simp [opened, ofRight, rightSite, Pipe.put, hopen]
    | op => exact .right _ (.left _ _ (.intro _ _))

/-- **No order goes on for ever.** -/
theorem exists_stuck (c : Link A B) : ∃ d, Relation.ReflTransGen Step c d ∧ Stuck d := by
  have hwf : WellFounded (InvImage Less (remaining : Link A B → _)) :=
    InvImage.wf _ (Prod.lex ⟨_, Prog.goesOn_wf⟩
      (Prod.lex ⟨_, Prog.goesOn_wf⟩ Nat.lt_wfRel)).wf
  induction c using hwf.induction with
  | _ c ih =>
    by_cases hstuck : Stuck c
    · exact ⟨c, .refl, hstuck⟩
    · obtain ⟨d, hstep⟩ := not_forall_not.mp hstuck
      obtain ⟨e, hreach, he⟩ := ih d (less_of_step hstep)
      exact ⟨e, .head hstep hreach, he⟩

end Link

/-! ## One end at a time -/

namespace Port

variable {M : Type} {A B : Port M} {ε α β : Type}

/-- An end runs alone: it is not to wait, and what it does is done. -/
def alone (A : Port M) : Semantics A.E A.R A.Site where
  guar t e := ∃ x, t.act e = some x
  step t e r t' := t.act e = some (r, t')

/-- A program that runs alone leads the left end of a link on. -/
theorem reaches_left {p : Prog A.E A.R α} {t : A.Site} {Q : A.Site → α → Prop}
    (h : p.wp A.alone t Q) (k : α → Prog A.E A.R A.α) (y : B.End) :
    ∃ t' a, Q t' a ∧ Relation.ReflTransGen Link.Step (.ofLeft (p.bind k) t y)
      (Link.ofLeft (k a) t' y) := by
  induction p generalizing t with
  | pure a => exact ⟨t, a, h, .refl⟩
  | op e f ih =>
    obtain ⟨⟨⟨r, u⟩, hact⟩, hf⟩ := (Prog.wp_op ..).mp h
    obtain ⟨t', a, hQ, hreach⟩ := ih r (hf r u hact)
    exact ⟨t', a, hQ, .head (.left (.op hact)) hreach⟩

/-- A program that runs alone leads the right end of a link on. -/
theorem reaches_right {p : Prog B.E B.R α} {u : B.Site} {Q : B.Site → α → Prop}
    (h : p.wp B.alone u Q) (k : α → Prog B.E B.R B.α) (x : A.End) :
    ∃ u' a, Q u' a ∧ Relation.ReflTransGen Link.Step (.ofRight x (p.bind k) u)
      (Link.ofRight x (k a) u') := by
  induction p generalizing u with
  | pure a => exact ⟨u, a, h, .refl⟩
  | op e f ih =>
    obtain ⟨⟨⟨r, v⟩, hact⟩, hf⟩ := (Prog.wp_op ..).mp h
    obtain ⟨u', a, hQ, hreach⟩ := ih r (hf r v hact)
    exact ⟨u', a, hQ, .head (.right (.op hact)) hreach⟩

theorem wp_alone_op {e : A.E} {k : A.R e → Prog A.E A.R α} {t t' : A.Site} {r : A.R e}
    {Q : A.Site → α → Prop} (h : t.act e = some (r, t')) :
    (Prog.op e k).wp A.alone t Q ↔ (k r).wp A.alone t' Q := by
  rw [Prog.wp_op]
  constructor
  · rintro ⟨-, hk⟩
    exact hk r t' h
  · refine fun hk => ⟨⟨_, h⟩, fun r₁ t₁ h₁ => ?_⟩
    obtain ⟨rfl, rfl⟩ := Prod.mk.inj (Option.some.inj (h.symm.trans h₁))
    exact hk

end Port

end Effects
end ZeroTrust
