import ZeroTrust.Effects.Program
import Mathlib.Data.List.Infix
import Mathlib.Tactic.Common

/-!
# Interleaved runs

Any number of programs run against one store, one atomic operation at a time, in
any order.  A run is recorded as its trace, most recent item first; an item names
the job that moved, its own events before that move, the event, the environment's
input, and the store on both sides.

* `Run.guarantee`: what every program guarantees for its own history holds of every
  item of every trace.
* `Run.exists_of_past`: an event in a job's history is an item of the trace, and no
  other item of that job lies in between.
* `Run.invariant`, `Run.stable`: what every item preserves holds all along, and
  holds from the moment it first does.
* `Run.exists_cause`: what comes to hold was brought about by an item.
* `System.exists_run_alone`: a program that runs alone is a run.
* `Atomic`, `Run.exists_of_past_atomic`: traces in which jobs do not interrupt each other.
* `System.play`, `System.run_play`: a schedule is played, and is a run.
-/

namespace ZeroTrust
namespace Effects

variable {E : Type} {R : E → Type} {I σ L α : Type}

/-- A program being run: its label, what it has done, and what is left of it. -/
structure Job (E : Type) (R : E → Type) (L α : Type) where
  /-- What the job was started for. -/
  label : L
  /-- Its events, most recent first. -/
  hist : List (Event E R)
  /-- What is left to run. -/
  rest : Prog E R α

/-- One move of a run. -/
structure Item (E : Type) (R : E → Type) (I σ L : Type) where
  /-- The job that moved. -/
  job : ℕ
  /-- What that job was started for. -/
  label : L
  /-- The job's own events before this one, most recent first. -/
  past : List (Event E R)
  /-- The operation and its answer. -/
  ev : Event E R
  /-- What the environment supplied. -/
  input : I
  /-- The store before. -/
  pre : σ
  /-- The store after. -/
  post : σ

/-- A system: how operations execute, and which program each label stands for. -/
structure System (E : Type) (R : E → Type) (I σ L α : Type) where
  /-- How operations execute. -/
  exec : Exec E R I σ
  /-- The program of a label. -/
  code : L → Prog E R α

variable (S : System E R I σ L α)

/-- `S.Run s₀ t js s`: from the store `s₀`, with no job running, the trace `t` leads
to the jobs `js` and the store `s`.  Jobs start at any time. -/
inductive System.Run (s₀ : σ) : List (Item E R I σ L) → List (Job E R L α) → σ → Prop where
  | init : System.Run s₀ [] [] s₀
  | start {t : List (Item E R I σ L)} {js : List (Job E R L α)} {s : σ} (l : L) :
      System.Run s₀ t js s → System.Run s₀ t (js ++ [⟨l, [], S.code l⟩]) s
  | move {t : List (Item E R I σ L)} {js : List (Job E R L α)} {s : σ} {n : ℕ} {l : L}
      {h : List (Event E R)} {e : E} {k : R e → Prog E R α} (i : I) :
      System.Run s₀ t js s → js[n]? = some ⟨l, h, .op e k⟩ →
      System.Run s₀ (⟨n, l, h, ⟨e, (S.exec e i s).1⟩, i, s, (S.exec e i s).2⟩ :: t)
        (js.set n ⟨l, ⟨e, (S.exec e i s).1⟩ :: h, k (S.exec e i s).1⟩) (S.exec e i s).2

variable {S} {s₀ s : σ} {t later earlier : List (Item E R I σ L)} {js : List (Job E R L α)}
  {x : Item E R I σ L}

namespace System.Run

/-- Every job is its program after its history. -/
theorem after (hr : S.Run s₀ t js s) {n : ℕ} {j : Job E R L α} (hj : js[n]? = some j) :
    (S.code j.label).After j.hist j.rest := by
  induction hr generalizing n j with
  | init => simp at hj
  | @start t js s l _ ih =>
    rcases lt_or_ge n js.length with hlt | hge
    · rw [List.getElem?_append_left hlt] at hj
      exact ih hj
    · rw [List.getElem?_append_right hge, List.getElem?_singleton] at hj
      split at hj
      · obtain rfl := Option.some.inj hj
        exact .nil
      · simp at hj
  | @move t js s m l h e k i _ hm ih =>
    rw [List.getElem?_set] at hj
    split at hj
    · split at hj
      · obtain rfl := Option.some.inj hj
        exact .cons _ (ih hm)
      · simp at hj
    · exact ih hj

/-- **What each program guarantees holds of every move.** -/
theorem guarantee {A : L → List (Event E R) → E → Prop}
    {Q : L → List (Event E R) → α → Prop}
    (hA : ∀ l, (S.code l).wp (.isolated (A l)) [] (Q l)) (hr : S.Run s₀ t js s)
    (hx : x ∈ t) : A x.label x.past x.ev.op := by
  induction hr with
  | init => simp at hx
  | start l _ ih => exact ih hx
  | move i hr hm ih =>
    rcases List.mem_cons.mp hx with rfl | hx
    · exact (hr.after hm).guar (hA _)
    · exact ih hx

/-- A finished job meets its program's postcondition. -/
theorem post_of_finished {A : L → List (Event E R) → E → Prop}
    {Q : L → List (Event E R) → α → Prop}
    (hA : ∀ l, (S.code l).wp (.isolated (A l)) [] (Q l)) (hr : S.Run s₀ t js s) {n : ℕ}
    {l : L} {h : List (Event E R)} {a : α} (hj : js[n]? = some ⟨l, h, .pure a⟩) : Q l h a :=
  (hr.after hj).wp (hA l)

/-- Every item is an execution of its operation. -/
theorem exec_eq (hr : S.Run s₀ t js s) (hx : x ∈ t) :
    S.exec x.ev.op x.input x.pre = (x.ev.res, x.post) := by
  induction hr with
  | init => simp at hx
  | start l _ ih => exact ih hx
  | move i hr hm ih =>
    rcases List.mem_cons.mp hx with rfl | hx
    · rfl
    · exact ih hx

/-- Every earlier part of a trace is the trace of a run. -/
theorem of_append (hr : S.Run s₀ t js s) (ht : t = later ++ earlier) :
    ∃ js' s', S.Run s₀ earlier js' s' := by
  induction hr generalizing later with
  | init =>
    obtain ⟨-, rfl⟩ := List.append_eq_nil_iff.mp ht.symm
    exact ⟨[], s₀, .init⟩
  | start l _ ih => exact ih ht
  | @move t js s m l h e k i hr hm ih =>
    rcases later with _ | ⟨y, later⟩
    · rw [List.nil_append] at ht
      exact ⟨_, _, ht ▸ System.Run.move i hr hm⟩
    · exact ih (List.cons.inj ht).2

/-- The store of a run is the one its last item left. -/
theorem store_eq_post (hr : S.Run s₀ (x :: t) js s) : s = x.post := by
  generalize hu : x :: t = u at hr
  induction hr with
  | init => simp at hu
  | start l _ ih => exact ih hu
  | move i hr hm ih => rw [(List.cons.inj hu).1]

/-- The store an item meets is the one the run before it left. -/
theorem of_cons (hr : S.Run s₀ (x :: t) js s) :
    ∃ js', S.Run s₀ t js' x.pre ∧ ∃ k, js'[x.job]? = some ⟨x.label, x.past, .op x.ev.op k⟩ := by
  generalize hu : x :: t = u at hr
  induction hr with
  | init => simp at hu
  | start l _ ih => exact ih hu
  | move i hr hm ih =>
    obtain ⟨rfl, rfl⟩ := List.cons.inj hu
    exact ⟨_, hr, _, hm⟩

/-- An item with everything before it is itself the end of a run. -/
theorem at_item (hr : S.Run s₀ t js s) (ht : t = later ++ x :: earlier) :
    ∃ js', S.Run s₀ earlier js' x.pre ∧
      ∃ k, js'[x.job]? = some ⟨x.label, x.past, .op x.ev.op k⟩ := by
  obtain ⟨js', s', hr'⟩ := hr.of_append ht
  exact hr'.of_cons

/-! ## Histories and traces -/

/-- The last event of a job is an item of the trace, and that job has not moved
since. -/
theorem exists_item_of_hist (hr : S.Run s₀ t js s) {n : ℕ} {l : L} {ev : Event E R}
    {h : List (Event E R)} {p : Prog E R α} (hj : js[n]? = some ⟨l, ev :: h, p⟩) :
    ∃ since y before, t = since ++ y :: before ∧ y.job = n ∧ y.label = l ∧ y.ev = ev ∧
      y.past = h ∧ ∀ z ∈ since, z.job ≠ n := by
  induction hr generalizing p with
  | init => simp at hj
  | @start t js s l' _ ih =>
    rcases lt_or_ge n js.length with hlt | hge
    · rw [List.getElem?_append_left hlt] at hj
      exact ih hj
    · rw [List.getElem?_append_right hge, List.getElem?_singleton] at hj
      split at hj
      · simp at hj
      · simp at hj
  | @move t js s m l' h' e k i hr hm ih =>
    rw [List.getElem?_set] at hj
    by_cases hmn : m = n
    · rw [if_pos hmn] at hj
      split at hj
      · injection hj with hj
        injection hj with h1 h2 h3
        obtain ⟨h4, h5⟩ := List.cons.inj h2
        exact ⟨[], _, t, rfl, hmn, h1, h4, h5, by simp⟩
      · simp at hj
    · rw [if_neg hmn] at hj
      obtain ⟨since, y, before, rfl, hy1, hy2, hy3, hy4, hs⟩ := ih hj
      refine ⟨_ :: since, y, before, rfl, hy1, hy2, hy3, hy4, fun z hz => ?_⟩
      rcases List.mem_cons.mp hz with rfl | hz
      · exact hmn
      · exact hs z hz

/-- **The event before a move of a job is an earlier item of the same job**, and the
job did not move in between. -/
theorem exists_of_past (hr : S.Run s₀ t js s) (ht : t = later ++ x :: earlier)
    {ev : Event E R} {h : List (Event E R)} (hx : x.past = ev :: h) :
    ∃ since y before, earlier = since ++ y :: before ∧ y.job = x.job ∧ y.label = x.label ∧
      y.ev = ev ∧ y.past = h ∧ ∀ z ∈ since, z.job ≠ x.job := by
  obtain ⟨js', hr', k, hk⟩ := hr.at_item ht
  rw [hx] at hk
  exact hr'.exists_item_of_hist hk

/-- An event anywhere in a move's past is an earlier item of the same job, whose own past
is what is older. -/
theorem exists_of_past_append (hr : S.Run s₀ t js s) (ht : t = later ++ x :: earlier)
    {ev : Event E R} {newer older : List (Event E R)} (hx : x.past = newer ++ ev :: older) :
    ∃ since y before, earlier = since ++ y :: before ∧ y.job = x.job ∧ y.label = x.label ∧
      y.ev = ev ∧ y.past = older := by
  induction newer generalizing later x earlier with
  | nil =>
    obtain ⟨since, y, before, h1, h2, h3, h4, h5, -⟩ := hr.exists_of_past ht hx
    exact ⟨since, y, before, h1, h2, h3, h4, h5⟩
  | cons ev' newer ih =>
    obtain ⟨since, y, before, rfl, h2, h3, -, h5, -⟩ := hr.exists_of_past ht hx
    have hty : t = (later ++ x :: since) ++ y :: before := by simp [ht]
    obtain ⟨since', z, before', rfl, h7, h8, h9⟩ := ih hty h5
    exact ⟨since ++ y :: since', z, before', by simp, h7.trans h2, h8.trans h3, h9⟩

/-- An event of an item's past is an item of the same job. -/
theorem exists_of_mem_past (hr : S.Run s₀ t js s) (hx : x ∈ t) {ev : Event E R}
    (hev : ev ∈ x.past) :
    ∃ later y earlier, t = later ++ y :: earlier ∧ y.job = x.job ∧ y.label = x.label ∧ y.ev = ev := by
  obtain ⟨a, b, rfl⟩ := List.append_of_mem hx
  obtain ⟨newer, older, hpast⟩ := List.append_of_mem hev
  obtain ⟨since, y, before, rfl, hjob, hlabel, hy, -⟩ := hr.exists_of_past_append rfl hpast
  exact ⟨a ++ x :: since, y, before, by simp, hjob, hlabel, hy⟩

/-- An event anywhere in a job's history is an item of the trace. -/
theorem exists_item_of_hist_append (hr : S.Run s₀ t js s) {n : ℕ} {l : L} {ev : Event E R}
    {newer older : List (Event E R)} {p : Prog E R α}
    (hj : js[n]? = some ⟨l, newer ++ ev :: older, p⟩) :
    ∃ y ∈ t, y.job = n ∧ y.label = l ∧ y.ev = ev ∧ y.past = older := by
  rcases newer with _ | ⟨ev', newer⟩
  · obtain ⟨since, y, before, rfl, h1, h2, h3, h4, -⟩ := hr.exists_item_of_hist hj
    exact ⟨y, by simp, h1, h2, h3, h4⟩
  · obtain ⟨since, y, before, rfl, h1, h2, -, h4, -⟩ := hr.exists_item_of_hist hj
    obtain ⟨since', z, before', rfl, h5, h6, h7, h8⟩ := hr.exists_of_past_append rfl h4
    exact ⟨z, by simp, h5.trans h1, h6.trans h2, h7, h8⟩

theorem job_lt_of_item (hr : S.Run s₀ t js s) (hx : x ∈ t) : x.job < js.length := by
  induction hr with
  | init => simp at hx
  | start l _ ih =>
    rw [List.length_append]
    exact Nat.lt_add_right _ (ih hx)
  | move i hr hm ih =>
    rw [List.length_set]
    rcases List.mem_cons.mp hx with rfl | hx
    · exact (List.getElem?_eq_some_iff.mp hm).1
    · exact ih hx

/-- A job goes on from its items. -/
theorem suffix_hist_of_item (hr : S.Run s₀ t js s) (hx : x ∈ t) {j : Job E R L α}
    (hj : js[x.job]? = some j) : x.label = j.label ∧ x.ev :: x.past <:+ j.hist := by
  induction hr generalizing j with
  | init => simp at hx
  | start l hr ih =>
    rw [List.getElem?_append_left (hr.job_lt_of_item hx)] at hj
    exact ih hx hj
  | @move t js s m l h e k i hr hm ih =>
    rw [List.getElem?_set] at hj
    rcases List.mem_cons.mp hx with rfl | hx
    · rw [if_pos rfl, if_pos (List.getElem?_eq_some_iff.mp hm).1] at hj
      obtain rfl := Option.some.inj hj
      exact ⟨rfl, List.suffix_rfl⟩
    · split_ifs at hj with hxm hlt
      · obtain rfl := Option.some.inj hj
        obtain ⟨hl, hev⟩ := ih hx (hxm ▸ hm)
        exact ⟨hl, hev.trans (List.suffix_cons _ _)⟩
      · exact ih hx hj

/-- The items of a job are the events of its history. -/
theorem mem_hist_of_item (hr : S.Run s₀ t js s) (hx : x ∈ t) {j : Job E R L α}
    (hj : js[x.job]? = some j) : x.label = j.label ∧ x.ev ∈ j.hist := by
  obtain ⟨hl, hev⟩ := hr.suffix_hist_of_item hx hj
  exact ⟨hl, hev.subset List.mem_cons_self⟩

/-! ## What items preserve -/

/-- **Invariants.**  What holds at the start and is preserved by every item holds of
the store at the end. -/
theorem invariant {Inv : σ → Prop} (hr : S.Run s₀ t js s) (h₀ : Inv s₀)
    (hstep : ∀ y ∈ t, Inv y.pre → Inv y.post) : Inv s := by
  induction hr with
  | init => exact h₀
  | start l _ ih => exact ih hstep
  | @move t js s m l h e k i hr hm ih =>
    exact hstep _ List.mem_cons_self (ih fun y hy => hstep y (List.mem_cons_of_mem _ hy))

/-- An invariant holds of the store that an item meets. -/
theorem invariant_pre {Inv : σ → Prop} (hr : S.Run s₀ t js s) (h₀ : Inv s₀)
    (hstep : ∀ y ∈ t, Inv y.pre → Inv y.post) (ht : t = later ++ x :: earlier) :
    Inv x.pre := by
  obtain ⟨js', hr', -⟩ := hr.at_item ht
  exact hr'.invariant h₀ fun y hy => hstep y (by simp [ht, hy])

/-- **Stability.**  What every item preserves holds from the first item after which it
does. -/
theorem stable {P : σ → Prop} (hr : S.Run s₀ t js s) (ht : t = later ++ x :: earlier)
    (hstep : ∀ y ∈ later, P y.pre → P y.post) (hP : P x.post) : P s := by
  induction hr generalizing later with
  | init => simp at ht
  | start l _ ih => exact ih ht hstep
  | @move t js s m l h e k i hr hm ih =>
    rcases later with _ | ⟨y, later⟩
    · obtain ⟨rfl, -⟩ := List.cons.inj ht
      exact hP
    · obtain ⟨rfl, ht'⟩ := List.cons.inj ht
      exact hstep _ List.mem_cons_self
        (ih ht' fun z hz => hstep z (List.mem_cons_of_mem _ hz))

/-- Stability, read at a later item. -/
theorem stable_pre {P : σ → Prop} {y : Item E R I σ L} {between : List (Item E R I σ L)}
    (hr : S.Run s₀ t js s) (ht : t = later ++ y :: (between ++ x :: earlier))
    (hstep : ∀ z ∈ between, P z.pre → P z.post) (hP : P x.post) : P y.pre := by
  obtain ⟨js', hr', -⟩ := hr.at_item ht
  exact hr'.stable rfl hstep hP

/-- **Causes.**  What did not hold at the start and holds at the end was brought about by an
item. -/
theorem exists_cause {P : σ → Prop} (hr : S.Run s₀ t js s) (h₀ : ¬ P s₀) (hs : P s) :
    ∃ later x earlier, t = later ++ x :: earlier ∧ ¬ P x.pre ∧ P x.post := by
  induction hr with
  | init => exact absurd hs h₀
  | start l _ ih => exact ih hs
  | @move t js s m l h e k i hr hm ih =>
    by_cases hP : P s
    · obtain ⟨later, x, earlier, rfl, hpre, hpost⟩ := ih hP
      exact ⟨_ :: later, x, earlier, rfl, hpre, hpost⟩
    · exact ⟨[], _, t, rfl, hP, hs⟩

/-! ## Running alone -/

/-- A job of a run may go on alone to its end, whatever the inputs: by induction on what is left of
it. -/
theorem exists_alone (hr : S.Run s₀ t js s) {n : ℕ} {l : L} {h : List (Event E R)} {p : Prog E R α}
    (hj : js[n]? = some ⟨l, h, p⟩) (inputs : ℕ → I) :
    ∃ t' js', S.Run s₀ (t' ++ t) js' (p.run S.exec inputs h s).store ∧ ∀ y ∈ t', y.label = l := by
  induction p generalizing t js s h inputs with
  | pure a => exact ⟨[], js, hr, List.forall_mem_nil _⟩
  | op e k ih =>
    have hn := (List.getElem?_eq_some_iff.mp hj).1
    obtain ⟨t', js', hr', hlabel⟩ := ih (S.exec e (inputs 0) s).1 (hr.move (inputs 0) hj)
      (List.getElem?_set_self hn) fun n => inputs (n + 1)
    rw [List.append_cons] at hr'
    refine ⟨_, js', hr', fun y hy => ?_⟩
    rcases List.mem_append.mp hy with hy | hy
    · exact hlabel y hy
    · rw [List.mem_singleton.mp hy]

end System.Run

/-- **A program that runs alone is a run**, all of whose items are its own. -/
theorem System.exists_run_alone (S : System E R I σ L α) (l : L) (inputs : ℕ → I) (s₀ : σ) :
    ∃ t js, S.Run s₀ t js ((S.code l).run S.exec inputs [] s₀).store ∧ ∀ y ∈ t, y.label = l := by
  obtain ⟨t, js, hr, hlabel⟩ :=
    (System.Run.start l (.init : S.Run s₀ [] [] s₀)).exists_alone (n := 0) rfl inputs
  rw [List.append_nil] at hr
  exact ⟨t, js, hr, hlabel⟩

/-! ## Atomic runs -/

/-- A trace in which a job, once started, is not interrupted: every item but the first of
its job comes right after an item of the same job.  A job may be given up. -/
inductive Atomic : List (Item E R I σ L) → Prop where
  | nil : Atomic []
  | start {x : Item E R I σ L} {t : List (Item E R I σ L)} : x.past = [] → Atomic t →
      Atomic (x :: t)
  | next {x y : Item E R I σ L} {t : List (Item E R I σ L)} : x.job = y.job → Atomic (y :: t) →
      Atomic (x :: y :: t)

theorem atomic_singleton {x : Item E R I σ L} : Atomic [x] ↔ x.past = [] := by
  constructor
  · rintro (_ | ⟨h, -⟩)
    exact h
  · exact fun h => .start h .nil

theorem atomic_cons_cons {x y : Item E R I σ L} {t : List (Item E R I σ L)} :
    Atomic (x :: y :: t) ↔ (x.past = [] ∨ x.job = y.job) ∧ Atomic (y :: t) := by
  constructor
  · rintro (_ | ⟨h, ht⟩ | ⟨h, ht⟩)
    · exact ⟨.inl h, ht⟩
    · exact ⟨.inr h, ht⟩
  · rintro ⟨h | h, ht⟩
    · exact .start h ht
    · exact .next h ht

/-- Whether a trace is atomic is decided item by item. -/
def Atomic.decide : (t : List (Item E R I σ L)) → Decidable (Atomic t)
  | [] => .isTrue .nil
  | [x] => decidable_of_iff (x.past.isEmpty = true) (List.isEmpty_iff.trans atomic_singleton.symm)
  | x :: y :: t =>
    have := Atomic.decide (y :: t)
    decidable_of_iff ((x.past.isEmpty = true ∨ x.job = y.job) ∧ Atomic (y :: t))
      (by rw [atomic_cons_cons, List.isEmpty_iff])

instance (t : List (Item E R I σ L)) : Decidable (Atomic t) := Atomic.decide t

theorem Atomic.of_append (h : Atomic (later ++ earlier)) : Atomic earlier := by
  induction later with
  | nil => exact h
  | cons x later ih =>
    refine ih ?_
    rcases hl : later ++ earlier with _ | ⟨y, rest⟩
    · exact .nil
    · rw [List.cons_append, hl] at h
      exact (atomic_cons_cons.mp h).2

namespace System.Run

/-- In an atomic trace the event before a move is the item before it. -/
theorem prev_of_past (hr : S.Run s₀ t js s) (hat : Atomic t) (ht : t = later ++ x :: earlier)
    {ev : Event E R} {h : List (Event E R)} (hx : x.past = ev :: h) :
    ∃ y before, earlier = y :: before ∧ y.job = x.job ∧ y.label = x.label ∧ y.ev = ev ∧
      y.past = h ∧ y.post = x.pre := by
  obtain ⟨since, y, before, rfl, hjob, hlabel, hev, hpast, hne⟩ := hr.exists_of_past ht hx
  obtain ⟨js', hr', -⟩ := hr.at_item ht
  have hx' : Atomic (x :: (since ++ y :: before)) := (ht ▸ hat).of_append
  rcases since with _ | ⟨z, since⟩
  · exact ⟨y, before, rfl, hjob, hlabel, hev, hpast, hr'.store_eq_post.symm⟩
  · rcases (atomic_cons_cons.mp hx').1 with hnil | hz
    · exact absurd (hx.symm.trans hnil) (List.cons_ne_nil _ _)
    · exact absurd hz.symm (hne z List.mem_cons_self)

/-- A job that has moved before has a past. -/
theorem past_ne_nil (hr : S.Run s₀ t js s) (ht : t = later ++ x :: earlier)
    {w : Item E R I σ L} (hw : w ∈ earlier) (hjob : w.job = x.job) : x.past ≠ [] := by
  obtain ⟨js', hr', k, hk⟩ := hr.at_item ht
  obtain ⟨-, hev⟩ := hr'.mem_hist_of_item hw (hjob ▸ hk)
  exact List.ne_nil_of_mem hev

/-- In an atomic trace nothing comes between two moves of one job. -/
theorem job_eq_of_atomic (hr : S.Run s₀ t js s) (hat : Atomic t)
    {between : List (Item E R I σ L)} {w : Item E R I σ L}
    (ht : t = later ++ x :: (between ++ w :: earlier)) (hjob : w.job = x.job) :
    ∀ z ∈ between, z.job = x.job := by
  induction between generalizing later x with
  | nil => exact List.forall_mem_nil _
  | cons y between ih =>
    have hx : Atomic (x :: y :: (between ++ w :: earlier)) := (ht ▸ hat).of_append
    have hy : x.job = y.job := (atomic_cons_cons.mp hx).1.resolve_left
      (hr.past_ne_nil ht (by simp) hjob)
    have hrest := ih (show t = (later ++ [x]) ++ y :: (between ++ w :: earlier) by simp [ht])
      (hjob.trans hy)
    exact List.forall_mem_cons.mpr ⟨hy.symm, fun z hz => (hrest z hz).trans hy.symm⟩

/-- In an atomic trace, what the newer events of a job leave alone is as an older event
left it. -/
theorem exists_of_past_atomic {κ : Type} (π : σ → κ) (hr : S.Run s₀ t js s) (hat : Atomic t)
    (ht : t = later ++ x :: earlier) {ev : Event E R} {newer older : List (Event E R)}
    (hx : x.past = newer ++ ev :: older)
    (hkeep : ∀ y ∈ t, y.ev ∈ newer → π y.post = π y.pre) :
    ∃ since y before, earlier = since ++ y :: before ∧ y.job = x.job ∧ y.label = x.label ∧
      y.ev = ev ∧ y.past = older ∧ π y.post = π x.pre := by
  induction newer generalizing later x earlier with
  | nil =>
    obtain ⟨y, before, rfl, h1, h2, h3, h4, h5⟩ := hr.prev_of_past hat ht hx
    exact ⟨[], y, before, rfl, h1, h2, h3, h4, congrArg π h5⟩
  | cons ev' newer ih =>
    obtain ⟨y, before, rfl, h1, h2, h3, h4, h5⟩ := hr.prev_of_past hat ht hx
    have hty : t = (later ++ [x]) ++ y :: before := by simp [ht]
    obtain ⟨since, z, before', rfl, h6, h7, h8, h9, h10⟩ :=
      ih hty h4 fun w hw hev => hkeep w hw (List.mem_cons_of_mem _ hev)
    refine ⟨y :: since, z, before', rfl, h6.trans h1, h7.trans h2, h8, h9, h10.trans ?_⟩
    rw [← hkeep y (by simp [ht]) (h3 ▸ List.mem_cons_self), h5]

end System.Run

/-! ## Playing a schedule -/

/-- One step of a schedule. -/
inductive Move (L I : Type) where
  | start (l : L)
  | step (job : ℕ) (i : I)

/-- The schedule that starts a program as job `n` and gives it `k` steps with one input. -/
def Move.alone (l : L) (n k : ℕ) (i : I) : List (Move L I) :=
  .start l :: List.replicate k (.step n i)

/-- Where a schedule has come to. -/
structure Config (E : Type) (R : E → Type) (I σ L α : Type) where
  /-- The trace so far, most recent item first. -/
  trace : List (Item E R I σ L)
  /-- The jobs. -/
  jobs : List (Job E R L α)
  /-- The store. -/
  store : σ

/-- Play one step; a step of a job that is not there or has ended does nothing. -/
def System.playMove (S : System E R I σ L α) (c : Config E R I σ L α) :
    Move L I → Config E R I σ L α
  | .start l => { c with jobs := c.jobs ++ [⟨l, [], S.code l⟩] }
  | .step n i =>
      match c.jobs[n]? with
      | some ⟨l, h, .op e k⟩ =>
          ⟨⟨n, l, h, ⟨e, (S.exec e i c.store).1⟩, i, c.store, (S.exec e i c.store).2⟩ :: c.trace,
            c.jobs.set n ⟨l, ⟨e, (S.exec e i c.store).1⟩ :: h, k (S.exec e i c.store).1⟩,
            (S.exec e i c.store).2⟩
      | _ => c

/-- Play a schedule from a store. -/
def System.play (S : System E R I σ L α) (s₀ : σ) (moves : List (Move L I)) :
    Config E R I σ L α :=
  moves.foldl S.playMove ⟨[], [], s₀⟩

/-- Every schedule is a run. -/
theorem System.run_play (S : System E R I σ L α) (s₀ : σ) (moves : List (Move L I)) :
    S.Run s₀ (S.play s₀ moves).trace (S.play s₀ moves).jobs (S.play s₀ moves).store := by
  have hstep : ∀ (c : Config E R I σ L α) (m : Move L I), S.Run s₀ c.trace c.jobs c.store →
      S.Run s₀ (S.playMove c m).trace (S.playMove c m).jobs (S.playMove c m).store := by
    intro c m hc
    cases m with
    | start l => exact .start l hc
    | step n i =>
      simp only [System.playMove]
      split
      · next hj => exact .move i hc hj
      · exact hc
  have hplay : ∀ (moves : List (Move L I)) (c : Config E R I σ L α),
      S.Run s₀ c.trace c.jobs c.store →
      S.Run s₀ (moves.foldl S.playMove c).trace (moves.foldl S.playMove c).jobs
        (moves.foldl S.playMove c).store := by
    intro moves
    induction moves with
    | nil => exact fun c hc => hc
    | cons m moves ih => exact fun c hc => ih _ (hstep c m hc)
  exact hplay moves _ .init

end Effects
end ZeroTrust
