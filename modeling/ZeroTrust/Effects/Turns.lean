import ZeroTrust.Effects.Interleaving
import Mathlib.Data.List.Forall2

/-!
# Threads that take turns with themselves

A thread runs programs one after another, each to its end, and its next one only if the last has
ended well.  Threads are interleaved operation by operation.  Every run of threads is a run in
which each of their programs is a job of its own: what holds of all interleavings of single
programs holds of all interleavings of threads.

* `wp_isolated_and`, `wp_isolated_past`: two guarantees of one program, and a guarantee read back
  from the history.
* `System.inTurn`, `System.threads`: the program of a thread, and the system of threads.
* `PartOf`: an item of a thread is an item of one of its programs.
* `Stands`, `Follow`, `KeepsOrder`: the jobs of a thread are its first programs, one for each, in
  their order.
* `Run.of_threads`: the run of single programs.
-/

namespace ZeroTrust
namespace Effects

variable {E : Type} {R : E → Type} {I σ L T α : Type}

/-! ## Guarantees -/

/-- Two guarantees of one program. -/
theorem wp_isolated_and {A B : List (Event E R) → E → Prop} {p : Prog E R α}
    {g : List (Event E R)} {Q Q' : List (Event E R) → α → Prop} (hA : p.wp (.isolated A) g Q)
    (hB : p.wp (.isolated B) g Q') :
    p.wp (.isolated fun h e => A h e ∧ B h e) g fun h a => Q h a ∧ Q' h a := by
  induction p generalizing g with
  | pure a => exact ⟨hA, hB⟩
  | op e k ih =>
    obtain ⟨ha, hka⟩ := wp_isolated_op.mp hA
    obtain ⟨hb, hkb⟩ := wp_isolated_op.mp hB
    exact wp_isolated_op.mpr ⟨⟨ha, hb⟩, fun r => ih r (hka r) (hkb r)⟩

/-- **The guarantee is read back from the history**: it held of every event when it was
issued. -/
theorem wp_isolated_past {A : List (Event E R) → E → Prop} {p : Prog E R α}
    {Q : List (Event E R) → α → Prop} (hp : p.wp (.isolated A) [] Q) :
    p.wp (.isolated A) [] fun h a => Q h a ∧
      ∀ newer ev older, h = newer ++ ev :: older → A older ev.op := by
  have hall : ∀ {p : Prog E R α} {g : List (Event E R)}, p.wp (.isolated A) g Q →
      (∀ newer ev older, g = newer ++ ev :: older → A older ev.op) →
      p.wp (.isolated A) g fun h a => Q h a ∧
        ∀ newer ev older, h = newer ++ ev :: older → A older ev.op := by
    intro p
    induction p with
    | pure a => exact fun hp hg => ⟨hp, hg⟩
    | op e k ih =>
      intro g hp hg
      obtain ⟨he, hk⟩ := wp_isolated_op.mp hp
      refine wp_isolated_op.mpr ⟨he, fun r => ih r (hk r) ?_⟩
      rintro (_ | ⟨ev', newer⟩) ev older heq
      · obtain ⟨rfl, rfl⟩ := List.cons.inj heq
        exact he
      · exact hg newer ev older (List.cons.inj heq).2
  exact hall hp fun newer ev older heq => absurd heq (by simp)

/-! ## Threads -/

section

variable (S : System E R I σ L α)

/-- Programs one after another: the next one is begun if the last has ended well.  `last` is
returned where no program is left. -/
def System.inTurn (goesOn : α → Bool) (last : α) : List L → Prog E R α
  | [] => .pure last
  | l :: ls => (S.code l).bind fun a => if goesOn a then inTurn goesOn last ls else .pure a

/-- The system whose jobs are threads. -/
def System.threads (labels : T → List L) (goesOn : T → α → Bool) (last : T → α) :
    System E R I σ T α where
  exec := S.exec
  code d := S.inTurn (goesOn d) (last d) (labels d)

end

/-- An item of a thread, as an item of one of its programs, which is a job of the thread: its past
is what that program has done. -/
structure PartOf (labels : T → List L) (jobs : ℕ → List ℕ) (x : Item E R I σ T)
    (y : Item E R I σ L) : Prop where
  job : y.job ∈ jobs x.job
  label : y.label ∈ labels x.label
  past : y.past <+: x.past
  ev : y.ev = x.ev
  input : y.input = x.input
  pre : y.pre = x.pre
  post : y.post = x.post

/-- No job of a thread goes on after a later one of the thread has moved. -/
def KeepsOrder (jobs : ℕ → List ℕ) (t : List (Item E R I σ L)) : Prop :=
  t.Pairwise fun y z => ∀ n, y.job ∈ jobs n → z.job ∈ jobs n → z.job ≤ y.job

/-- What a thread does after a program with these programs left. -/
def System.goOn (S : System E R I σ L α) (goesOn : α → Bool) (last : α) (ls : List L)
    (q : Prog E R α) : Prog E R α :=
  q.bind fun a => if goesOn a then S.inTurn goesOn last ls else .pure a

/-- A job of this label has ended well. -/
def EndedWell (goesOn : α → Bool) (js : List (Job E R L α)) (n : ℕ) (l : L) : Prop :=
  ∃ h a, js[n]? = some ⟨l, h, .pure a⟩ ∧ goesOn a = true

/-- **Where a thread stands**, with these jobs: there is one job for each of its first programs, in
their order; all of them have ended well, but perhaps the last, which the thread is at. -/
inductive Stands (S : System E R I σ L α) (labels : T → List L) (goesOn : T → α → Bool)
    (last : T → α) (js : List (Job E R L α)) (d : T) (h : List (Event E R)) (p : Prog E R α) :
    List ℕ → Prop where
  | between {c : List ℕ} {done ls : List L} : labels d = done ++ ls →
      List.Forall₂ (EndedWell (goesOn d) js) c done → p = S.inTurn (goesOn d) (last d) ls →
      Stands S labels goesOn last js d h p c
  | within {c : List ℕ} {n : ℕ} {done ls : List L} {l : L} {g : List (Event E R)}
      {q : Prog E R α} : labels d = done ++ l :: ls →
      List.Forall₂ (EndedWell (goesOn d) js) c done → js[n]? = some ⟨l, g, q⟩ → g <+: h →
      p = S.goOn (goesOn d) (last d) ls q → Stands S labels goesOn last js d h p (c ++ [n])

/-- **The jobs of the threads**, over the jobs of their programs: no job is of two threads, those of
one were started one after another, and each thread stands where it does with them. -/
structure Follow (S : System E R I σ L α) (labels : T → List L) (goesOn : T → α → Bool)
    (last : T → α) (js : List (Job E R T α)) (js' : List (Job E R L α)) (jobs : ℕ → List ℕ) :
    Prop where
  apart : ∀ m n k, k ∈ jobs m → k ∈ jobs n → m = n
  order : ∀ n, (jobs n).Pairwise (· < ·)
  known : ∀ n, ∀ k ∈ jobs n, k < js'.length
  fresh : ∀ n, js.length ≤ n → jobs n = []
  stands : ∀ n d h p, js[n]? = some ⟨d, h, p⟩ →
    Stands S labels goesOn last js' d h p (jobs n)

variable {S : System E R I σ L α} {labels : T → List L} {goesOn : T → α → Bool} {last : T → α}
  {s₀ s : σ} {d : T} {h : List (Event E R)} {js' js'' : List (Job E R L α)} {c : List ℕ}

/-! ## Where a thread stands -/

theorem endedWell_congr {go : α → Bool} {done : List L} (h : List.Forall₂ (EndedWell go js') c done)
    (hsame : ∀ k ∈ c, ∀ j, js'[k]? = some j → js''[k]? = some j) :
    List.Forall₂ (EndedWell go js'') c done := by
  induction h with
  | nil => exact .nil
  | cons hk _ ih =>
    obtain ⟨g, a, hj, ha⟩ := hk
    exact .cons ⟨g, a, hsame _ List.mem_cons_self _ hj, ha⟩
      (ih fun k hk => hsame k (List.mem_cons_of_mem _ hk))

/-- A thread whose jobs do not change stands as it did. -/
theorem Stands.congr {p : Prog E R α} (hs : Stands S labels goesOn last js' d h p c)
    (hsame : ∀ k ∈ c, ∀ j, js'[k]? = some j → js''[k]? = some j) :
    Stands S labels goesOn last js'' d h p c := by
  cases hs with
  | between hlabels hdone hp => exact .between hlabels (endedWell_congr hdone hsame) hp
  | within hlabels hdone hj hg hp =>
    refine .within hlabels (endedWell_congr hdone fun k hk => hsame k (by simp [hk])) ?_ hg hp
    exact hsame _ (by simp) _ hj

/-- A thread at a job that is about to issue an operation, as the thread is. -/
inductive Resumes (S : System E R I σ L α) (labels : T → List L) (goesOn : T → α → Bool)
    (last : T → α) (js : List (Job E R L α)) (d : T) (h : List (Event E R)) (e : E)
    (k : R e → Prog E R α) : List ℕ → Prop where
  | intro {c : List ℕ} {n : ℕ} {done ls : List L} {l : L} {g : List (Event E R)}
      {k' : R e → Prog E R α} : labels d = done ++ l :: ls →
      List.Forall₂ (EndedWell (goesOn d) js) c done → js[n]? = some ⟨l, g, .op e k'⟩ → g <+: h →
      (∀ r, k r = S.goOn (goesOn d) (last d) ls (k' r)) →
      Resumes S labels goesOn last js d h e k (c ++ [n])

/-- **A thread that is about to issue an operation** is at a job that is, or it has to begin a
program. -/
theorem Stands.resumes {e : E} {k : R e → Prog E R α}
    (hs : Stands S labels goesOn last js' d h (.op e k) c) :
    Resumes S labels goesOn last js' d h e k c ∨
      ∃ done ls, labels d = done ++ ls ∧ List.Forall₂ (EndedWell (goesOn d) js') c done ∧
        S.inTurn (goesOn d) (last d) ls = .op e k := by
  cases hs with
  | between hlabels hdone hp => exact .inr ⟨_, _, hlabels, hdone, hp.symm⟩
  | @within c n done ls l g q hlabels hdone hj hg hp =>
    cases q with
    | pure a =>
      rw [System.goOn, Prog.bind] at hp
      split_ifs at hp with ha
      refine .inr ⟨done ++ [l], ls, by rw [hlabels, List.append_cons], ?_, hp.symm⟩
      exact List.rel_append hdone (.cons ⟨g, a, hj, ha⟩ .nil)
    | op e' k' =>
      rw [System.goOn, Prog.bind] at hp
      injection hp with he hk
      subst he
      exact .inl (.intro hlabels hdone hj hg fun r => congrFun (eq_of_heq hk) r)

/-! ## Single programs -/

section

variable {js : List (Job E R T α)} {jobs : ℕ → List ℕ} {t' : List (Item E R I σ L)} {n : ℕ}

/-- A new job leaves those of the threads as they are. -/
theorem Follow.getElem?_concat (hf : Follow S labels goesOn last js js' jobs) {j₀ : Job E R L α} :
    ∀ k ∈ jobs n, ∀ j, js'[k]? = some j → (js' ++ [j₀])[k]? = some j := by
  intro k hk j hj
  rwa [List.getElem?_append_left (hf.known n k hk)]

/-- A thread with one more job has the jobs that it had. -/
theorem subset_update {m k : ℕ} : jobs m ⊆ Function.update jobs n (jobs n ++ [k]) m := by
  by_cases hm : m = n
  · rw [hm, Function.update_self]
    exact List.subset_append_left _ _
  · rw [Function.update_of_ne hm]
    exact List.Subset.refl _

/-- A thread begins a program. -/
theorem Follow.begin (hf : Follow S labels goesOn last js js' jobs) {p : Prog E R α}
    (hn : js[n]? = some ⟨d, h, p⟩) {done ls : List L} {l : L} (hlabels : labels d = done ++ l :: ls)
    (hdone : List.Forall₂ (EndedWell (goesOn d) js') (jobs n) done)
    (hp : p = S.goOn (goesOn d) (last d) ls (S.code l)) :
    Follow S labels goesOn last js (js' ++ [⟨l, [], S.code l⟩])
      (Function.update jobs n (jobs n ++ [js'.length])) := by
  have hmem : ∀ m, ∀ k ∈ Function.update jobs n (jobs n ++ [js'.length]) m,
      k ∈ jobs m ∨ m = n ∧ k = js'.length := by
    intro m k hk
    by_cases hm : m = n
    · rw [hm, Function.update_self] at hk
      exact (List.mem_append.mp hk).imp (fun hk => hm ▸ hk) fun hk => ⟨hm, List.mem_singleton.mp hk⟩
    · rw [Function.update_of_ne hm] at hk
      exact .inl hk
  refine ⟨?_, fun m => ?_, ?_, fun m hm => ?_, fun m d' h' p' hm => ?_⟩
  · intro a b k ha hb
    rcases hmem a k ha with ha | ⟨ha, hk⟩
    · rcases hmem b k hb with hb | ⟨-, hk⟩
      · exact hf.apart a b k ha hb
      · exact absurd (hf.known a k ha) (by omega)
    · rcases hmem b k hb with hb | ⟨hb, -⟩
      · exact absurd (hf.known b k hb) (by omega)
      · exact ha.trans hb.symm
  · by_cases hm : m = n
    · rw [hm, Function.update_self]
      refine List.pairwise_append.mpr ⟨hf.order n, List.pairwise_singleton _ _, fun a ha b hb => ?_⟩
      rw [List.mem_singleton.mp hb]
      exact hf.known n a ha
    · rw [Function.update_of_ne hm]
      exact hf.order m
  · intro m k hk
    rw [List.length_append, List.length_singleton]
    rcases hmem m k hk with hk | ⟨-, rfl⟩
    · exact Nat.lt_succ_of_lt (hf.known m k hk)
    · exact Nat.lt_succ_self _
  · have hlt := (List.getElem?_eq_some_iff.mp hn).1
    rw [Function.update_of_ne (by omega)]
    exact hf.fresh m hm
  · by_cases hmn : m = n
    · subst hmn
      obtain ⟨rfl, rfl, rfl⟩ := Job.mk.inj (Option.some.inj (hn.symm.trans hm))
      rw [Function.update_self]
      exact .within hlabels (endedWell_congr hdone hf.getElem?_concat) List.getElem?_concat_length
        List.nil_prefix hp
    · rw [Function.update_of_ne hmn]
      exact (hf.stands m d' h' p' hm).congr hf.getElem?_concat

/-- **A thread comes to a job that is about to issue an operation**: by induction on the programs
that are left, since a program may end without an operation. -/
theorem Follow.exists_resumes (hr : S.Run s₀ t' js' s)
    (hf : Follow S labels goesOn last js js' jobs) {e : E} {k : R e → Prog E R α}
    (hn : js[n]? = some ⟨d, h, .op e k⟩) :
    ∃ js'' jobs', S.Run s₀ t' js'' s ∧ Follow S labels goesOn last js js'' jobs' ∧
      (∀ m, jobs m ⊆ jobs' m) ∧ Resumes S labels goesOn last js'' d h e k (jobs' n) := by
  rcases (hf.stands n d h _ hn).resumes with hres | ⟨done, ls, hlabels, hdone, hp⟩
  · exact ⟨js', jobs, hr, hf, fun _ => List.Subset.refl _, hres⟩
  induction ls generalizing js' jobs done with
  | nil => cases hp
  | cons l ls ih =>
    have hbegun := hf.begin hn hlabels hdone hp.symm
    have hnew : (js' ++ [⟨l, [], S.code l⟩])[js'.length]? = some ⟨l, [], S.code l⟩ :=
      List.getElem?_concat_length
    have hold : List.Forall₂ (EndedWell (goesOn d) (js' ++ [⟨l, [], S.code l⟩])) (jobs n) done :=
      endedWell_congr hdone hf.getElem?_concat
    rw [System.inTurn] at hp
    cases hcode : S.code l with
    | pure a =>
      rw [hcode, Prog.bind] at hp
      split_ifs at hp with ha
      obtain ⟨js'', jobs', hr', hf', hsub, hres⟩ :=
        ih (.start l hr) hbegun (done ++ [l]) (by rw [hlabels, List.append_cons]) (by
          rw [Function.update_self]
          exact List.rel_append hold (.cons ⟨[], a, hcode ▸ hnew, ha⟩ .nil)) hp
      exact ⟨js'', jobs', hr', hf', fun m => List.Subset.trans subset_update (hsub m), hres⟩
    | op e' k' =>
      rw [hcode, Prog.bind] at hp
      injection hp with he hk
      subst he
      refine ⟨_, _, .start l hr, hbegun, fun _ => subset_update, ?_⟩
      rw [Function.update_self]
      exact .intro hlabels hold (hcode ▸ hnew) List.nil_prefix
        fun r => (congrFun (eq_of_heq hk) r).symm

/-- **A thread moves as its job does.** -/
theorem Follow.move (hf : Follow S labels goesOn last js js' jobs) (hn : n < js.length)
    {m : ℕ} {c : List ℕ} {done ls : List L} {l : L} {g : List (Event E R)} {e : E}
    {k' : R e → Prog E R α} {p : Prog E R α} {ev : Event E R} (r : R e) (hjobs : jobs n = c ++ [m])
    (hlabels : labels d = done ++ l :: ls) (hdone : List.Forall₂ (EndedWell (goesOn d) js') c done)
    (hm : js'[m]? = some ⟨l, g, .op e k'⟩) (hg : g <+: h)
    (hp : p = S.goOn (goesOn d) (last d) ls (k' r)) :
    Follow S labels goesOn last (js.set n ⟨d, ev :: h, p⟩) (js'.set m ⟨l, ev :: g, k' r⟩) jobs := by
  have hother : ∀ {k : ℕ}, k ≠ m → ∀ j, js'[k]? = some j →
      (js'.set m ⟨l, ev :: g, k' r⟩)[k]? = some j := by
    intro k hk j hj
    rwa [List.getElem?_set_ne (Ne.symm hk)]
  refine ⟨hf.apart, hf.order, fun a k hk => ?_, fun a ha => ?_, fun a d' h' p' hj => ?_⟩
  · rw [List.length_set]
    exact hf.known a k hk
  · rw [List.length_set] at ha
    exact hf.fresh a ha
  · by_cases han : a = n
    · subst han
      rw [List.getElem?_set_self hn] at hj
      obtain ⟨rfl, rfl, rfl⟩ := Job.mk.inj (Option.some.inj hj)
      have hbefore : ∀ k ∈ c, k ≠ m := by
        intro k hk
        have hlt := (List.pairwise_append.mp (hjobs ▸ hf.order a)).2.2 k hk m (by simp)
        omega
      rw [hjobs]
      exact .within hlabels (endedWell_congr hdone fun k hk => hother (hbefore k hk))
        (List.getElem?_set_self (List.getElem?_eq_some_iff.mp hm).1)
        (List.cons_prefix_cons.mpr ⟨rfl, hg⟩) hp
    · rw [List.getElem?_set_ne (Ne.symm han)] at hj
      refine (hf.stands a d' h' p' hj).congr fun k hk => hother ?_
      rintro rfl
      exact han (hf.apart a n k hk (by simp [hjobs]))

theorem PartOf.mono {jobs' : ℕ → List ℕ} {x : Item E R I σ T} {y : Item E R I σ L}
    (h : PartOf labels jobs x y) (hsub : ∀ m, jobs m ⊆ jobs' m) : PartOf labels jobs' x y :=
  { h with job := hsub _ h.job }

theorem exists_jobs_of_mem {t : List (Item E R I σ T)} (ht : List.Forall₂ (PartOf labels jobs) t t')
    {y : Item E R I σ L} (hy : y ∈ t') : ∃ n, y.job ∈ jobs n := by
  induction ht with
  | nil => cases hy
  | cons hxy _ ih =>
    rcases List.mem_cons.mp hy with rfl | hy
    · exact ⟨_, hxy.job⟩
    · exact ih hy

/-- Jobs that are new to the threads do not change the order of the others. -/
theorem KeepsOrder.mono {jobs' : ℕ → List ℕ} (h : KeepsOrder jobs t')
    (hmem : ∀ y ∈ t', ∃ n, y.job ∈ jobs n) (hsub : ∀ m, jobs m ⊆ jobs' m)
    (hapart : ∀ m n k, k ∈ jobs' m → k ∈ jobs' n → m = n) : KeepsOrder jobs' t' := by
  have hback : ∀ y ∈ t', ∀ n, y.job ∈ jobs' n → y.job ∈ jobs n := by
    intro y hy n hn
    obtain ⟨m, hm⟩ := hmem y hy
    exact hapart m n _ (hsub m hm) hn ▸ hm
  exact List.Pairwise.imp_of_mem (fun hy hz hyz n hn hn' =>
    hyz n (hback _ hy n hn) (hback _ hz n hn')) h

/-- **Threads are single programs.**  Every run of threads is, item by item, a run in which each
thread has a job of its own for each of its programs that it has begun, in their order. -/
theorem System.Run.of_threads {t : List (Item E R I σ T)}
    (hr : (S.threads labels goesOn last).Run s₀ t js s) :
    ∃ t' js' jobs, S.Run s₀ t' js' s ∧ List.Forall₂ (PartOf labels jobs) t t' ∧
      KeepsOrder jobs t' ∧ Follow S labels goesOn last js js' jobs := by
  induction hr with
  | init =>
    refine ⟨[], [], fun _ => [], .init, .nil, .nil, ?_, fun _ => .nil, ?_, fun _ _ => rfl, ?_⟩
    · intro m n k hk _
      cases hk
    · intro n k hk
      cases hk
    · intro n d h p hj
      cases hj
  | @start t js s d hr ih =>
    obtain ⟨t', js', jobs, hr', ht, hkeeps, hf⟩ := ih
    refine ⟨t', js', jobs, hr', ht, hkeeps, hf.apart, hf.order, hf.known, fun a ha => ?_,
      fun a d' h p hj => ?_⟩
    · rw [List.length_append] at ha
      exact hf.fresh a (Nat.le_of_add_right_le ha)
    · rcases lt_or_ge a js.length with hlt | hge
      · rw [List.getElem?_append_left hlt] at hj
        exact hf.stands a d' h p hj
      · rw [List.getElem?_append_right hge, List.getElem?_singleton] at hj
        split_ifs at hj with ha
        obtain ⟨rfl, rfl, rfl⟩ := Job.mk.inj (Option.some.inj hj)
        rw [hf.fresh a hge]
        exact .between rfl .nil rfl
  | @move t js s n d h e k i hr hj ih =>
    obtain ⟨t', js', jobs, hr', ht, hkeeps, hf⟩ := ih
    have hn := (List.getElem?_eq_some_iff.mp hj).1
    obtain ⟨js'', jobs', hr'', hf', hsub, hres⟩ := hf.exists_resumes hr' hj
    have ht' : List.Forall₂ (PartOf labels jobs') t t' := ht.imp fun x y hxy => hxy.mono hsub
    have hkeeps' : KeepsOrder jobs' t' :=
      hkeeps.mono (fun y hy => exists_jobs_of_mem ht hy) hsub hf'.apart
    generalize hjobs : jobs' n = c at hres
    cases hres with
    | @intro c m done ls l g k' hlabels hdone hm hg hk =>
      have hmem : m ∈ jobs' n := by simp [hjobs]
      refine ⟨_, _, jobs', .move i hr'' hm, .cons ⟨hmem, ?_, hg, rfl, rfl, rfl, rfl⟩ ht',
        .cons (fun z _ a ha hz => ?_) hkeeps',
        hf'.move hn _ hjobs hlabels hdone hm hg (hk _)⟩
      · rw [hlabels]
        simp
      · -- the job that moves is the last one of its thread
        obtain rfl := hf'.apart a n m ha hmem
        rw [hjobs] at hz
        rcases List.mem_append.mp hz with hz | hz
        · exact Nat.le_of_lt ((List.pairwise_append.mp (hjobs ▸ hf'.order a)).2.2 _ hz m (by simp))
        · exact Nat.le_of_eq (List.mem_singleton.mp hz)

end

end Effects
end ZeroTrust
