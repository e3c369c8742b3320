import Mathlib.Logic.Function.Basic
import Mathlib.Data.List.Basic
import Mathlib.Data.Int.Notation

/-!
# Mailboxes

A mailbox keeps parcels.  A parcel is deposited by one user for another, until a deadline; its
recipient may fetch it, any number of times, until it confirms the receipt, the sender withdraws
it, or the deadline comes.  This is all said of the mailbox as a whole, one command after another.

* `Parcel`, `Mailbox`, `Command`, `Answer`: parcels by their ids, and what is asked and answered.
* `Mailbox.apply`, `Mailbox.sweep`: a command of a user, and the lapse of what is overdue.
* `Deed`, `Mailbox.Run`: what was done, and what came of it.
* `Run.delivered`: what a recipient is given was deposited for it under this id, and nobody has
  confirmed or withdrawn it.
-/

namespace ZeroTrust
namespace Data

/-- How far a parcel has come. -/
inductive Phase where
  | waiting
  | collected
  | withdrawn
  | lapsed
  deriving DecidableEq

/-- A parcel. -/
structure Parcel (User Content : Type) where
  sender : User
  recipient : User
  deadline : ℤ
  content : Content
  phase : Phase

/-- The same parcel, come further. -/
def Parcel.inPhase {User Content : Type} (p : Parcel User Content) (phase : Phase) :
    Parcel User Content := { p with phase }

/-- The parcels of a mailbox, by their ids. -/
abbrev Mailbox (Id User Content : Type) := Id → Option (Parcel User Content)

/-- What a user may ask for. -/
inductive Command (Id User Content : Type) where
  | deposit (id : Id) (recipient : User) (deadline : ℤ) (content : Content)
  | fetch (id : Id)
  | confirm (id : Id)
  | withdraw (id : Id)
  | list

/-- What it is answered. -/
inductive Answer (Id Content : Type) where
  | done
  | content (content : Content)
  | listing (waiting : Id → Prop)
  | taken
  | missing
  | foreign
  | collected
  | withdrawn
  | lapsed

variable {Id User Content : Type} [DecidableEq Id]

namespace Mailbox

/-- The mailbox with a parcel under an id. -/
def put (m : Mailbox Id User Content) (id : Id) (p : Parcel User Content) :
    Mailbox Id User Content := Function.update m id (some p)

theorem put_eq (m : Mailbox Id User Content) (id : Id) (p : Parcel User Content) (id' : Id) :
    m.put id p id' = if id' = id then some p else m id' := Function.update_apply ..

end Mailbox

variable [DecidableEq User]

namespace Mailbox

/-- The parcels that a user may fetch at a time. -/
def Waits (m : Mailbox Id User Content) (user : User) (now : ℤ) (id : Id) : Prop :=
  ∃ p, m id = some p ∧ p.recipient = user ∧ p.phase = .waiting ∧ now < p.deadline

/-- **A command** of a user, at a time. -/
def apply (m : Mailbox Id User Content) (user : User) (now : ℤ) :
    Command Id User Content → Answer Id Content × Mailbox Id User Content
  | .deposit id recipient deadline content =>
      match m id with
      | none => (.done, m.put id ⟨user, recipient, deadline, content, .waiting⟩)
      | some _ => (.taken, m)
  | .fetch id =>
      match m id with
      | none => (.missing, m)
      | some p =>
          if p.recipient ≠ user then (.foreign, m)
          else if p.deadline ≤ now then
            (.lapsed, if p.phase = .waiting then m.put id (p.inPhase .lapsed) else m)
          else
            match p.phase with
            | .waiting => (.content p.content, m)
            | .collected => (.collected, m)
            | .withdrawn => (.withdrawn, m)
            | .lapsed => (.lapsed, m)
  | .confirm id =>
      match m id with
      | none => (.missing, m)
      | some p =>
          if p.recipient ≠ user then (.foreign, m)
          else (.done, m.put id (p.inPhase .collected))
  | .withdraw id =>
      match m id with
      | none => (.missing, m)
      | some p =>
          if p.sender ≠ user then (.foreign, m)
          else
            match p.phase with
            | .waiting => (.done, m.put id (p.inPhase .withdrawn))
            | .withdrawn => (.done, m)
            | .collected => (.collected, m)
            | .lapsed => (.lapsed, m)
  | .list => (.listing (m.Waits user now), m)

/-- What is overdue at a time lapses. -/
def sweep (m : Mailbox Id User Content) (now : ℤ) : Mailbox Id User Content := fun id =>
  (m id).map fun p => if p.phase = .waiting ∧ p.deadline < now then p.inPhase .lapsed else p

end Mailbox

/-! ## Runs -/

/-- What was done: a command was carried out, a request was refused, or what was overdue has
lapsed. -/
inductive Deed (Id User Content : Type) where
  | carried (user : User) (now : ℤ) (command : Command Id User Content)
      (answer : Answer Id Content)
  | refused
  | swept (now : ℤ)

/-- One deed. -/
inductive Mailbox.Does : Mailbox Id User Content → Deed Id User Content →
    Mailbox Id User Content → Prop where
  | carried {m m' : Mailbox Id User Content} {user : User} {now : ℤ}
      {command : Command Id User Content} {answer : Answer Id Content} :
      m.apply user now command = (answer, m') → Does m (.carried user now command answer) m'
  | refused {m : Mailbox Id User Content} : Does m .refused m
  | swept {m : Mailbox Id User Content} (now : ℤ) : Does m (.swept now) (m.sweep now)

/-- One deed after another, the last one first. -/
inductive Mailbox.Run (m₀ : Mailbox Id User Content) : List (Deed Id User Content) →
    Mailbox Id User Content → Prop where
  | nil : Run m₀ [] m₀
  | cons {ds : List (Deed Id User Content)} {m m' : Mailbox Id User Content}
      {d : Deed Id User Content} : Run m₀ ds m → m.Does d m' → Run m₀ (d :: ds) m'

/-- A deed that settles what becomes of a parcel: its receipt was confirmed, or it was
withdrawn. -/
def Deed.Settles (id : Id) : Deed Id User Content → Prop
  | .carried _ _ (.confirm id') .done => id' = id
  | .carried _ _ (.withdraw id') .done => id' = id
  | _ => False

namespace Mailbox

variable {m m' : Mailbox Id User Content} {user : User} {now : ℤ} {id : Id}
  {command : Command Id User Content} {answer : Answer Id Content}
  {ds : List (Deed Id User Content)}

omit [DecidableEq User] in
theorem parcel_of_put {p : Parcel User Content} {phase : Phase} {id' : Id} (hp : m id' = some p)
    (hphase : phase ≠ .waiting) (id : Id) :
    m.put id' (p.inPhase phase) id = m id ∨
      ∃ q next, m id = some q ∧ m.put id' (p.inPhase phase) id = some (q.inPhase next) ∧
        next ≠ .waiting := by
  rw [put_eq]
  by_cases hid : id = id'
  · subst hid
    exact .inr ⟨p, phase, hp, if_pos rfl, hphase⟩
  · exact .inl (if_neg hid)

/-- What a command can do, with its answer. -/
inductive Applies (m : Mailbox Id User Content) (user : User) (now : ℤ) :
    Command Id User Content → Answer Id Content → Mailbox Id User Content → Prop where
  | deposited {id : Id} {recipient : User} {deadline : ℤ} {content : Content} : m id = none →
      Applies m user now (.deposit id recipient deadline content) .done
        (m.put id ⟨user, recipient, deadline, content, .waiting⟩)
  | given {id : Id} {p : Parcel User Content} : m id = some p → p.recipient = user →
      p.phase = .waiting → now < p.deadline → Applies m user now (.fetch id) (.content p.content) m
  | overdue {id : Id} {p : Parcel User Content} : m id = some p →
      Applies m user now (.fetch id) .lapsed (m.put id (p.inPhase .lapsed))
  | confirmed {id : Id} {p : Parcel User Content} : m id = some p →
      Applies m user now (.confirm id) .done (m.put id (p.inPhase .collected))
  | withdrawn {id : Id} {p : Parcel User Content} : m id = some p →
      Applies m user now (.withdraw id) .done (m.put id (p.inPhase .withdrawn))
  | already {id : Id} {p : Parcel User Content} : m id = some p → p.phase ≠ .waiting →
      Applies m user now (.withdraw id) .done m
  | unchanged {command : Command Id User Content} {answer : Answer Id Content} :
      answer ≠ .done → (∀ content, answer ≠ .content content) → Applies m user now command answer m

/-- **What a command does**, by its branches. -/
theorem applies (m : Mailbox Id User Content) (user : User) (now : ℤ)
    (command : Command Id User Content) :
    Applies m user now command (m.apply user now command).1 (m.apply user now command).2 := by
  cases command with
  | deposit id recipient deadline content =>
    simp only [apply]
    cases hp : m id with
    | none => exact .deposited hp
    | some p => exact .unchanged (by simp) (by simp)
  | fetch id =>
    simp only [apply]
    cases hp : m id with
    | none => exact .unchanged (by simp) (by simp)
    | some p =>
      dsimp only
      split_ifs with huser hlate hphase
      · exact .unchanged (by simp) (by simp)
      · exact .overdue hp
      · exact .unchanged (by simp) (by simp)
      · cases hphase : p.phase with
        | waiting => exact .given hp (not_not.mp huser) hphase (Int.not_le.mp hlate)
        | _ => exact .unchanged (by simp) (by simp)
  | confirm id =>
    simp only [apply]
    cases hp : m id with
    | none => exact .unchanged (by simp) (by simp)
    | some p =>
      dsimp only
      split_ifs
      · exact .unchanged (by simp) (by simp)
      · exact .confirmed hp
  | withdraw id =>
    simp only [apply]
    cases hp : m id with
    | none => exact .unchanged (by simp) (by simp)
    | some p =>
      dsimp only
      split_ifs
      · exact .unchanged (by simp) (by simp)
      · cases hphase : p.phase with
        | waiting => exact .withdrawn hp
        | withdrawn => exact .already hp (by simp [hphase])
        | _ => exact .unchanged (by simp) (by simp)
  | list => exact .unchanged (by simp [apply]) (by simp [apply])

theorem applies_of_apply (h : m.apply user now command = (answer, m')) :
    Applies m user now command answer m' := by
  have happlies := m.applies user now command
  rwa [h] at happlies

/-- What a command does to one parcel: nothing, or it deposits it, or it takes it further. -/
theorem parcel_of_apply (h : m.apply user now command = (answer, m')) (id : Id) :
    m' id = m id ∨
      (∃ recipient deadline content, command = .deposit id recipient deadline content ∧
        answer = .done ∧ m id = none ∧
        m' id = some ⟨user, recipient, deadline, content, .waiting⟩) ∨
      ∃ p phase, m id = some p ∧ m' id = some (p.inPhase phase) ∧ phase ≠ .waiting := by
  cases applies_of_apply h with
  | @deposited id' recipient deadline content hfree =>
    rw [put_eq]
    by_cases hid : id = id'
    · subst hid
      exact .inr (.inl ⟨recipient, deadline, content, rfl, rfl, hfree, if_pos rfl⟩)
    · exact .inl (if_neg hid)
  | overdue hp | confirmed hp | withdrawn hp =>
    exact (parcel_of_put hp (by simp) id).imp_right .inr
  | given | already | unchanged => exact .inl rfl

/-- What settles a parcel leaves it settled. -/
theorem settled_of_apply (h : m.apply user now command = (answer, m'))
    (hs : (Deed.carried user now command answer).Settles id) :
    ∃ p, m' id = some p ∧ p.phase ≠ .waiting := by
  cases applies_of_apply h with
  | @confirmed id' p | @withdrawn id' p =>
    obtain rfl : id' = id := hs
    exact ⟨_, (put_eq ..).trans (if_pos rfl), by simp [Parcel.inPhase]⟩
  | @already id' p hp hphase =>
    obtain rfl : id' = id := hs
    exact ⟨p, hp, hphase⟩
  | deposited | given | overdue => cases hs
  | unchanged hdone =>
    cases command with
    | confirm | withdraw => cases answer <;> first | exact absurd rfl hdone | cases hs
    | _ => cases hs

/-- What is given away waits for whom it is given to. -/
theorem waits_of_fetch {content : Content}
    (h : m.apply user now (.fetch id) = (.content content, m')) :
    ∃ p, m id = some p ∧ p.recipient = user ∧ p.content = content ∧ p.phase = .waiting ∧
      now < p.deadline := by
  cases applies_of_apply h with
  | @given id p hp huser hphase hdeadline => exact ⟨p, hp, huser, rfl, hphase, hdeadline⟩
  | unchanged _ hcontent => exact absurd rfl (hcontent content)

/-- What a deed does to one parcel. -/
theorem parcel_of_does {d : Deed Id User Content} (h : m.Does d m') (id : Id) :
    m' id = m id ∨
      (∃ p now, d = .carried p.sender now (.deposit id p.recipient p.deadline p.content) .done ∧
        m id = none ∧ m' id = some p ∧ p.phase = .waiting) ∨
      ∃ p phase, m id = some p ∧ m' id = some (p.inPhase phase) ∧ phase ≠ .waiting := by
  cases h with
  | carried happly =>
    rcases parcel_of_apply happly id with hsame |
      ⟨recipient, deadline, content, rfl, rfl, hfree, hp⟩ | hfurther
    · exact .inl hsame
    · exact .inr (.inl ⟨_, _, rfl, hfree, hp, rfl⟩)
    · exact .inr (.inr hfurther)
  | refused => exact .inl rfl
  | swept now =>
    cases hp : m id with
    | none => exact .inl (by rw [sweep, hp]; rfl)
    | some p =>
      by_cases hlate : p.phase = .waiting ∧ p.deadline < now
      · refine .inr (.inr ⟨p, .lapsed, rfl, ?_, by simp⟩)
        rw [sweep, hp, Option.map_some, if_pos hlate]
      · exact .inl (by rw [sweep, hp, Option.map_some, if_neg hlate])

/-- What the deeds tell of the parcels: each was deposited, and one that was confirmed or withdrawn
does not wait. -/
structure Recorded (ds : List (Deed Id User Content)) (m : Mailbox Id User Content) : Prop where
  deposited : ∀ id p, m id = some p →
    ∃ now, .carried p.sender now (.deposit id p.recipient p.deadline p.content) .done ∈ ds
  settled : ∀ id, ∀ d ∈ ds, d.Settles id → ∃ p, m id = some p ∧ p.phase ≠ .waiting

/-- A parcel that is settled stays settled. -/
theorem settled_of_does {d : Deed Id User Content} (h : m.Does d m')
    (hs : ∃ p, m id = some p ∧ p.phase ≠ .waiting) : ∃ p, m' id = some p ∧ p.phase ≠ .waiting := by
  obtain ⟨p, hp, hphase⟩ := hs
  rcases parcel_of_does h id with hsame | ⟨q, now, -, hfree, -⟩ | ⟨q, phase, -, hq, hnext⟩
  · exact ⟨p, hsame.trans hp, hphase⟩
  · rw [hfree] at hp
    cases hp
  · exact ⟨_, hq, hnext⟩

theorem recorded_step {d : Deed Id User Content} (h : m.Does d m') (hr : Recorded ds m) :
    Recorded (d :: ds) m' where
  deposited id p hp := by
    rcases parcel_of_does h id with hsame | ⟨q, now, rfl, -, hq, -⟩ | ⟨q, phase, hq, hq', -⟩
    · obtain ⟨now, hmem⟩ := hr.deposited id p (hsame.symm.trans hp)
      exact ⟨now, List.mem_cons_of_mem _ hmem⟩
    · obtain rfl := Option.some.inj (hq.symm.trans hp)
      exact ⟨now, List.mem_cons_self⟩
    · obtain rfl := Option.some.inj (hq'.symm.trans hp)
      obtain ⟨now, hmem⟩ := hr.deposited id q hq
      exact ⟨now, List.mem_cons_of_mem _ hmem⟩
  settled id e he hs := by
    rcases List.mem_cons.mp he with rfl | he
    · cases h with
      | carried happly => exact settled_of_apply happly hs
      | refused => cases hs
      | swept now => cases hs
    · exact settled_of_does h (hr.settled id e he hs)

/-- A mailbox that was empty is told by its deeds: by induction on them. -/
theorem Run.recorded (h : Run (fun _ => none) ds m) : Recorded ds m := by
  induction h with
  | nil => exact ⟨nofun, fun _ _ hd => absurd hd List.not_mem_nil⟩
  | cons _ hd ih => exact recorded_step hd ih

/-- **What is given was meant for its recipient.**  A parcel that is given away was deposited for
the user under its id, its deadline has not come, and so far nobody has confirmed or withdrawn
it. -/
theorem Run.delivered {content : Content} (h : Run (fun _ => none) ds m)
    (hf : m.apply user now (.fetch id) = (.content content, m')) :
    ∃ sender deposited deadline,
      .carried sender deposited (.deposit id user deadline content) .done ∈ ds ∧ now < deadline ∧
        ∀ d ∈ ds, ¬ d.Settles id := by
  obtain ⟨p, hp, rfl, rfl, hphase, hnow⟩ := waits_of_fetch hf
  obtain ⟨deposited, hmem⟩ := h.recorded.deposited id p hp
  refine ⟨_, deposited, _, hmem, hnow, fun d hd hs => ?_⟩
  obtain ⟨q, hq, hne⟩ := h.recorded.settled id d hd hs
  obtain rfl := Option.some.inj (hp.symm.trans hq)
  exact hne hphase

end Mailbox

end Data
end ZeroTrust
