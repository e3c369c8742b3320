import Mathlib.Data.List.Nodup
import Mathlib.Tactic.Common

/-!
# Tables with a primary key

A table is a list of rows no two of which have the same key; the proof is part of the
table.  The four operations are those of a database session: look a row up by its
key, insert a row unless its key is taken, rewrite the rows that satisfy a condition
without changing their keys, and delete the rows that satisfy a condition.  Each has
one lemma saying what it does to look-ups.
-/

namespace ZeroTrust
namespace Data

/-- Rows with a primary key. -/
structure Table (α κ : Type) (key : α → κ) where
  /-- The rows, in the order of their insertion. -/
  rows : List α
  /-- No key occurs twice. -/
  nodup : (rows.map key).Nodup

namespace Table

variable {α κ : Type} {key : α → κ}

@[ext] theorem ext {t u : Table α κ key} (h : t.rows = u.rows) : t = u := by
  cases t
  cases u
  cases h
  rfl

instance [DecidableEq α] : DecidableEq (Table α κ key) := fun t u =>
  decidable_of_iff (t.rows = u.rows) ⟨Table.ext, congrArg Table.rows⟩

/-- The table without rows. -/
def empty : Table α κ key := ⟨[], List.nodup_nil⟩

variable [DecidableEq κ]

/-- The row with a given key. -/
def find? (t : Table α κ key) (k : κ) : Option α := t.rows.find? fun a => key a = k

/-- Insert a row; `none` when its key is taken. -/
def insert? (t : Table α κ key) (a : α) : Option (Table α κ key) :=
  if h : key a ∈ t.rows.map key then none
  else some ⟨t.rows ++ [a], by
    rw [List.map_append, List.map_cons, List.map_nil]
    exact List.nodup_append.mpr ⟨t.nodup, List.nodup_singleton _, by
      intro x hx y hy hxy
      rw [List.mem_singleton] at hy
      exact h (hy ▸ hxy ▸ hx)⟩⟩

omit [DecidableEq κ] in
/-- Rewrite the rows that satisfy `p`; keys do not change. -/
def update (t : Table α κ key) (p : α → Bool) (f : α → α) (hf : ∀ a, key (f a) = key a) :
    Table α κ key :=
  ⟨t.rows.map fun a => if p a then f a else a, by
    have h : (key ∘ fun a => if p a then f a else a) = key := by
      funext a
      simp only [Function.comp_apply]
      split
      · exact hf a
      · rfl
    rw [List.map_map, h]
    exact t.nodup⟩

omit [DecidableEq κ] in
/-- Delete the rows that satisfy `p`. -/
def delete (t : Table α κ key) (p : α → Bool) : Table α κ key :=
  ⟨t.rows.filter fun a => !p a, (List.filter_sublist.map key).nodup t.nodup⟩

/-! ## Look-ups -/

@[simp] theorem find?_empty (k : κ) : (empty : Table α κ key).find? k = none := rfl

/-- A key determines its row. -/
theorem find?_eq_some_iff {t : Table α κ key} {k : κ} {a : α} :
    t.find? k = some a ↔ a ∈ t.rows ∧ key a = k := by
  constructor
  · intro h
    exact ⟨List.mem_of_find?_eq_some h, by simpa using List.find?_some h⟩
  · rintro ⟨ha, rfl⟩
    have hsome : (t.find? (key a)).isSome := List.find?_isSome.mpr ⟨a, ha, by simp⟩
    obtain ⟨b, hb⟩ := Option.isSome_iff_exists.mp hsome
    have hbm := List.mem_of_find?_eq_some hb
    have hbk : key b = key a := by simpa using List.find?_some hb
    rw [hb, List.inj_on_of_nodup_map t.nodup hbm ha hbk]

theorem key_of_find? {t : Table α κ key} {k : κ} {a : α} (h : t.find? k = some a) :
    key a = k :=
  (find?_eq_some_iff.mp h).2

theorem find?_eq_none_iff {t : Table α κ key} {k : κ} :
    t.find? k = none ↔ k ∉ t.rows.map key := by
  simp [find?, List.find?_eq_none]

theorem insert?_eq_none_iff {t : Table α κ key} {a : α} :
    t.insert? a = none ↔ (t.find? (key a)).isSome := by
  unfold insert?
  split_ifs with h
  · have : t.find? (key a) ≠ none := fun hn => find?_eq_none_iff.mp hn h
    simpa [Option.isSome_iff_ne_none] using this
  · simp [find?_eq_none_iff.mpr h]

theorem find?_insert? {t t' : Table α κ key} {a : α} (h : t.insert? a = some t') (k : κ) :
    t'.find? k = if k = key a then some a else t.find? k := by
  unfold insert? at h
  split_ifs at h with hm
  obtain rfl := Option.some.inj h
  have hnone := find?_eq_none_iff.mpr hm
  show (t.rows ++ [a]).find? (fun b => key b = k) = _
  rw [List.find?_append]
  split_ifs with hk
  · rw [hk]
    rw [find?] at hnone
    simp [hnone]
  · have : [a].find? (fun b => decide (key b = k)) = none := by simpa using Ne.symm hk
    rw [this, Option.or_none]
    rfl

theorem insert?_isNew {t t' : Table α κ key} {a : α} (h : t.insert? a = some t') :
    t.find? (key a) = none := by
  unfold insert? at h
  split_ifs at h with hm
  exact find?_eq_none_iff.mpr hm

/-- A rewrite acts on each looked-up row by itself. -/
theorem find?_update (t : Table α κ key) (p : α → Bool) (f : α → α)
    (hf : ∀ a, key (f a) = key a) (k : κ) :
    (t.update p f hf).find? k = (t.find? k).map fun a => if p a then f a else a := by
  show (t.rows.map _).find? _ = _
  rw [List.find?_map]
  have h : ((fun a => decide (key a = k)) ∘ fun a => if p a then f a else a) =
      fun a => decide (key a = k) := by
    funext a
    simp only [Function.comp_apply]
    split
    · rw [hf]
    · rfl
  rw [h]
  rfl

theorem find?_delete (t : Table α κ key) (p : α → Bool) (k : κ) :
    (t.delete p).find? k = (t.find? k).filter fun a => !p a := by
  cases h : t.find? k with
  | none =>
    rw [find?_eq_none_iff] at h
    rw [Option.filter_none, find?_eq_none_iff]
    exact fun hk => h ((List.filter_sublist.map key).subset hk)
  | some a =>
    obtain ⟨ha, hk⟩ := find?_eq_some_iff.mp h
    cases hp : p a with
    | true =>
      rw [Option.filter_some_neg (by simp [hp]), find?_eq_none_iff]
      intro hmem
      obtain ⟨b, hb, hbk⟩ := List.mem_map.mp hmem
      obtain ⟨hb, hbp⟩ := List.mem_filter.mp hb
      have hba := List.inj_on_of_nodup_map t.nodup hb ha (hbk.trans hk.symm)
      simp [hba, hp] at hbp
    | false =>
      rw [Option.filter_some_pos (by simp [hp]), find?_eq_some_iff]
      exact ⟨List.mem_filter.mpr ⟨ha, by simp [hp]⟩, hk⟩

end Table

end Data
end ZeroTrust
