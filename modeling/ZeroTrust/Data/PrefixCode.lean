import Mathlib.Data.List.Basic
import Mathlib.Data.List.Forall2
import Mathlib.Tactic.Common

/-!
# Texts that are read in one way

An encoding is read off the front of a text in one way when what it writes and what
follows are determined by the text.  Three constructions keep this: writing a sequence
up to a stop that no code begins, writing letters of a class up to a letter outside it,
and joining elements with a separator up to a closing letter.

* `code_inj`: codes none of which begins with another.
* `flatMap_inj`: a sequence of codes.
* `span_inj`: a run of letters; `last_separator_inj`: the text after the last separator.
* `intercalate_inj`: elements between separators.
-/

namespace ZeroTrust
namespace Data

variable {α β : Type}

/-- Codes none of which begins with another are told apart at the front of a text. -/
theorem code_inj {f : α → List β} (hcode : ∀ a b, f a <+: f b → a = b) {a b : α} {u v : List β}
    (h : f a ++ u = f b ++ v) : a = b ∧ u = v := by
  have hab : a = b := by
    rcases List.prefix_or_prefix_of_prefix (List.prefix_append (f a) u)
      (h ▸ List.prefix_append (f b) v) with hle | hle
    · exact hcode a b hle
    · exact (hcode b a hle).symm
  subst hab
  exact ⟨rfl, List.append_cancel_left h⟩

/-- A sequence of codes is read off the front of a text, if what follows it begins with no
code. -/
theorem flatMap_inj {f g : α → List β} {u v : List β} {xs ys : List α}
    (hcode : ∀ a ∈ xs, ∀ b ∈ ys, ∀ u v, f a ++ u = g b ++ v → a = b ∧ u = v)
    (hu : ∀ b ∈ ys, ∀ w, u ≠ g b ++ w) (hv : ∀ a ∈ xs, ∀ w, f a ++ w ≠ v)
    (h : xs.flatMap f ++ u = ys.flatMap g ++ v) : xs = ys ∧ u = v := by
  induction xs generalizing ys with
  | nil =>
    cases ys with
    | nil => exact ⟨rfl, h⟩
    | cons y ys =>
      rw [List.flatMap_nil, List.flatMap_cons, List.append_assoc] at h
      exact absurd h (hu y List.mem_cons_self _)
  | cons x xs ih =>
    cases ys with
    | nil =>
      rw [List.flatMap_nil, List.flatMap_cons, List.append_assoc] at h
      exact absurd h (hv x List.mem_cons_self _)
    | cons y ys =>
      rw [List.flatMap_cons, List.flatMap_cons, List.append_assoc, List.append_assoc] at h
      obtain ⟨rfl, hrest⟩ := hcode x List.mem_cons_self y List.mem_cons_self _ _ h
      obtain ⟨rfl, huv⟩ := ih (fun a ha b hb => hcode a (List.mem_cons_of_mem _ ha) b
        (List.mem_cons_of_mem _ hb)) (fun b hb => hu b (List.mem_cons_of_mem _ hb))
        (fun a ha => hv a (List.mem_cons_of_mem _ ha)) hrest
      exact ⟨rfl, huv⟩

/-- A run of letters of a class is read off a text whose rest begins outside the class. -/
theorem span_inj {p : β → Prop} {xs ys u v : List β} (hx : ∀ c ∈ xs, p c) (hy : ∀ c ∈ ys, p c)
    (hu : ∀ c ∈ u.head?, ¬ p c) (hv : ∀ c ∈ v.head?, ¬ p c) (h : xs ++ u = ys ++ v) :
    xs = ys ∧ u = v := by
  induction xs generalizing ys with
  | nil =>
    cases ys with
    | nil => exact ⟨rfl, h⟩
    | cons c ys =>
      rw [List.nil_append] at h
      exact absurd (hy c List.mem_cons_self) (hu c (by rw [h]; rfl))
  | cons c xs ih =>
    cases ys with
    | nil =>
      rw [List.nil_append] at h
      exact absurd (hx c List.mem_cons_self) (hv c (by rw [← h]; rfl))
    | cons d ys =>
      obtain ⟨rfl, hrest⟩ := List.cons.inj h
      obtain ⟨rfl, huv⟩ := ih (fun c hc => hx c (List.mem_cons_of_mem _ hc))
        (fun c hc => hy c (List.mem_cons_of_mem _ hc)) hrest
      exact ⟨rfl, huv⟩

/-- What stands after the last separator of a text is read off its end. -/
theorem last_separator_inj {sep : β} {xs ys u v : List β} (hx : sep ∉ xs) (hy : sep ∉ ys)
    (h : u ++ sep :: xs = v ++ sep :: ys) : u = v ∧ xs = ys := by
  have hreverse : xs.reverse ++ sep :: u.reverse = ys.reverse ++ sep :: v.reverse := by
    simpa using congrArg List.reverse h
  obtain ⟨hlast, hrest⟩ := @span_inj _ (· ≠ sep) _ _ _ _
    (fun c hc hsep => hx (hsep ▸ List.mem_reverse.mp hc))
    (fun c hc hsep => hy (hsep ▸ List.mem_reverse.mp hc)) (by simp) (by simp) hreverse
  exact ⟨List.reverse_injective (List.cons.inj hrest).2, List.reverse_injective hlast⟩

/-- **Elements between separators.**  If each element is read off a text that goes on with the
separator or the closing letter, and no element begins with the closing letter, then so is the
sequence. -/
theorem intercalate_inj {R : α → α → Prop} {f : α → List β} {sep close : β} (hne : sep ≠ close)
    {xs ys : List α} {u v : List β}
    (hclose : ∀ a, a ∈ xs ∨ a ∈ ys → ∀ w w', f a ++ w ≠ close :: w')
    (hread : ∀ a ∈ xs, ∀ b ∈ ys, ∀ u v : List β, (∀ c ∈ u.head?, c = sep ∨ c = close) →
      (∀ c ∈ v.head?, c = sep ∨ c = close) → f a ++ u = f b ++ v → R a b ∧ u = v)
    (h : [sep].intercalate (xs.map f) ++ close :: u = [sep].intercalate (ys.map f) ++ close :: v) :
    List.Forall₂ R xs ys ∧ u = v := by
  have hsep : ∀ w : List β, ∀ c ∈ (sep :: w).head?, c = sep ∨ c = close :=
    fun w c hc => .inl (Option.some.inj hc).symm
  have hend : ∀ w : List β, ∀ c ∈ (close :: w).head?, c = sep ∨ c = close :=
    fun w c hc => .inr (Option.some.inj hc).symm
  induction xs generalizing ys with
  | nil =>
    cases ys with
    | nil => exact ⟨.nil, (List.cons.inj h).2⟩
    | cons y ys =>
      cases ys with
      | nil =>
        rw [List.map_singleton, List.intercalate_singleton] at h
        exact absurd h.symm (hclose y (.inr List.mem_cons_self) _ _)
      | cons y' ys =>
        rw [List.map_cons, List.map_cons, List.intercalate_cons_cons, List.append_assoc,
          List.append_assoc] at h
        exact absurd h.symm (hclose y (.inr List.mem_cons_self) _ _)
  | cons x xs ih =>
    have hhead : ∀ y ∈ ys, ∀ u v : List β, (∀ c ∈ u.head?, c = sep ∨ c = close) →
        (∀ c ∈ v.head?, c = sep ∨ c = close) → f x ++ u = f y ++ v → R x y ∧ u = v :=
      fun y hy => hread x List.mem_cons_self y hy
    cases xs with
    | nil =>
      rw [List.map_singleton, List.intercalate_singleton] at h
      cases ys with
      | nil => exact absurd h (hclose x (.inl List.mem_cons_self) _ _)
      | cons y ys =>
        cases ys with
        | nil =>
          rw [List.map_singleton, List.intercalate_singleton] at h
          obtain ⟨hxy, huv⟩ := hhead y List.mem_cons_self _ _ (hend u) (hend v) h
          exact ⟨.cons hxy .nil, (List.cons.inj huv).2⟩
        | cons y' ys =>
          rw [List.map_cons, List.map_cons, List.intercalate_cons_cons, List.append_assoc,
            List.append_assoc] at h
          obtain ⟨-, huv⟩ := hhead y List.mem_cons_self _ _ (hend u) (hsep _) h
          exact absurd (List.cons.inj huv).1.symm hne
    | cons x' xs =>
      rw [List.map_cons, List.map_cons, List.intercalate_cons_cons, List.append_assoc,
        List.append_assoc] at h
      cases ys with
      | nil => exact absurd h (hclose x (.inl List.mem_cons_self) _ _)
      | cons y ys =>
        cases ys with
        | nil =>
          rw [List.map_singleton, List.intercalate_singleton] at h
          obtain ⟨-, huv⟩ := hhead y List.mem_cons_self _ _ (hsep _) (hend v) h
          exact absurd (List.cons.inj huv).1 hne
        | cons y' ys =>
          rw [List.map_cons, List.map_cons (l := ys), List.intercalate_cons_cons, List.append_assoc,
            List.append_assoc] at h
          obtain ⟨hxy, huv⟩ := hhead y List.mem_cons_self _ _ (hsep _) (hsep _) h
          obtain ⟨hrest, huv⟩ := ih
            (fun a ha => hclose a (ha.imp (List.mem_cons_of_mem _) (List.mem_cons_of_mem _)))
            (fun a ha b hb => hread a (List.mem_cons_of_mem _ ha) b (List.mem_cons_of_mem _ hb))
            (List.cons.inj huv).2
          exact ⟨.cons hxy hrest, huv⟩

end Data
end ZeroTrust
