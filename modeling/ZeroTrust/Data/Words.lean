import Mathlib.Data.List.Basic
import Mathlib.Tactic.Common

/-!
# The words of a text

A text over letters, some of which are blank, is cut into its maximal runs of letters that are
not.

* `words`: the words of a text.
* `not_blank_of_mem_words`: no word holds a blank letter.
* `words_intercalate_iff`: what is joined with a blank letter is cut into the same pieces exactly
  if no piece holds one.
-/

namespace ZeroTrust
namespace Data

variable {β : Type} (p : β → Bool)

/-- The words of a text, after the letters of a word that has begun. -/
def wordsAfter : List β → List β → List (List β)
  | word, [] => if word.isEmpty then [] else [word]
  | word, c :: cs =>
      if p c then (if word.isEmpty then [] else [word]) ++ wordsAfter [] cs
      else wordsAfter (word ++ [c]) cs

/-- The words of a text. -/
def words (text : List β) : List (List β) := wordsAfter p [] text

variable {p}

theorem wordsAfter_append {word letters text : List β} (h : ∀ c ∈ letters, p c = false) :
    wordsAfter p word (letters ++ text) = wordsAfter p (word ++ letters) text := by
  induction letters generalizing word with
  | nil => rw [List.nil_append, List.append_nil]
  | cons c letters ih =>
    obtain ⟨hc, hletters⟩ := List.forall_mem_cons.mp h
    rw [List.cons_append, wordsAfter, if_neg (by simp [hc]), ih hletters, List.append_assoc,
      List.singleton_append]

/-- A word up to the first blank letter. -/
theorem words_cons {word text : List β} {blank : β} (hne : word ≠ [])
    (hword : ∀ c ∈ word, p c = false) (hblank : p blank = true) :
    words p (word ++ blank :: text) = word :: words p text := by
  rw [words, wordsAfter_append hword, List.nil_append, wordsAfter, if_pos hblank,
    if_neg (by simp [hne]), List.singleton_append]
  rfl

/-- A text that is one word. -/
theorem words_singleton {word : List β} (hne : word ≠ []) (hword : ∀ c ∈ word, p c = false) :
    words p word = [word] := by
  have h := @wordsAfter_append _ p [] word [] hword
  rw [List.append_nil, List.nil_append] at h
  rw [words, h, wordsAfter, if_neg (by simp [hne])]

/-- **No word holds a blank letter.** -/
theorem not_blank_of_mem_words {text word : List β} (h : word ∈ words p text) :
    ∀ c ∈ word, p c = false := by
  have hafter : ∀ {begun : List β}, (∀ c ∈ begun, p c = false) → word ∈ wordsAfter p begun text →
      ∀ c ∈ word, p c = false := by
    clear h
    induction text with
    | nil =>
      intro begun hbegun h
      rw [wordsAfter] at h
      split_ifs at h
      · cases h
      · obtain rfl := List.mem_singleton.mp h
        exact hbegun
    | cons c text ih =>
      intro begun hbegun h
      rw [wordsAfter] at h
      split_ifs at h with hc hempty
      · exact ih (List.forall_mem_nil _) h
      · rcases List.mem_cons.mp h with rfl | h
        · exact hbegun
        · exact ih (List.forall_mem_nil _) h
      · refine ih (fun d hd => ?_) h
        rcases List.mem_append.mp hd with hd | hd
        · exact hbegun d hd
        · obtain rfl := List.mem_singleton.mp hd
          exact Bool.not_eq_true _ ▸ hc
  exact hafter (List.forall_mem_nil _) h

/-- **Pieces that are joined with a blank letter** are the words of the text exactly if they are
words. -/
theorem words_intercalate_iff {pieces : List (List β)} {blank : β} (hblank : p blank = true)
    (hne : ∀ piece ∈ pieces, piece ≠ []) :
    words p ([blank].intercalate pieces) = pieces ↔ ∀ piece ∈ pieces, ∀ c ∈ piece, p c = false := by
  constructor
  · intro h piece hpiece
    exact not_blank_of_mem_words (h.symm ▸ hpiece)
  · intro h
    induction pieces with
    | nil => rfl
    | cons piece pieces ih =>
      obtain ⟨hpiece, hpieces⟩ := List.forall_mem_cons.mp h
      obtain ⟨hne', hnes⟩ := List.forall_mem_cons.mp hne
      cases pieces with
      | nil => rw [List.intercalate_singleton, words_singleton hne' hpiece]
      | cons piece' pieces =>
        rw [List.intercalate_cons_cons, List.append_assoc, List.singleton_append,
          words_cons hne' hpiece hblank, ih hnes hpieces]

end Data
end ZeroTrust
