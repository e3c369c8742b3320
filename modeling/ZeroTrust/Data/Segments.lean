import Mathlib.Data.List.Basic
import Mathlib.Tactic.Common

/-!
# Streams that are read in pieces

A reader asks for so many elements and gets some of them, at least one while there are any.
How many it gets each time is up to the environment.

* `Segmented`: what is left of a stream, and the environment's choices.
* `Segmented.recv`: one reading; `recv_append`, `length_recv_le`, `recv_eq_nil`: all that is
  known of it.
* `recv_of_cut`: every piece that is allowed is delivered for some choice.
-/

namespace ZeroTrust
namespace Data

/-- A stream that is read in pieces. -/
structure Segmented (α : Type) where
  /-- What is left. -/
  unread : List α
  /-- How many elements the next readings are to give. -/
  cut : ℕ → ℕ

namespace Segmented

variable {α : Type} {s : Segmented α} {n : ℕ}

/-- One reading of at most `n` elements.  The environment's choice is moved into the range that
is allowed. -/
def recv (n : ℕ) (s : Segmented α) : List α × Segmented α :=
  (s.unread.take (min (max (s.cut 0) 1) n),
    { unread := s.unread.drop (min (max (s.cut 0) 1) n), cut := fun i => s.cut (i + 1) })

/-- Nothing is lost and nothing is read twice. -/
theorem recv_append (n : ℕ) (s : Segmented α) : (s.recv n).1 ++ (s.recv n).2.unread = s.unread :=
  List.take_append_drop ..

theorem length_recv_le (n : ℕ) (s : Segmented α) : (s.recv n).1.length ≤ n := by
  rw [recv, List.length_take]
  omega

theorem recv_cut (n : ℕ) (s : Segmented α) : (s.recv n).2.cut = fun i => s.cut (i + 1) := rfl

/-- A reading that gives nothing has come to the end. -/
theorem recv_eq_nil (hn : 0 < n) : (s.recv n).1 = [] ↔ s.unread = [] := by
  rw [recv, List.take_eq_nil_iff]
  constructor
  · rintro (h | h)
    · omega
    · exact h
  · exact .inr

/-- **Every piece that is allowed is delivered** for some choice of the environment. -/
theorem recv_of_cut {piece rest : List α} (hne : piece ≠ []) (hle : piece.length ≤ n) (cut : ℕ → ℕ) :
    recv n ⟨piece ++ rest, fun i => if i = 0 then piece.length else cut (i - 1)⟩ =
      (piece, ⟨rest, cut⟩) := by
  have hpos := List.length_pos_iff.mpr hne
  have hlen : min (max piece.length 1) n = piece.length := by omega
  simp [recv, hlen]

end Segmented

end Data
end ZeroTrust
