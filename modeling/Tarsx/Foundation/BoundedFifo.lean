/-
A first-in first-out queue of bounded length: what a circular buffer with a fixed
number of cells is for.  The bound is a field of the queue, so every operation says
why it is kept.
-/
import Mathlib.Data.List.Basic

namespace Foundation

universe u

/-- At most `bound` items, the oldest first. -/
structure BoundedFifo (α : Type u) (bound : Nat) where
  items : List α
  fits : items.length ≤ bound

namespace BoundedFifo

variable {α : Type u} {bound : Nat}

def nil : BoundedFifo α bound := ⟨[], Nat.zero_le _⟩

/-- Append a list if all of it fits, and tell whether it did. -/
def push (q : BoundedFifo α bound) (news : List α) : Bool × BoundedFifo α bound :=
  if hfits : (q.items ++ news).length ≤ bound then (true, ⟨q.items ++ news, hfits⟩)
  else (false, q)

/-- Take the oldest item. -/
def pop (q : BoundedFifo α bound) : Option α × BoundedFifo α bound :=
  (q.items.head?, ⟨q.items.tail, by
    rw [List.length_tail]
    exact Nat.le_trans (Nat.sub_le _ _) q.fits⟩)

theorem push_of_fits {q : BoundedFifo α bound} {news : List α}
    (hfits : q.items.length + news.length ≤ bound) :
    (q.push news).1 = true ∧ (q.push news).2.items = q.items ++ news := by
  rw [← List.length_append] at hfits
  rw [push, dif_pos hfits]
  exact ⟨rfl, rfl⟩

theorem push_of_not_fits {q : BoundedFifo α bound} {news : List α}
    (hfull : ¬ q.items.length + news.length ≤ bound) : q.push news = (false, q) := by
  rw [← List.length_append] at hfull
  rw [push, dif_neg hfull]

end BoundedFifo

end Foundation
