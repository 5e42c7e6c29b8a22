/-
A window of a circular array: the cells from a first index on, going from the last
index back to 0.  The indices wrap by a comparison, as code that keeps two indices
below the capacity does it.
-/
import Mathlib.Data.List.Range
import Mathlib.Logic.Function.Basic

namespace Foundation

universe u

variable {α : Type u} {capacity first count : Nat}

/-- The index `i` places after `first`, for `first` and `i` up to the capacity. -/
def slot (capacity first i : Nat) : Nat :=
  if first + i < capacity then first + i else first + i - capacity

/-- The index after `first`. -/
def nextSlot (capacity first : Nat) : Nat :=
  if first + 1 = capacity then 0 else first + 1

theorem slot_zero (hfirst : first < capacity) : slot capacity first 0 = first := by
  simp [slot, hfirst]

theorem slot_ne {i j : Nat} (hi : i < capacity) (hj : j < capacity) (hne : i ≠ j) :
    slot capacity first i ≠ slot capacity first j := by
  simp only [slot]
  split <;> split <;> omega

theorem slot_nextSlot {i : Nat} (hi : i < capacity) :
    slot capacity (nextSlot capacity first) i = slot capacity first (i + 1) := by
  simp only [slot, nextSlot]
  split <;> split <;> split <;> omega

/-- The contents of `count` cells from `first` on. -/
def circularWindow (capacity : Nat) (cells : Nat → α) (first count : Nat) : List α :=
  (List.range count).map fun i => cells (slot capacity first i)

@[simp] theorem length_circularWindow (cells : Nat → α) :
    (circularWindow capacity cells first count).length = count := by
  simp [circularWindow]

/-- Writing the cell behind the window leaves the window. -/
theorem circularWindow_behind (cells : Nat → α) (a : α) (hcount : count < capacity) :
    circularWindow capacity (Function.update cells (slot capacity first count) a) first
        count = circularWindow capacity cells first count := by
  apply List.map_congr_left
  intro i hi
  have hlt : i < count := List.mem_range.mp hi
  exact Function.update_of_ne (slot_ne (hlt.trans hcount) hcount hlt.ne) a cells

/-- With that cell the window has its new value at the end. -/
theorem circularWindow_write (cells : Nat → α) (a : α) (hcount : count < capacity) :
    circularWindow capacity (Function.update cells (slot capacity first count) a) first
        (count + 1) = circularWindow capacity cells first count ++ [a] := by
  have hkept := @circularWindow_behind α capacity first count cells a hcount
  simp only [circularWindow] at hkept
  simp only [circularWindow, List.range_succ, List.map_append, List.map_cons, List.map_nil,
    Function.update_self, hkept]

/-- The first cell of a window, and the window behind it. -/
theorem circularWindow_succ (cells : Nat → α) (hfirst : first < capacity)
    (hcount : count < capacity) :
    circularWindow capacity cells first (count + 1) =
      cells first :: circularWindow capacity cells (nextSlot capacity first) count := by
  have hrest : ∀ i ∈ List.range count,
      cells (slot capacity first (i + 1)) =
        cells (slot capacity (nextSlot capacity first) i) := by
    intro i hi
    have hlt : i < capacity := (List.mem_range.mp hi).trans hcount
    rw [slot_nextSlot hlt]
  simp only [circularWindow, List.range_succ_eq_map, List.map_cons, List.map_map,
    slot_zero hfirst, Function.comp_def, List.map_congr_left hrest]

end Foundation
