/-
Two partial functions that are inverse to each other, and what an assignment in both
directions does to them.
-/
import Mathlib.Data.Option.Basic
import Mathlib.Logic.Function.Basic

namespace Foundation

universe u v

variable {α : Type u} {β : Type v}

/-- Each of the two maps undoes the other. -/
def Inverse (forth : α → Option β) (back : β → Option α) : Prop :=
  ∀ a b, forth a = some b ↔ back b = some a

/-- Nothing else is assigned to `a`, and `b` to nothing else. -/
def Unclaimed (forth : α → Option β) (back : β → Option α) (a : α) (b : β) : Prop :=
  (∀ b', forth a = some b' → b' = b) ∧ ∀ a', back b = some a' → a' = a

theorem Inverse.empty : Inverse (fun _ : α => (none : Option β)) fun _ => none := by
  intro a b
  constructor <;> intro h <;> contradiction

section

variable {forth : α → Option β} {back : β → Option α} {a : α} {b : β}

theorem Inverse.symm (h : Inverse forth back) : Inverse back forth :=
  fun b a => (h a b).symm

theorem Unclaimed.symm (h : Unclaimed forth back a b) : Unclaimed back forth b a :=
  ⟨h.2, h.1⟩

/-- Something is assigned to `b` exactly when `b` is assigned to something. -/
theorem Inverse.isSome_iff (h : Inverse forth back) :
    (back b).isSome ↔ ∃ a, forth a = some b := by
  rw [Option.isSome_iff_exists]
  exact exists_congr fun a => (h a b).symm

variable [DecidableEq α] [DecidableEq β]

theorem Unclaimed.forth_of_back (h : Inverse forth back) (hfree : Unclaimed forth back a b)
    {x : α} {y : β} (hy : Function.update forth a (some b) x = some y) :
    Function.update back b (some a) y = some x := by
  by_cases hx : x = a
  · subst hx
    rw [Function.update_self, Option.some.injEq] at hy
    rw [← hy, Function.update_self]
  · rw [Function.update_of_ne hx] at hy
    have hback := (h x y).mp hy
    have hne : y ≠ b := by
      rintro rfl
      exact hx (hfree.2 x hback)
    rw [Function.update_of_ne hne, hback]

/-- An assignment in both directions keeps the maps inverse exactly when no older one is
left over in either of them. -/
theorem Inverse.update_iff (h : Inverse forth back) :
    Inverse (Function.update forth a (some b)) (Function.update back b (some a)) ↔
      Unclaimed forth back a b := by
  constructor
  · intro hinverse
    constructor
    · intro b' hb'
      by_contra hne
      have hstale : Function.update back b (some a) b' = some a := by
        rw [Function.update_of_ne hne, (h a b').mp hb']
      have hforth := (hinverse a b').mpr hstale
      rw [Function.update_self, Option.some.injEq] at hforth
      exact hne hforth.symm
    · intro a' ha'
      by_contra hne
      have hstale : Function.update forth a (some b) a' = some b := by
        rw [Function.update_of_ne hne, (h a' b).mpr ha']
      have hback := (hinverse a' b).mp hstale
      rw [Function.update_self, Option.some.injEq] at hback
      exact hne hback.symm
  · intro hfree x y
    exact ⟨hfree.forth_of_back h, hfree.symm.forth_of_back h.symm⟩

end

end Foundation
