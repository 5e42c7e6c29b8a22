/-
Mutual exclusion between threads that are described by where they are in their
programs: the holder of a mutex is the thread that is where the mutex is held.
-/
import Mathlib.Logic.Function.Basic

namespace Foundation

universe u v

variable {Thread : Type u} {Pc : Type v}

/-- The holder, if there is one, is the only thread that is at a place of `holds`. -/
def Excludes (holds : Pc → Bool) (holder : Option Thread) (pc : Thread → Pc) : Prop :=
  ∀ thread, holder = some thread ↔ holds (pc thread) = true

section

variable {holds : Pc → Bool} {holder : Option Thread} {pc : Thread → Pc} {thread : Thread}

theorem excludes_none (h : ∀ thread, holds (pc thread) = false) : Excludes holds none pc := by
  intro thread
  simp [h thread]

theorem Excludes.holder_eq (h : Excludes holds holder pc) (hin : holds (pc thread) = true) :
    holder = some thread :=
  (h thread).mpr hin

/-- A thread takes the free mutex, keeps it or gives it up. -/
theorem Excludes.update [DecidableEq Thread] (h : Excludes holds holder pc)
    (hbefore : holder = none ∨ holder = some thread) (next : Pc) {holder' : Option Thread}
    (hafter : holder' = if holds next then some thread else none) :
    Excludes holds holder' (Function.update pc thread next) := by
  intro other
  by_cases hother : other = thread
  · subst hother
    rw [Function.update_self, hafter]
    cases holds next <;> simp
  · have hout : ¬ holds (pc other) = true := by
      intro hin
      have hheld := h.holder_eq hin
      rcases hbefore with hnone | hsome
      · rw [hnone] at hheld
        contradiction
      · exact hother (Option.some.inj (hheld.symm.trans hsome))
    have hnot : holder' ≠ some other := by
      rw [hafter]
      cases holds next with
      | false => simp
      | true => simpa using Ne.symm hother
    rw [Function.update_of_ne hother]
    exact iff_of_false hnot hout

/-- A thread moves and the mutex stays with its holder. -/
theorem Excludes.move [DecidableEq Thread] (h : Excludes holds holder pc) (next : Pc)
    (hsame : holds next = holds (pc thread)) :
    Excludes holds holder (Function.update pc thread next) := by
  intro other
  by_cases hother : other = thread
  · rw [hother, Function.update_self, hsame]
    exact h thread
  · rw [Function.update_of_ne hother]
    exact h other

end

end Foundation
