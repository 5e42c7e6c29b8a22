/-
Parties that take turns on one thread: one runs, and each of the others may be saved in a
slot that it goes on from.
-/
import Mathlib.Logic.Function.Basic

namespace Foundation

/-- Who runs, and where the others are saved. -/
structure Switching (Party Slot : Type) where
  running : Party
  place : Party → Option Slot

inductive Switch (Party Slot : Type) where
  /-- a slot is filled for a party that starts -/
  | make (slot : Slot) (party : Party)
  /-- the party that runs is saved, and the one in the other slot goes on -/
  | jump (save load : Slot) (target : Party)
  /-- as `jump`, but the party that runs must not go on any more -/
  | leave (save load : Slot) (target : Party)
deriving DecidableEq, Repr

namespace Switch

variable {Party Slot : Type}

/-- The party whose place the switch changes, besides the one that runs. -/
def target : Switch Party Slot → Party
  | .make _ party => party
  | .jump _ _ target => target
  | .leave _ _ target => target

def slots : Switch Party Slot → List Slot
  | .make slot _ => [slot]
  | .jump save load _ => [save, load]
  | .leave save load _ => [save, load]

end Switch

namespace Switching

variable {Party Slot : Type}

/-- Nobody is saved in the slot. -/
def Vacant (s : Switching Party Slot) (slot : Slot) : Prop := ∀ party, s.place party ≠ some slot

/-- Nobody who is saved is lost, and nobody goes on who is not saved. -/
def Allowed (s : Switching Party Slot) : Switch Party Slot → Prop
  | .make slot party => party ≠ s.running ∧ s.place party = none ∧ s.Vacant slot
  | .jump save load target => target ≠ s.running ∧ s.place target = some load ∧ s.Vacant save
  | .leave save load target => target ≠ s.running ∧ s.place target = some load ∧ s.Vacant save

variable [DecidableEq Party]

def after (s : Switching Party Slot) : Switch Party Slot → Switching Party Slot
  | .make slot party => { s with place := Function.update s.place party (some slot) }
  | .jump save _ target => {
      running := target
      place := Function.update (Function.update s.place s.running (some save)) target none }
  | .leave _ _ target => {
      running := target
      place := Function.update (Function.update s.place s.running none) target none }

/-- Several switches one after the other. -/
def afterAll : Switching Party Slot → List (Switch Party Slot) → Switching Party Slot
  | s, [] => s
  | s, switch :: rest => afterAll (s.after switch) rest

def AllAllowed : Switching Party Slot → List (Switch Party Slot) → Prop
  | _, [] => True
  | s, switch :: rest => s.Allowed switch ∧ AllAllowed (s.after switch) rest

section

variable {s : Switching Party Slot}

theorem allAllowed_append {first second : List (Switch Party Slot)} :
    s.AllAllowed (first ++ second) ↔
      s.AllAllowed first ∧ (s.afterAll first).AllAllowed second := by
  induction first generalizing s with
  | nil => simp [AllAllowed, afterAll]
  | cons switch rest ih => simp [AllAllowed, afterAll, ih, and_assoc]

/-- A party starts and comes back at once. -/
def start (home back : Slot) (party running : Party) : List (Switch Party Slot) :=
  [.make home party, .jump back home party, .jump home back running]

variable {home back : Slot} {party : Party}

/-- The party is saved, and the one that runs goes on. -/
theorem afterAll_start (hnone : s.place s.running = none) (hother : party ≠ s.running) :
    s.afterAll (start home back party s.running) =
      { s with place := Function.update s.place party (some home) } := by
  simp only [start, afterAll, after, Switching.mk.injEq, true_and]
  funext other
  by_cases hrunning : other = s.running
  · subst hrunning
    rw [Function.update_self, Function.update_of_ne hother.symm, hnone]
  · by_cases hparty : other = party <;> simp [hrunning, hparty, hother]

theorem allAllowed_start (hother : party ≠ s.running) (hnone : s.place party = none)
    (hhome : s.Vacant home) (hback : s.Vacant back) (hslots : home ≠ back) :
    s.AllAllowed (start home back party s.running) := by
  refine ⟨⟨hother, hnone, hhome⟩, ⟨hother, Function.update_self _ _ _, ?_⟩,
    ⟨hother.symm, ?_, ?_⟩, trivial⟩
  · intro other
    simp only [after, Function.update_apply]
    split
    · exact fun hsame => hslots (Option.some.inj hsame)
    · exact hback other
  · simp [after, hother.symm]
  · intro other
    simp only [after, Function.update_apply]
    split
    · exact (Option.some_ne_none home).symm
    · split
      · exact fun hsame => hslots (Option.some.inj hsame).symm
      · exact hhome other

end

end Switching

end Foundation
