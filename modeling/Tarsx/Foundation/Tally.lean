/-
What the steps of a run add up to, and how the sum bounds a level of the state: each step
either pays for what it does, or a reserve of the state does.
-/
import Tarsx.Foundation.Run

namespace Foundation

universe u v w

variable {State : Type u} {Action : Type v} {Fault : Type w}

/-- The sum of the weights of the steps of a run. -/
def tally (step : State → Action → Except Fault State) (weight : State → Action → Nat) :
    State → List Action → Nat
  | _, [] => 0
  | state, action :: rest =>
      match step state action with
      | .ok next => weight state action + tally step weight next rest
      | .error _ => 0

section

variable {step : State → Action → Except Fault State} {weight pay : State → Action → Nat}
  {inv : State → Prop} {level reserve : State → Nat} {state last : State} {actions : List Action}

theorem tally_cons_of_ok {next : State} {action : Action} (hstep : step state action = .ok next)
    (rest : List Action) :
    tally step weight state (action :: rest) =
      weight state action + tally step weight next rest := by
  simp [tally, hstep]

theorem tally_zero : tally step (fun _ _ => 0) state actions = 0 := by
  induction actions generalizing state with
  | nil => rfl
  | cons action rest ih =>
      cases hstep : step state action with
      | error fault => simp [tally, hstep]
      | ok next => rw [tally_cons_of_ok hstep, ih]

/-- The steps of a run cost what the reserve had and what they paid. -/
theorem tally_le {cond : State → Action → Prop}
    (hkeep : ∀ state action next, inv state → step state action = .ok next → inv next)
    (hpays : ∀ state action next, inv state → cond state action → step state action = .ok next →
      weight state action + reserve next ≤ reserve state + pay state action)
    (hinv : inv state) (hcond : Along step cond state actions) :
    tally step weight state actions ≤ reserve state + tally step pay state actions := by
  induction actions generalizing state with
  | nil => exact Nat.zero_le _
  | cons action rest ih =>
      cases hstep : step state action with
      | error fault => simp [tally, hstep]
      | ok next =>
          rw [tally_cons_of_ok hstep, tally_cons_of_ok hstep]
          have hfirst := hpays state action next hinv hcond.1 hstep
          have hrest := ih (hkeep state action next hinv hstep) (hcond.2 next hstep)
          omega

/-- A level rises by no more than the steps paid, up to the reserves. -/
theorem level_le
    (hkeep : ∀ state action next, inv state → step state action = .ok next → inv next)
    (hpays : ∀ state action next, inv state → step state action = .ok next →
      level next + reserve state ≤ level state + reserve next + pay state action)
    (hinv : inv state) (hrun : run step state actions = .ok last) :
    level last + reserve state ≤ level state + reserve last + tally step pay state actions := by
  induction actions generalizing state with
  | nil =>
      obtain rfl := Except.ok.inj hrun
      exact Nat.le_add_right _ _
  | cons action rest ih =>
      cases hstep : step state action with
      | error fault => simp [run, hstep] at hrun
      | ok next =>
          rw [run_cons_of_ok hstep] at hrun
          rw [tally_cons_of_ok hstep]
          have hfirst := hpays state action next hinv hstep
          have hrest := ih (hkeep state action next hinv hstep) hrun
          omega

/-- A level rises by what the steps paid, up to the reserves, or reaches its goal. -/
theorem le_level {goal base : Nat}
    (hkeep : ∀ state action next, inv state → step state action = .ok next → inv next)
    (hrises : ∀ state action next, inv state → step state action = .ok next →
      level state ≤ level next ∧ (goal ≤ level next ∨
        level state + reserve next + pay state action ≤ level next + reserve state))
    (hinv : inv state) (hrun : run step state actions = .ok last)
    (hbase : goal ≤ level state ∨ base + reserve state ≤ level state) :
    goal ≤ level last ∨ base + tally step pay state actions + reserve last ≤ level last := by
  induction actions generalizing state base with
  | nil =>
      obtain rfl := Except.ok.inj hrun
      exact hbase
  | cons action rest ih =>
      cases hstep : step state action with
      | error fault => simp [run, hstep] at hrun
      | ok next =>
          rw [run_cons_of_ok hstep] at hrun
          rw [tally_cons_of_ok hstep, ← Nat.add_assoc]
          obtain ⟨hmono, hrise⟩ := hrises state action next hinv hstep
          refine ih (hkeep state action next hinv hstep) hrun ?_
          omega

end

end Foundation
