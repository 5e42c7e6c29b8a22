/-
Runs of a fallible step function.  A machine is a function from a state and an
action to the next state or a fault; this module holds the run, the two ways of
speaking about every step of a run, and the induction rules that the invariants
and the refinements are proved with.
-/
import Mathlib.Data.List.Basic

namespace Foundation

universe u v w x y

variable {State : Type u} {Action : Type v} {Fault : Type w} {Out : Type x}

/-- A sequence of two steps that succeeds is two steps that succeed. -/
theorem ok_of_bind_ok {first : Except Fault State} {second : State → Except Fault Out}
    {out : Out} (hrun : first.bind second = .ok out) :
    ∃ state, first = .ok state ∧ second state = .ok out := by
  cases first with
  | error fault => contradiction
  | ok state => exact ⟨state, rfl, hrun⟩

/-- Run a list of actions from a state, stopping at the first fault. -/
def run (step : State → Action → Except Fault State) :
    State → List Action → Except Fault State
  | state, [] => .ok state
  | state, action :: rest =>
      match step state action with
      | .ok next => run step next rest
      | .error fault => .error fault

/-- `p` holds of the state and the action at every step that the run takes. -/
def Along (step : State → Action → Except Fault State)
    (p : State → Action → Prop) : State → List Action → Prop
  | _, [] => True
  | state, action :: rest =>
      p state action ∧ ∀ next, step state action = .ok next →
        Along step p next rest

/-- No step of the run faults and every state it passes is `good`. -/
def Stays (step : State → Action → Except Fault State)
    (good : State → Prop) : State → List Action → Prop
  | state, [] => good state
  | state, action :: rest =>
      good state ∧ ∃ next, step state action = .ok next ∧
        Stays step good next rest

/-- Every state the run passes is `good`, and if a step faults, which ends the run,
the fault is one of the tolerated. -/
def StaysUpTo (tolerated : Fault → Prop) (step : State → Action → Except Fault State)
    (good : State → Prop) : State → List Action → Prop
  | state, [] => good state
  | state, action :: rest =>
      good state ∧
        match step state action with
        | .ok next => StaysUpTo tolerated step good next rest
        | .error fault => tolerated fault

section Rules

variable {step : State → Action → Except Fault State}

@[simp] theorem run_nil (state : State) : run step state [] = .ok state := rfl

theorem run_cons_of_ok {state next : State} {action : Action}
    (hstep : step state action = .ok next) (rest : List Action) :
    run step state (action :: rest) = run step next rest := by
  simp [run, hstep]

/-- A step whose result is known. -/
theorem Along.cons_of_ok {p : State → Action → Prop} {state next : State}
    {action : Action} {rest : List Action} (hp : p state action)
    (hstep : step state action = .ok next) (hrest : Along step p next rest) :
    Along step p state (action :: rest) := by
  refine ⟨hp, ?_⟩
  intro other hother
  have hsame : next = other := Except.ok.inj (hstep.symm.trans hother)
  exact hsame ▸ hrest

instance decidableAlong {p : State → Action → Prop}
    [∀ state action, Decidable (p state action)] :
    ∀ state actions, Decidable (Along step p state actions)
  | _, [] => isTrue trivial
  | state, action :: rest =>
      match hstep : step state action with
      | .error _ => decidable_of_iff (p state action) (by simp [Along, hstep])
      | .ok next =>
          have := decidableAlong (p := p) next rest
          decidable_of_iff (p state action ∧ Along step p next rest) (by simp [Along, hstep])

/-- Invariant rule with legality: a legal run that succeeds ends in the
invariant. -/
theorem run_invariant_of_along {inv : State → Prop}
    {legal : State → Action → Prop}
    (hpreserve : ∀ state action next, inv state → legal state action →
      step state action = .ok next → inv next)
    {state last : State} {actions : List Action} (hinv : inv state)
    (hlegal : Along step legal state actions)
    (hrun : run step state actions = .ok last) : inv last := by
  induction actions generalizing state with
  | nil =>
      simp only [run_nil, Except.ok.injEq] at hrun
      exact hrun ▸ hinv
  | cons action rest ih =>
      cases hstep : step state action with
      | error fault => simp [run, hstep] at hrun
      | ok next =>
          rw [run_cons_of_ok hstep] at hrun
          exact ih (hpreserve _ _ _ hinv hlegal.1 hstep) (hlegal.2 _ hstep) hrun

theorem Stays.run_ok {good : State → Prop} {state : State}
    {actions : List Action} (hstays : Stays step good state actions) :
    ∃ last, run step state actions = .ok last ∧ good last := by
  induction actions generalizing state with
  | nil => exact ⟨state, rfl, hstays⟩
  | cons action rest ih =>
      obtain ⟨_, next, hstep, hrest⟩ := hstays
      obtain ⟨last, hrun, hlast⟩ := ih hrest
      exact ⟨last, by rw [run_cons_of_ok hstep, hrun], hlast⟩

theorem StaysUpTo.head {tolerated : Fault → Prop} {good : State → Prop}
    {state : State} {actions : List Action}
    (hstays : StaysUpTo tolerated step good state actions) : good state := by
  cases actions with
  | nil => exact hstays
  | cons action rest => exact hstays.1

theorem StaysUpTo.last {tolerated : Fault → Prop} {good : State → Prop}
    {state last : State} {actions : List Action}
    (hstays : StaysUpTo tolerated step good state actions)
    (hrun : run step state actions = .ok last) : good last := by
  induction actions generalizing state with
  | nil =>
      simp only [run_nil, Except.ok.injEq] at hrun
      exact hrun ▸ hstays
  | cons action rest ih =>
      cases hstep : step state action with
      | error fault => simp [run, hstep] at hrun
      | ok next =>
          simp only [StaysUpTo, hstep] at hstays
          rw [run_cons_of_ok hstep] at hrun
          exact ih hstays.2 hrun

/-- A run that tolerates no fault. -/
theorem stays_iff_staysUpTo {good : State → Prop} {state : State}
    {actions : List Action} :
    Stays step good state actions ↔
      StaysUpTo (fun _ => False) step good state actions := by
  induction actions generalizing state with
  | nil => exact Iff.rfl
  | cons action rest ih =>
      cases hstep : step state action with
      | error fault => simp [Stays, StaysUpTo, hstep]
      | ok next => simp [Stays, StaysUpTo, hstep, ih]

/-- Invariant rule up to tolerated faults: when each step that meets `cond` keeps the
invariant or faults in a tolerated way, the run stays in the invariant. -/
theorem staysUpTo_of_along {inv good : State → Prop} {tolerated : Fault → Prop}
    {cond : State → Action → Prop} (hgood : ∀ state, inv state → good state)
    (hkeep : ∀ state action next, inv state → cond state action →
      step state action = .ok next → inv next)
    (hfault : ∀ state action fault, inv state → cond state action →
      step state action = .error fault → tolerated fault)
    {state : State} {actions : List Action} (hinv : inv state)
    (hcond : Along step cond state actions) :
    StaysUpTo tolerated step good state actions := by
  induction actions generalizing state with
  | nil => exact hgood _ hinv
  | cons action rest ih =>
      refine ⟨hgood _ hinv, ?_⟩
      cases hstep : step state action with
      | error fault => exact hfault _ _ _ hinv hcond.1 hstep
      | ok next =>
          exact ih (hkeep _ _ _ hinv hcond.1 hstep) (hcond.2 next hstep)

/-- Invariant rule where the steps that meet `cond` succeed. -/
theorem stays_of_along {inv good : State → Prop} {cond : State → Action → Prop}
    (hgood : ∀ state, inv state → good state)
    (hprogress : ∀ state action, inv state → cond state action →
      ∃ next, step state action = .ok next ∧ inv next)
    {state : State} {actions : List Action} (hinv : inv state)
    (hcond : Along step cond state actions) : Stays step good state actions := by
  induction actions generalizing state with
  | nil => exact hgood _ hinv
  | cons action rest ih =>
      rcases hprogress _ _ hinv hcond.1 with ⟨next, hstep, hnext⟩
      exact ⟨hgood _ hinv, next, hstep, ih hnext (hcond.2 next hstep)⟩

/-- Exactness rule: among legal runs, if an invariant makes every state good, is
kept up to tolerated faults by the steps that meet `cond`, and the other steps fault
in another way or leave the good states, then a run stays good exactly when all its
steps meet `cond`. -/
theorem staysUpTo_iff_along {inv good : State → Prop} {tolerated : Fault → Prop}
    {legal cond : State → Action → Prop} (hgood : ∀ state, inv state → good state)
    (hkeep : ∀ state action next, inv state → legal state action →
      cond state action → step state action = .ok next → inv next)
    (hfault : ∀ state action fault, inv state → legal state action →
      step state action = .error fault → (tolerated fault ↔ cond state action))
    (hbreak : ∀ state action next, inv state → legal state action →
      ¬ cond state action → step state action = .ok next → ¬ good next)
    {state : State} {actions : List Action} (hinv : inv state)
    (hlegal : Along step legal state actions) :
    StaysUpTo tolerated step good state actions ↔ Along step cond state actions := by
  induction actions generalizing state with
  | nil => exact ⟨fun _ => trivial, fun _ => hgood _ hinv⟩
  | cons action rest ih =>
      cases hstep : step state action with
      | error fault =>
          have hiff := hfault _ _ _ hinv hlegal.1 hstep
          simp [StaysUpTo, Along, hstep, hiff, hgood _ hinv]
      | ok next =>
          have hnext := hlegal.2 next hstep
          simp only [StaysUpTo, Along, hstep, hgood _ hinv, true_and,
            Except.ok.injEq, forall_eq']
          constructor
          · intro hstays
            have hcond : cond state action := by
              by_contra hnot
              exact hbreak _ _ _ hinv hlegal.1 hnot hstep hstays.head
            have hkept := hkeep _ _ _ hinv hlegal.1 hcond hstep
            exact ⟨hcond, (ih hkept hnext).mp hstays⟩
          · rintro ⟨hcond, halong⟩
            have hkept := hkeep _ _ _ hinv hlegal.1 hcond hstep
            exact (ih hkept hnext).mpr halong

/-- Exactness rule where no fault is tolerated. -/
theorem stays_iff_along_of_legal {inv good : State → Prop}
    {legal cond : State → Action → Prop}
    (hgood : ∀ state, inv state → good state)
    (hkeep : ∀ state action, inv state → legal state action → cond state action →
      ∃ next, step state action = .ok next ∧ inv next)
    (hbreak : ∀ state action next, inv state → legal state action →
      ¬ cond state action → step state action = .ok next → ¬ good next)
    {state : State} {actions : List Action} (hinv : inv state)
    (hlegal : Along step legal state actions) :
    Stays step good state actions ↔ Along step cond state actions := by
  rw [stays_iff_staysUpTo]
  apply staysUpTo_iff_along hgood ?_ ?_ hbreak hinv hlegal
  · intro state action next hinv hlegal hcond hstep
    obtain ⟨next', hstep', hinv'⟩ := hkeep _ _ hinv hlegal hcond
    exact Except.ok.inj (hstep'.symm.trans hstep) ▸ hinv'
  · intro state action fault hinv hlegal hstep
    constructor
    · exact False.elim
    · intro hcond
      obtain ⟨next', hstep', _⟩ := hkeep _ _ hinv hlegal hcond
      rw [hstep] at hstep'
      contradiction

/-- What holds of the actions in every state holds along the run. -/
theorem along_of_forall {p : State → Action → Prop} {state : State} {actions : List Action}
    (hp : ∀ state, ∀ action ∈ actions, p state action) : Along step p state actions := by
  induction actions generalizing state with
  | nil => trivial
  | cons action rest ih =>
      refine ⟨hp state action List.mem_cons_self, fun _ _ => ih ?_⟩
      exact fun state other hother => hp state other (List.mem_cons_of_mem action hother)

/-- What also holds of the actions in every state. -/
theorem Along.and_forall {p q : State → Action → Prop} {state : State} {actions : List Action}
    (hp : Along step p state actions) (hq : ∀ state, ∀ action ∈ actions, q state action) :
    Along step (fun state action => p state action ∧ q state action) state actions := by
  induction actions generalizing state with
  | nil => trivial
  | cons action rest ih =>
      refine ⟨⟨hp.1, hq state action List.mem_cons_self⟩, fun next hstep => ?_⟩
      exact ih (hp.2 next hstep) fun state other hother =>
        hq state other (List.mem_cons_of_mem action hother)

/-- One run behind another. -/
theorem run_map {Label : Type w} (label : Label → Action) {state : State}
    (actions : List Label) : run (fun state action => step state (label action)) state actions =
      run step state (actions.map label) := by
  induction actions generalizing state with
  | nil => rfl
  | cons action rest ih =>
      cases hstep : step state (label action) with
      | error fault => simp [run, hstep]
      | ok next => simp [run, hstep, ih]

theorem along_append {p : State → Action → Prop} {state : State} {first second : List Action} :
    Along step p state (first ++ second) ↔ Along step p state first ∧
      ∀ last, run step state first = .ok last → Along step p last second := by
  induction first generalizing state with
  | nil => simp [Along]
  | cons action rest ih =>
      cases hstep : step state action with
      | error fault => simp [Along, run, hstep]
      | ok next => simp [Along, run, hstep, ih, and_assoc]

/-- Every step of a run is legal when nothing is asked of it. -/
theorem along_true {state : State} {actions : List Action} :
    Along step (fun _ _ => True) state actions :=
  along_of_forall fun _ _ _ => trivial

/-- Exactness rule where every action is legal. -/
theorem stays_iff_along {inv good : State → Prop}
    {cond : State → Action → Prop}
    (hgood : ∀ state, inv state → good state)
    (hkeep : ∀ state action, inv state → cond state action →
      ∃ next, step state action = .ok next ∧ inv next)
    (hbreak : ∀ state action next, inv state → ¬ cond state action →
      step state action = .ok next → ¬ good next)
    {state : State} {actions : List Action} (hinv : inv state) :
    Stays step good state actions ↔ Along step cond state actions :=
  stays_iff_along_of_legal hgood (fun state action h _ => hkeep state action h)
    (fun state action next h _ => hbreak state action next h) hinv along_true

end Rules

/-- Run a list of actions and collect the output of each step. -/
def trace (step : State → Action → Except Fault (State × Out)) :
    State → List Action → Except Fault (State × List Out)
  | state, [] => .ok (state, [])
  | state, action :: rest =>
      match step state action with
      | .error fault => .error fault
      | .ok (next, out) =>
          match trace step next rest with
          | .error fault => .error fault
          | .ok (last, outs) => .ok (last, out :: outs)

/-- The step function with its output dropped. -/
def quiet (step : State → Action → Except Fault (State × Out)) :
    State → Action → Except Fault State :=
  fun state action => (step state action).map Prod.fst

section Traces

variable {step : State → Action → Except Fault (State × Out)}

theorem quiet_of_ok {state next : State} {action : Action} {out : Out}
    (hstep : step state action = .ok (next, out)) :
    quiet step state action = .ok next := by
  simp [quiet, hstep, Except.map]

theorem trace_cons_of_ok {state next last : State} {action : Action} {out : Out}
    {rest : List Action} {outs : List Out}
    (hstep : step state action = .ok (next, out))
    (hrest : trace step next rest = .ok (last, outs)) :
    trace step state (action :: rest) = .ok (last, out :: outs) := by
  simp [trace, hstep, hrest]

/-- The outputs of an abstract machine that never faults. -/
def specTrace {Spec : Type y} (spec : Spec → Action → Spec × Out) :
    Spec → List Action → Spec × List Out
  | state, [] => (state, [])
  | state, action :: rest =>
      let next := spec state action
      let tail := specTrace spec next.1 rest
      (tail.1, next.2 :: tail.2)

/-- Forward simulation: if every legal step of the machine succeeds, gives the
output of the abstract step and keeps the relation, then every legal run does. -/
theorem trace_simulates {Spec : Type y} {spec : Spec → Action → Spec × Out}
    {rel : State → Spec → Prop} {legal : State → Action → Prop}
    (hsim : ∀ state abstract action, rel state abstract →
      legal state action →
      ∃ next, step state action = .ok (next, (spec abstract action).2) ∧
        rel next (spec abstract action).1)
    {state : State} {abstract : Spec} {actions : List Action}
    (hrel : rel state abstract)
    (hlegal : Along (quiet step) legal state actions) :
    ∃ last, trace step state actions =
        .ok (last, (specTrace spec abstract actions).2) ∧
      rel last (specTrace spec abstract actions).1 := by
  induction actions generalizing state abstract with
  | nil => exact ⟨state, rfl, hrel⟩
  | cons action rest ih =>
      obtain ⟨next, hstep, hnext⟩ := hsim _ _ _ hrel hlegal.1
      obtain ⟨last, hrun, hlast⟩ :=
        ih hnext (hlegal.2 next (quiet_of_ok hstep))
      exact ⟨last, trace_cons_of_ok hstep hrun, hlast⟩

end Traces

end Foundation
