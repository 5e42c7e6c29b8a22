/-
The two directions of `ServantHelperManager`'s bindings of adapters to servants over any
calls, and the check of `addServant` that reads one of them.
-/
import Tarsx.Foundation.PartialInverse
import Tarsx.ServantManager

namespace Tarsx

open Foundation

universe u

variable {Func : Type u}

/-- A call of `ServantHelperManager` that changes it. -/
inductive RegistrationCall (Func : Type u) where
  | setAdapterServant (adapter servant : String)
  | addServant (name : String) (func : Func) (check : Bool)

/-- A call `addServant(name, func, true)`: the manager before it, what it did, and the
manager after it, as the caller that catches the exception finds it. -/
structure CheckedAdd (Func : Type u) where
  name : String
  func : Func
  before : ServantHelperManager Func
  result : Except String (ServantHelperManager Func)
  after : ServantHelperManager Func

/-- The manager, and the checked registrations so far. -/
structure Registrations (Func : Type u) where
  manager : ServantHelperManager Func := {}
  checked : List (CheckedAdd Func) := []

/-- One call; an exception leaves the manager as it was. -/
def Registrations.call (r : Registrations Func) :
    RegistrationCall Func → Except Fault (Registrations Func)
  | .setAdapterServant adapter servant =>
      .ok { r with manager := r.manager.setAdapterServant adapter servant }
  | .addServant name func check =>
      let result := r.manager.addServant name func check
      let after := result.toOption.getD r.manager
      .ok { manager := after
            checked := if check then r.checked ++ [⟨name, func, r.manager, result, after⟩]
              else r.checked }

/-- The text of the exception. -/
def notFindAdapter (name : String) : String :=
  "[TARSX]ServantHelperManager::addServant " ++ name ++
    " not find adapter.(maybe not conf in the web) \n"

namespace ServantHelperManager

/-- An adapter is bound to the servant. -/
def Bound (m : ServantHelperManager Func) (servant : String) : Prop :=
  ∃ adapter, m.adapterServant adapter = some servant

/-- `adapterServant_` and `servantAdapter_` are inverse to each other. -/
def Consistent (m : ServantHelperManager Func) : Prop :=
  Inverse m.adapterServant m.servantAdapter

end ServantHelperManager

/-- The check does what its error says: it throws, and registers nothing, exactly when no
adapter is bound to the name. -/
structure CheckedAdd.Right (add : CheckedAdd Func) : Prop where
  throws : ¬ add.before.Bound add.name → add.result = .error (notFindAdapter add.name) ∧
    add.after.servantMap = add.before.servantMap
  registers : add.before.Bound add.name → add.result = .ok add.after ∧
    add.after.servantMap =
      Function.update add.before.servantMap add.name (some (some add.func))

/-- The bindings are inverse and every checked registration so far was right. -/
structure Registrations.Good (r : Registrations Func) : Prop where
  consistent : r.manager.Consistent
  right : ∀ add ∈ r.checked, add.Right

/-- The calls that do no harm: registrations without the check, and bindings that leave no
older entry behind. -/
def Registrations.Harmless (r : Registrations Func) : RegistrationCall Func → Prop
  | .setAdapterServant adapter servant =>
      Unclaimed r.manager.adapterServant r.manager.servantAdapter adapter servant
  | .addServant _ _ check => check = false

section

variable {m : ServantHelperManager Func} {name : String} {func : Func}

theorem addServant_unchecked (m : ServantHelperManager Func) (name : String) (func : Func) :
    m.addServant name func false =
      .ok { m with servantMap := Function.update m.servantMap name (some (some func)) } := by
  rw [ServantHelperManager.addServant, if_neg (by simp)]

theorem addServant_checked_of_some (hbound : (m.servantAdapter name).isSome) :
    m.addServant name func true = .error (notFindAdapter name) := by
  rw [ServantHelperManager.addServant, if_pos ⟨rfl, hbound⟩]
  rfl

theorem addServant_checked_of_none (hfree : ¬ (m.servantAdapter name).isSome) :
    m.addServant name func true =
      .ok { m with servantMap := Function.update m.servantMap name (some (some func)) } := by
  rw [ServantHelperManager.addServant, if_neg (fun h => hfree h.2)]

/-- With consistent bindings the check has the wrong sense for every name. -/
theorem not_right_of_consistent (h : m.Consistent) (after : ServantHelperManager Func) :
    ¬ CheckedAdd.Right ⟨name, func, m, m.addServant name func true, after⟩ := by
  intro hright
  by_cases hbound : (m.servantAdapter name).isSome
  · have hregistered := (hright.registers (h.isSome_iff.mp hbound)).1
    rw [addServant_checked_of_some hbound] at hregistered
    contradiction
  · have hunbound : ¬ m.Bound name := fun hexists => hbound (h.isSome_iff.mpr hexists)
    have hthrown := (hright.throws hunbound).1
    rw [addServant_checked_of_none hbound] at hthrown
    contradiction

end

namespace Registrations

variable {r next : Registrations Func} {action : RegistrationCall Func}

theorem Good.start : Good ({} : Registrations Func) :=
  ⟨Inverse.empty, fun _ h => absurd h List.not_mem_nil⟩

theorem Good.call_of_harmless (h : r.Good) (hcall : r.Harmless action) :
    ∃ next, r.call action = .ok next ∧ next.Good := by
  cases action with
  | setAdapterServant adapter servant =>
      exact ⟨_, rfl, h.consistent.update_iff.mpr hcall, h.right⟩
  | addServant name func check =>
      subst hcall
      refine ⟨_, rfl, ?_, h.right⟩
      rw [addServant_unchecked]
      exact h.consistent

theorem Good.not_good_of_call (h : r.Good) (hcall : ¬ r.Harmless action)
    (hnext : r.call action = .ok next) : ¬ next.Good := by
  intro hgood
  cases action with
  | setAdapterServant adapter servant =>
      cases hnext
      exact hcall (h.consistent.update_iff.mp hgood.consistent)
  | addServant name func check =>
      cases check with
      | false => exact hcall rfl
      | true =>
          cases hnext
          exact not_right_of_consistent h.consistent _
            (hgood.right _ (List.mem_append_right _ List.mem_cons_self))

/-- Over any calls the bindings stay inverse and the check does what its error says exactly
when no call uses the check and no binding conflicts with one that is there. -/
theorem good_iff_harmless (calls : List (RegistrationCall Func)) :
    Stays call Good {} calls ↔ Along call Harmless {} calls :=
  stays_iff_along (fun _ h => h) (fun _ _ h => h.call_of_harmless)
    (fun _ _ _ h => h.not_good_of_call) Good.start

/-- The registration of a servant without an adapter passes, that of a servant with one
throws, and a second adapter for a servant leaves a stale entry. -/
theorem not_good_of_calls :
    ¬ Stays call Good {} [.addServant "Hello" Servant.hello true] ∧
    ¬ Stays call Good {} [.setAdapterServant "HelloAdapter" "Hello",
        .addServant "Hello" Servant.hello true] ∧
    ¬ Stays call Good ({} : Registrations Servant) [.setAdapterServant "First" "Hello",
        .setAdapterServant "Second" "Hello"] := by
  refine ⟨?_, ?_, ?_⟩
  · rintro ⟨hgood, next, hnext, hlast⟩
    exact hgood.not_good_of_call Bool.noConfusion hnext hlast
  · rintro ⟨-, bound, -, hgood, next, hnext, hlast⟩
    exact hgood.not_good_of_call Bool.noConfusion hnext hlast
  · rintro ⟨-, bound, hbound, hgood, next, hnext, hlast⟩
    refine hgood.not_good_of_call ?_ hnext hlast
    cases hbound
    intro hfree
    exact absurd (hfree.2 "First" rfl) (by decide)

end Registrations

end Tarsx
