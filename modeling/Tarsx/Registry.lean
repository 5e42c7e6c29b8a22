/-
The registry over any order of calls: the addresses it holds against those that were
added and not deleted since.
-/
import Mathlib.Data.Set.Insert
import Mathlib.Logic.Function.Basic
import Tarsx.Foundation.Run
import Tarsx.Servants

namespace Tarsx

open Foundation

namespace Registry

/-- `delServantAddress`: the address is looked for in a copy, and `erase` gets `end()` when
it is not there. -/
def delServantAddress (registry : Registry) (name ip : List UInt8) (port : Int) :
    Except Fault Registry :=
  let (servantSet, registry) := registry.index name
  if (ip, port) ∈ servantSet then
    let _erased := servantSet.erase (ip, port)
    .ok registry
  else .error .danglingIterator

inductive RegistryCall where
  | add (name ip : List UInt8) (port : Int)
  | del (name ip : List UInt8) (port : Int)
deriving DecidableEq, Repr

def registryStep (registry : Registry) : RegistryCall → Except Fault Registry
  | .add name ip port => .ok (registry.addServantAddress name ip port)
  | .del name ip port => registry.delServantAddress name ip port

/-- What `allServants_` holds for a name. -/
def addresses (registry : Registry) (name : List UInt8) : List (List UInt8 × Int) :=
  (registry.allServants.lookup name).getD []

/-! ### What the registry is for -/

/-- A set of addresses for each name. -/
abbrev AddressBook := List UInt8 → Set (List UInt8 × Int)

def AddressBook.apply (book : AddressBook) : RegistryCall → AddressBook
  | .add name ip port => Function.update book name (insert (ip, port) (book name))
  | .del name ip port => Function.update book name (book name \ {(ip, port)})

/-- The addresses added and not deleted since, for each name. -/
def registered (calls : List RegistryCall) : AddressBook :=
  calls.foldl AddressBook.apply fun _ => ∅

/-- The registry holds the addresses of the book. -/
def Represents (registry : Registry) (book : AddressBook) : Prop :=
  ∀ name, {address | address ∈ registry.addresses name} = book name

/-! ### Copies are changed, the registry is not -/

/-- No name has an address. -/
def Vacant (registry : Registry) : Prop := ∀ name, registry.addresses name = []

theorem index_fst (registry : Registry) (name : List UInt8) :
    (registry.index name).1 = registry.addresses name := by
  rw [index, addresses]
  cases registry.allServants.lookup name <;> rfl

/-- `allServants_[name]` may add a name, and no address. -/
theorem addresses_index (registry : Registry) (name other : List UInt8) :
    (registry.index name).2.addresses other = registry.addresses other := by
  rw [index]
  cases hlookup : registry.allServants.lookup name with
  | some found => rfl
  | none =>
      by_cases hsame : other = name
      · subst hsame
        simp [addresses, hlookup]
      · have hne : (other == name) = false := by simpa using hsame
        simp [addresses, List.lookup_cons, hne]

theorem addresses_addServantAddress (registry : Registry) (name ip : List UInt8) (port : Int)
    (other : List UInt8) :
    (registry.addServantAddress name ip port).addresses other = registry.addresses other :=
  registry.addresses_index name other

/-- In a vacant registry no address is found. -/
theorem Vacant.delServantAddress {registry : Registry} (h : registry.Vacant)
    (name ip : List UInt8) (port : Int) :
    registry.delServantAddress name ip port = .error .danglingIterator := by
  have hnone : (registry.index name).1 = [] := (registry.index_fst name).trans (h name)
  simp only [Registry.delServantAddress, hnone, List.not_mem_nil, if_false]

/-- The call leaves the registry vacant, and is no deletion. -/
theorem Vacant.step {registry next : Registry} (h : registry.Vacant) {call : RegistryCall}
    (hstep : registryStep registry call = .ok next) :
    next.Vacant ∧ ∃ name ip port, call = .add name ip port := by
  cases call with
  | add name ip port =>
      rw [registryStep, Except.ok.injEq] at hstep
      subst hstep
      refine ⟨fun other => ?_, name, ip, port, rfl⟩
      rw [addresses_addServantAddress, h other]
  | del name ip port =>
      rw [registryStep, h.delServantAddress] at hstep
      contradiction

theorem Vacant.run (calls : List RegistryCall) :
    ∀ {registry last : Registry}, registry.Vacant →
      run registryStep registry calls = .ok last →
      last.Vacant ∧ ∀ call ∈ calls, ∃ name ip port, call = .add name ip port := by
  induction calls with
  | nil =>
      intro registry last h hrun
      rw [run_nil, Except.ok.injEq] at hrun
      exact ⟨hrun ▸ h, by simp⟩
  | cons call rest ih =>
      intro registry last h hrun
      cases hstep : registryStep registry call with
      | error fault => simp [Foundation.run, hstep] at hrun
      | ok next =>
          obtain ⟨hnext, hadd⟩ := h.step hstep
          rw [run_cons_of_ok hstep] at hrun
          obtain ⟨hlast, hrest⟩ := ih hnext hrun
          exact ⟨hlast, List.forall_mem_cons.mpr ⟨hadd, hrest⟩⟩

/-! ### Against the address book -/

/-- Without a deletion an address that was added stays. -/
theorem mem_foldl_apply {calls : List RegistryCall}
    (hadds : ∀ call ∈ calls, ∃ name ip port, call = .add name ip port)
    {name : List UInt8} {address : List UInt8 × Int} :
    ∀ {book : AddressBook}, address ∈ book name →
      address ∈ calls.foldl AddressBook.apply book name := by
  induction calls with
  | nil => exact id
  | cons call rest ih =>
      intro book hmem
      obtain ⟨⟨other, ip, port, rfl⟩, hrest⟩ := List.forall_mem_cons.mp hadds
      refine ih hrest ?_
      by_cases hsame : name = other
      · subst hsame
        rw [AddressBook.apply, Function.update_self]
        exact Set.mem_insert_of_mem _ hmem
      · rw [AddressBook.apply, Function.update_of_ne hsame]
        exact hmem

/-- From the empty registry a sequence of calls succeeds and leaves the addresses added and
not deleted since exactly when it is empty. -/
theorem represents_registered_iff (calls : List RegistryCall) :
    (∃ registry, Foundation.run registryStep {} calls = .ok registry ∧
      registry.Represents (registered calls)) ↔ calls = [] := by
  have hempty : Vacant {} := fun _ => rfl
  constructor
  · rintro ⟨registry, hrun, hrepresents⟩
    obtain ⟨hvacant, hadds⟩ := Vacant.run calls hempty hrun
    cases calls with
    | nil => rfl
    | cons call rest =>
        obtain ⟨⟨name, ip, port, rfl⟩, hrest⟩ := List.forall_mem_cons.mp hadds
        have hmem : (ip, port) ∈ registered (.add name ip port :: rest) name := by
          refine mem_foldl_apply hrest ?_
          rw [AddressBook.apply, Function.update_self]
          exact Set.mem_insert _ _
        rw [← hrepresents name, Set.mem_ofPred_eq, hvacant name] at hmem
        contradiction
  · rintro rfl
    refine ⟨{}, rfl, fun name => ?_⟩
    exact Set.eq_empty_of_forall_notMem fun _ hmem => by contradiction

/-- An address is added and is not there, and its deletion is given `end()`. -/
theorem added_address_missing :
    (∃ registry, Foundation.run registryStep {} [.add [97] [49] 80] = .ok registry ∧
      ([49], 80) ∈ registered [.add [97] [49] 80] [97] ∧
      ¬ registry.Represents (registered [.add [97] [49] 80])) ∧
    Foundation.run registryStep {} [.add [97] [49] 80, .del [97] [49] 80] =
      .error .danglingIterator ∧
    Foundation.run registryStep {} [.del [97] [49] 80] = .error .danglingIterator := by
  have hmem : ([49], 80) ∈ registered [.add [97] [49] 80] [97] := by
    rw [registered, List.foldl_cons, List.foldl_nil, AddressBook.apply, Function.update_self]
    exact Set.mem_insert _ _
  refine ⟨⟨_, rfl, hmem, fun hrepresents => ?_⟩, rfl, rfl⟩
  rw [← hrepresents [97]] at hmem
  exact absurd hmem (by decide)

end Registry

end Tarsx
