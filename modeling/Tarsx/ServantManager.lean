/-
How a server starts: the registrations of `Application`, the groups of handlers it makes,
and the dispatch function that each handler finds for its adapters.
-/
import Mathlib.Logic.Function.Basic
import Tarsx.Dispatch
import Tarsx.Foundation.Run

namespace Tarsx

open Foundation

universe u

/-- The fields of `ServantHelperManager`.  A function of `servantMap_` may be empty. -/
structure ServantHelperManager (Func : Type u) where
  servantMap : String → Option (Option Func) := fun _ => none
  adapterServant : String → Option String := fun _ => none
  servantAdapter : String → Option String := fun _ => none

namespace ServantHelperManager

variable {Func : Type u}

/-- `addServant`; the text is that of the exception. -/
def addServant (m : ServantHelperManager Func) (name : String) (func : Func) (check : Bool) :
    Except String (ServantHelperManager Func) :=
  if check = true ∧ (m.servantAdapter name).isSome then
    .error ("[TARSX]ServantHelperManager::addServant " ++ name ++
      " not find adapter.(maybe not conf in the web) \n")
  else .ok { m with servantMap := Function.update m.servantMap name (some (some func)) }

/-- `set_adapter_servant`. -/
def setAdapterServant (m : ServantHelperManager Func) (adapter servant : String) :
    ServantHelperManager Func :=
  { m with
    adapterServant := Function.update m.adapterServant adapter (some servant)
    servantAdapter := Function.update m.servantAdapter servant (some adapter) }

/-- `get_funcByName`: an absent name gets an empty function. -/
def getFuncByName (m : ServantHelperManager Func) (name : String) :
    Option Func × ServantHelperManager Func :=
  match m.servantMap name with
  | some func => (func, m)
  | none => (none, { m with servantMap := Function.update m.servantMap name (some none) })

end ServantHelperManager

/-- The names of `ServerConfig`. -/
structure ServerConfig where
  adapterName : String
  servantName : String
  adapterName1 : String := ""
  servantName1 : String := ""
deriving DecidableEq, Repr

/-- `handleGroups_`: the adapters of each group, by name. -/
abbrev HandleGroups := List (String × List String)

/-- `set_handleGroup`. -/
def setHandleGroup : HandleGroups → String → String → HandleGroups
  | [], group, adapter => [(group, [adapter])]
  | (name, adapters) :: rest, group, adapter =>
      if name = group then (name, adapters.insert adapter) :: rest
      else (name, adapters) :: setHandleGroup rest group adapter

namespace Application

variable {Func : Type u}

/-- The registrations of `initializeServer`. -/
def initializeServer (adminServant : Func) (m : ServantHelperManager Func)
    (groups : HandleGroups) :
    Except String (ServantHelperManager Func × HandleGroups) := do
  let m ← m.addServant "AdminObj" adminServant false
  let m := m.setAdapterServant "AdminAdapter" "AdminObj"
  .ok (m, setHandleGroup groups "AdminAdapter" "AdminAdapter")

/-- `bindAdapter`: the bindings and the names of the adapters made. -/
def bindAdapter (config : ServerConfig) (m : ServantHelperManager Func) :
    ServantHelperManager Func × List String :=
  let m := m.setAdapterServant config.adapterName config.servantName
  if config.servantName1 ≠ "" then
    (m.setAdapterServant config.adapterName1 config.servantName1,
      [config.adapterName, config.adapterName1])
  else (m, [config.adapterName])

/-- The `addServant` calls of the application. -/
def addServants : ServantHelperManager Func → List (String × Func) →
    Except String (ServantHelperManager Func)
  | m, [] => .ok m
  | m, (name, func) :: rest => do
      let m ← m.addServant name func true
      addServants m rest

/-- `extra_main` up to `startHandle`; `set_handle` puts an adapter into the group of its
name. -/
def extraMain (adminServant : Func) (config : ServerConfig) (servants : List (String × Func)) :
    Except String (ServantHelperManager Func × HandleGroups) := do
  let (m, groups) ← initializeServer adminServant {} []
  let (m, adapters) := bindAdapter config m
  let m ← addServants m servants
  .ok (m, adapters.foldl (fun groups adapter => setHandleGroup groups adapter adapter) groups)

end Application

/-- `servants_` of a handler. -/
abbrev Servants (Func : Type u) := String → Option (Option Func)

section

variable {Func : Type u}

/-- The loop of `ServantHandle::init` over the adapters of the group. -/
def initLoop : List String → Servants Func → ServantHelperManager Func →
    Servants Func × ServantHelperManager Func
  | [], servants, m => (servants, m)
  | name :: rest, servants, m =>
      let (servantFunc, m) := m.getFuncByName name
      initLoop rest (Function.update servants name (some servantFunc)) m

/-- `startHandle`, with the `init` of one handler of each group. -/
def startHandle : HandleGroups → ServantHelperManager Func → List (Servants Func)
  | [], _ => []
  | (_, adapters) :: rest, m =>
      let (servants, m) := initLoop adapters (fun _ => none) m
      servants :: startHandle rest m

end

/-! ## What the registrations leave -/

/-- The value of the last entry with a name, as repeated assignment leaves it. -/
def lastEntry {Value : Type u} : List (String × Value) → String → Option Value
  | [], _ => none
  | (key, value) :: rest, name =>
      (lastEntry rest name).or (if name = key then some value else none)

/-- The calls of `set_adapter_servant`, in order. -/
def ServerConfig.bindings (config : ServerConfig) : List (String × String) :=
  ("AdminAdapter", "AdminObj") :: (config.adapterName, config.servantName) ::
    if config.servantName1 ≠ "" then [(config.adapterName1, config.servantName1)] else []

variable {Func : Type u}

theorem addServant_check_ok {m m' : ServantHelperManager Func} {name : String} {func : Func}
    (h : m.addServant name func true = .ok m') :
    m.servantAdapter name = none ∧
      m' = { m with servantMap := Function.update m.servantMap name (some (some func)) } := by
  rw [ServantHelperManager.addServant] at h
  split at h
  · cases h
  · rename_i hbound
    cases h
    exact ⟨by simpa using hbound, rfl⟩

/-- Only names that no adapter is bound to pass the check. -/
theorem addServants_ok (servants : List (String × Func)) {m m' : ServantHelperManager Func}
    (h : Application.addServants m servants = .ok m') :
    (∀ entry ∈ servants, m.servantAdapter entry.1 = none) ∧
      m'.adapterServant = m.adapterServant ∧
      ∀ name, m'.servantMap name =
        ((lastEntry servants name).map some).or (m.servantMap name) := by
  induction servants generalizing m with
  | nil =>
      cases h
      simp [lastEntry]
  | cons entry rest ih =>
      obtain ⟨name, func⟩ := entry
      obtain ⟨added, hadd, hrest⟩ := ok_of_bind_ok h
      obtain ⟨hnone, rfl⟩ := addServant_check_ok hadd
      obtain ⟨hfree, hadapter, hmap⟩ := ih hrest
      refine ⟨?_, hadapter, ?_⟩
      · intro entry hentry
        rcases List.mem_cons.mp hentry with rfl | hentry
        · exact hnone
        · exact hfree entry hentry
      · intro key
        rw [hmap key]
        by_cases hkey : key = name
        · subst hkey
          cases hlast : lastEntry rest key <;> simp [lastEntry, hlast]
        · simp [lastEntry, hkey]

section

variable (config : ServerConfig) (m : ServantHelperManager Func)

theorem bindAdapter_servantMap :
    (Application.bindAdapter config m).1.servantMap = m.servantMap := by
  simp only [Application.bindAdapter]
  split <;> rfl

theorem bindAdapter_adapterServant (adapter : String) :
    (Application.bindAdapter config m).1.adapterServant adapter =
      (lastEntry config.bindings.tail adapter).or (m.adapterServant adapter) := by
  by_cases hempty : config.servantName1 = ""
  · by_cases hfirst : adapter = config.adapterName <;>
      simp [Application.bindAdapter, ServerConfig.bindings, lastEntry, hempty, hfirst,
        ServantHelperManager.setAdapterServant]
  · by_cases hsecond : adapter = config.adapterName1 <;>
      by_cases hfirst : adapter = config.adapterName <;>
      simp_all [Application.bindAdapter, ServerConfig.bindings, lastEntry,
        ServantHelperManager.setAdapterServant]

theorem bindAdapter_servantAdapter (servant : String) :
    ((Application.bindAdapter config m).1.servantAdapter servant).isSome ↔
      (m.servantAdapter servant).isSome ∨ servant ∈ config.bindings.tail.map Prod.snd := by
  by_cases hempty : config.servantName1 = ""
  · by_cases hfirst : servant = config.servantName <;>
      simp [Application.bindAdapter, ServerConfig.bindings, hempty, hfirst,
        ServantHelperManager.setAdapterServant]
  · by_cases hsecond : servant = config.servantName1 <;>
      by_cases hfirst : servant = config.servantName <;>
      simp_all [Application.bindAdapter, ServerConfig.bindings,
        ServantHelperManager.setAdapterServant]

theorem bindAdapter_adapters :
    (Application.bindAdapter config m).2 = config.bindings.tail.map Prod.fst := by
  by_cases hempty : config.servantName1 = "" <;>
    simp [Application.bindAdapter, ServerConfig.bindings, hempty]

end

theorem exists_of_lastEntry {Value : Type u} {entries : List (String × Value)} {name : String}
    {value : Value} (h : lastEntry entries name = some value) : (name, value) ∈ entries := by
  induction entries with
  | nil => cases h
  | cons entry rest ih =>
      obtain ⟨key, first⟩ := entry
      cases hrest : lastEntry rest name with
      | some found =>
          rw [lastEntry, hrest, Option.some_or] at h
          exact List.mem_cons_of_mem _ (ih (hrest.trans h))
      | none =>
          rw [lastEntry, hrest, Option.none_or] at h
          split at h
          · rename_i hname
            cases h
            rw [hname]
            exact List.mem_cons_self
          · cases h

/-- What the manager holds when the handlers start. -/
structure Started (adminServant : Func) (config : ServerConfig)
    (servants : List (String × Func)) (m : ServantHelperManager Func)
    (groups : HandleGroups) : Prop where
  bound : ∀ adapter, m.adapterServant adapter = lastEntry config.bindings adapter
  registered : ∀ name, m.servantMap name =
    (lastEntry (("AdminObj", adminServant) :: servants) name).map some
  free : ∀ entry ∈ servants, entry.1 ∉ config.bindings.map Prod.snd
  grouped : ∀ adapter ∈ config.bindings.map Prod.fst, ∃ group ∈ groups, adapter ∈ group.2

theorem mem_setHandleGroup (groups : HandleGroups) (name adapter : String) :
    ∃ group ∈ setHandleGroup groups name adapter, adapter ∈ group.2 := by
  induction groups with
  | nil => exact ⟨(name, [adapter]), by simp [setHandleGroup]⟩
  | cons group rest ih =>
      obtain ⟨key, adapters⟩ := group
      by_cases hkey : key = name
      · exact ⟨(key, adapters.insert adapter), by simp [setHandleGroup, hkey]⟩
      · obtain ⟨found, hfound, hmem⟩ := ih
        exact ⟨found, by simp [setHandleGroup, hkey, hfound], hmem⟩

theorem setHandleGroup_keeps {groups : HandleGroups} {kept : String}
    (h : ∃ group ∈ groups, kept ∈ group.2) (name adapter : String) :
    ∃ group ∈ setHandleGroup groups name adapter, kept ∈ group.2 := by
  induction groups with
  | nil => simp at h
  | cons group rest ih =>
      obtain ⟨key, adapters⟩ := group
      obtain ⟨found, hfound, hmem⟩ := h
      by_cases hkey : key = name
      · rcases List.mem_cons.mp hfound with rfl | hfound
        · exact ⟨(key, adapters.insert adapter), by simp [setHandleGroup, hkey],
            List.mem_insert_of_mem hmem⟩
        · exact ⟨found, by simp [setHandleGroup, hkey, hfound], hmem⟩
      · rcases List.mem_cons.mp hfound with rfl | hfound
        · exact ⟨(key, adapters), by simp [setHandleGroup, hkey], hmem⟩
        · obtain ⟨later, hlater, hkept⟩ := ih ⟨found, hfound, hmem⟩
          exact ⟨later, by simp [setHandleGroup, hkey, hlater], hkept⟩

theorem grouped_foldl (adapters : List String) {groups : HandleGroups} {adapter : String}
    (h : (∃ group ∈ groups, adapter ∈ group.2) ∨ adapter ∈ adapters) :
    ∃ group ∈ adapters.foldl (fun groups name => setHandleGroup groups name name) groups,
      adapter ∈ group.2 := by
  induction adapters generalizing groups with
  | nil => simpa using h
  | cons name rest ih =>
      apply ih
      rcases h with hgroups | hname
      · exact .inl (setHandleGroup_keeps hgroups name name)
      · rcases List.mem_cons.mp hname with rfl | hrest
        · exact .inl (mem_setHandleGroup groups adapter adapter)
        · exact .inr hrest

theorem extraMain_started {adminServant : Func} {config : ServerConfig}
    {servants : List (String × Func)} {m : ServantHelperManager Func} {groups : HandleGroups}
    (hstart : Application.extraMain adminServant config servants = .ok (m, groups)) :
    Started adminServant config servants m groups := by
  unfold Application.extraMain at hstart
  change (Application.initializeServer adminServant {} []).bind _ = _ at hstart
  obtain ⟨⟨server, serverGroups⟩, hserver, hrest⟩ := ok_of_bind_ok hstart
  change (Application.addServants (Application.bindAdapter config server).1 servants).bind
    (fun m => .ok (m, (Application.bindAdapter config server).2.foldl
      (fun groups adapter => setHandleGroup groups adapter adapter) serverGroups)) = _ at hrest
  obtain ⟨added, hadd, hdone⟩ := ok_of_bind_ok hrest
  obtain ⟨rfl, rfl⟩ := Prod.mk.inj (Except.ok.inj hdone)
  cases hserver
  obtain ⟨hfree, hadapter, hmap⟩ := addServants_ok servants hadd
  refine ⟨?_, ?_, ?_, ?_⟩
  · intro adapter
    rw [hadapter, bindAdapter_adapterServant]
    by_cases hadmin : adapter = "AdminAdapter" <;>
      simp [ServantHelperManager.setAdapterServant, ServerConfig.bindings, lastEntry, hadmin]
  · intro name
    rw [hmap name, bindAdapter_servantMap]
    rcases eq_or_ne name "AdminObj" with rfl | hadmin
    · cases hlast : lastEntry servants "AdminObj" <;>
        simp [ServantHelperManager.setAdapterServant, lastEntry, hlast]
    · simp [ServantHelperManager.setAdapterServant, lastEntry, hadmin]
  · intro entry hentry hmem
    have hnone := hfree entry hentry
    refine Option.isSome_iff_ne_none.mp ((bindAdapter_servantAdapter config _ entry.1).mpr ?_) hnone
    rcases List.mem_cons.mp hmem with hadmin | htail
    · exact .inl (by simp [ServantHelperManager.setAdapterServant, hadmin])
    · exact .inr htail
  · intro adapter hmem
    apply grouped_foldl
    rw [bindAdapter_adapters]
    rcases List.mem_cons.mp hmem with rfl | htail
    · exact .inl (mem_setHandleGroup [] "AdminAdapter" "AdminAdapter")
    · exact .inr htail

/-! ## What the handlers find -/

theorem getFuncByName_fst (m : ServantHelperManager Func) (name : String) :
    (m.getFuncByName name).1 = (m.servantMap name).join := by
  cases hname : m.servantMap name <;> simp [ServantHelperManager.getFuncByName, hname]

/-- The entry that a lookup adds is the empty function, which an absent name stands for. -/
theorem getFuncByName_join (m : ServantHelperManager Func) (name key : String) :
    ((m.getFuncByName name).2.servantMap key).join = (m.servantMap key).join := by
  cases hname : m.servantMap name with
  | some func => simp [ServantHelperManager.getFuncByName, hname]
  | none =>
      by_cases hkey : key = name
      · subst hkey
        simp [ServantHelperManager.getFuncByName, hname]
      · simp [ServantHelperManager.getFuncByName, hname, hkey]

theorem initLoop_spec (adapters : List String) (servants : Servants Func)
    (m : ServantHelperManager Func) :
    (∀ name, (initLoop adapters servants m).1 name =
      if name ∈ adapters then some (m.servantMap name).join else servants name) ∧
      ∀ name, ((initLoop adapters servants m).2.servantMap name).join =
        (m.servantMap name).join := by
  induction adapters generalizing servants m with
  | nil => simp [initLoop]
  | cons adapter rest ih =>
      obtain ⟨hservants, hmap⟩ := ih
        (Function.update servants adapter (some (m.getFuncByName adapter).1))
        (m.getFuncByName adapter).2
      constructor
      · intro name
        rw [initLoop, hservants, getFuncByName_join, getFuncByName_fst]
        by_cases hrest : name ∈ rest
        · simp [hrest]
        · by_cases hname : name = adapter
          · simp [hname]
          · simp [hrest, hname]
      · intro name
        rw [initLoop, hmap, getFuncByName_join]

/-- Each handler looks its adapters up under their own names. -/
theorem mem_startHandle (groups : HandleGroups) (m : ServantHelperManager Func)
    (servants : Servants Func) :
    servants ∈ startHandle groups m ↔
      ∃ group ∈ groups, servants = fun name =>
        if name ∈ group.2 then some (m.servantMap name).join else none := by
  induction groups generalizing m with
  | nil => simp [startHandle]
  | cons group rest ih =>
      obtain ⟨name, adapters⟩ := group
      obtain ⟨hservants, hmap⟩ := initLoop_spec adapters (fun _ => none) m
      have hfirst : (initLoop adapters (fun _ => none) m).1 = fun name =>
          if name ∈ adapters then some (m.servantMap name).join else none :=
        funext hservants
      simp only [startHandle, List.mem_cons, ih, hmap, hfirst, exists_eq_or_imp]

/-- Every adapter bound to a registered servant is served, and by the function registered
for that servant. -/
def Dispatches (m : ServantHelperManager Func) (handlers : List (Servants Func)) : Prop :=
  ∀ adapter servant func, m.adapterServant adapter = some servant →
    m.servantMap servant = some (some func) →
    (∃ servants ∈ handlers, (servants adapter).isSome) ∧
      ∀ servants ∈ handlers, ∀ found, servants adapter = some found → found = some func

section

variable {adminServant : Func} {config : ServerConfig} {servants : List (String × Func)}
  {m : ServantHelperManager Func} {groups : HandleGroups}

/-- The check of `addServant` leaves one servant that is both bound and registered. -/
theorem Started.only_adminObj (h : Started adminServant config servants m groups)
    {adapter servant : String} {func : Func} (hbound : m.adapterServant adapter = some servant)
    (hfunc : m.servantMap servant = some (some func)) :
    servant = "AdminObj" ∧ func = adminServant := by
  rw [h.bound] at hbound
  have hservant : servant ∈ config.bindings.map Prod.snd :=
    List.mem_map_of_mem (exists_of_lastEntry hbound)
  rw [h.registered] at hfunc
  have hfunc : lastEntry (("AdminObj", adminServant) :: servants) servant = some func := by
    simpa using hfunc
  rcases List.mem_cons.mp (exists_of_lastEntry hfunc) with hadmin | hentry
  · exact ⟨congrArg Prod.fst hadmin, congrArg Prod.snd hadmin⟩
  · exact absurd hservant (h.free _ hentry)

theorem Started.adminObj_registered (h : Started adminServant config servants m groups) :
    m.servantMap "AdminObj" = some (some adminServant) := by
  rw [h.registered]
  cases hlast : lastEntry servants "AdminObj" with
  | none => simp [lastEntry, hlast]
  | some func =>
      have hfree := h.free _ (exists_of_lastEntry hlast)
      exact absurd (by simp [ServerConfig.bindings]) hfree

/-- A bound adapter is in a group, whose handler finds what is registered for its name. -/
theorem Started.served (h : Started adminServant config servants m groups) {adapter : String}
    (hbound : adapter ∈ config.bindings.map Prod.fst) :
    ∃ found ∈ startHandle groups m, found adapter = some (m.servantMap adapter).join := by
  obtain ⟨group, hgroup, hmem⟩ := h.grouped adapter hbound
  exact ⟨_, (mem_startHandle groups m _).mpr ⟨group, hgroup, rfl⟩, by simp [hmem]⟩

/-- The handlers dispatch every adapter as it is bound exactly when each adapter left bound
to `AdminObj` is also a name that `AdminServant` is registered under. -/
theorem dispatches_iff
    (hstart : Application.extraMain adminServant config servants = .ok (m, groups)) :
    Dispatches m (startHandle groups m) ↔
      ∀ adapter, lastEntry config.bindings adapter = some "AdminObj" →
        lastEntry (("AdminObj", adminServant) :: servants) adapter = some adminServant := by
  have h := extraMain_started hstart
  constructor
  · intro hdispatch adapter hadapter
    have hbound : m.adapterServant adapter = some "AdminObj" := by rw [h.bound, hadapter]
    obtain ⟨-, hfound⟩ := hdispatch adapter "AdminObj" adminServant hbound h.adminObj_registered
    obtain ⟨found, hmem, heq⟩ :=
      h.served (List.mem_map_of_mem (exists_of_lastEntry hadapter))
    have hjoin := hfound found hmem _ heq
    rw [h.registered] at hjoin
    simpa [Option.join_eq_some_iff] using hjoin
  · intro hnames adapter servant func hbound hfunc
    obtain ⟨rfl, rfl⟩ := h.only_adminObj hbound hfunc
    rw [h.bound] at hbound
    have hadapter := hnames adapter hbound
    have hjoin : (m.servantMap adapter).join = some func := by simp [h.registered, hadapter]
    constructor
    · obtain ⟨found, hmem, heq⟩ :=
        h.served (List.mem_map_of_mem (exists_of_lastEntry hbound))
      exact ⟨found, hmem, by rw [heq]; rfl⟩
    · intro servants hservants found heq
      obtain ⟨group, -, rfl⟩ := (mem_startHandle groups m servants).mp hservants
      simp only [ite_eq_iff, Option.some.injEq, reduceCtorEq, and_false, or_false] at heq
      rw [← heq.2, hjoin]

end

/-- The names in `HelloServer.cc`. -/
def helloServer : ServerConfig where
  adapterName := "HelloAdapter"
  servantName := "Hello"

theorem dispatches_of_admin_named : ∃ m groups,
    Application.extraMain .admin helloServer
        [("HelloAdapter", Servant.hello), ("AdminAdapter", .admin)] = .ok (m, groups) ∧
      Dispatches m (startHandle groups m) := by
  obtain ⟨m, groups, hstart⟩ : ∃ m groups, Application.extraMain .admin helloServer
      [("HelloAdapter", Servant.hello), ("AdminAdapter", .admin)] = .ok (m, groups) :=
    ⟨_, _, rfl⟩
  refine ⟨m, groups, hstart, (dispatches_iff hstart).mpr ?_⟩
  intro adapter hadapter
  rcases eq_or_ne adapter "AdminAdapter" with rfl | hname
  · rfl
  · simp [ServerConfig.bindings, helloServer, lastEntry, hname] at hadapter

/-- `HelloServer` as it is: the handler of `AdminAdapter` gets an empty function. -/
theorem admin_not_dispatched : ∃ m groups,
    Application.extraMain .admin helloServer [("HelloAdapter", Servant.hello)] =
        .ok (m, groups) ∧
      ¬ Dispatches m (startHandle groups m) := by
  refine ⟨_, _, rfl, ?_⟩
  intro hdispatch
  obtain ⟨-, hfound⟩ := hdispatch "AdminAdapter" "AdminObj" .admin rfl rfl
  have hempty := hfound _ List.mem_cons_self none rfl
  cases hempty

end Tarsx
