/-
The switches that the scheduler makes, in every run of `tars_run` and `run`: each goes to a
context that a party was saved in, never to that of a coroutine that runs or is done.
-/
import Tarsx.Foundation.Switching
import Tarsx.SchedulerOrder

namespace Tarsx

open Foundation

/-- The contexts of a `CoroutineInfo`: what `ctx_to_` points to, and `ctx_from_`. -/
inductive ContextSlot where
  | ctxTo (coro : CoroutineInfo)
  | ctxFrom (coro : CoroutineInfo)
deriving DecidableEq, Repr

abbrev ContextSwitch := Switch CoroutineInfo ContextSlot

namespace CoroutineInfo

/-- `get_ctx`.  The constructor that the scheduler makes its coroutines with clears `main_`. -/
def get_ctx : CoroutineInfo → ContextSlot
  | .coroutine uid => .ctxTo (.coroutine uid)
  | coro => .ctxFrom coro

theorem get_ctx_injective : Function.Injective get_ctx := by
  intro first second hsame
  cases first <;> cases second <;> simp_all [get_ctx]

/-- `registerFunc`, while a party runs.  The second jump is the one of `corotineEntry`. -/
def registerFunc (coro running : CoroutineInfo) : List ContextSwitch :=
  [.make (.ctxTo coro) coro, .jump (.ctxFrom coro) (.ctxTo coro) coro,
    .jump (.ctxTo coro) (.ctxFrom coro) running]

theorem registerFunc_eq (coro running : CoroutineInfo) :
    registerFunc coro running = Switching.start (.ctxTo coro) (.ctxFrom coro) coro running := rfl

end CoroutineInfo

namespace SchedulerTurns

open CoroutineScheduler CoroutineInfo

/-- Which party runs. -/
def runner (s : SchedulerTurns) : CoroutineInfo :=
  match s.pc, s.scheduler.currentCoro with
  | .runs _ _, some coro => coro
  | _, _ => .main

/-- What `createCoroutine` ends with if it has a coroutine. -/
def createSwitches (s : SchedulerTurns) (allocs : Nat → Bool) : List ContextSwitch :=
  match s.scheduler.createCoroutine allocs with
  | .ok (id, _) => if id = 0 then [] else registerFunc (.coroutine id) s.runner
  | .error _ => []

/-- The switches of a step.  The one behind `corotineProc` is its coroutine's last. -/
def switches (s next : SchedulerTurns) : TurnAction → List ContextSwitch
  | .createCoroutine allocs => if s.pc = .out then s.createSwitches allocs else []
  | .proceed _ =>
      match next.pc, next.scheduler.currentCoro with
      | .runs _ _, some coro =>
          if s.pc = next.pc then [] else [.jump (get_ctx .main) coro.get_ctx coro]
      | _, _ => []
  | .coroutine call =>
      match s.pc, s.scheduler.currentCoro, call with
      | .runs _ _, _, .createCoroutine allocs => s.createSwitches allocs
      | .runs _ _, some coro, .finish => [.leave coro.get_ctx (get_ctx .main) .main]
      | .runs _ _, some coro, _ => [.jump coro.get_ctx (get_ctx .main) .main]
      | _, _, _ => []
  | _ => []

/-- The switches of a run, one behind the other. -/
def switchTrace (s : SchedulerTurns) : List TurnAction → List ContextSwitch
  | [] => []
  | action :: rest =>
      match s.step action with
      | .ok next => s.switches next action ++ next.switchTrace rest
      | .error _ => []

theorem runner_congr {s next : SchedulerTurns} (hpc : next.pc = s.pc)
    (hcurrent : next.scheduler.currentCoro = s.scheduler.currentCoro) :
    next.runner = s.runner := by
  rw [runner, runner, hpc, hcurrent]

theorem createSwitches_of_ok {s : SchedulerTurns} {allocs : Nat → Bool} {id : Nat}
    {next : CoroutineScheduler} (hok : s.scheduler.createCoroutine allocs = .ok (id, next)) :
    s.createSwitches allocs = if id = 0 then [] else registerFunc (.coroutine id) s.runner := by
  rw [createSwitches, hok]

end SchedulerTurns

/-- The scheduler's thread with the places where its parties are saved. -/
structure SwitchedTurns where
  turns : SchedulerTurns
  contexts : Switching CoroutineInfo ContextSlot

namespace SwitchedTurns

open CoroutineScheduler CoroutineInfo

/-- Nobody is saved when the thread starts. -/
def start (turns : SchedulerTurns) : SwitchedTurns where
  turns := turns
  contexts := { running := .main, place := fun _ => none }

def step (s : SwitchedTurns) (action : TurnAction) : Except Fault SwitchedTurns := do
  let next ← s.turns.step action
  .ok { turns := next, contexts := s.contexts.afterAll (s.turns.switches next action) }

end SwitchedTurns

/-! ### Coroutines that were created -/

namespace CoroutineScheduler

/-- A coroutine that was created and is not done. -/
def Busy (s : CoroutineScheduler) (uid : Nat) : Prop :=
  s.Made uid ∧ s.status (.coroutine uid) ≠ .free

/-- A party that runs or will go on. -/
def Alive (s : CoroutineScheduler) : CoroutineInfo → Prop
  | .main => True
  | .coroutine uid => s.Busy uid
  | .head _ => False

theorem alive_congr {s next : CoroutineScheduler} (hbusy : ∀ uid, next.Busy uid ↔ s.Busy uid)
    (party : CoroutineInfo) : next.Alive party ↔ s.Alive party := by
  cases party with
  | coroutine uid => exact hbusy uid
  | main => rfl
  | head list => rfl

section

variable {s next : CoroutineScheduler} {queues queues' : CoroStatus → List Nat} {uid : Nat}

theorem Lists.busy_iff (h : s.Lists queues) :
    s.Busy uid ↔ ∃ list, list ≠ .free ∧ uid ∈ queues list := by
  constructor
  · exact fun hbusy => ⟨_, hbusy.2, h.mem_of_made hbusy.1⟩
  · rintro ⟨list, hlist, huid⟩
    exact ⟨made_of_mem h huid, by rwa [status_of_mem h huid]⟩

/-- A wake-up makes no coroutine busy and none done. -/
theorem MovesFrom.busy_iff
    {move : CoroutineScheduler → CoroutineInfo → Except Fault CoroutineScheduler}
    {waiting : List CoroStatus} {target : CoroStatus} (hmove : MovesFrom move waiting target)
    (hwaiting : .free ∉ waiting) (htarget : target ≠ .free) {coro : CoroutineInfo}
    (hok : move s coro = .ok next) : next.Busy uid ↔ s.Busy uid := by
  rw [hmove] at hok
  split at hok
  · rename_i hwaits
    obtain ⟨deleted, hdel, hok⟩ := ok_of_bind_ok hok
    obtain ⟨links, hadd, hok⟩ := ok_of_bind_ok hok
    obtain rfl := Except.ok.inj hok
    refine and_congr_right fun _ => ?_
    change Function.update s.status coro target (.coroutine uid) ≠ .free ↔ _
    by_cases hcoro : .coroutine uid = coro
    · rw [hcoro, Function.update_self]
      exact iff_of_true htarget fun hfree => hwaiting (hfree ▸ hwaits)
    · rw [Function.update_of_ne hcoro]
  · obtain rfl := Except.ok.inj hok
    exact Iff.rfl

/-- A new coroutine is not busy before. -/
theorem Creates.fresh {id : Nat} (h : Creates s next id queues queues') (hinv : s.Inv queues)
    (hid : id ≠ 0) : ¬ s.Busy id := by
  intro hbusy
  obtain ⟨list, hlist, hold⟩ := hinv.lists.busy_iff.mp hbusy
  have havail := h.avail
  rw [if_neg hid] at havail
  have hnew : id ∈ queues' .avail := by simp [havail]
  by_cases hsame : list = .avail
  · have hnodup := h.inv.lists.rings.nodup .avail
    rw [havail, List.nodup_append] at hnodup
    exact hnodup.2.2 id (hsame ▸ hold) id List.mem_cons_self rfl
  · rw [← h.others list hlist hsame] at hold
    exact hsame (h.inv.lists.rings.disjoint _ _ id hold hnew)

/-- A new coroutine is the only one that becomes busy. -/
theorem Creates.busy_iff {id : Nat} (h : Creates s next id queues queues') (hinv : s.Inv queues) :
    next.Busy uid ↔ uid = id ∧ id ≠ 0 ∨ s.Busy uid := by
  have havail := h.avail
  rw [h.inv.lists.busy_iff, hinv.lists.busy_iff]
  constructor
  · rintro ⟨list, hlist, huid⟩
    by_cases hsame : list = .avail
    · rw [hsame, havail] at huid
      split at huid
      · exact .inr ⟨.avail, hsame ▸ hlist, huid⟩
      · rename_i hid
        rcases List.mem_append.mp huid with hold | hnew
        · exact .inr ⟨.avail, hsame ▸ hlist, hold⟩
        · exact .inl ⟨List.mem_singleton.mp hnew, hid⟩
    · rw [h.others list hlist hsame] at huid
      exact .inr ⟨list, hlist, huid⟩
  · rintro (⟨rfl, hid⟩ | ⟨list, hlist, huid⟩)
    · exact ⟨.avail, by decide, by simp [havail, hid]⟩
    · by_cases hsame : list = .avail
      · refine ⟨.avail, by decide, ?_⟩
        rw [havail]
        split
        · exact hsame ▸ huid
        · exact List.mem_append_left _ (hsame ▸ huid)
      · exact ⟨list, hlist, by rwa [h.others list hlist hsame]⟩

/-- The list that a coroutine goes to when it stops. -/
theorem callOf_target (h : s.Inv queues) (hcurrent : s.currentCoro = some (.coroutine uid))
    {source : CoroStatus} (huid : uid ∈ queues source)
    (hsource : source = .active ∨ source = .avail) {call : CoroutineCall}
    (hcall : ∀ allocs, call ≠ .createCoroutine allocs)
    (hok : (SchedulerThreads.callOf s call).2 = .ok next) :
    ∃ target, next.Inv (moved queues source target uid) ∧ (target = .free ↔ call = .finish) := by
  cases call with
  | createCoroutine allocs => exact absurd rfl (hcall allocs)
  | yield flag =>
      obtain ⟨links, hyield, hinv⟩ := yield_ok h flag hcurrent huid hsource
      obtain rfl := Except.ok.inj (hyield.symm.trans hok)
      exact ⟨_, hinv, by simp⟩
  | sleep sleeptime now =>
      obtain ⟨links, hsleep, hinv⟩ := sleep_ok h sleeptime now hcurrent huid hsource
      obtain rfl := Except.ok.inj (hsleep.symm.trans hok)
      exact ⟨_, hinv, by simp⟩
  | finish =>
      obtain ⟨links, hfinish, hinv⟩ := finish_ok h hcurrent huid hsource
      obtain rfl := Except.ok.inj (hfinish.symm.trans hok)
      exact ⟨_, hinv, by simp⟩

/-- A coroutine that stops is busy unless it is done, and the others are as they were. -/
theorem busy_callOf (h : s.Inv queues) (hcurrent : s.currentCoro = some (.coroutine uid))
    {source : CoroStatus} (huid : uid ∈ queues source)
    (hsource : source = .active ∨ source = .avail) {call : CoroutineCall}
    (hcall : ∀ allocs, call ≠ .createCoroutine allocs)
    (hok : (SchedulerThreads.callOf s call).2 = .ok next) {other : Nat} :
    next.Busy other ↔ if other = uid then call ≠ .finish else s.Busy other := by
  obtain ⟨target, hinv, htarget⟩ := callOf_target h hcurrent huid hsource hcall hok
  rw [hinv.lists.busy_iff, h.lists.busy_iff]
  simp only [h.lists.rings.mem_moved huid]
  split
  · rw [Ne, ← htarget]
    simp
  · rfl

end

end CoroutineScheduler

namespace SchedulerTurns

open CoroutineScheduler CoroutineInfo

/-- A party that will go on and does not run. -/
def Waits (s : SchedulerTurns) (party : CoroutineInfo) : Prop :=
  s.scheduler.Alive party ∧ party ≠ s.runner

/-- The main party runs. -/
def onMain : TurnPc → Bool
  | .runs _ _ => false
  | _ => true

section

variable {s next : SchedulerTurns} {now : Int}

theorem runner_onMain (h : onMain s.pc = true) : s.runner = .main := by
  cases hpc : s.pc with
  | runs list loop =>
      rw [hpc] at h
      contradiction
  | _ => simp only [runner, hpc]

theorem switches_onMain (h : onMain next.pc = true) : s.switches next (.proceed now) = [] := by
  cases hpc : next.pc with
  | runs list loop =>
      rw [hpc] at h
      contradiction
  | _ => simp only [switches, hpc]

/-- The coroutine that runs is done. -/
theorem waits_leave {uid : Nat} (hruns : s.runner = .coroutine uid) (hback : next.runner = .main)
    (hbusy : ∀ other, next.scheduler.Busy other ↔ other ≠ uid ∧ s.scheduler.Busy other)
    (party : CoroutineInfo) : next.Waits party ↔ party ≠ .main ∧ s.Waits party := by
  rw [Waits, Waits, hruns, hback]
  cases party with
  | coroutine other => simp [Alive, hbusy, and_comm]
  | main => simp
  | head list => simp [Alive]

theorem waits_congr (hrunner : next.runner = s.runner)
    (hbusy : ∀ uid, next.scheduler.Busy uid ↔ s.scheduler.Busy uid) (party : CoroutineInfo) :
    next.Waits party ↔ s.Waits party := by
  rw [Waits, Waits, hrunner, alive_congr hbusy]

/-- The party that runs is one that was not done. -/
theorem Ordered.alive_runner {queues : CoroStatus → List Nat} (h : s.Ordered queues) :
    s.scheduler.Alive s.runner := by
  cases hpc : s.pc with
  | runs list loop =>
      have hserves : serves s.pc list = true := by
        rw [hpc]
        exact decide_eq_true rfl
      obtain ⟨uid, rest, hcurrent, hqueue⟩ := h.running list hserves
      rw [runner, hpc, hcurrent]
      have hready : list.status ≠ .free := by cases list <;> decide
      exact h.inv.lists.busy_iff.mpr ⟨list.status, hready, hqueue ▸ List.mem_cons_self⟩
  | _ =>
      simp only [runner, hpc]
      trivial

theorem onMain_behind (s : SchedulerTurns) (list : ReadyList) : onMain (s.behind list) = true := by
  cases list with
  | active => rfl
  | avail =>
      rw [behind]
      split <;> rfl

theorem busy_wake {move : CoroutineScheduler → CoroutineInfo → Except Fault CoroutineScheduler}
    {waiting : List CoroStatus} {target : CoroStatus} (hmove : MovesFrom move waiting target)
    (hwaiting : .free ∉ waiting) (htarget : target ≠ .free) {id : Nat} {pc : TurnPc}
    (hwake : s.wake move id pc = .ok next) :
    next.pc = pc ∧ ∀ uid, next.scheduler.Busy uid ↔ s.scheduler.Busy uid := by
  obtain ⟨coro, -, hwake⟩ := ok_of_bind_ok hwake
  obtain ⟨moved, hmoved, hdone⟩ := ok_of_bind_ok hwake
  obtain rfl := Except.ok.inj hdone
  exact ⟨rfl, fun _ => hmove.busy_iff hwaiting htarget hmoved⟩

theorem busy_timeoutTurn {clock : Int} (hturn : s.timeoutTurn clock = .ok next) :
    onMain next.pc = true ∧ ∀ uid, next.scheduler.Busy uid ↔ s.scheduler.Busy uid := by
  rw [timeoutTurn] at hturn
  split at hturn
  · obtain rfl := Except.ok.inj hturn
    exact ⟨rfl, fun _ => Iff.rfl⟩
  · split at hturn
    · obtain rfl := Except.ok.inj hturn
      exact ⟨rfl, fun _ => Iff.rfl⟩
    · obtain ⟨woken, hwake, hdone⟩ := ok_of_bind_ok hturn
      obtain rfl := Except.ok.inj hdone
      obtain ⟨hpc, hbusy⟩ := busy_wake moveToActive_moves (by decide) (by decide) hwake
      exact ⟨hpc ▸ rfl, hbusy⟩

theorem call_onMain (h : onMain s.pc = true) {call : CoroutineCall} : s.call call = .ok s := by
  cases hpc : s.pc with
  | runs list loop =>
      rw [hpc] at h
      contradiction
  | _ => simp only [SchedulerTurns.call, hpc]

theorem switches_call_onMain (h : onMain s.pc = true) {call : CoroutineCall} :
    s.switches next (.coroutine call) = [] := by
  cases hpc : s.pc with
  | runs list loop =>
      rw [hpc] at h
      contradiction
  | _ => simp only [switches, hpc]

/-- The switch of a coroutine that stops. -/
def stopSwitch (uid : Nat) : CoroutineCall → ContextSwitch
  | .finish => .leave (get_ctx (.coroutine uid)) (get_ctx .main) .main
  | _ => .jump (get_ctx (.coroutine uid)) (get_ctx .main) .main

section

variable {list : ReadyList} {loop uid : Nat} (hpc : s.pc = .runs list loop)
  (hcurrent : s.scheduler.currentCoro = some (.coroutine uid))
include hpc

theorem switches_create {allocs : Nat → Bool} :
    s.switches next (.coroutine (.createCoroutine allocs)) = s.createSwitches allocs := by
  simp only [switches, hpc]

include hcurrent

theorem switches_stop {call : CoroutineCall} (hother : ∀ allocs, call ≠ .createCoroutine allocs) :
    s.switches next (.coroutine call) = [stopSwitch uid call] := by
  cases call with
  | createCoroutine allocs => exact absurd rfl (hother allocs)
  | _ => simp only [switches, hpc, hcurrent, stopSwitch]

end

/-- A step of `tars_run` or `run` leaves a coroutine running, resumes one, or stays on the main
party. -/
theorem proceed_cases (hproceed : s.proceed now = .ok next) :
    (∃ list loop, s.pc = .runs list loop ∧ next = s) ∨
    (∃ list loop, s.pc = .switches list loop ∧
      coroutineHeadEmpty s.scheduler.links (.head list.status) = false ∧
      s.resume list loop = .ok next) ∨
    onMain s.pc = true ∧ onMain next.pc = true ∧
      ∀ uid, next.scheduler.Busy uid ↔ s.scheduler.Busy uid := by
  rw [SchedulerTurns.proceed] at hproceed
  split at hproceed <;> rename_i hpc
  case h_12 => exact .inl ⟨_, _, hpc, (Except.ok.inj hproceed).symm⟩
  case h_11 =>
      split at hproceed
      · rename_i hready
        exact .inr (.inl ⟨_, _, hpc, hready.2, hproceed⟩)
      · obtain rfl := Except.ok.inj hproceed
        exact .inr (.inr ⟨hpc ▸ rfl, onMain_behind s _, fun _ => Iff.rfl⟩)
  all_goals refine .inr (.inr ⟨hpc ▸ rfl, ?_⟩)
  case h_4 => exact busy_timeoutTurn hproceed
  case h_7 =>
      obtain ⟨hpc, hbusy⟩ := busy_wake moveToAvail_moves (by decide) (by decide) hproceed
      exact ⟨hpc ▸ rfl, hbusy⟩
  case h_10 =>
      obtain ⟨hpc, hbusy⟩ := busy_wake moveToActive_moves (by decide) (by decide) hproceed
      exact ⟨hpc ▸ rfl, hbusy⟩
  all_goals obtain rfl := Except.ok.inj hproceed
  case h_1 => exact ⟨hpc ▸ rfl, fun _ => Iff.rfl⟩
  case h_6 => exact ⟨rfl, fun _ => Iff.rfl⟩
  case h_9 => exact ⟨rfl, fun _ => Iff.rfl⟩
  case h_14 => exact ⟨hpc ▸ rfl, fun _ => Iff.rfl⟩
  all_goals
    split <;> exact ⟨rfl, fun _ => Iff.rfl⟩

end

end SchedulerTurns

/-! ### The invariant -/

namespace SwitchedTurns

open CoroutineScheduler CoroutineInfo SchedulerTurns

/-- Each party that may go on is saved where the scheduler goes on with it, a coroutine in its
context and the main party in the one of `mainCoro_`, and nobody else is saved. -/
structure Saved (s : SwitchedTurns) : Prop where
  running : s.contexts.running = s.turns.runner
  waits : ∀ party, s.turns.Waits party → s.contexts.place party = some (get_ctx party)
  others : ∀ party, ¬ s.turns.Waits party → s.contexts.place party = none

/-- The switches may be made, and the parties are saved as they should be behind them. -/
def Follows (s : SwitchedTurns) (next : SchedulerTurns) (switches : List ContextSwitch) : Prop :=
  s.contexts.AllAllowed switches ∧
    Saved { turns := next, contexts := s.contexts.afterAll switches }

section

variable {s : SwitchedTurns} {queues queues' : CoroStatus → List Nat} {next : SchedulerTurns}

/-- Nobody is saved in the context of a party that does not wait. -/
theorem Saved.vacant (h : s.Saved) {slot : ContextSlot}
    (hslot : ∀ party, s.turns.Waits party → slot ≠ get_ctx party) : s.contexts.Vacant slot := by
  intro party hplace
  by_cases hwaits : s.turns.Waits party
  · rw [h.waits party hwaits] at hplace
    exact hslot party hwaits (Option.some.inj hplace).symm
  · rw [h.others party hwaits] at hplace
    contradiction

theorem Saved.vacant_running (h : s.Saved) : s.contexts.Vacant (get_ctx s.turns.runner) :=
  h.vacant fun _ hwaits hsame => hwaits.2 (get_ctx_injective hsame).symm

theorem Saved.vacant_ctxFrom (h : s.Saved) (uid : Nat) :
    s.contexts.Vacant (.ctxFrom (.coroutine uid)) := by
  refine h.vacant fun party _ hsame => ?_
  cases party with
  | coroutine other => exact ContextSlot.noConfusion hsame
  | main => exact CoroutineInfo.noConfusion (ContextSlot.ctxFrom.inj hsame)
  | head list => exact CoroutineInfo.noConfusion (ContextSlot.ctxFrom.inj hsame)

/-- A step without a switch. -/
theorem Saved.stay (h : s.Saved) (hrunner : next.runner = s.turns.runner)
    (hbusy : ∀ uid, next.scheduler.Busy uid ↔ s.turns.scheduler.Busy uid) : s.Follows next [] :=
  have hwaits := waits_congr hrunner hbusy
  ⟨trivial, h.running.trans hrunner.symm, fun party hparty => h.waits party ((hwaits _).mp hparty),
    fun party hparty => h.others party fun hother => hparty ((hwaits _).mpr hother)⟩

/-- The party that runs is saved, and another one goes on. -/
theorem Saved.jump (h : s.Saved) {target : CoroutineInfo} (htarget : s.turns.Waits target)
    (halive : s.turns.scheduler.Alive s.turns.runner) (hrunner : next.runner = target)
    (hbusy : ∀ uid, next.scheduler.Busy uid ↔ s.turns.scheduler.Busy uid) :
    s.Follows next [.jump (get_ctx s.turns.runner) (get_ctx target) target] := by
  have hwaits : ∀ party, next.Waits party ↔
      party ≠ target ∧ (party = s.turns.runner ∨ s.turns.Waits party) := by
    intro party
    rw [Waits, Waits, hrunner, alive_congr hbusy]
    by_cases hsame : party = s.turns.runner <;> simp [hsame, halive, and_comm]
  have hplace : ∀ party, (s.contexts.after
      (.jump (get_ctx s.turns.runner) (get_ctx target) target)).place party =
        if party = target then none
        else if party = s.turns.runner then some (get_ctx party) else s.contexts.place party := by
    intro party
    simp only [Switching.after, Function.update_apply, h.running]
    split
    · rfl
    · split
      · rename_i hsame
        rw [hsame]
      · rfl
  refine ⟨⟨⟨h.running ▸ htarget.2, h.waits target htarget, h.vacant_running⟩, trivial⟩,
    hrunner.symm, fun party hparty => ?_, fun party hparty => ?_⟩ <;>
    refine (hplace party).trans ?_
  · obtain ⟨hother, hparty⟩ := (hwaits party).mp hparty
    rw [if_neg hother]
    split
    · rfl
    · rename_i hne
      exact h.waits party (hparty.resolve_left hne)
  · split
    · rfl
    · rename_i hother
      have hnot := fun hwait => hparty ((hwaits party).mpr ⟨hother, hwait⟩)
      rw [if_neg fun hsame => hnot (.inl hsame)]
      exact h.others party fun hwait => hnot (.inr hwait)

/-- The party that runs is done, and another one goes on. -/
theorem Saved.leave (h : s.Saved) {target : CoroutineInfo} (htarget : s.turns.Waits target)
    (hrunner : next.runner = target)
    (hwaits : ∀ party, next.Waits party ↔ party ≠ target ∧ s.turns.Waits party) :
    s.Follows next [.leave (get_ctx s.turns.runner) (get_ctx target) target] := by
  have hplace : ∀ party, (s.contexts.after
      (.leave (get_ctx s.turns.runner) (get_ctx target) target)).place party =
        if party = target then none
        else if party = s.turns.runner then none else s.contexts.place party := by
    intro party
    simp only [Switching.after, Function.update_apply, h.running]
  refine ⟨⟨⟨h.running ▸ htarget.2, h.waits target htarget, h.vacant_running⟩, trivial⟩,
    hrunner.symm, fun party hparty => ?_, fun party hparty => ?_⟩ <;>
    refine (hplace party).trans ?_
  · obtain ⟨hother, hparty⟩ := (hwaits party).mp hparty
    rw [if_neg hother, if_neg hparty.2]
    exact h.waits party hparty
  · split
    · rfl
    · rename_i hother
      split
      · rfl
      · exact h.others party fun hwait => hparty ((hwaits party).mpr ⟨hother, hwait⟩)

/-- A coroutine is created, or there is no room. -/
theorem Saved.create (h : s.Saved) (hinv : s.turns.scheduler.Inv queues)
    (halive : s.turns.scheduler.Alive s.turns.runner)
    {allocs : Nat → Bool} (hcreate : s.turns.create allocs = .ok next) :
    s.Follows next (s.turns.createSwitches allocs) := by
  obtain ⟨⟨id, scheduler⟩, hok, hdone⟩ := ok_of_bind_ok hcreate
  obtain rfl := Except.ok.inj hdone
  obtain ⟨queues', hcreates, -⟩ := createCoroutine_spec hinv hok
  have hrunner : (s.turns.note (.coroutine id) scheduler s.turns.pc).runner = s.turns.runner := by
    refine runner_congr rfl ?_
    rw [SchedulerTurns.note, hcreates.frame]
  rw [createSwitches_of_ok hok]
  by_cases hid : id = 0
  · rw [if_pos hid]
    refine h.stay hrunner fun uid => (hcreates.busy_iff hinv).trans ?_
    simp [hid]
  rw [if_neg hid]
  have hfresh := hcreates.fresh hinv hid
  have hnew : ¬ s.turns.Waits (.coroutine id) := fun hwaits => hfresh hwaits.1
  have hother : .coroutine id ≠ s.turns.runner := by
    rintro hsame
    rw [← hsame] at halive
    exact hfresh halive
  have hwaits : ∀ party, (s.turns.note (.coroutine id) scheduler s.turns.pc).Waits party ↔
      party = .coroutine id ∨ s.turns.Waits party := by
    intro party
    rw [Waits, hrunner, Waits]
    cases party with
    | coroutine uid =>
        refine (and_congr_left' (hcreates.busy_iff hinv)).trans ?_
        simp only [CoroutineInfo.coroutine.injEq]
        constructor
        · rintro ⟨⟨hsame, -⟩ | hbusy, hne⟩
          · exact .inl hsame
          · exact .inr ⟨hbusy, hne⟩
        · rintro (rfl | ⟨hbusy, hne⟩)
          · exact ⟨.inl ⟨rfl, hid⟩, hother⟩
          · exact ⟨.inr hbusy, hne⟩
    | main => simp [Alive]
    | head list => simp [Alive]
  have hnone := h.others _ hnew
  rw [← h.running] at hother
  rw [registerFunc_eq, ← h.running]
  refine ⟨Switching.allAllowed_start hother hnone ?_ (h.vacant_ctxFrom id) (by simp), ?_⟩
  · refine h.vacant fun party hparty hsame => hnew ?_
    rwa [show CoroutineInfo.coroutine id = party from get_ctx_injective hsame]
  · rw [Switching.afterAll_start (h.others _ fun hwait => hwait.2 h.running) hother]
    refine ⟨h.running.trans hrunner.symm, fun party hparty => ?_, fun party hparty => ?_⟩ <;>
      refine (Function.update_apply _ _ _ party).trans ?_
    · split
      · rename_i hsame
        rw [hsame, get_ctx]
      · rename_i hne
        exact h.waits party (((hwaits party).mp hparty).resolve_left hne)
    · rw [if_neg fun hsame => hparty ((hwaits party).mpr (.inl hsame))]
      exact h.others party fun hwait => hparty ((hwaits party).mpr (.inr hwait))

/-- `tars_run` or `run` goes one step further. -/
theorem Saved.proceed (h : s.Saved) (hordered : s.turns.Ordered queues) {now : Int}
    (hproceed : s.turns.proceed now = .ok next) :
    s.Follows next (s.turns.switches next (.proceed now)) := by
  rcases proceed_cases hproceed with ⟨list, loop, hpc, rfl⟩ | ⟨list, loop, hpc, hsome, hresume⟩ |
    ⟨hhere, hthere, hbusy⟩
  · have hnone : s.turns.switches s.turns (.proceed now) = [] := by
      rw [switches]
      split <;> simp
    rw [hnone]
    exact h.stay rfl fun _ => Iff.rfl
  · have hmain : s.turns.runner = .main := runner_onMain (hpc ▸ rfl)
    have hquiet : ∀ other, serves s.turns.pc other = false := by
      rw [hpc]
      exact fun _ => rfl
    have hnext := hordered.resume hquiet hsome hresume
    cases hfirst : s.turns.scheduler.links.next (.head list.status) with
    | none =>
        rw [SchedulerTurns.resume, hfirst] at hresume
        contradiction
    | some coro =>
        rw [SchedulerTurns.resume, hfirst] at hresume
        obtain rfl := Except.ok.inj hresume
        obtain ⟨uid, rest, hcurrent, hqueue⟩ := hnext.running list (decide_eq_true rfl)
        obtain rfl : coro = .coroutine uid := Option.some.inj hcurrent
        have hbusy : s.turns.scheduler.Busy uid := hnext.alive_runner
        have hne : s.turns.pc ≠ .runs list loop := hpc ▸ TurnPc.noConfusion
        have hwaits : s.turns.Waits (.coroutine uid) := ⟨hbusy, hmain ▸ CoroutineInfo.noConfusion⟩
        have hjump : s.Follows { s.turns with
            scheduler := s.turns.scheduler.switchCoro (.coroutine uid)
            pc := .runs list loop
            resumed := Function.update s.turns.resumed list (s.turns.resumed list ++
              [latest (s.turns.appended list) (.coroutine uid)]) }
            [.jump (get_ctx s.turns.runner) (get_ctx (.coroutine uid)) (.coroutine uid)] :=
          h.jump hwaits hordered.alive_runner rfl fun _ => Iff.rfl
        rw [hmain] at hjump
        refine (congrArg (s.Follows _) ?_).mpr hjump
        exact if_neg hne
  · rw [switches_onMain hthere]
    exact h.stay ((runner_onMain hthere).trans (runner_onMain hhere).symm) hbusy

/-- A coroutine makes a call. -/
theorem Saved.call (h : s.Saved) (hordered : s.turns.Ordered queues) {call : CoroutineCall}
    (hcall : s.turns.call call = .ok next) :
    s.Follows next (s.turns.switches next (.coroutine call)) := by
  by_cases hmain : onMain s.turns.pc = true
  · rw [call_onMain hmain] at hcall
    obtain rfl := Except.ok.inj hcall
    rw [switches_call_onMain hmain]
    exact h.stay rfl fun _ => Iff.rfl
  obtain ⟨list, loop, hpc⟩ : ∃ list loop, s.turns.pc = .runs list loop := by
    cases hpc : s.turns.pc with
    | runs list loop => exact ⟨list, loop, rfl⟩
    | _ => exact absurd (hpc ▸ rfl) hmain
  have hserves : serves s.turns.pc list = true := by
    rw [hpc]
    exact decide_eq_true rfl
  obtain ⟨uid, rest, hcurrent, hqueue⟩ := hordered.running list hserves
  have hruns : s.turns.runner = .coroutine uid := by rw [runner, hpc, hcurrent]
  by_cases hcreate : ∃ allocs, call = .createCoroutine allocs
  · obtain ⟨allocs, rfl⟩ := hcreate
    rw [switches_create hpc]
    exact h.create hordered.inv hordered.alive_runner ((call_create hpc).symm.trans hcall)
  have hother : ∀ allocs, call ≠ .createCoroutine allocs := not_exists.mp hcreate
  obtain ⟨scheduler, hok, rfl⟩ := call_stop hpc hcurrent hother hcall
  have hbusy (other : Nat) : (s.turns.note (.coroutine uid) scheduler
      (.switches list (loop - 1))).scheduler.Busy other ↔
        if other = uid then call ≠ .finish else s.turns.scheduler.Busy other :=
    busy_callOf hordered.inv hcurrent (hqueue ▸ List.mem_cons_self) list.status_cases hother hok
  have hrunning : s.turns.scheduler.Busy uid := by
    have halive := hordered.alive_runner
    rwa [hruns] at halive
  have hback : (s.turns.note (.coroutine uid) scheduler (.switches list (loop - 1))).runner =
      .main := runner_onMain rfl
  have hmain : s.turns.Waits .main := ⟨trivial, hruns ▸ CoroutineInfo.noConfusion⟩
  rw [switches_stop hpc hcurrent hother]
  by_cases hfinish : call = .finish
  · subst hfinish
    have hleave := h.leave hmain hback (waits_leave hruns hback fun other => by simp [hbusy])
    rwa [hruns] at hleave
  · have hjump := h.jump hmain hordered.alive_runner hback fun other => by
      rw [hbusy]
      split
      · rename_i hsame
        exact iff_of_true hfinish (hsame ▸ hrunning)
      · rfl
    rw [hruns] at hjump
    cases call with
    | finish => exact absurd rfl hfinish
    | createCoroutine allocs => exact absurd rfl (hother allocs)
    | yield flag => exact hjump
    | sleep sleeptime now => exact hjump

theorem Saved.step (h : s.Saved) (hordered : s.turns.Ordered queues) {action : TurnAction}
    (hstep : s.turns.step action = .ok next) :
    s.Follows next (s.turns.switches next action) := by
  cases action with
  | tarsRun =>
      obtain rfl := Except.ok.inj hstep
      refine h.stay ?_ fun uid => ?_
      · split
        · rename_i hout
          exact (runner_onMain rfl).trans (runner_onMain (hout.1 ▸ rfl)).symm
        · rfl
      · split <;> rfl
  | run =>
      obtain rfl := Except.ok.inj hstep
      refine h.stay ?_ fun uid => ?_
      · split
        · rename_i hout
          exact (runner_onMain rfl).trans (runner_onMain (hout ▸ rfl)).symm
        · rfl
      · split <;> rfl
  | createCoroutine allocs =>
      rw [SchedulerTurns.step] at hstep
      rw [switches]
      split at hstep
      · rename_i hout
        rw [if_pos hout]
        exact h.create hordered.inv hordered.alive_runner hstep
      · rename_i hin
        obtain rfl := Except.ok.inj hstep
        rw [if_neg hin]
        exact h.stay rfl fun _ => Iff.rfl
  | proceed now => exact h.proceed hordered hstep
  | coroutine call => exact h.call hordered hstep
  | put coroId =>
      obtain rfl := Except.ok.inj hstep
      refine h.stay (runner_congr rfl ?_) fun uid => ?_
      · rw [put]
        split <;> rfl
      · rw [put]
        split <;> rfl
  | terminate =>
      obtain rfl := Except.ok.inj hstep
      exact h.stay rfl fun _ => Iff.rfl

/-- Every switch of a run may be made. -/
theorem Saved.allAllowed (h : s.Saved) (hordered : s.turns.Ordered queues)
    (actions : List TurnAction) : s.contexts.AllAllowed (s.turns.switchTrace actions) := by
  induction actions generalizing s queues with
  | nil => trivial
  | cons action rest ih =>
      rw [switchTrace]
      cases hturn : s.turns.step action with
      | error fault => trivial
      | ok next =>
          obtain ⟨hallowed, hsaved⟩ := h.step hordered hturn
          obtain ⟨queues', hordered⟩ := hordered.step hturn
          exact Switching.allAllowed_append.mpr ⟨hallowed, ih hsaved hordered⟩

end

/-- A new scheduler has no coroutine that was created. -/
theorem not_busy_start {size : Option (UInt32 × (Nat → Bool))} {turns : SchedulerTurns}
    (hstart : SchedulerTurns.start size = .ok turns) :
    turns.runner = .main ∧ ∀ uid, ¬ turns.scheduler.Busy uid := by
  have hnone {scheduler : CoroutineScheduler} {queues : CoroStatus → List Nat}
      (hlists : scheduler.Lists queues) (hempty : ∀ list, list ≠ .free → queues list = [])
      (uid : Nat) : ¬ scheduler.Busy uid := by
    intro hbusy
    obtain ⟨list, hlist, huid⟩ := hlists.busy_iff.mp hbusy
    rw [hempty list hlist] at huid
    contradiction
  cases size with
  | none =>
      obtain rfl := Except.ok.inj hstart
      exact ⟨runner_onMain rfl, hnone construct_inv.lists fun _ _ => rfl⟩
  | some given =>
      obtain ⟨poolSize, allocs⟩ := given
      obtain ⟨scheduler, hinit, hdone⟩ := ok_of_bind_ok hstart
      obtain rfl := Except.ok.inj hdone
      by_cases hzero : poolSize.toNat = 0
      · rw [hzero] at hinit
        obtain rfl := Except.ok.inj hinit
        exact ⟨runner_onMain rfl, hnone construct_inv.lists fun _ _ => rfl⟩
      · obtain ⟨queues, hstarted⟩ :=
          init_started (Nat.pos_of_ne_zero hzero) poolSize.toNat_lt hinit
        exact ⟨runner_onMain rfl, hnone hstarted.inv.lists hstarted.queues⟩

theorem saved_start {size : Option (UInt32 × (Nat → Bool))} {turns : SchedulerTurns}
    (hstart : SchedulerTurns.start size = .ok turns) : (start turns).Saved := by
  obtain ⟨hrunner, hbusy⟩ := not_busy_start hstart
  refine ⟨hrunner.symm, fun party hwaits => ?_, fun party _ => rfl⟩
  cases party with
  | main => exact absurd hrunner.symm hwaits.2
  | coroutine uid => exact absurd hwaits.1 (hbusy uid)
  | head list => exact hwaits.1.elim

/-- Every switch of the scheduler goes to a context that its party was saved in and did not go
on from since, and saves the party that runs where nobody else is saved.  Between the steps the
saved parties are the ones that will go on. -/
theorem switches_go_to_saved (size : Option (UInt32 × (Nat → Bool))) {turns : SchedulerTurns}
    (hstart : SchedulerTurns.start size = .ok turns) (actions : List TurnAction) :
    (start turns).contexts.AllAllowed (turns.switchTrace actions) ∧
      StaysUpTo (fun _ => True) step Saved (start turns) actions := by
  have hsaved := saved_start hstart
  obtain ⟨queues, hordered⟩ := ordered_start hstart
  have hgood : ∀ s : SwitchedTurns, (s.Saved ∧ ∃ queues, s.turns.Ordered queues) → s.Saved :=
    fun _ h => h.1
  refine ⟨hsaved.allAllowed hordered actions, staysUpTo_of_along hgood ?_
    (fun _ _ _ _ _ _ => trivial) ⟨hsaved, queues, hordered⟩ along_true⟩
  rintro s action next ⟨hsaved, queues, hordered⟩ - hstep
  obtain ⟨turned, hturn, hdone⟩ := ok_of_bind_ok hstep
  obtain rfl := Except.ok.inj hdone
  exact ⟨(hsaved.step hordered hturn).2, hordered.step hturn⟩

/-- Two of three coroutines are done in the end, and nobody is saved in their contexts. -/
theorem switches_go_to_saved_three :
    ∃ turns, SchedulerTurns.start (some (3, fun _ => true)) = .ok turns ∧
      ((start turns).contexts.AllAllowed (turns.switchTrace yieldAndSleep) ∧
        StaysUpTo (fun _ => True) step Saved (start turns) yieldAndSleep) ∧
      (Foundation.run step (start turns) yieldAndSleep).map (fun last =>
        (last.contexts.place (.coroutine 1), last.contexts.place (.coroutine 2))) =
          .ok (none, none) := by
  refine ⟨_, rfl, switches_go_to_saved (some (3, fun _ => true)) rfl yieldAndSleep, ?_⟩
  rfl

end SwitchedTurns

end Tarsx
