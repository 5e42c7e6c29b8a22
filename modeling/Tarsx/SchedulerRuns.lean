/-
What holds of a scheduler in every state that its runs reach: five well formed
circular lists, each coroutine on the one that its status names, and counters that
count them, so that a coroutine is never taken from an empty `free_`.
-/
import Tarsx.SchedulerInvariant

namespace Tarsx

open Foundation

namespace CoroutineScheduler

open CoroutineInfo

/-- The five lists are rings of the coroutines of the queues, a coroutine is on the
queue of its status and on no other, and the counters are right. -/
structure WellFormed (s : CoroutineScheduler) (queues : CoroStatus → List Nat) : Prop where
  ring : ∀ list, s.links.Ring (.head list) ((queues list).map .coroutine)
  named : ∀ list uid,
    uid ∈ queues list ↔ uid ∈ s.createdIds ∧ s.status (.coroutine uid) = list
  currentSize : s.currentSize = s.createdIds.length
  usedSize : s.usedSize = (s.createdIds.filter fun uid => decide (uid ∉ queues .free)).length

/-- The lists are well formed, and when `createCoroutine` unlinks the first node of
`free_`, that node is not the head. -/
structure Consistent (s : CoroutineScheduler) : Prop where
  lists : ∃ queues, s.WellFormed queues
  takes_coroutine : ∀ allocs, (∀ turn, allocs turn = true) → ∀ grown,
    s.growIfNeeded allocs = .ok (true, grown) →
      coroutineHeadEmpty grown.links (.head .free) = false

/-- The steps of a run: stacks are allocated, a coroutine that yields, sleeps or ends
is running, an id that is put is one of a coroutine, and `run` and `tars_run` switch
from the main coroutine. -/
def Enabled (s : CoroutineScheduler) : SchedulerAction → Prop
  | .createCoroutine allocs => ∀ turn, allocs turn = true
  | .yield _ => ∃ uid, s.currentCoro = some (.coroutine uid)
  | .sleep _ _ => ∃ uid, s.currentCoro = some (.coroutine uid)
  | .finish => ∃ uid, s.currentCoro = some (.coroutine uid)
  | .put coroId => coroId ∈ s.createdIds
  | .switchToActive => s.currentCoro = some .main
  | .switchToAvail => s.currentCoro = some .main
  | _ => True

section

variable {s : CoroutineScheduler} {queues : CoroStatus → List Nat}

/-- The invariant, for some queues, of a scheduler that lost no id and for which only
ids of coroutines were put. -/
structure Whole (s : CoroutineScheduler) : Prop where
  inv : ∃ queues, s.Inv queues
  uniq : s.uniqId = s.currentSize
  places : s.poolSize < s.allCoroSize
  active_made : ∀ uid ∈ s.activeCoroQueue, s.Made uid

theorem Whole.consistent (hwhole : s.Whole) : s.Consistent := by
  rcases hwhole.inv with ⟨queues, h⟩
  refine ⟨⟨queues, h.lists.rings.ring, ?_, h.current, ?_⟩, ?_⟩
  · intro list uid
    rw [h.lists.named, mem_createdIds h.lists]
  · have hlength := h.lists.length_used
    have hused := h.used
    have hcurrent := h.current
    omega
  · intro allocs hallocs grown hgrow
    rcases growIfNeeded_spec h hgrow with ⟨queues', hextended, hfree, _⟩
    simpa using mt (headEmpty_iff hextended.inv.lists.rings .free).mp (hfree rfl)

/-- A wake-up, which reads one of the queues of ids or entries. -/
theorem Whole.woken (hwhole : s.Whole) {active need : List Nat} {entries : List (Int × Nat)}
    {next : CoroutineScheduler} {waiting : List CoroStatus} {target : CoroStatus}
    {ids : List Nat} {queues' : CoroStatus → List Nat}
    (hwoken : Woken { s with
        activeCoroQueue := active
        needActiveCoroId := need
        timeoutCoroId := entries } next waiting target ids queues')
    (hsubset : next.activeCoroQueue ⊆ s.activeCoroQueue) : next.Whole := by
  refine ⟨⟨queues', hwoken.inv⟩, ?_, ?_, ?_⟩
  · rw [hwoken.frame]
    exact hwhole.uniq
  · rw [hwoken.frame]
    exact hwhole.places
  · exact fun uid huid => (hwoken.made uid).mpr (hwhole.active_made uid (hsubset huid))

/-- Every enabled step succeeds and keeps the invariant. -/
theorem Whole.step (hwhole : s.Whole) {action : SchedulerAction}
    (henabled : Enabled s action) :
    ∃ next, schedulerStep s action = .ok next ∧ next.Whole := by
  rcases hwhole.inv with ⟨queues, h⟩
  have huniq := hwhole.uniq
  have hplaces := hwhole.places
  have hactive := hwhole.active_made
  cases action with
  | createCoroutine allocs =>
      rcases createCoroutine_ok h huniq hplaces henabled with ⟨id, next, hcreate, hsame⟩
      rcases createCoroutine_spec h hcreate with ⟨queues', hcreates, _⟩
      refine ⟨next, by simp [schedulerStep, hcreate, bind, Except.bind],
        ⟨queues', hcreates.inv⟩, hsame, ?_, ?_⟩
      · rw [hcreates.frame]
        exact hplaces
      · intro uid huid
        rw [hcreates.frame] at huid
        exact hcreates.made uid (hactive uid huid)
  | yield flag =>
      rcases henabled with ⟨uid, hcurrent⟩
      rcases h.running_mem hcurrent with ⟨source, huid, hsource⟩
      rcases yield_ok h flag hcurrent huid hsource with ⟨links, hstep, hnext⟩
      have hkept : (s.putIf flag uid).uniqId = (s.putIf flag uid).currentSize ∧
          (s.putIf flag uid).poolSize < (s.putIf flag uid).allCoroSize ∧
          ∀ other ∈ (s.putIf flag uid).activeCoroQueue, (s.putIf flag uid).Made other := by
        simp only [putIf, putbyself]
        split
        · split <;> exact ⟨huniq, hplaces, hactive⟩
        · exact ⟨huniq, hplaces, hactive⟩
      exact ⟨_, hstep, ⟨_, hnext⟩, hkept.1, hkept.2.1, hkept.2.2⟩
  | sleep sleeptime now =>
      rcases henabled with ⟨uid, hcurrent⟩
      rcases h.running_mem hcurrent with ⟨source, huid, hsource⟩
      rcases sleep_ok h sleeptime now hcurrent huid hsource with ⟨links, hstep, hnext⟩
      exact ⟨_, hstep, ⟨_, hnext⟩, huniq, hplaces, hactive⟩
  | finish =>
      rcases henabled with ⟨uid, hcurrent⟩
      rcases h.running_mem hcurrent with ⟨source, huid, hsource⟩
      rcases finish_ok h hcurrent huid hsource with ⟨links, hstep, hnext⟩
      exact ⟨_, hstep, ⟨_, hnext⟩, huniq, hplaces, hactive⟩
  | put coroId =>
      have hkept : (s.put coroId).uniqId = (s.put coroId).currentSize ∧
          (s.put coroId).poolSize < (s.put coroId).allCoroSize ∧
          ∀ uid ∈ (s.put coroId).activeCoroQueue, (s.put coroId).Made uid := by
        rw [put]
        split
        · exact ⟨huniq, hplaces, hactive⟩
        · refine ⟨huniq, hplaces, ?_⟩
          intro uid huid
          rcases List.mem_append.mp huid with hold | hnew
          · exact hactive uid hold
          · exact (mem_createdIds h.lists uid).mp (List.mem_singleton.mp hnew ▸ henabled)
      exact ⟨s.put coroId, rfl, ⟨queues, put_ok h coroId⟩, hkept.1, hkept.2.1, hkept.2.2⟩
  | wakeup =>
      have hmade : ∀ uid ∈ s.unlessTerminal s.activeCoroQueue, s.Made uid := by
        rw [unlessTerminal]
        split
        · simp
        · exact hactive
      rcases wakeup_ok h hmade with ⟨next, queues', hstep, hwoken, hsubset⟩
      exact ⟨next, hstep, hwhole.woken hwoken hsubset⟩
  | wakeupbyself =>
      rcases wakeupbyself_ok h with ⟨next, queues', hstep, hwoken⟩
      exact ⟨next, hstep, hwhole.woken hwoken (by rw [hwoken.frame]; exact fun _ huid => huid)⟩
  | wakeupbytimeout now =>
      rcases wakeupbytimeout_ok h now with ⟨next, queues', due, hstep, hwoken, _⟩
      exact ⟨next, hstep, hwhole.woken hwoken (by rw [hwoken.frame]; exact fun _ huid => huid)⟩
  | switchToActive =>
      rcases switchToFirst_switches h (Or.inl rfl) with ⟨next, hstep, hnext, hframe⟩
      rw [hframe] at hnext
      exact ⟨_, hframe ▸ hstep, ⟨queues, hnext⟩, huniq, hplaces, hactive⟩
  | switchToAvail =>
      rcases switchToFirst_switches h (Or.inr rfl) with ⟨next, hstep, hnext, hframe⟩
      rw [hframe] at hnext
      exact ⟨_, hframe ▸ hstep, ⟨queues, hnext⟩, huniq, hplaces, hactive⟩
  | terminate => exact ⟨_, rfl, ⟨queues, h.terminate⟩, huniq, hplaces, hactive⟩

end

theorem allCoroSize_generateId {s next : CoroutineScheduler} {id : Nat}
    (hid : s.generateId = .ok (id, next)) : next.allCoroSize = s.allCoroSize := by
  simp only [generateId] at hid
  generalize (if word32Add s.uniqId 1 < 1 then word32Add s.uniqId 1 + 1
    else word32Add s.uniqId 1) = made at hid
  by_cases hroom : made ≤ s.poolSize
  · rw [if_pos hroom] at hid
    cases hid
    rfl
  · rw [if_neg hroom] at hid
    contradiction

/-- A table without room takes no coroutine. -/
theorem initLoop_no_table {s : CoroutineScheduler} (hsize : s.allCoroSize = 0)
    {allocs : Nat → Bool} {turn : Nat} (halloc : allocs turn = true) (turns : Nat)
    (result : Nat × CoroutineScheduler) :
    initLoop allocs turn (turns + 1) s ≠ .ok result := by
  cases hid : s.generateId with
  | error fault => simp [initLoop, halloc, hid, bind, Except.bind]
  | ok made =>
      rcases made with ⟨id, next⟩
      have hnext : next.allCoroSize = 0 := (allCoroSize_generateId hid).trans hsize
      simp [initLoop, halloc, hid, addCoroutine, hnext, bind, Except.bind]

/-- `init` of the largest pool, whose table size wraps to 0, writes outside the
table. -/
theorem init_max {allocs : Nat → Bool} (halloc : allocs 0 = true)
    (start : CoroutineScheduler) : construct.init (2 ^ 32 - 1) allocs ≠ .ok start := by
  have hword : word32Add (2 ^ 32 - 1) 1 = 0 := by decide
  have hturns : (if 2 ^ 32 - 1 ≤ 100 then 2 ^ 32 - 1 else 100) = 99 + 1 := by decide
  intro hinit
  rw [init, if_neg (by decide)] at hinit
  simp only [hturns, hword] at hinit
  generalize hloop : initLoop allocs 0 (99 + 1) _ = result at hinit
  cases result with
  | error fault => contradiction
  | ok made => exact initLoop_no_table rfl halloc 99 made hloop

/-- From `init`, whatever coroutines do and whenever they are woken, the scheduler stays
consistent and no step fails. -/
theorem scheduler_stays_consistent (poolSize : Nat) (allocs : Nat → Bool)
    (hpos : 0 < poolSize) (hsize : poolSize < 2 ^ 32) (hallocs : ∀ turn, allocs turn = true) :
    (poolSize + 1 < 2 ^ 32 → ∃ start, construct.init poolSize allocs = .ok start) ∧
    ∀ start actions, construct.init poolSize allocs = .ok start →
      Along schedulerStep Enabled start actions →
        Stays schedulerStep Consistent start actions := by
  constructor
  · intro hlt
    exact init_ok hpos hlt allocs
  · intro start actions hinit henabled
    by_cases hlt : poolSize + 1 < 2 ^ 32
    · rcases init_started hpos hsize hinit with ⟨queues, hstarted⟩
      have hstart : start.Whole := by
        refine ⟨⟨queues, hstarted.inv⟩, hstarted.uniq, ?_, ?_⟩
        · rw [hstarted.frame]
          change poolSize < word32Add poolSize 1
          rw [word32Add_of_lt hlt]
          exact Nat.lt_succ_self poolSize
        · rw [hstarted.frame]
          simp [reset, construct]
      exact stays_of_along (fun _ h => h.consistent) (fun _ _ h henabled => h.step henabled)
        hstart henabled
    · have hmax : poolSize = 2 ^ 32 - 1 := by omega
      exact absurd (hmax ▸ hinit) (init_max (hallocs 0) start)

/-- A pool of two: a coroutine is made, sleeps, is woken, yields, runs again and
ends. -/
theorem scheduler_stays_consistent_one :
    ∃ start, construct.init 2 (fun _ => true) = .ok start ∧
      Stays schedulerStep Consistent start
        [.createCoroutine fun _ => true, .switchToAvail, .sleep 5 100, .wakeupbytimeout 200,
          .switchToActive, .yield true, .wakeupbyself, .switchToAvail, .finish] := by
  refine ⟨_, rfl, ?_⟩
  apply (scheduler_stays_consistent 2 (fun _ => true) (by decide) (by decide)
    fun _ => rfl).2 _ _ rfl
  refine Along.cons_of_ok (p := Enabled) (fun _ => rfl) rfl ?_
  refine Along.cons_of_ok (p := Enabled) rfl rfl ?_
  refine Along.cons_of_ok (p := Enabled) ⟨1, rfl⟩ rfl ?_
  refine Along.cons_of_ok (p := Enabled) trivial rfl ?_
  refine Along.cons_of_ok (p := Enabled) rfl rfl ?_
  refine Along.cons_of_ok (p := Enabled) ⟨1, rfl⟩ rfl ?_
  refine Along.cons_of_ok (p := Enabled) trivial rfl ?_
  refine Along.cons_of_ok (p := Enabled) rfl rfl ?_
  exact Along.cons_of_ok (p := Enabled) ⟨1, rfl⟩ rfl trivial

end CoroutineScheduler

end Tarsx
