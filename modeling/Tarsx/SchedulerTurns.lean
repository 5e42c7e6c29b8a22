/-
`tars_run` and `run` in single steps, with the coroutines that run between them.  The state
records which coroutines were appended to `active_` and to `avail_`, and for each resume
from one of these lists the append that brought the coroutine there.
-/
import Mathlib.Logic.Relation
import Tarsx.Foundation.ServedInOrder
import Tarsx.SchedulerInvariant
import Tarsx.SchedulerThreads

namespace Tarsx

open Foundation

/-- The lists that coroutines are resumed from. -/
inductive ReadyList where
  | active
  | avail
deriving DecidableEq, Repr

def ReadyList.status : ReadyList → CoroStatus
  | .active => .active
  | .avail => .avail

/-- Where the main coroutine is. -/
inductive TurnPc where
  /-- in neither of the two functions -/
  | out
  /-- `while (!terminal_)` of `run`; what it does until the wake-ups touches no list -/
  | loop
  | wakeupbytimeout
  /-- the loop of `wakeupbytimeout`, after the clock was read -/
  | timeoutTurn (now : Int)
  | wakeupbyself
  /-- the loop of `wakeupbyself` over the ids that are left -/
  | selfTurn (coroIds : List Nat)
  | wakeup
  /-- the loop of `wakeup` over the ids that are left -/
  | wakeupTurn (coroIds : List Nat)
  /-- `while (loop > 0 && ...)`; the `if` of `run` on `avail_` is a loop of one turn -/
  | switches (list : ReadyList) (loop : Nat)
  /-- a coroutine of the list runs -/
  | runs (list : ReadyList) (loop : Nat)
  /-- `if (usedSize_ == 0)` -/
  | used
  /-- `run` has left its loop for `destroy` -/
  | done
deriving DecidableEq, Repr

/-- A scheduler on its thread.  `run` tells which of the two functions was called;
`resumed` holds for each resume the place of the append in `appended`. -/
structure SchedulerTurns where
  scheduler : CoroutineScheduler
  pc : TurnPc := .out
  run : Bool := false
  appended : ReadyList → List CoroutineInfo := fun _ => []
  resumed : ReadyList → List (Option Nat) := fun _ => []

/-- The scheduler's thread calls `tars_run`, `run` or `createCoroutine`, goes on in one of
the first two, or runs a coroutine that makes a call; and any thread calls `put` or
`terminate`. -/
inductive TurnAction where
  | tarsRun
  | run
  | createCoroutine (allocs : Nat → Bool)
  | proceed (now : Int)
  | coroutine (call : CoroutineCall)
  | put (coroId : Nat)
  | terminate

namespace CoroutineScheduler

/-- The coroutines on a list, read off its pointers. -/
def listOf (s : CoroutineScheduler) (list : CoroStatus) : List CoroutineInfo :=
  s.links.itemsFrom (.head list) s.allCoroSize (.head list)

end CoroutineScheduler

namespace SchedulerTurns

open CoroutineScheduler CoroutineInfo

/-- A new scheduler, for which `init` was called or was not. -/
def start : Option (UInt32 × (Nat → Bool)) → Except Fault SchedulerTurns
  | none => .ok { scheduler := construct }
  | some (poolSize, allocs) => do
      let s ← construct.init poolSize.toNat allocs
      .ok { scheduler := s }

/-- The main coroutine goes on. -/
def go (s : SchedulerTurns) (pc : TurnPc) : SchedulerTurns := { s with pc := pc }

/-- A step that may have put a coroutine on a list. -/
def note (s : SchedulerTurns) (coro : CoroutineInfo) (next : CoroutineScheduler)
    (pc : TurnPc) : SchedulerTurns :=
  { s with
    scheduler := next
    pc := pc
    appended := fun list =>
      if coro ∉ s.scheduler.listOf list.status ∧ coro ∈ next.listOf list.status then
        s.appended list ++ [coro]
      else s.appended list }

/-- A turn of a wake-up's loop. -/
def wake (s : SchedulerTurns)
    (move : CoroutineScheduler → CoroutineInfo → Except Fault CoroutineScheduler) (id : Nat)
    (pc : TurnPc) : Except Fault SchedulerTurns := do
  let coro ← s.scheduler.coroOf id
  let next ← move s.scheduler coro
  .ok (s.note coro next pc)

/-- A turn of `wakeupbytimeout`. -/
def timeoutTurn (s : SchedulerTurns) (now : Int) : Except Fault SchedulerTurns :=
  match s.scheduler.timeoutCoroId with
  | [] => .ok (s.go .wakeupbyself)
  | (time, id) :: rest =>
      if time > now then .ok (s.go .wakeupbyself)
      else do
        let s ← s.wake moveToActive id (.timeoutTurn now)
        .ok { s with scheduler := { s.scheduler with timeoutCoroId := rest } }

/-- `switchCoro` to the first coroutine of a list. -/
def resume (s : SchedulerTurns) (list : ReadyList) (loop : Nat) : Except Fault SchedulerTurns :=
  match s.scheduler.links.next (.head list.status) with
  | none => .error .assertion
  | some coro =>
      .ok { s with
        scheduler := s.scheduler.switchCoro coro
        pc := .runs list loop
        resumed := Function.update s.resumed list
          (s.resumed list ++ [latest (s.appended list) coro]) }

/-- Behind the loop over a list. -/
def behind (s : SchedulerTurns) : ReadyList → TurnPc
  | .active => .switches .avail (if s.run then 1 else 100)
  | .avail => if s.run then .used else .out

/-- The next step of `tars_run` or `run`.  While a coroutine runs, it is the coroutine that
goes on. -/
def proceed (s : SchedulerTurns) (now : Int) : Except Fault SchedulerTurns :=
  match s.pc with
  | .out => .ok s
  | .loop => .ok (s.go (if s.scheduler.terminal then .done else .wakeupbytimeout))
  | .wakeupbytimeout =>
      .ok (s.go (if s.scheduler.terminal then .wakeupbyself else .timeoutTurn now))
  | .timeoutTurn now => s.timeoutTurn now
  | .wakeupbyself =>
      .ok (s.go (if s.scheduler.terminal then .wakeup
        else .selfTurn s.scheduler.needActiveCoroId))
  | .selfTurn [] =>
      .ok { s with scheduler := { s.scheduler with needActiveCoroId := [] }, pc := .wakeup }
  | .selfTurn (id :: rest) => s.wake moveToAvail id (.selfTurn rest)
  | .wakeup =>
      .ok (if s.scheduler.terminal then s.go (.switches .active 100)
        else { s with
          scheduler := { s.scheduler with activeCoroQueue := [] }
          pc := .wakeupTurn s.scheduler.activeCoroQueue })
  | .wakeupTurn [] => .ok (s.go (.switches .active 100))
  | .wakeupTurn (id :: rest) => s.wake moveToActive id (.wakeupTurn rest)
  | .switches list loop =>
      if loop > 0 ∧ coroutineHeadEmpty s.scheduler.links (.head list.status) = false then
        s.resume list loop
      else .ok (s.go (s.behind list))
  | .runs _ _ => .ok s
  | .used => .ok (s.go (if s.scheduler.usedSize = 0 then .done else .loop))
  | .done => .ok s

/-- `createCoroutine`. -/
def create (s : SchedulerTurns) (allocs : Nat → Bool) : Except Fault SchedulerTurns := do
  let (id, next) ← s.scheduler.createCoroutine allocs
  .ok (s.note (.coroutine id) next s.pc)

/-- The coroutine that runs makes a call. -/
def call (s : SchedulerTurns) (call : CoroutineCall) : Except Fault SchedulerTurns :=
  match s.pc, s.scheduler.currentCoro, call with
  | .runs _ _, _, .createCoroutine allocs => s.create allocs
  | .runs list loop, some coro, call => do
      let next ← (SchedulerThreads.callOf s.scheduler call).2
      .ok (s.note coro next (.switches list (loop - 1)))
  | _, _, _ => .ok s

/-- The thread that is elsewhere does not do what the action says. -/
def step (s : SchedulerTurns) : TurnAction → Except Fault SchedulerTurns
  | .tarsRun =>
      .ok (if s.pc = .out ∧ s.scheduler.terminal = false then
        { s with run := false, pc := .wakeupbytimeout } else s)
  | .run => .ok (if s.pc = .out then { s with run := true, pc := .loop } else s)
  | .createCoroutine allocs => if s.pc = .out then s.create allocs else .ok s
  | .proceed now => s.proceed now
  | .coroutine call => s.call call
  | .put coroId => .ok { s with scheduler := s.scheduler.put coroId }
  | .terminate => .ok { s with scheduler := { s.scheduler with terminal := true } }

/-! ### The turns of a wake-up are the wake-up -/

/-- `tars_run` or `run` goes one step further. -/
def Proceeds (now : Int) (s next : SchedulerTurns) : Prop := s.proceed now = .ok next

section

open Relation

variable {s : SchedulerTurns} {now : Int} {next : CoroutineScheduler}

theorem turns_of_wakeLoop
    {move : CoroutineScheduler → CoroutineInfo → Except Fault CoroutineScheduler}
    (goes : List Nat → TurnPc) (hturn : ∀ (s : SchedulerTurns) (id : Nat) (rest : List Nat),
      s.pc = goes (id :: rest) → s.proceed now = s.wake move id (goes rest))
    {ids : List Nat} (hpc : s.pc = goes ids)
    (hloop : wakeLoop move s.scheduler ids = .ok next) :
    ∃ last, ReflTransGen (Proceeds now) s last ∧ last.pc = goes [] ∧
      last.scheduler = next := by
  induction ids generalizing s with
  | nil => exact ⟨s, .refl, hpc, Except.ok.inj hloop⟩
  | cons id rest ih =>
      obtain ⟨coro, hcoro, hrest⟩ := ok_of_bind_ok hloop
      obtain ⟨moved, hmoved, hrest⟩ := ok_of_bind_ok hrest
      have hwake : s.wake move id (goes rest) = .ok (s.note coro moved (goes rest)) := by
        simp only [wake, hcoro, hmoved, bind, Except.bind]
      obtain ⟨last, hturns, hlast⟩ := ih (s := s.note coro moved (goes rest)) rfl hrest
      exact ⟨last, .head ((hturn s id rest hpc).trans hwake) hturns, hlast⟩

theorem turns_of_wakeupbyself (hpc : s.pc = .wakeupbyself)
    (hok : s.scheduler.wakeupbyself = .ok next) :
    ∃ last, ReflTransGen (Proceeds now) s last ∧ last.pc = .wakeup ∧
      last.scheduler = next := by
  have hstep : Proceeds now s (s.go (if s.scheduler.terminal then .wakeup
      else .selfTurn s.scheduler.needActiveCoroId)) := by
    rw [Proceeds, proceed, hpc]
  rw [CoroutineScheduler.wakeupbyself] at hok
  split at hok
  · rename_i hterminal
    rw [if_pos hterminal] at hstep
    exact ⟨s.go .wakeup, .single hstep, rfl, Except.ok.inj hok⟩
  · rename_i hrunning
    rw [if_neg hrunning] at hstep
    obtain ⟨woken, hloop, hdone⟩ := ok_of_bind_ok hok
    have hturn (s : SchedulerTurns) (id : Nat) (rest : List Nat)
        (hpc : s.pc = .selfTurn (id :: rest)) :
        s.proceed now = s.wake moveToAvail id (.selfTurn rest) := by
      rw [proceed, hpc]
    obtain ⟨last, hturns, hlast, rfl⟩ := turns_of_wakeLoop .selfTurn hturn
      (s := s.go (.selfTurn s.scheduler.needActiveCoroId)) rfl hloop
    have hclear : Proceeds now last { last with
        scheduler := { last.scheduler with needActiveCoroId := [] }
        pc := .wakeup } := by
      rw [Proceeds, proceed, hlast]
    exact ⟨_, (hturns.head hstep).tail hclear, rfl, Except.ok.inj hdone⟩

theorem turns_of_wakeup (hpc : s.pc = .wakeup) (hok : s.scheduler.wakeup = .ok next) :
    ∃ last, ReflTransGen (Proceeds now) s last ∧ last.pc = .switches .active 100 ∧
      last.scheduler = next := by
  have hstep : Proceeds now s (if s.scheduler.terminal then s.go (.switches .active 100)
      else { s with
        scheduler := { s.scheduler with activeCoroQueue := [] }
        pc := .wakeupTurn s.scheduler.activeCoroQueue }) := by
    rw [Proceeds, proceed, hpc]
  rw [CoroutineScheduler.wakeup] at hok
  split at hok
  · rename_i hterminal
    rw [if_pos hterminal] at hstep
    exact ⟨s.go (.switches .active 100), .single hstep, rfl, Except.ok.inj hok⟩
  · rename_i hrunning
    rw [if_neg hrunning] at hstep
    have hturn (s : SchedulerTurns) (id : Nat) (rest : List Nat)
        (hpc : s.pc = .wakeupTurn (id :: rest)) :
        s.proceed now = s.wake moveToActive id (.wakeupTurn rest) := by
      rw [proceed, hpc]
    obtain ⟨last, hturns, hlast, hnext⟩ := turns_of_wakeLoop .wakeupTurn hturn
      (s := { s with
        scheduler := { s.scheduler with activeCoroQueue := [] }
        pc := .wakeupTurn s.scheduler.activeCoroQueue }) rfl hok
    have hleave : Proceeds now last (last.go (.switches .active 100)) := by
      rw [Proceeds, proceed, hlast]
    exact ⟨_, (hturns.head hstep).tail hleave, rfl, hnext⟩

/-- A move does not look at the entries. -/
theorem moveTo_withTimeouts (scheduler : CoroutineScheduler) (coro : CoroutineInfo)
    (list : CoroStatus) (entries : List (Int × Nat)) :
    moveTo { scheduler with timeoutCoroId := entries } coro list =
      (scheduler.moveTo coro list).map ({ · with timeoutCoroId := entries }) := by
  rw [moveTo, moveTo]
  cases coroutineDel scheduler.links coro with
  | error fault => rfl
  | ok links =>
      change Except.bind (coroutineAddTail links coro (.head list)) _ =
        (Except.bind (coroutineAddTail links coro (.head list)) _).map _
      cases coroutineAddTail links coro (.head list) <;> rfl

theorem moveToActive_withTimeouts (scheduler : CoroutineScheduler) (coro : CoroutineInfo)
    (entries : List (Int × Nat)) :
    moveToActive { scheduler with timeoutCoroId := entries } coro =
      (scheduler.moveToActive coro).map ({ · with timeoutCoroId := entries }) := by
  rw [moveToActive_moves, moveToActive_moves, moveTo_withTimeouts]
  split <;> rfl

section

variable {scheduler : CoroutineScheduler} {clock : Int}

/-- The entry of the coroutine is erased in the turn that wakes it. -/
theorem timeoutTurn_due {time : Int} {id : Nat} {rest : List (Int × Nat)}
    (hentries : s.scheduler = { scheduler with timeoutCoroId := (time, id) :: rest })
    (hdue : ¬ time > clock) {coro : CoroutineInfo} (hcoro : scheduler.coroOf id = .ok coro)
    {moved : CoroutineScheduler} (hmoved : scheduler.moveToActive coro = .ok moved) :
    ∃ turned, s.timeoutTurn clock = .ok turned ∧ turned.pc = .timeoutTurn clock ∧
      turned.scheduler = { moved with timeoutCoroId := rest } := by
  have hid : s.scheduler.coroOf id = .ok coro := by
    rw [hentries]
    exact hcoro
  have hmove : s.scheduler.moveToActive coro =
      .ok { moved with timeoutCoroId := (time, id) :: rest } := by
    rw [hentries, moveToActive_withTimeouts, hmoved]
    rfl
  have hwake : s.wake moveToActive id (.timeoutTurn clock) = .ok (s.note coro
      { moved with timeoutCoroId := (time, id) :: rest } (.timeoutTurn clock)) := by
    simp only [wake, hid, hmove, bind, Except.bind]
  refine ⟨{ s.note coro { moved with timeoutCoroId := (time, id) :: rest }
    (.timeoutTurn clock) with scheduler := { moved with timeoutCoroId := rest } }, ?_, rfl, rfl⟩
  have hfirst : s.scheduler.timeoutCoroId = (time, id) :: rest := by rw [hentries]
  rw [timeoutTurn, hfirst]
  simp only [if_neg hdue, hwake, bind, Except.bind]
  rfl

theorem turns_of_timeoutLoop (now : Int) {entries : List (Int × Nat)}
    (hpc : s.pc = .timeoutTurn clock)
    (hentries : s.scheduler = { scheduler with timeoutCoroId := entries })
    (hloop : timeoutLoop clock scheduler entries = .ok next) :
    ∃ last, ReflTransGen (Proceeds now) s last ∧ last.pc = .wakeupbyself ∧
      last.scheduler = next := by
  induction entries generalizing s scheduler with
  | nil =>
      have hleave : Proceeds now s (s.go .wakeupbyself) := by
        rw [Proceeds, proceed, hpc]
        simp only [timeoutTurn, hentries]
      exact ⟨_, .single hleave, rfl, hentries.trans (Except.ok.inj hloop)⟩
  | cons entry rest ih =>
      obtain ⟨time, id⟩ := entry
      rw [timeoutLoop] at hloop
      split at hloop
      · rename_i hlate
        have hleave : Proceeds now s (s.go .wakeupbyself) := by
          rw [Proceeds, proceed, hpc]
          simp only [timeoutTurn, hentries, if_pos hlate]
        exact ⟨_, .single hleave, rfl, hentries.trans (Except.ok.inj hloop)⟩
      · rename_i hdue
        obtain ⟨coro, hcoro, hrest⟩ := ok_of_bind_ok hloop
        obtain ⟨moved, hmoved, hrest⟩ := ok_of_bind_ok hrest
        obtain ⟨turned, hturn, hturned, hleft⟩ := timeoutTurn_due hentries hdue hcoro hmoved
        have hstep : Proceeds now s turned := by
          rw [Proceeds, proceed, hpc]
          exact hturn
        obtain ⟨last, hturns, hlast⟩ := ih hturned hleft hrest
        exact ⟨last, hturns.head hstep, hlast⟩

end

theorem turns_of_wakeupbytimeout (hpc : s.pc = .wakeupbytimeout)
    (hok : s.scheduler.wakeupbytimeout now = .ok next) :
    ∃ last, ReflTransGen (Proceeds now) s last ∧ last.pc = .wakeupbyself ∧
      last.scheduler = next := by
  have hstep : Proceeds now s (s.go (if s.scheduler.terminal then .wakeupbyself
      else .timeoutTurn now)) := by
    rw [Proceeds, proceed, hpc]
  rw [CoroutineScheduler.wakeupbytimeout] at hok
  split at hok
  · rename_i hterminal
    rw [if_pos hterminal] at hstep
    exact ⟨s.go .wakeupbyself, .single hstep, rfl, Except.ok.inj hok⟩
  · rename_i hrunning
    rw [if_neg hrunning] at hstep
    obtain ⟨last, hturns, hlast⟩ := turns_of_timeoutLoop now
      (s := s.go (.timeoutTurn now)) rfl rfl hok
    exact ⟨last, hturns.head hstep, hlast⟩

/-- The three wake-ups, step by step, are the three functions one after the other. -/
theorem turns_of_wakeups (hpc : s.pc = .wakeupbytimeout)
    (hok : (s.scheduler.wakeupbytimeout now).bind
      (fun timed => timed.wakeupbyself.bind wakeup) = .ok next) :
    ∃ last, ReflTransGen (Proceeds now) s last ∧ last.pc = .switches .active 100 ∧
      last.scheduler = next := by
  obtain ⟨timed, htimed, hrest⟩ := ok_of_bind_ok hok
  obtain ⟨first, hfirst, hpc, rfl⟩ := turns_of_wakeupbytimeout hpc htimed
  obtain ⟨own, hown, hrest⟩ := ok_of_bind_ok hrest
  obtain ⟨second, hsecond, hpc, rfl⟩ := turns_of_wakeupbyself hpc hown
  obtain ⟨third, hthird, hlast⟩ := turns_of_wakeup hpc hrest
  exact ⟨third, (hfirst.trans hsecond).trans hthird, hlast⟩

/-- A resume is a switch to the first coroutine of the list. -/
theorem resume_switchToFirst {list : ReadyList} {loop : Nat} {last : SchedulerTurns}
    (hsome : coroutineHeadEmpty s.scheduler.links (.head list.status) = false)
    (hresume : s.resume list loop = .ok last) :
    s.scheduler.switchToFirst list.status = .ok last.scheduler := by
  rw [switchToFirst, if_neg (by rw [hsome]; exact Bool.false_ne_true)]
  cases hnext : s.scheduler.links.next (.head list.status) with
  | none =>
      rw [resume, hnext] at hresume
      contradiction
  | some coro =>
      rw [resume, hnext] at hresume
      obtain rfl := Except.ok.inj hresume
      rfl

section

variable {list : ReadyList} {loop : Nat} (hpc : s.pc = .runs list loop)
include hpc

theorem call_create {allocs : Nat → Bool} :
    s.call (.createCoroutine allocs) = s.create allocs := by
  simp only [SchedulerTurns.call, hpc]

/-- The coroutine that runs stops. -/
theorem call_stop {coro : CoroutineInfo} (hcurrent : s.scheduler.currentCoro = some coro)
    {call : CoroutineCall} (hother : ∀ allocs, call ≠ .createCoroutine allocs)
    {last : SchedulerTurns} (hcall : s.call call = .ok last) :
    ∃ scheduler, (SchedulerThreads.callOf s.scheduler call).2 = .ok scheduler ∧
      last = s.note coro scheduler (.switches list (loop - 1)) := by
  have hstop : s.call call = (SchedulerThreads.callOf s.scheduler call).2.bind
      fun next => .ok (s.note coro next (.switches list (loop - 1))) := by
    cases call with
    | createCoroutine allocs => exact absurd rfl (hother allocs)
    | _ => simp only [SchedulerTurns.call, hpc, hcurrent, bind]
  obtain ⟨scheduler, hok, hdone⟩ := ok_of_bind_ok (hstop.symm.trans hcall)
  exact ⟨scheduler, hok, (Except.ok.inj hdone).symm⟩

end

end

end SchedulerTurns

end Tarsx
