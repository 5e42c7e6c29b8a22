/-
`CoroutineScheduler`: coroutines on five circular lists, the pool they are taken
from, and the functions that move them.  What a coroutine does while it runs is left
to the caller; a switch to another coroutine only changes which one runs.
-/
import Tarsx.Foundation.Ring
import Tarsx.Foundation.Run
import Tarsx.Foundation.Word
import Tarsx.Memory

namespace Tarsx

open Foundation

/-- `CORO_STATUS`.  Each status has a list: `free_`, `active_`, `avail_`, `inactive_`
and `timeout_`. -/
inductive CoroStatus where
  | free
  | active
  | avail
  | inactive
  | timeout
deriving DecidableEq, Repr

/-- The `CoroutineInfo` objects of a scheduler: the heads of its lists, `mainCoro_`,
and the coroutines, named by their `uid_`. -/
inductive CoroutineInfo where
  | head (list : CoroStatus)
  | main
  | coroutine (uid : Nat)
deriving DecidableEq, Repr

/-- The argument of `sleep`: an `int` whose negation is one as well. -/
structure SleepTime where
  value : Int
  range : -2 ^ 31 < value ∧ value < 2 ^ 31
deriving DecidableEq, Repr

/-- A literal counts modulo 2^31. -/
instance (n : Nat) : OfNat SleepTime n where
  ofNat := ⟨(n % 2 ^ 31 : Nat), by omega⟩

/-- The fields of `CoroutineScheduler`.  `allCoro_` is a vector of `allCoroSize`
pointers; `links` and `status` hold `next_`, `prev_` and `status_` of every object. -/
structure CoroutineScheduler where
  terminal : Bool := false
  poolSize : Nat := 1000
  currentSize : Nat := 0
  usedSize : Nat := 0
  uniqId : Nat := 0
  currentCoro : Option CoroutineInfo := none
  allCoro : Nat → Option CoroutineInfo := fun _ => none
  allCoroSize : Nat := 1000
  links : Links CoroutineInfo
  status : CoroutineInfo → CoroStatus := fun _ => .free
  activeCoroQueue : List Nat := []
  needActiveCoroId : List Nat := []
  timeoutCoroId : List (Int × Nat) := []

namespace CoroutineInfo

/-- `get_uid`. -/
def uid : CoroutineInfo → Nat
  | .coroutine uid => uid
  | _ => 0

/-- `coroutineHeadEmpty`. -/
def coroutineHeadEmpty (links : Links CoroutineInfo) (coroHead : CoroutineInfo) : Bool :=
  decide (links.next coroHead = some coroHead)

/-- `coroutineAddTail`. -/
def coroutineAddTail (links : Links CoroutineInfo) (newCoro coroHead : CoroutineInfo) :
    Except Fault (Links CoroutineInfo) :=
  match links.prev coroHead with
  | none => .error .nullPointer
  | some prev => .ok (links.link newCoro prev coroHead)

/-- `coroutineDel`. -/
def coroutineDel (links : Links CoroutineInfo) (coro : CoroutineInfo) :
    Except Fault (Links CoroutineInfo) :=
  match links.prev coro, links.next coro with
  | some prev, some next => .ok (links.unlink coro prev next)
  | _, _ => .error .nullPointer

end CoroutineInfo

namespace CoroutineScheduler

open CoroutineInfo

/-- The constructor: five empty lists. -/
def construct : CoroutineScheduler :=
  { links := (((((Links.mk (fun _ => none) fun _ => none).selfLink (.head .active)).selfLink
      (.head .avail)).selfLink (.head .inactive)).selfLink (.head .timeout)).selfLink
      (.head .free) }

/-- `allCoro_[id]` with the `assert` that follows it. -/
def coroOf (s : CoroutineScheduler) (id : Nat) : Except Fault CoroutineInfo :=
  if id < s.allCoroSize then
    match s.allCoro id with
    | none => .error .assertion
    | some coro => .ok coro
  else .error .outOfBounds

/-! ### Moves between the lists -/

/-- `moveTo`, and what the other moves do in each of their branches. -/
def moveTo (s : CoroutineScheduler) (coro : CoroutineInfo) (list : CoroStatus) :
    Except Fault CoroutineScheduler := do
  let links ← coroutineDel s.links coro
  let links ← coroutineAddTail links coro (.head list)
  .ok { s with links := links, status := Function.update s.status coro list }

def moveToActive (s : CoroutineScheduler) (coro : CoroutineInfo) :
    Except Fault CoroutineScheduler :=
  if s.status coro = .inactive then s.moveTo coro .active
  else if s.status coro = .timeout then s.moveTo coro .active
  else .ok s

def moveToAvail (s : CoroutineScheduler) (coro : CoroutineInfo) :
    Except Fault CoroutineScheduler :=
  if s.status coro = .inactive then s.moveTo coro .avail else .ok s

def moveToInactive (s : CoroutineScheduler) (coro : CoroutineInfo) :
    Except Fault CoroutineScheduler :=
  if s.status coro = .active then s.moveTo coro .inactive
  else if s.status coro = .avail then s.moveTo coro .inactive
  else .ok s

def moveToTimeout (s : CoroutineScheduler) (coro : CoroutineInfo) :
    Except Fault CoroutineScheduler :=
  if s.status coro = .active then s.moveTo coro .timeout
  else if s.status coro = .avail then s.moveTo coro .timeout
  else .ok s

def moveToFreeList (s : CoroutineScheduler) (coro : CoroutineInfo) :
    Except Fault CoroutineScheduler :=
  match s.status coro with
  | .active => s.moveTo coro .free
  | .avail => s.moveTo coro .free
  | .inactive => s.moveTo coro .free
  | .timeout => s.moveTo coro .free
  | .free => .ok s

/-- A move that takes a coroutine off some of the lists and leaves it on the others. -/
def MovesFrom (move : CoroutineScheduler → CoroutineInfo → Except Fault CoroutineScheduler)
    (waiting : List CoroStatus) (target : CoroStatus) : Prop :=
  ∀ s coro, move s coro = if s.status coro ∈ waiting then s.moveTo coro target else .ok s

theorem moveToActive_moves : MovesFrom moveToActive [.inactive, .timeout] .active := by
  intro s coro
  rw [moveToActive]
  by_cases hinactive : s.status coro = .inactive <;> simp [hinactive]

theorem moveToAvail_moves : MovesFrom moveToAvail [.inactive] .avail := by
  intro s coro
  simp [moveToAvail]

theorem moveToInactive_moves : MovesFrom moveToInactive [.active, .avail] .inactive := by
  intro s coro
  rw [moveToInactive]
  by_cases hactive : s.status coro = .active <;> simp [hactive]

theorem moveToTimeout_moves : MovesFrom moveToTimeout [.active, .avail] .timeout := by
  intro s coro
  rw [moveToTimeout]
  by_cases hactive : s.status coro = .active <;> simp [hactive]

/-! ### The pool -/

/-- `generateId`. -/
def generateId (s : CoroutineScheduler) : Except Fault (Nat × CoroutineScheduler) :=
  let next := word32Add s.uniqId 1
  let id := if next < 1 then next + 1 else next
  if id ≤ s.poolSize then .ok (id, { s with uniqId := id }) else .error .assertion

/-- A coroutine gets its status, its place in `allCoro_` and its place on `free_`. -/
def addCoroutine (s : CoroutineScheduler) (id : Nat) : Except Fault CoroutineScheduler :=
  if id < s.allCoroSize then do
    let links ← coroutineAddTail s.links (.coroutine id) (.head .free)
    .ok { s with
      status := Function.update s.status (.coroutine id) .free
      allCoro := Function.update s.allCoro id (some (.coroutine id))
      links := links }
  else .error .outOfBounds

/-- The loop of `init`, from a turn on; `allocs` tells of each turn whether its stack
is allocated.  The result holds `succ`. -/
def initLoop (allocs : Nat → Bool) :
    Nat → Nat → CoroutineScheduler → Except Fault (Nat × CoroutineScheduler)
  | _, 0, s => .ok (0, s)
  | turn, turns + 1, s =>
      if allocs turn then do
        let (id, s) ← s.generateId
        let s ← s.addCoroutine id
        let (succ, s) ← initLoop allocs (turn + 1) turns s
        .ok (succ + 1, s)
      else .ok (0, s)

/-- `init`.  The size of `allCoro_` is computed in 32 bits. -/
def init (s : CoroutineScheduler) (poolSize : Nat) (allocs : Nat → Bool) :
    Except Fault CoroutineScheduler :=
  if poolSize = 0 then .ok s
  else do
    let currentSize := if poolSize ≤ 100 then poolSize else 100
    let (succ, s) ← initLoop allocs 0 currentSize
      { s with
        terminal := false
        poolSize := poolSize
        currentSize := currentSize
        allCoro := if s.allCoroSize = 0 then s.allCoro else fun _ => none
        allCoroSize := if s.allCoroSize = 0 then 0 else word32Add poolSize 1
        usedSize := 0
        uniqId := 0 }
    .ok { s with
      currentSize := succ
      status := Function.update s.status .main .free
      currentCoro := some .main }

/-- The loop of `increaseCoroPoolSize`, which takes an id before it allocates. -/
def increaseLoop (allocs : Nat → Bool) :
    Nat → Nat → CoroutineScheduler → Except Fault (Nat × CoroutineScheduler)
  | _, 0, s => .ok (0, s)
  | turn, turns + 1, s => do
      let (id, s) ← s.generateId
      if allocs turn then do
        let s ← s.addCoroutine id
        let (succ, s) ← increaseLoop allocs (turn + 1) turns s
        .ok (succ + 1, s)
      else .ok (0, s)

/-- `increaseCoroPoolSize`. -/
def increaseCoroPoolSize (s : CoroutineScheduler) (allocs : Nat → Bool) :
    Except Fault (Int × CoroutineScheduler) :=
  let room := word32Sub s.poolSize s.currentSize
  let inc := if room > 100 then 100 else room
  if inc = 0 then .ok (-1, s)
  else do
    let (succ, s) ← increaseLoop allocs 0 inc s
    if succ = 0 then .ok (-1, s)
    else .ok (0, { s with currentSize := word32Add s.currentSize succ })

/-- The first part of `createCoroutine`: the pool grows if it must, and the result
tells whether a coroutine can be made. -/
def growIfNeeded (s : CoroutineScheduler) (allocs : Nat → Bool) :
    Except Fault (Bool × CoroutineScheduler) :=
  if s.usedSize ≥ s.currentSize ∨ coroutineHeadEmpty s.links (.head .free) = true then do
    let (ret, s) ← s.increaseCoroPoolSize allocs
    .ok (decide (ret = 0), s)
  else .ok (true, s)

/-- The rest of `createCoroutine`: the first coroutine of `free_` goes to `avail_`. -/
def takeFree (s : CoroutineScheduler) : Except Fault (Nat × CoroutineScheduler) :=
  match s.links.next (.head .free) with
  | none => .error .assertion
  | some coro => do
      let links ← coroutineDel s.links coro
      let links ← coroutineAddTail links coro (.head .avail)
      .ok (coro.uid, { s with
        links := links
        status := Function.update s.status coro .avail
        usedSize := word32Add s.usedSize 1 })

/-- `createCoroutine`: the new id, or 0. -/
def createCoroutine (s : CoroutineScheduler) (allocs : Nat → Bool) :
    Except Fault (Nat × CoroutineScheduler) := do
  let (room, s) ← s.growIfNeeded allocs
  if room then s.takeFree else .ok (0, s)

/-! ### Switches and wake-ups -/

/-- `switchCoro`. -/
def switchCoro (s : CoroutineScheduler) (target : CoroutineInfo) : CoroutineScheduler :=
  { s with currentCoro := some target }

/-- `putbyself`. -/
def putbyself (s : CoroutineScheduler) (coroId : Nat) : CoroutineScheduler :=
  if s.terminal then s else { s with needActiveCoroId := s.needActiveCoroId ++ [coroId] }

/-- `yield` of the running coroutine. -/
def yield (s : CoroutineScheduler) (flag : Bool) : Except Fault CoroutineScheduler :=
  match s.currentCoro with
  | none => .error .nullPointer
  | some coro => do
      let s ← moveToInactive (if flag then s.putbyself coro.uid else s) coro
      .ok (s.switchCoro .main)

/-- `insert` of a `multimap`: behind the entries with the same key. -/
def insertTimeout (entry : Int × Nat) : List (Int × Nat) → List (Int × Nat)
  | [] => [entry]
  | first :: rest =>
      if entry.1 < first.1 then entry :: first :: rest
      else first :: insertTimeout entry rest

/-- `sleep` of the running coroutine. -/
def sleep (s : CoroutineScheduler) (sleeptime : SleepTime) (now : Int) :
    Except Fault CoroutineScheduler :=
  match s.currentCoro with
  | none => .error .nullPointer
  | some coro => do
      let timeout := now + (if sleeptime.value ≥ 0 then sleeptime.value else -sleeptime.value)
      let s ← moveToTimeout
        { s with timeoutCoroId := insertTimeout (timeout, coro.uid) s.timeoutCoroId } coro
      .ok (s.switchCoro .main)

/-- The end of `corotineProc` for the running coroutine. -/
def finish (s : CoroutineScheduler) : Except Fault CoroutineScheduler :=
  match s.currentCoro with
  | none => .error .nullPointer
  | some coro => do
      let s ← moveToFreeList { s with usedSize := word32Sub s.usedSize 1 } coro
      .ok (s.switchCoro .main)

/-- `put`. -/
def put (s : CoroutineScheduler) (coroId : Nat) : CoroutineScheduler :=
  if s.terminal then s else { s with activeCoroQueue := s.activeCoroQueue ++ [coroId] }

/-- The loops of `wakeup` and `wakeupbyself`: each id is looked up and moved. -/
def wakeLoop (move : CoroutineScheduler → CoroutineInfo → Except Fault CoroutineScheduler) :
    CoroutineScheduler → List Nat → Except Fault CoroutineScheduler
  | s, [] => .ok s
  | s, id :: rest => do
      let coro ← s.coroOf id
      let s ← move s coro
      wakeLoop move s rest

/-- `wakeupbyself`. -/
def wakeupbyself (s : CoroutineScheduler) : Except Fault CoroutineScheduler :=
  if s.terminal then .ok s
  else do
    let s ← wakeLoop moveToAvail s s.needActiveCoroId
    .ok { s with needActiveCoroId := [] }

/-- `wakeup`. -/
def wakeup (s : CoroutineScheduler) : Except Fault CoroutineScheduler :=
  if s.terminal then .ok s
  else wakeLoop moveToActive { s with activeCoroQueue := [] } s.activeCoroQueue

/-- The loop of `wakeupbytimeout` over the entries, the earliest first. -/
def timeoutLoop (now : Int) :
    CoroutineScheduler → List (Int × Nat) → Except Fault CoroutineScheduler
  | s, [] => .ok { s with timeoutCoroId := [] }
  | s, (time, id) :: rest =>
      if time > now then .ok { s with timeoutCoroId := (time, id) :: rest }
      else do
        let coro ← s.coroOf id
        let s ← s.moveToActive coro
        timeoutLoop now s rest

/-- `wakeupbytimeout`. -/
def wakeupbytimeout (s : CoroutineScheduler) (now : Int) :
    Except Fault CoroutineScheduler :=
  if s.terminal then .ok s else timeoutLoop now s s.timeoutCoroId

/-- A switch of `run` or `tars_run` to the first coroutine of `active_` or
`avail_`. -/
def switchToFirst (s : CoroutineScheduler) (list : CoroStatus) :
    Except Fault CoroutineScheduler :=
  if coroutineHeadEmpty s.links (.head list) then .ok s
  else
    match s.links.next (.head list) with
    | none => .error .assertion
    | some coro => .ok (s.switchCoro coro)

/-! ### The end -/

/-- `terminate`. -/
def terminate (s : CoroutineScheduler) : CoroutineScheduler := { s with terminal := true }

/-- `destroy`: the places of `allCoro_` up to `poolSize_` are read, and the stacks of the
coroutines there, which are no part of the state, are freed. -/
def destroy (s : CoroutineScheduler) : Except Fault Unit :=
  if s.allCoroSize = 0 then .ok ()
  else if s.poolSize < s.allCoroSize then .ok ()
  else .error .outOfBounds

/-! ### Runs -/

/-- What the scheduler's thread does, a coroutine that runs on it, or, for `put` and
`terminate`, any thread. -/
inductive SchedulerAction where
  | createCoroutine (allocs : Nat → Bool)
  | yield (flag : Bool)
  | sleep (sleeptime : SleepTime) (now : Int)
  | finish
  | put (coroId : Nat)
  | wakeup
  | wakeupbyself
  | wakeupbytimeout (now : Int)
  | switchToActive
  | switchToAvail
  | terminate

def schedulerStep (s : CoroutineScheduler) :
    SchedulerAction → Except Fault CoroutineScheduler
  | .createCoroutine allocs => do
      let (_, s) ← s.createCoroutine allocs
      .ok s
  | .yield flag => s.yield flag
  | .sleep sleeptime now => s.sleep sleeptime now
  | .finish => s.finish
  | .put coroId => .ok (s.put coroId)
  | .wakeup => s.wakeup
  | .wakeupbyself => s.wakeupbyself
  | .wakeupbytimeout now => s.wakeupbytimeout now
  | .switchToActive => s.switchToFirst .active
  | .switchToAvail => s.switchToFirst .avail
  | .terminate => .ok s.terminate

end CoroutineScheduler

end Tarsx
