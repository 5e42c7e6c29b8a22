/-
The thread of a `ServantHandle`: the loop of `run` over `tars_run` until the server
terminates, the coroutine of `handleRequest`, and the coroutines of the requests it
takes, on one scheduler.  Only one of them goes on at a time; each step of the thread is
a piece of the one that does.  `heartbeat` and the waits on monitors, which change
nothing here, are left out.
-/
import Tarsx.Message
import Tarsx.SchedulerInvariant

namespace Tarsx

open Foundation

/-- The `callback_` of a coroutine: `handleRequest`, or the lambda that handles a
request.  The requests that were taken are numbered. -/
inductive Callback where
  | handleRequest
  | handle (serial : Nat) (recv : TagRecvData)
deriving DecidableEq, Repr

/-- Where the main coroutine is in `run`: at the test of its loop, in one of the two loops
of `tars_run`, before `destroy`, or behind it, where the thread ends. -/
inductive RunPlace where
  | turn
  | activeLoop (loop : Nat)
  | availLoop (loop : Nat)
  | terminated
  | ended
deriving DecidableEq, Repr

/-- The loop of `run` goes on. -/
def RunPlace.Loops (place : RunPlace) : Prop := place ≠ .terminated ∧ place ≠ .ended

/-- Where `handleRequest` is: at the top of its loop, before the next adapter, or in the
loop over the queue of an adapter. -/
inductive RequestPlace where
  | top
  | adapters (rest : List Nat) (yield : Bool)
  | queue (adapter : Nat) (rest : List Nat) (loop : Nat) (flag yield : Bool)
deriving DecidableEq, Repr

/-- A `ServantHandle` on its thread: the adapters of its group and their queues, the
scheduler, `terminate_` of its `EpollServer`, the callbacks that were registered and
whether they have begun, where the loops are, and, for the record, the requests taken
from the queues, the ids that `createCoroutine` returned, and the requests passed to
`handle`. -/
structure ServantHandle where
  adapters : List Nat
  receiveBuffers : Nat → List TagRecvData
  scheduler : CoroutineScheduler
  isTerminate : Bool := false
  callback : Nat → Option Callback := fun _ => none
  begun : Nat → Bool := fun _ => false
  main : RunPlace := .turn
  request : RequestPlace := .top
  taken : List TagRecvData := []
  returned : List Nat := []
  handled : List (Nat × TagRecvData) := []

namespace ServantHandle

open CoroutineScheduler CoroutineInfo

/-- What `createCoroutine` and the `registerFunc` in it leave: with an id other than 0
the coroutine gets its callback, which has not begun. -/
def registered (s : ServantHandle) (id : Nat) (scheduler : CoroutineScheduler)
    (callback : Callback) : ServantHandle :=
  if id = 0 then { s with scheduler := scheduler, returned := s.returned ++ [id] }
  else
    { s with
      scheduler := scheduler
      returned := s.returned ++ [id]
      callback := Function.update s.callback id (some callback)
      begun := Function.update s.begun id false }

/-- `run` up to its loop. -/
def start (poolSize : Nat) (adapters : List Nat) (receiveBuffers : Nat → List TagRecvData)
    (initAllocs allocs : Nat → Bool) : Except Fault ServantHandle := do
  let scheduler ← construct.init poolSize initAllocs
  let (ret, next) ← scheduler.createCoroutine allocs
  let s : ServantHandle :=
    { adapters := adapters, receiveBuffers := receiveBuffers, scheduler := scheduler }
  .ok (s.registered ret next .handleRequest)

/-- The main coroutine goes on.  `stopHandle` does nothing. -/
def runMain (s : ServantHandle) (now : Int) : Except Fault ServantHandle :=
  match s.main with
  | .turn =>
      if s.isTerminate then
        .ok { s with scheduler := s.scheduler.terminate, main := .terminated }
      else if s.scheduler.terminal then .ok s
      else do
        let scheduler ← s.scheduler.wakeupbytimeout now
        let scheduler ← scheduler.wakeupbyself
        let scheduler ← scheduler.wakeup
        .ok { s with scheduler := scheduler, main := .activeLoop 100 }
  | .activeLoop loop =>
      if loop > 0 ∧ coroutineHeadEmpty s.scheduler.links (.head .active) = false then do
        let scheduler ← s.scheduler.switchToFirst .active
        .ok { s with scheduler := scheduler, main := .activeLoop (loop - 1) }
      else .ok { s with main := .availLoop 100 }
  | .availLoop loop =>
      if loop > 0 ∧ coroutineHeadEmpty s.scheduler.links (.head .avail) = false then do
        let scheduler ← s.scheduler.switchToFirst .avail
        .ok { s with scheduler := scheduler, main := .availLoop (loop - 1) }
      else .ok { s with main := .turn }
  | .terminated => do
      s.scheduler.destroy
      .ok { s with main := .ended }
  | .ended => .ok s

/-- `yield` in `handleRequest`, which goes on at the top of its loop. -/
def yieldRequest (s : ServantHandle) : Except Fault ServantHandle := do
  let scheduler ← s.scheduler.yield true
  .ok { s with scheduler := scheduler, request := .top }

/-- A turn of the loop over the queue of an adapter.  A message about a closed
connection is deleted; the pointer of a request is released before its coroutine is
created. -/
def takeRequest (s : ServantHandle) (allocs : Nat → Bool) (adapter : Nat) (rest : List Nat)
    (loop : Nat) (flag : Bool) : Except Fault ServantHandle :=
  match s.receiveBuffers adapter with
  | [] => .ok { s with request := .queue adapter rest loop false false }
  | recv :: others =>
      let s := { s with
        receiveBuffers := Function.update s.receiveBuffers adapter others
        request := .queue adapter rest loop flag true }
      let recv := { recv with adapter := some adapter }
      if recv.closed then .ok s
      else do
        let (ret, scheduler) ← s.scheduler.createCoroutine allocs
        let callback := Callback.handle s.taken.length recv
        .ok (registered { s with taken := s.taken ++ [recv] } ret scheduler callback)

/-- What a request leaves that was taken, with the result of `createCoroutine`. -/
def afterTake (s : ServantHandle) (adapter : Nat) (rest : List Nat) (loop : Nat)
    (recv : TagRecvData) (others : List TagRecvData) (ret : Nat)
    (scheduler : CoroutineScheduler) : ServantHandle :=
  registered { s with
      receiveBuffers := Function.update s.receiveBuffers adapter others
      request := .queue adapter rest loop true true
      taken := s.taken ++ [{ recv with adapter := some adapter }] }
    ret scheduler (.handle s.taken.length { recv with adapter := some adapter })

/-- The message at the front of the queue is a request. -/
theorem takeRequest_request {s : ServantHandle} {adapter : Nat} {recv : TagRecvData}
    {others : List TagRecvData} (hqueue : s.receiveBuffers adapter = recv :: others)
    (hopen : recv.closed = false) (allocs : Nat → Bool) (rest : List Nat) (loop : Nat) :
    s.takeRequest allocs adapter rest loop true =
      (s.scheduler.createCoroutine allocs).bind fun made =>
        .ok (s.afterTake adapter rest loop recv others made.1 made.2) := by
  simp only [takeRequest, hqueue]
  rw [if_neg (by simp [hopen])]
  rfl

/-- `handleRequest` goes on. -/
def runRequest (s : ServantHandle) (allocs : Nat → Bool) : Except Fault ServantHandle :=
  match s.request with
  | .top =>
      if s.scheduler.activeCoroQueue.length > 0 then s.yieldRequest
      else .ok { s with request := .adapters s.adapters false }
  | .adapters [] yield =>
      if yield then .ok { s with request := .top } else s.yieldRequest
  | .adapters (adapter :: rest) yield =>
      .ok { s with request := .queue adapter rest 100 true yield }
  | .queue adapter rest loop flag yield =>
      if flag ∧ loop > 0 then s.takeRequest allocs adapter rest (loop - 1) flag
      else .ok { s with request := .adapters rest (if loop = 0 then false else yield) }

/-- What the handler of a request does next. -/
inductive HandlerStep where
  | yield (flag : Bool)
  | sleep (sleeptime : SleepTime) (now : Int)
  | finish

def handlerStep (scheduler : CoroutineScheduler) :
    HandlerStep → Except Fault CoroutineScheduler
  | .yield flag => scheduler.yield flag
  | .sleep sleeptime now => scheduler.sleep sleeptime now
  | .finish => scheduler.finish

/-- The coroutine of a request goes on: its request is passed to `handle`, and then the
handler does what it does. -/
def runHandler (s : ServantHandle) (uid serial : Nat) (recv : TagRecvData)
    (handler : HandlerStep) : Except Fault ServantHandle :=
  if s.begun uid then do
    let scheduler ← handlerStep s.scheduler handler
    .ok { s with scheduler := scheduler }
  else
    .ok { s with
      begun := Function.update s.begun uid true
      handled := s.handled ++ [(serial, recv)] }

/-- The thread goes on.  A coroutine without a callback would end at once. -/
def thread (s : ServantHandle) (now : Int) (allocs : Nat → Bool) (handler : HandlerStep) :
    Except Fault ServantHandle :=
  match s.scheduler.currentCoro with
  | some (.coroutine uid) =>
      match s.callback uid with
      | some .handleRequest => s.runRequest allocs
      | some (.handle serial recv) => s.runHandler uid serial recv handler
      | none => do
          let scheduler ← s.scheduler.finish
          .ok { s with scheduler := scheduler }
  | _ => s.runMain now

/-- What happens: a message arrives at an adapter or is taken by another handle of the
group, any thread puts the id of a coroutine or terminates the server, and the thread
goes on, at some time, with stacks allocated or not and with what a handler does. -/
inductive Action where
  | arrive (adapter : Nat) (recv : TagRecvData)
  | takenByOther (adapter : Nat)
  | put (coroId : Nat)
  | terminate
  | thread (now : Int) (allocs : Nat → Bool) (handler : HandlerStep)

def step (s : ServantHandle) : Action → Except Fault ServantHandle
  | .arrive adapter recv => .ok { s with
      receiveBuffers := Function.update s.receiveBuffers adapter
        (s.receiveBuffers adapter ++ [recv]) }
  | .takenByOther adapter => .ok { s with
      receiveBuffers := Function.update s.receiveBuffers adapter
        (s.receiveBuffers adapter).tail }
  | .put coroId => .ok { s with scheduler := s.scheduler.put coroId }
  | .terminate => .ok { s with isTerminate := true }
  | .thread now allocs handler => s.thread now allocs handler

end ServantHandle

end Tarsx
