/-
`CoroutineScheduler::run` on its thread, and the threads that call `put` and `terminate`
on a scheduler without a handle, interleaved in any way.  `activeCoroQueue_` has a lock of
its own; the monitor is the one `run` waits on when it has nothing to do.
-/
import Tarsx.CoroutineScheduler
import Tarsx.Foundation.Exclusion
import Tarsx.Monitor

namespace Tarsx

open Foundation

universe u

variable {Thread : Type u}

/-- The thread of `run`, or another one. -/
inductive SchedulerParty (Thread : Type u) where
  | runner
  | other (thread : Thread)
deriving DecidableEq, Repr

/-- Where a thread is in an operation of `activeCoroQueue_`, each of which holds the lock
of the queue from its first to its last statement. -/
inductive QueuePc (α : Type) where
  | lock
  | body
  | release (result : α)
deriving DecidableEq, Repr

/-- Where a thread is in `put` or `terminate`.  They end alike, and `pushed` tells which of
them it is. -/
inductive PutPc where
  | out
  /-- the `if (!terminal_)` of `put` -/
  | put (coroId : Nat)
  | pushBack (coroId : Nat) (queue : QueuePc Unit)
  /-- `terminal_ = true` -/
  | terminate
  | lock (pushed : Bool)
  | notifyAll (pushed : Bool)
  /-- the `notifyImpl` of `unlock` -/
  | signal (pushed : Bool)
  | release (pushed : Bool)
deriving DecidableEq, Repr

/-- Where the scheduler's thread is in `run`. -/
inductive RunPc where
  /-- `while (!terminal_)` -/
  | loop
  /-- the test of `avail_` and `active_` -/
  | lists
  | lock
  /-- `activeCoroQueue_.size()`, with the monitor held -/
  | size (queue : QueuePc Nat)
  /-- `monitor_.timedWait(1000)` -/
  | wait
  /-- inside `pthread_cond_timedwait` -/
  | blocked
  | signal
  | release
  | wakeupbytimeout
  | wakeupbyself
  /-- the `if (!terminal_)` of `wakeup` -/
  | wakeup
  | wakeupSize (queue : QueuePc Nat)
  | wakeupSwap (queue : QueuePc (List Nat))
  /-- the loop of `wakeup` over the ids it took -/
  | wakeupMove (coroIds : List Nat)
  /-- `while (loop > 0 && ...)` -/
  | active (loop : Nat)
  /-- a coroutine of `active_` runs -/
  | activeRuns (loop : Nat)
  | avail
  /-- a coroutine of `avail_` runs -/
  | availRuns
  /-- `if (usedSize_ == 0)` -/
  | used
  /-- behind the loop -/
  | done
deriving DecidableEq, Repr

def PutPc.holds : PutPc → Bool
  | .notifyAll _ | .signal _ | .release _ => true
  | _ => false

/-- A `put` is between its `push_back` and the release of the monitor. -/
def PutPc.pushing : PutPc → Bool
  | .pushBack _ (.release _) => true
  | .lock pushed | .notifyAll pushed | .signal pushed | .release pushed => pushed
  | _ => false

def RunPc.holds : RunPc → Bool
  | .size _ | .wait | .signal | .release => true
  | _ => false

/-- `run` has seen an empty queue and is about to wait. -/
def RunPc.commits : RunPc → Bool
  | .size (.release n) => decide (n ≤ 0)
  | .wait => true
  | _ => false

/-- What a thread is inside `pthread_cond_wait` with. -/
def RunPc.parks : RunPc → List (SchedulerParty Thread)
  | .blocked => [.runner]
  | _ => []

/-- A scheduler and its threads.  `pushed` are the ids that were put into
`activeCoroQueue_`, the earliest first, and `taken` those that each `wakeup` took. -/
structure SchedulerThreads (Thread : Type u) where
  scheduler : CoroutineScheduler
  monitor : Monitor (SchedulerParty Thread) := {}
  queueHolder : Option (SchedulerParty Thread) := none
  runner : RunPc := .loop
  pc : Thread → PutPc := fun _ => .out
  pushed : List Nat := []
  taken : List (List Nat) := []

/-- What a coroutine does while it runs: all but the first go back to `mainCoro_`. -/
inductive CoroutineCall where
  | createCoroutine (allocs : Nat → Bool)
  | yield (flag : Bool)
  | sleep (sleeptime : SleepTime) (now : Int)
  | finish

/-- A call begins, or a thread takes its next step.  `refused` tells whether
`pthread_cond_timedwait` comes back at once, and `now` is the clock that `wakeupbytimeout`
reads; `wake` is the end of the second or a wake-up without a signal. -/
inductive ThreadsAction (Thread : Type u) where
  | put (thread : Thread) (coroId : Nat)
  | terminate (thread : Thread)
  | proceed (thread : Thread)
  | runner (refused : Bool) (now : Int)
  | coroutine (call : CoroutineCall)
  | wake

namespace SchedulerThreads

open CoroutineScheduler CoroutineInfo

variable [DecidableEq Thread]

/-- A scheduler that no thread uses yet. -/
def start (scheduler : CoroutineScheduler) : SchedulerThreads Thread :=
  { scheduler := scheduler, pushed := scheduler.activeCoroQueue }

/-- The next step of `put` or `terminate`. -/
def proceed (s : SchedulerThreads Thread) (thread : Thread) : SchedulerThreads Thread :=
  let goes := fun pc => Function.update s.pc thread pc
  match s.pc thread with
  | .out => s
  | .put coroId =>
      { s with pc := goes (if s.scheduler.terminal then .out else .pushBack coroId .lock) }
  | .pushBack coroId .lock =>
      if s.queueHolder.isNone then
        { s with queueHolder := some (.other thread), pc := goes (.pushBack coroId .body) }
      else s
  | .pushBack coroId .body =>
      { s with
        scheduler :=
          { s.scheduler with activeCoroQueue := s.scheduler.activeCoroQueue ++ [coroId] }
        pushed := s.pushed ++ [coroId]
        pc := goes (.pushBack coroId (.release ())) }
  | .pushBack _ (.release _) => { s with queueHolder := none, pc := goes (.lock true) }
  | .terminate =>
      { s with scheduler := { s.scheduler with terminal := true }, pc := goes (.lock false) }
  | .lock pushed =>
      match s.monitor.lock (.other thread) with
      | none => s
      | some locked => { s with monitor := locked, pc := goes (.notifyAll pushed) }
  | .notifyAll pushed => { s with monitor := s.monitor.notifyAll, pc := goes (.signal pushed) }
  | .signal pushed =>
      { s with monitor := s.monitor.notifyImpl [], pc := goes (.release pushed) }
  | .release _ => { s with monitor := s.monitor.release, pc := goes .out }

/-- A step of an operation of `activeCoroQueue_` by the scheduler's thread: the lock, what
the operation does and returns, or the release. -/
def queueStep {α : Type} (s : SchedulerThreads Thread) (pc : QueuePc α → RunPc)
    (body : SchedulerThreads Thread → α × SchedulerThreads Thread) (next : α → RunPc) :
    QueuePc α → SchedulerThreads Thread
  | .lock =>
      if s.queueHolder.isNone then
        { s with queueHolder := some .runner, runner := pc .body }
      else s
  | .body => { (body s).2 with runner := pc (.release (body s).1) }
  | .release result => { s with queueHolder := none, runner := next result }

/-- `activeCoroQueue_.size()`. -/
def queueSize (s : SchedulerThreads Thread) : Nat × SchedulerThreads Thread :=
  (s.scheduler.activeCoroQueue.length, s)

/-- `activeCoroQueue_.swap(coroIds)` with an empty `coroIds`. -/
def queueSwap (s : SchedulerThreads Thread) : List Nat × SchedulerThreads Thread :=
  (s.scheduler.activeCoroQueue,
    { s with
      scheduler := { s.scheduler with activeCoroQueue := [] }
      taken := s.taken ++ [s.scheduler.activeCoroQueue] })

/-- A step of `run` that is one of the scheduler's functions. -/
def advance (s : SchedulerThreads Thread) (step : Except Fault CoroutineScheduler)
    (pc : RunPc) : Except Fault (SchedulerThreads Thread) :=
  match step with
  | .error fault => .error fault
  | .ok scheduler => .ok { s with scheduler := scheduler, runner := pc }

/-- The next step of `run`.  While a coroutine runs, it is the coroutine that goes on. -/
def runnerStep (s : SchedulerThreads Thread) (refused : Bool) (now : Int) :
    Except Fault (SchedulerThreads Thread) :=
  match s.runner with
  | .loop => .ok { s with runner := if s.scheduler.terminal then .done else .lists }
  | .lists =>
      .ok { s with
        runner :=
          if coroutineHeadEmpty s.scheduler.links (.head .avail) &&
              coroutineHeadEmpty s.scheduler.links (.head .active) then .lock
          else .wakeupbytimeout }
  | .lock =>
      match s.monitor.lock .runner with
      | none => .ok s
      | some locked => .ok { s with monitor := locked, runner := .size .lock }
  | .size queue =>
      .ok (s.queueStep .size queueSize (fun n => if n ≤ 0 then .wait else .signal) queue)
  | .wait =>
      if refused then
        .ok { s with
          monitor := { s.monitor.notifyImpl [] with notify_ := 0 }, runner := .signal }
      else .ok { s with monitor := s.monitor.wait .runner [], runner := .blocked }
  | .blocked =>
      match s.monitor.resume .runner with
      | none => .ok s
      | some resumed => .ok { s with monitor := resumed, runner := .signal }
  | .signal => .ok { s with monitor := s.monitor.notifyImpl [], runner := .release }
  | .release => .ok { s with monitor := s.monitor.release, runner := .wakeupbytimeout }
  | .wakeupbytimeout => s.advance (s.scheduler.wakeupbytimeout now) .wakeupbyself
  | .wakeupbyself => s.advance s.scheduler.wakeupbyself .wakeup
  | .wakeup =>
      .ok { s with runner := if s.scheduler.terminal then .active 100 else .wakeupSize .lock }
  | .wakeupSize queue =>
      .ok (s.queueStep .wakeupSize queueSize
        (fun n => if n > 0 then .wakeupSwap .lock else .active 100) queue)
  | .wakeupSwap queue => .ok (s.queueStep .wakeupSwap queueSwap .wakeupMove queue)
  | .wakeupMove coroIds => s.advance (wakeLoop moveToActive s.scheduler coroIds) (.active 100)
  | .active loop =>
      if loop > 0 ∧ coroutineHeadEmpty s.scheduler.links (.head .active) = false then
        s.advance (s.scheduler.switchToFirst .active) (.activeRuns (loop - 1))
      else .ok { s with runner := .avail }
  | .activeRuns _ => .ok s
  | .avail =>
      if coroutineHeadEmpty s.scheduler.links (.head .avail) = false then
        s.advance (s.scheduler.switchToFirst .avail) .availRuns
      else .ok { s with runner := .used }
  | .availRuns => .ok s
  | .used => .ok { s with runner := if s.scheduler.usedSize = 0 then .done else .loop }
  | .done => .ok s

/-- What a call of a coroutine does to the scheduler, and whether it is back in
`mainCoro_`. -/
def callOf (s : CoroutineScheduler) : CoroutineCall → Bool × Except Fault CoroutineScheduler
  | .createCoroutine allocs => (false, (s.createCoroutine allocs).map Prod.snd)
  | .yield flag => (true, s.yield flag)
  | .sleep sleeptime now => (true, s.sleep sleeptime now)
  | .finish => (true, s.finish)

/-- The coroutine that runs makes a call. -/
def coroutineStep (s : SchedulerThreads Thread) (call : CoroutineCall) :
    Except Fault (SchedulerThreads Thread) :=
  match s.runner with
  | .activeRuns loop =>
      s.advance (callOf s.scheduler call).2
        (if (callOf s.scheduler call).1 then .active loop else .activeRuns loop)
  | .availRuns =>
      s.advance (callOf s.scheduler call).2
        (if (callOf s.scheduler call).1 then .used else .availRuns)
  | _ => .ok s

/-- A thread that is elsewhere does not do what the action says. -/
def step (s : SchedulerThreads Thread) :
    ThreadsAction Thread → Except Fault (SchedulerThreads Thread)
  | .put thread coroId =>
      .ok (if s.pc thread = .out then
        { s with pc := Function.update s.pc thread (.put coroId) } else s)
  | .terminate thread =>
      .ok (if s.pc thread = .out then
        { s with pc := Function.update s.pc thread .terminate } else s)
  | .proceed thread => .ok (s.proceed thread)
  | .runner refused now => s.runnerStep refused now
  | .coroutine call => s.coroutineStep call
  | .wake => .ok { s with monitor := s.monitor.spuriousWake .runner }

end SchedulerThreads

end Tarsx
