/-
`ThreadDeque`: a deque behind a `Monitor`.  Threads run its operations interleaved in any
way; what an operation does with the deque while it holds the monitor is one step, and a
`pop_front` or `swap` that waits gives the monitor away in between.
-/
import Mathlib.Algebra.Group.Nat.Defs
import Tarsx.Foundation.Exclusion
import Tarsx.Foundation.Run
import Tarsx.Monitor

namespace Tarsx

open Foundation

universe u

variable {Thread T : Type u}

/-- The fields of `ThreadDeque`. -/
structure ThreadDeque (Thread T : Type u) where
  monitor : Monitor Thread := {}
  deque : List T := []
  size : Nat := 0
deriving DecidableEq, Repr

/-- The operations that can wait, with their arguments, the times in milliseconds. -/
inductive DequeTake (T : Type u) where
  | popFront (millsecond : Nat)
  | swap (deque : List T) (millsecond : Nat)
deriving DecidableEq, Repr

inductive DequeOp (T : Type u) where
  | take (op : DequeTake T)
  | notifyT
  | pushBack (element : T)
  | pushBackDeque (deque : List T)
  | pushFront (element : T)
  | pushFrontDeque (deque : List T)
  | size
  | clear
  | empty
deriving DecidableEq, Repr

/-- What an operation returns; `swap` leaves the deque it was given as well. -/
inductive DequeResult (T : Type u) where
  | element (t : T)
  | swapped (done : Bool) (deque : List T)
  | size (size : Nat)
  | empty (empty : Bool)
  | nothing
deriving DecidableEq, Repr

/-- How the part of an operation before its wait ends. -/
inductive Outcome (T : Type u) where
  | returns (result : DequeResult T)
  | waits (op : DequeTake T)
deriving DecidableEq, Repr

namespace ThreadDeque

/-- `pop_front` up to its wait. -/
def popFront (nullptr : T) (d : ThreadDeque Thread T) (millsecond : Nat) :
    Except Fault (ThreadDeque Thread T × Outcome T) :=
  match d.deque with
  | [] =>
      .ok (d, if millsecond = 0 then .returns (.element nullptr)
        else .waits (.popFront millsecond))
  | front :: rest =>
      if d.size > 0 then
        .ok ({ d with deque := rest, size := d.size - 1 }, .returns (.element front))
      else .error .assertion

/-- `swap` up to its wait. -/
def swap (d : ThreadDeque Thread T) (deque : List T) (millsecond : Nat) :
    Except Fault (ThreadDeque Thread T × Outcome T) :=
  match d.deque with
  | [] =>
      .ok (d, if millsecond = 0 then .returns (.swapped false deque)
        else .waits (.swap deque millsecond))
  | front :: rest =>
      .ok ({ d with deque := deque, size := deque.length },
        .returns (.swapped true (front :: rest)))

/-- `notifyT`. -/
def notifyT (d : ThreadDeque Thread T) : ThreadDeque Thread T :=
  { d with monitor := d.monitor.notifyAll }

/-- An element is put somewhere into the deque, and counted and notified. -/
def put (place : List T → T → List T) (d : ThreadDeque Thread T) (element : T) :
    Except Fault (ThreadDeque Thread T) := do
  let monitor ← d.monitor.notify
  .ok { monitor := monitor, deque := place d.deque element, size := d.size + 1 }

/-- One element after the other is put into the deque. -/
def putAll (place : List T → T → List T) :
    ThreadDeque Thread T → List T → Except Fault (ThreadDeque Thread T)
  | d, [] => .ok d
  | d, element :: rest => do
      let d ← d.put place element
      putAll place d rest

/-- `emplace_back`. -/
def atBack (deque : List T) (element : T) : List T := deque ++ [element]

/-- `push_front` of the container. -/
def atFront (deque : List T) (element : T) : List T := element :: deque

/-- `push_back` of an element. -/
def pushBack (d : ThreadDeque Thread T) (element : T) : Except Fault (ThreadDeque Thread T) :=
  d.put atBack element

/-- `push_back` of a deque. -/
def pushBackDeque (d : ThreadDeque Thread T) (deque : List T) :
    Except Fault (ThreadDeque Thread T) :=
  putAll atBack d deque

/-- `push_front` of an element. -/
def pushFront (d : ThreadDeque Thread T) (element : T) : Except Fault (ThreadDeque Thread T) :=
  d.put atFront element

/-- `push_front` of a deque, whose elements end up in the other order. -/
def pushFrontDeque (d : ThreadDeque Thread T) (deque : List T) :
    Except Fault (ThreadDeque Thread T) :=
  putAll atFront d deque

/-- `clear`. -/
def clear (d : ThreadDeque Thread T) : ThreadDeque Thread T := { d with deque := [], size := 0 }

/-- What an operation does between the constructor of its `Lock` and its wait or the
destructor. -/
def body (nullptr : T) (d : ThreadDeque Thread T) :
    DequeOp T → Except Fault (ThreadDeque Thread T × Outcome T)
  | .take (.popFront millsecond) => d.popFront nullptr millsecond
  | .take (.swap deque millsecond) => d.swap deque millsecond
  | .notifyT => .ok (d.notifyT, .returns .nothing)
  | .pushBack element => do .ok (← d.pushBack element, .returns .nothing)
  | .pushBackDeque deque => do .ok (← d.pushBackDeque deque, .returns .nothing)
  | .pushFront element => do .ok (← d.pushFront element, .returns .nothing)
  | .pushFrontDeque deque => do .ok (← d.pushFrontDeque deque, .returns .nothing)
  | .size => .ok (d, .returns (.size d.size))
  | .clear => .ok (d.clear, .returns .nothing)
  | .empty => .ok (d, .returns (.empty d.deque.isEmpty))

/-- What `pop_front` and `swap` return behind their wait, whatever it returned and
whatever the deque holds. -/
def afterWait (nullptr : T) : DequeTake T → DequeResult T
  | .popFront _ => .element nullptr
  | .swap deque _ => .swapped false deque

/-- The operation waits with `timedWait`: its time is not `static_cast<size_t>(-1)`. -/
def timed : DequeTake T → Bool
  | .popFront millsecond => decide (millsecond ≠ 2 ^ 64 - 1)
  | .swap _ millsecond => decide (millsecond ≠ 2 ^ 64 - 1)

end ThreadDeque

/-! ### Threads -/

/-- Where a thread is. -/
inductive DequePc (T : Type u) where
  /-- Between two operations, with what the last one returned. -/
  | out (returned : Option (DequeResult T))
  /-- `Lock lock(monitor_)` -/
  | lock (op : DequeOp T)
  | body (op : DequeOp T)
  | wait (op : DequeTake T)
  /-- Inside `pthread_cond_wait` or `pthread_cond_timedwait`. -/
  | blocked (op : DequeTake T) (timedOut : Bool)
  /-- The `notifyImpl` of `unlock`, with what the operation returns. -/
  | signal (result : DequeResult T)
  | release (result : DequeResult T)
deriving DecidableEq, Repr

def DequePc.holds : DequePc T → Bool
  | .body _ | .wait _ | .signal _ | .release _ => true
  | _ => false

/-- A wait that came back: whether it had timed out, what the deque held when the lock was
held again, and what the operation made of it. -/
structure Resumed (T : Type u) where
  op : DequeTake T
  timedOut : Bool
  contents : List T
  result : DequeResult T
  left : List T
deriving DecidableEq, Repr

structure DequeRun (Thread T : Type u) where
  queue : ThreadDeque Thread T := {}
  pc : Thread → DequePc T := fun _ => .out none
  resumed : List (Resumed T) := []

/-- A thread calls an operation or goes on in one, a timed wait of it times out, or
`pthread_cond_wait` ends without a signal.  `choices` is whom its signals wake, and
`refused` tells whether `pthread_cond_timedwait` comes back at once. -/
inductive DequeAction (Thread T : Type u) where
  | call (thread : Thread) (op : DequeOp T)
  | proceed (thread : Thread) (choices : List Nat) (refused : Bool)
  | timeout (thread : Thread)
  | spuriousWake (thread : Thread)

namespace DequeRun

variable [DecidableEq Thread]

/-- The run with one thread further on. -/
def advance (s : DequeRun Thread T) (thread : Thread) (pc : DequePc T)
    (queue : ThreadDeque Thread T) : DequeRun Thread T :=
  { s with queue := queue, pc := Function.update s.pc thread pc }

/-- A wait of the operation has come back. -/
def resume (nullptr : T) (s : DequeRun Thread T) (thread : Thread) (op : DequeTake T)
    (timedOut : Bool) (monitor : Monitor Thread) : DequeRun Thread T :=
  { queue := { s.queue with monitor := monitor }
    pc := Function.update s.pc thread (.signal (ThreadDeque.afterWait nullptr op))
    resumed := s.resumed ++
      [{ op := op, timedOut := timedOut, contents := s.queue.deque,
         result := ThreadDeque.afterWait nullptr op, left := s.queue.deque }] }

/-- The next step of the operation that the thread is in. -/
def proceed (nullptr : T) (s : DequeRun Thread T) (thread : Thread) (choices : List Nat)
    (refused : Bool) : Except Fault (DequeRun Thread T) :=
  match s.pc thread with
  | .out _ => .ok s
  | .lock op =>
      match s.queue.monitor.lock thread with
      | none => .ok s
      | some locked => .ok (s.advance thread (.body op) { s.queue with monitor := locked })
  | .body op => do
      match ← s.queue.body nullptr op with
      | (queue, .returns result) => .ok (s.advance thread (.signal result) queue)
      | (queue, .waits take) => .ok (s.advance thread (.wait take) queue)
  | .wait op =>
      if ThreadDeque.timed op && refused then
        .ok (s.resume nullptr thread op false
          { s.queue.monitor.notifyImpl choices with notify_ := 0 })
      else .ok (s.advance thread (.blocked op false)
        { s.queue with monitor := s.queue.monitor.wait thread choices })
  | .blocked op timedOut =>
      match s.queue.monitor.resume thread with
      | none => .ok s
      | some resumed => .ok (s.resume nullptr thread op timedOut resumed)
  | .signal result => .ok (s.advance thread (.release result)
      { s.queue with monitor := s.queue.monitor.notifyImpl choices })
  | .release result => .ok (s.advance thread (.out (some result))
      { s.queue with monitor := s.queue.monitor.release })

/-- The timed wait of a thread that was not woken is over. -/
def timeout (s : DequeRun Thread T) (thread : Thread) : DequeRun Thread T :=
  match s.pc thread with
  | .blocked op _ =>
      if ThreadDeque.timed op ∧ thread ∈ s.queue.monitor.waiting then
        s.advance thread (.blocked op true)
          { s.queue with monitor := s.queue.monitor.spuriousWake thread }
      else s
  | _ => s

end DequeRun

variable [DecidableEq Thread]

/-- A thread that is elsewhere does not do what the action says. -/
def dequeStep (nullptr : T) (s : DequeRun Thread T) :
    DequeAction Thread T → Except Fault (DequeRun Thread T)
  | .call thread op =>
      match s.pc thread with
      | .out _ => .ok (s.advance thread (.lock op) s.queue)
      | _ => .ok s
  | .proceed thread choices refused => s.proceed nullptr thread choices refused
  | .timeout thread => .ok (s.timeout thread)
  | .spuriousWake thread =>
      .ok { s with queue := { s.queue with monitor := s.queue.monitor.spuriousWake thread } }

end Tarsx
