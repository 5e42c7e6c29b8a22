/-
The way a request takes from a client thread to the network thread:
`ServantProxy::invoke` pushes it on a queue of the thread and notifies, and
`CommunicatorEpoll::handle` empties the queue that the notified slot points to.
`Communicator::initialize` makes one network thread, so `objectProxyNum_` is 1.
-/
import Mathlib.Logic.Function.Basic
import Tarsx.Foundation.Run
import Tarsx.LoopQueue
import Tarsx.Message

namespace Tarsx

open Foundation

/-- The fields of `ServantProxyThreadData` that one network thread uses.  The queue is
`reqQueue_[0]`; there is none before `queueInit_` and after it was deleted.  A thread has
one of them: that `get_data` takes a thread key 0 for no key, and makes another one at
each call, is left out. -/
structure ServantProxyThreadData where
  queueInit : Bool := false
  reqQueue : Option (LoopQueue ReqMessage) := none
  netSeq : Nat := 0

/-- `NotifyInfo`.  The pointer `fd_info.p` leads to the queue of a thread, and is
that thread's number here. -/
structure NotifyInfo where
  valid : Bool := false
  p : Option Nat := none
deriving DecidableEq, Repr

/-- Where a thread is in `invoke`.  The queue is that of `owner`; a message that was
deleted is `none`. -/
inductive InvokeStage where
  | idle
  /-- Before a `notify`; `again` when another one follows it. -/
  | notifying (owner : Nat) (again : Bool) (msg : Option ReqMessage) (sync : Bool)
  /-- After the last `notify`. -/
  | finishing (msg : Option ReqMessage) (sync : Bool)
deriving DecidableEq

/-- The client threads with their thread data and proxies, and the slots and raised
events of the network thread.  `sptd` holds for each proxy the thread whose data it
keeps; `taken` is the event being handled; `sent` lists the messages passed to
`sendReqMessage`. -/
structure Communicator where
  threads : Nat → ServantProxyThreadData := fun _ => {}
  sptd : Nat → Option Nat := fun _ => none
  stage : Nat → InvokeStage := fun _ => .idle
  notify : Nat → NotifyInfo := fun _ => {}
  events : List Nat := []
  taken : Option Nat := none
  sent : List ReqMessage := []

namespace ServantProxyThreadData

/-- `queueSize_`. -/
def queueSize : Nat := 1000

/-- `selectNetThreadInfo` for one network thread. -/
def selectNetThreadInfo (data : ServantProxyThreadData) :
    Except Fault ServantProxyThreadData :=
  if data.queueInit then .ok data
  else do
    let queue ← LoopQueue.create queueSize
    .ok { data with queueInit := true, reqQueue := some queue }

end ServantProxyThreadData

namespace Communicator

/-- The message of `tars_invoke` and `tars_invoke_async`, as `invoke` fills it in. -/
def requestMessage (proxy : Nat) (sync : Bool) (funcName request : List UInt8)
    (now : Int) : ReqMessage :=
  { type := if sync then .syncCall else .asyncCall
    request := funcName ++ colon :: request
    beginTime := now
    objectProxy := some proxy }

/-- `invoke` up to its first `notify`.  A proxy keeps the data of the thread that called it
first.  A message that finds the queue full is deleted, and one more `notify` is made. -/
def invoke (c : Communicator) (thread proxy : Nat) (sync : Bool)
    (funcName request : List UInt8) (now : Int) : Except Fault Communicator := do
  let owner := (c.sptd proxy).getD thread
  let msg := requestMessage proxy sync funcName request now
  let data ← (c.threads owner).selectNetThreadInfo
  match data.reqQueue with
  | none => .error .danglingPointer
  | some queue =>
      let ((stored, _), queue) := queue.pushBack msg
      .ok { c with
        threads := Function.update c.threads owner { data with reqQueue := some queue }
        sptd := Function.update c.sptd proxy (some owner)
        stage := Function.update c.stage thread
          (.notifying owner (!stored) (if stored then some msg else none) sync) }

/-- `CommunicatorEpoll::notify`: the slot points to the queue, and its socket raises
an event. -/
def notifyQueue (c : Communicator) (seq owner : Nat) : Except Fault Communicator :=
  if seq < 2048 then
    if (c.notify seq).valid then
      .ok { c with
        notify := Function.update c.notify seq { c.notify seq with p := some owner }
        events := c.events ++ [seq] }
    else
      .ok { c with
        notify := Function.update c.notify seq { valid := true, p := some owner }
        events := c.events ++ [seq] }
  else .error .outOfBounds

/-- One `notify` of `invoke`. -/
def invokeNotify (c : Communicator) (thread : Nat) : Except Fault Communicator :=
  match c.stage thread with
  | .notifying owner again msg sync => do
      let c ← c.notifyQueue (c.threads owner).netSeq owner
      .ok { c with
        stage := Function.update c.stage thread
          (if again then .notifying owner false msg sync else .finishing msg sync) }
  | _ => .ok c

/-- The rest of `invoke`: a synchronous call looks at its message, and returns when
the answer to a message that was sent has come. -/
def invokeFinish (c : Communicator) (thread : Nat) : Except Fault Communicator :=
  match c.stage thread with
  | .finishing none true => .error .nullPointer
  | .finishing (some msg) true =>
      if msg ∈ c.sent then .ok { c with stage := Function.update c.stage thread .idle }
      else .ok c
  | .finishing _ false => .ok { c with stage := Function.update c.stage thread .idle }
  | _ => .ok c

/-- The loop of `handle`: the messages passed to `sendReqMessage`, and the queue
unless a `THREAD_EXIT` message deleted it. -/
def drain : Nat → LoopQueue ReqMessage →
    Except Fault (List ReqMessage × Option (LoopQueue ReqMessage))
  | 0, _ => .error .nonterminating
  | fuel + 1, queue =>
      match queue.popFront with
      | (none, queue) => .ok ([], some queue)
      | (some msg, queue) =>
          if msg.type = .threadExit then
            if queue.empty then .ok ([], none) else .error .assertion
          else do
            let (msgs, last) ← drain fuel queue
            .ok (msg :: msgs, last)

/-- `CommunicatorEpoll::handle` of a notify event.  `pop_front` of a null queue
fails. -/
def handleNotify (c : Communicator) (seq : Nat) : Except Fault Communicator :=
  match (c.notify seq).p with
  | none => .ok c
  | some owner =>
      match (c.threads owner).reqQueue with
      | none => .error .danglingPointer
      | some queue => do
          let (msgs, last) ← drain (queue.size + 1) queue
          let c := { c with
            threads := Function.update c.threads owner
              { c.threads owner with reqQueue := last }
            sent := c.sent ++ msgs }
          match last with
          | some _ => .ok c
          | none => .ok { c with notify := Function.update c.notify seq {} }

/-! ### Runs -/

/-- A step of a client thread, or of the network thread, which takes a raised event
and then handles it. -/
inductive Action where
  | invoke (thread proxy : Nat) (sync : Bool) (funcName request : List UInt8) (now : Int)
  | notify (thread : Nat)
  | finish (thread : Nat)
  | take (seq : Nat)
  | handle

/-- A step that is not possible in a state leaves it as it is. -/
def step (c : Communicator) : Action → Except Fault Communicator
  | .invoke thread proxy sync funcName request now =>
      if c.stage thread = .idle then c.invoke thread proxy sync funcName request now
      else .ok c
  | .notify thread => c.invokeNotify thread
  | .finish thread => c.invokeFinish thread
  | .take seq =>
      if c.taken = none ∧ seq ∈ c.events then
        .ok { c with events := c.events.erase seq, taken := some seq }
      else .ok c
  | .handle =>
      match c.taken with
      | none => .ok c
      | some seq => handleNotify { c with taken := none } seq

end Communicator

end Tarsx
