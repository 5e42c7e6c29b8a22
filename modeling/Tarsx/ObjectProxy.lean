/-
`ObjectProxy`: a request gets its id and its frame, goes to the transceiver or to
the send list of the timeout queue, and a writable socket first empties the
transceiver's buffer and then the send list.
-/
import Mathlib.Data.Nat.Digits.Defs
import Tarsx.Atoi
import Tarsx.Message
import Tarsx.TimeoutQueue
import Tarsx.Transceiver

namespace Tarsx

open Foundation

/-- `std::to_string` of an `int`. -/
def toDecimal (n : Int) : List UInt8 :=
  let digits := (Nat.digits 10 n.natAbs).reverse.map fun d => UInt8.ofNat (48 + d)
  let magnitude := if digits = [] then [48] else digits
  if n < 0 then 45 :: magnitude else magnitude

/-- The fields of `ObjectProxy`.  The queue's values are `ReqMessage*`. -/
structure ObjectProxy where
  trans : Transceiver
  timeoutQueue : TimeoutQueueNew (Option ReqMessage)
  id : Nat := 0
deriving DecidableEq, Repr

namespace ObjectProxy

/-- `generateId`: 0 is not an id. -/
def generateId (p : ObjectProxy) : Nat × ObjectProxy :=
  let next := word32Add p.id 1
  let id := if next = 0 then 1 else next
  (id, { p with id := id })

/-- `finishInvoke(ReqMessage*)`: a synchronous caller is woken up. -/
def finishInvoke (msg : ReqMessage) : ReqMessage :=
  match msg.type with
  | .syncCall => { msg with monitorFin := true }
  | _ => msg

/-- The integer in front of the first `':'` as the key that `finishInvoke(response)`
looks for. -/
def responseKey (response : List UInt8) : Nat :=
  toUInt32 (atoi (response.takeWhile fun byte => byte ≠ colon))

/-- `finishInvoke(response)`: the message that it finishes, if any. -/
def finishInvokeResponse (p : ObjectProxy) (response : List UInt8) :
    Except Fault (ObjectProxy × Option ReqMessage) := do
  let (msg, timeoutQueue) ← p.timeoutQueue.erase (responseKey response)
  let p := { p with timeoutQueue := timeoutQueue }
  match msg with
  | none => .ok (p, none)
  | some none => .error .nullPointer
  | some (some msg) => .ok (p, some (finishInvoke { msg with response := response }))

/-- The message that `sendReqMessage` is about to send: its id, and the frame of
`id:request`. -/
def prepare (p : ObjectProxy) (msg : ReqMessage) : ObjectProxy × ReqMessage :=
  let (id, p) := p.generateId
  let requestId := toInt32 id
  (p, { msg with
    requestId := requestId
    reqData := encodeRequest (toDecimal requestId ++ colon :: msg.request) })

/-- The `push` of `sendReqMessage`; a message that is refused there is finished. -/
def enqueue (p : ObjectProxy) (msg : ReqMessage) (hasSend : Bool) :
    ObjectProxy × Option ReqMessage :=
  let (flag, timeoutQueue) := p.timeoutQueue.push (some msg) (toUInt32 msg.requestId)
    (1000 + msg.beginTime) hasSend
  let p := { p with timeoutQueue := timeoutQueue }
  if flag then (p, none) else (p, some (finishInvoke { msg with status := .exc }))

/-- `sendReqMessage`: the message if it was finished, and the bytes the socket
took.  `socket` is the descriptor for a first connect. -/
def sendReqMessage (p : ObjectProxy) (msg : ReqMessage) (socket : Option Nat)
    (result : WriteResult) :
    Except Fault (ObjectProxy × (Option ReqMessage × List UInt8)) := do
  let trans ← if p.trans.connected then .ok p.trans else p.trans.connect socket
  let (p, msg) := prepare { p with trans := trans } msg
  if p.timeoutQueue.sendListEmpty then do
    let (trans, (ret, taken)) ← p.trans.sendRequest msg.reqData result
    let (p, finished) :=
      enqueue { p with trans := trans } msg (decide (ret ≠ Transceiver.retError))
    .ok (p, (finished, taken))
  else
    let (p, finished) := p.enqueue msg false
    .ok (p, (finished, []))

/-- `msg->reqData`. -/
def reqDataOf (msg : Option ReqMessage) : Except Fault (List UInt8) :=
  match msg with
  | some msg => .ok msg.reqData
  | none => .error .nullPointer

/-- The loop of `doInvoke`, with the outcomes of its writes; the result holds the
bytes the socket took.  A list of outcomes that is used up stands for `EAGAIN`. -/
def invokeLoop : Nat → ObjectProxy → List WriteResult →
    Except Fault (ObjectProxy × List UInt8)
  | 0, _, _ => .error .nonterminating
  | fuel + 1, p, results =>
      if p.timeoutQueue.sendListEmpty then .ok (p, [])
      else do
        let (_, msg) ← p.timeoutQueue.getSend Option.isNone none
        let data ← reqDataOf msg
        let (trans, (ret, taken)) ←
          p.trans.sendRequest data (results.headD .again)
        let p := { p with trans := trans }
        if ret = Transceiver.retError then .ok (p, taken)
        else if ret = Transceiver.retFull then .ok (p, taken)
        else do
          let (last, more) ← invokeLoop fuel p results.tail
          .ok (last, taken ++ more)

/-- `doInvoke`.  A write of data that is not empty and takes nothing ends the loop,
so a list of outcomes allows at most one turn more than it has elements. -/
def doInvoke (p : ObjectProxy) (results : List WriteResult) :
    Except Fault (ObjectProxy × List UInt8) :=
  if p.timeoutQueue.sendListEmpty then .ok (p, [])
  else invokeLoop (results.length + 2) p results

/-- `Transceiver::doRequest`: the returned value and the bytes the socket took in
the flush and in `doInvoke`. -/
def doRequest (p : ObjectProxy) (result : WriteResult) (results : List WriteResult) :
    Except Fault (ObjectProxy × (Int × List UInt8)) := do
  let (trans, (done, taken)) ← p.trans.flush result
  let p := { p with trans := trans }
  match done with
  | some ret => .ok (p, (ret, taken))
  | none => do
      let (p, more) ← p.doInvoke results
      .ok (p, (0, taken ++ more))

end ObjectProxy

end Tarsx
