/-
`TimeoutQueueNew`: a table of outstanding values by id, the same values in order
of their deadline, and the list of those that are still to be sent.  The three
containers point into each other with iterators.
-/
import Mathlib.Data.List.Basic
import Tarsx.Foundation.Word
import Tarsx.Memory

namespace Tarsx

open Foundation

universe u

/-- `PtrInfo`.  An iterator is a number that no other node has had; `none` is one
that was never assigned. -/
structure PtrInfo (T : Type u) where
  ptr : T
  hasSend : Bool
  timeIter : Option Nat := none
  sendIter : Option Nat := none
deriving DecidableEq, Repr

/-- A node of `time_`; its value is a `NodeInfo`.  The iterator into `data_` is the
key there. -/
structure TimeNode where
  iter : Nat
  timeout : Int
  dataIter : Nat
deriving DecidableEq, Repr

/-- A node of `send_`; its value is a `SendInfo`. -/
structure SendNode where
  iter : Nat
  dataIter : Nat
deriving DecidableEq, Repr

/-- The fields of `TimeoutQueueNew`.  `data` has one entry for a key, `time` is
sorted, the front of `send` comes first; `uniqueId_` has no initialiser. -/
structure TimeoutQueueNew (T : Type u) where
  uniqueId : Nat
  data : List (Nat × PtrInfo T) := []
  time : List TimeNode := []
  send : List SendNode := []
  nextIter : Nat := 0
deriving DecidableEq, Repr

namespace TimeoutQueueNew

variable {T : Type u}

/-- `while (++uniqueId_ == 0);` on a 32-bit counter. -/
def generateId (q : TimeoutQueueNew T) : Nat × TimeoutQueueNew T :=
  let next := word32Add q.uniqueId 1
  let id := if next = 0 then 1 else next
  (id, { q with uniqueId := id })

def sendListEmpty (q : TimeoutQueueNew T) : Bool := q.send.isEmpty

def size (q : TimeoutQueueNew T) : Nat := q.data.length

def find (q : TimeoutQueueNew T) (uniqId : Nat) : Option (PtrInfo T) :=
  q.data.lookup uniqId

/-- What an iterator into `data_` points at. -/
def deref (q : TimeoutQueueNew T) (dataIter : Nat) : Except Fault (PtrInfo T) :=
  match q.find dataIter with
  | some info => .ok info
  | none => .error .danglingIterator

/-- `data_.erase(it)`. -/
def eraseData (q : TimeoutQueueNew T) (dataIter : Nat) : TimeoutQueueNew T :=
  { q with data := q.data.filter fun entry => entry.1 ≠ dataIter }

/-- `time_.erase(it)`. -/
def eraseTime (q : TimeoutQueueNew T) (timeIter : Option Nat) :
    Except Fault (TimeoutQueueNew T) :=
  if q.time.any fun node => some node.iter = timeIter then
    .ok { q with time := q.time.filter fun node => some node.iter ≠ timeIter }
  else .error .danglingIterator

/-- `send_.erase(it)`. -/
def eraseSend (q : TimeoutQueueNew T) (sendIter : Option Nat) :
    Except Fault (TimeoutQueueNew T) :=
  if q.send.any fun node => some node.iter = sendIter then
    .ok { q with send := q.send.filter fun node => some node.iter ≠ sendIter }
  else .error .danglingIterator

/-- `getSend`: `t` is the variable that is passed by reference.  It is not assigned;
`isNull` is the test `!ptr`. -/
def getSend (q : TimeoutQueueNew T) (isNull : T → Bool) (t : T) :
    Except Fault (Bool × T) :=
  match q.send.getLast? with
  | none => .ok (false, t)
  | some sendinfo => do
      let info ← q.deref sendinfo.dataIter
      if isNull info.ptr then .ok (true, t) else .error .assertion

/-- Assign through an iterator into `data_`. -/
def setData (q : TimeoutQueueNew T) (dataIter : Nat) (info : PtrInfo T) :
    TimeoutQueueNew T :=
  { q with data := q.data.map fun entry =>
      if entry.1 = dataIter then (dataIter, info) else entry }

def popSend (q : TimeoutQueueNew T) (del : Bool) : Except Fault (TimeoutQueueNew T) :=
  match q.send.getLast? with
  | none => .error .assertion
  | some sendinfo => do
      let info ← q.deref sendinfo.dataIter
      let marked := q.setData sendinfo.dataIter { info with hasSend := true }
      let kept ← if del then do
          let timeErased ← marked.eraseTime info.timeIter
          .ok (timeErased.eraseData sendinfo.dataIter)
        else .ok marked
      .ok { kept with send := kept.send.dropLast }

/-- `erase(uniqId, t)`: the value found and the queue without it. -/
def erase (q : TimeoutQueueNew T) (uniqId : Nat) :
    Except Fault (Option T × TimeoutQueueNew T) :=
  match q.find uniqId with
  | none => .ok (none, q)
  | some info => do
      let sendErased ← if info.hasSend then .ok q else q.eraseSend info.sendIter
      let timeErased ← sendErased.eraseTime info.timeIter
      .ok (some info.ptr, timeErased.eraseData uniqId)

/-- `get(uniqId, t, erase)`. -/
def get (q : TimeoutQueueNew T) (uniqId : Nat) (erase : Bool) :
    Except Fault (Option T × TimeoutQueueNew T) :=
  match q.find uniqId with
  | none => .ok (none, q)
  | some info =>
      if erase then do
        let timeErased ← q.eraseTime info.timeIter
        let sendErased ←
          if info.hasSend then .ok timeErased else timeErased.eraseSend info.sendIter
        .ok (some info.ptr, sendErased.eraseData uniqId)
      else .ok (some info.ptr, q)

/-- `time_.insert`: behind the nodes with the same deadline. -/
def insertTime (node : TimeNode) (time : List TimeNode) : List TimeNode :=
  time.takeWhile (fun other => other.timeout ≤ node.timeout) ++
    node :: time.dropWhile (fun other => other.timeout ≤ node.timeout)

/-- `push`: a present id is refused. -/
def push (q : TimeoutQueueNew T) (ptr : T) (uniqId : Nat) (timeout : Int)
    (hasSend : Bool) : Bool × TimeoutQueueNew T :=
  match q.find uniqId with
  | some _ => (false, q)
  | none =>
      let timeNode : TimeNode := { iter := q.nextIter, timeout := timeout, dataIter := uniqId }
      if hasSend then
        let info : PtrInfo T := { ptr := ptr, hasSend := true, timeIter := some q.nextIter }
        (true, { q with
          data := (uniqId, info) :: q.data
          time := insertTime timeNode q.time
          nextIter := q.nextIter + 1 })
      else
        let sendNode : SendNode := { iter := q.nextIter + 1, dataIter := uniqId }
        let info : PtrInfo T :=
          { ptr := ptr, hasSend := false, timeIter := some q.nextIter,
            sendIter := some (q.nextIter + 1) }
        (true, { q with
          data := (uniqId, info) :: q.data
          time := insertTime timeNode q.time
          send := sendNode :: q.send
          nextIter := q.nextIter + 2 })

/-- `timeout(t)` at time `now`: take the entry with the first deadline off, if that
has passed. -/
def timeoutOne (q : TimeoutQueueNew T) (now : Int) :
    Except Fault (Option T × TimeoutQueueNew T) :=
  match q.time with
  | [] => .ok (none, q)
  | node :: _ =>
      if now < node.timeout then .ok (none, q)
      else do
        let info ← q.deref node.dataIter
        let sendErased ← if info.hasSend then .ok q else q.eraseSend info.sendIter
        let timeErased ← (sendErased.eraseData node.dataIter).eraseTime (some node.iter)
        .ok (some info.ptr, timeErased)

/-- The loop of `timeout()`: take off every entry whose deadline has passed; the result
holds their values.  Every turn shortens `time_`. -/
def timeoutEach : Nat → TimeoutQueueNew T → Int →
    Except Fault (List T × TimeoutQueueNew T)
  | 0, _, _ => .error .nonterminating
  | fuel + 1, q, now => do
      let (expired, rest) ← q.timeoutOne now
      match expired with
      | none => .ok ([], rest)
      | some ptr => do
          let (ptrs, last) ← timeoutEach fuel rest now
          .ok (ptr :: ptrs, last)

/-- `timeout(func)`: the same loop, but turn `i` reads the clock again, at `clock i`; the
result holds the values that `func` is called with. -/
def timeoutFunc : Nat → TimeoutQueueNew T → (Nat → Int) →
    Except Fault (List T × TimeoutQueueNew T)
  | 0, _, _ => .error .nonterminating
  | fuel + 1, q, clock => do
      let (expired, rest) ← q.timeoutOne (clock 0)
      match expired with
      | none => .ok ([], rest)
      | some ptr => do
          let (ptrs, last) ← timeoutFunc fuel rest fun turn => clock (turn + 1)
          .ok (ptr :: ptrs, last)

/-- `timeout()`. -/
def timeout (q : TimeoutQueueNew T) (now : Int) : Except Fault (TimeoutQueueNew T) := do
  let (_, last) ← timeoutEach (q.time.length + 1) q now
  .ok last

/-! ### The values still to be sent -/

/-- The values of the send list, oldest first. -/
def unsent (q : TimeoutQueueNew T) : List T :=
  q.send.reverse.filterMap fun node => (q.find node.dataIter).map PtrInfo.ptr

/-- Every node of the send list points at an entry. -/
def Linked (q : TimeoutQueueNew T) : Prop :=
  ∀ node ∈ q.send, ∃ info, q.find node.dataIter = some info

section Push

variable {q : TimeoutQueueNew T}

theorem linked_default (uniqueId : Nat) :
    Linked ({ uniqueId := uniqueId } : TimeoutQueueNew T) := by
  intro node hnode
  contradiction

theorem unsent_default (uniqueId : Nat) :
    unsent ({ uniqueId := uniqueId } : TimeoutQueueNew T) = [] := rfl

theorem sendListEmpty_iff (h : q.Linked) : q.sendListEmpty = true ↔ q.unsent = [] := by
  rw [sendListEmpty, List.isEmpty_iff]
  constructor
  · intro hnil
    rw [unsent, hnil]
    rfl
  · intro hnone
    cases hsend : q.send with
    | nil => rfl
    | cons node rest =>
        obtain ⟨info, hinfo⟩ := h node (by rw [hsend]; exact List.mem_cons_self)
        have hmem : info.ptr ∈ q.unsent := by
          rw [unsent, List.mem_filterMap]
          refine ⟨node, ?_, by rw [hinfo]; rfl⟩
          rw [hsend]
          exact List.mem_reverse.mpr List.mem_cons_self
        rw [hnone] at hmem
        contradiction

/-- A fresh id gets an entry, and a node on the send list unless it was sent. -/
theorem push_of_fresh {uniqId : Nat} (ptr : T) (timeout : Int) (hasSend : Bool)
    (hfresh : q.find uniqId = none) :
    ∃ info node, (q.push ptr uniqId timeout hasSend).1 = true ∧
      (q.push ptr uniqId timeout hasSend).2.data = (uniqId, info) :: q.data ∧
      (q.push ptr uniqId timeout hasSend).2.send =
        (if hasSend then q.send else node :: q.send) ∧
      info.ptr = ptr ∧ node.dataIter = uniqId := by
  cases hasSend with
  | true =>
      refine ⟨{ ptr := ptr, hasSend := true, timeIter := some q.nextIter },
        { iter := 0, dataIter := uniqId }, ?_⟩
      simp only [push, hfresh, if_true, and_self]
  | false =>
      refine ⟨⟨ptr, false, some q.nextIter, some (q.nextIter + 1)⟩,
        { iter := q.nextIter + 1, dataIter := uniqId }, ?_⟩
      simp only [push, hfresh, Bool.false_eq_true, if_false, and_self]

theorem find_of_data_cons {q' : TimeoutQueueNew T} {uniqId : Nat} {info : PtrInfo T}
    (hdata : q'.data = (uniqId, info) :: q.data) (other : Nat) :
    q'.find other = if other = uniqId then some info else q.find other := by
  rw [find, hdata, List.lookup_cons]
  by_cases heq : other = uniqId
  · simp [heq]
  · have hbeq : (other == uniqId) = false := by simpa using heq
    rw [hbeq, if_neg heq]
    rfl

/-- Looking an old node up is not affected by a fresh entry. -/
theorem Linked.find_cons (h : q.Linked) {q' : TimeoutQueueNew T} {uniqId : Nat}
    {info : PtrInfo T} (hfresh : q.find uniqId = none)
    (hdata : q'.data = (uniqId, info) :: q.data) :
    ∀ node ∈ q.send, q'.find node.dataIter = q.find node.dataIter := by
  intro node hnode
  obtain ⟨old, hold⟩ := h node hnode
  rw [find_of_data_cons hdata, if_neg]
  intro heq
  rw [heq, hfresh] at hold
  contradiction

theorem unsent_congr {q' : TimeoutQueueNew T} (hsend : q'.send = q.send)
    (hfind : ∀ node ∈ q.send, q'.find node.dataIter = q.find node.dataIter) :
    q'.unsent = q.unsent := by
  rw [unsent, unsent, hsend]
  apply List.filterMap_congr
  intro node hnode
  rw [hfind node (List.mem_reverse.mp hnode)]

theorem unsent_of_send_cons {q' : TimeoutQueueNew T} {node : SendNode}
    {info : PtrInfo T} (hsend : q'.send = node :: q.send)
    (hfind : ∀ node ∈ q.send, q'.find node.dataIter = q.find node.dataIter)
    (hnode : q'.find node.dataIter = some info) :
    q'.unsent = q.unsent ++ [info.ptr] := by
  have hold : q.send.reverse.filterMap (fun node =>
      (q'.find node.dataIter).map PtrInfo.ptr) = q.unsent := by
    apply List.filterMap_congr
    intro other hother
    rw [hfind other (List.mem_reverse.mp hother)]
  rw [unsent, hsend, List.reverse_cons, List.filterMap_append, hold]
  simp [hnode]

/-- A value that was sent does not join the send list. -/
theorem push_sent (h : q.Linked) {uniqId : Nat} (hfresh : q.find uniqId = none)
    (ptr : T) (timeout : Int) :
    (q.push ptr uniqId timeout true).1 = true ∧
      (q.push ptr uniqId timeout true).2.Linked ∧
      (q.push ptr uniqId timeout true).2.unsent = q.unsent := by
  obtain ⟨info, node, hok, hdata, hsend, _, _⟩ :=
    push_of_fresh ptr timeout true hfresh
  rw [if_pos rfl] at hsend
  have hfind := h.find_cons hfresh hdata
  refine ⟨hok, ?_, unsent_congr hsend hfind⟩
  intro other hother
  rw [hsend] at hother
  obtain ⟨old, hold⟩ := h other hother
  exact ⟨old, by rw [hfind other hother, hold]⟩

/-- A value still to be sent becomes the newest of the send list. -/
theorem push_unsent (h : q.Linked) {uniqId : Nat} (hfresh : q.find uniqId = none)
    (ptr : T) (timeout : Int) :
    (q.push ptr uniqId timeout false).1 = true ∧
      (q.push ptr uniqId timeout false).2.Linked ∧
      (q.push ptr uniqId timeout false).2.unsent = q.unsent ++ [ptr] := by
  obtain ⟨info, node, hok, hdata, hsend, hptr, hiter⟩ :=
    push_of_fresh ptr timeout false hfresh
  rw [if_neg Bool.false_ne_true] at hsend
  have hfind := h.find_cons hfresh hdata
  have hself : (q.push ptr uniqId timeout false).2.find node.dataIter = some info := by
    rw [find_of_data_cons hdata, if_pos hiter]
  refine ⟨hok, ?_, by rw [unsent_of_send_cons hsend hfind hself, hptr]⟩
  intro other hother
  rw [hsend] at hother
  rcases List.mem_cons.mp hother with rfl | hother
  · exact ⟨info, hself⟩
  · obtain ⟨old, hold⟩ := h other hother
    exact ⟨old, by rw [hfind other hother, hold]⟩

/-- `getSend` fails its assertion when the oldest value is not null. -/
theorem getSend_of_not_null (h : q.Linked) {isNull : T → Bool} (hsome : q.send ≠ [])
    (hnull : ∀ ptr ∈ q.unsent, isNull ptr = false) (t : T) :
    q.getSend isNull t = .error .assertion := by
  obtain ⟨node, hlast⟩ : ∃ node, q.send.getLast? = some node :=
    Option.isSome_iff_exists.mp (by simp [hsome])
  have hnode : node ∈ q.send := List.mem_of_getLast? hlast
  obtain ⟨info, hinfo⟩ := h node hnode
  have hmem : info.ptr ∈ q.unsent := by
    rw [unsent, List.mem_filterMap]
    exact ⟨node, List.mem_reverse.mpr hnode, by rw [hinfo]; rfl⟩
  simp [getSend, hlast, deref, hinfo, bind, Except.bind, hnull info.ptr hmem]

end Push

end TimeoutQueueNew

end Tarsx
