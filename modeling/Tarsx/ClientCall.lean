/-
`tars_invoke` and `tars_invoke_async` with the messages they make, and what a full queue
does to a call.
-/
import Tarsx.Message
import Tarsx.ServantProxy

namespace Tarsx

open Foundation

namespace Client

/-- The client threads and the messages made so far, `none` being one that was deleted.
`notified` lists the calls of `notify`: the net thread, the slot and the queue it is given. -/
structure Calls where
  client : Client := {}
  messages : List (Option ReqMessage) := []
  notified : List (Nat × Nat × Choice) := []

namespace Calls

/-! ## Messages -/

/-- A read through a `ReqMessage*`. -/
def load (s : Calls) : Option MessagePtr → Except Fault ReqMessage
  | none => .error .nullPointer
  | some msg =>
      match s.messages[msg]? with
      | some (some message) => .ok message
      | _ => .error .danglingPointer

/-- A write through a `ReqMessage*`. -/
def store (s : Calls) (msg : MessagePtr) (message : ReqMessage) : Except Fault Calls := do
  let _ ← s.load (some msg)
  .ok { s with messages := s.messages.set msg (some message) }

/-- `delete msg`. -/
def delete (s : Calls) (msg : MessagePtr) : Except Fault Calls := do
  let _ ← s.load (some msg)
  .ok { s with messages := s.messages.set msg none }

/-- `new ReqMessage`, `init(type)` and the assignment of `request`. -/
def newMessage (s : Calls) (sync : Bool) (funcName request : List UInt8) :
    MessagePtr × Calls :=
  (s.messages.length,
    { s with
      messages := s.messages ++
        [some { address := s.messages.length
                type := if sync then .syncCall else .asyncCall
                request := funcName ++ colon :: request }] })

/-! ## `invoke` -/

/-- `CommunicatorEpoll::notify` of the net thread that the call has chosen, in the slot
`sptd->netSeq_`. -/
def notify (s : Calls) (choice : Choice) : Except Fault Calls :=
  let seq := (s.client.data choice.record).netSeq
  if seq < 2048 then .ok { s with notified := s.notified ++ [(choice.index, seq, choice)] }
  else .error .outOfBounds

/-- The queue that the call has chosen; an entry of the array that was never set is no
pointer. -/
def chosenQueue (s : Calls) (choice : Choice) : Except Fault (LoopQueue MessagePtr) :=
  match (s.client.data choice.record).reqQueue choice.index with
  | some queue => .ok queue
  | none => .error .danglingPointer

def setQueue (s : Calls) (choice : Choice) (queue : LoopQueue MessagePtr) : Calls :=
  let data := s.client.data choice.record
  { s with
    client := { s.client with
      data := Function.update s.client.data choice.record
        { data with reqQueue := Function.update data.reqQueue choice.index (some queue) } } }

/-- The last part of `invoke`: a synchronous call looks whether it is finished, and waits
when it is not.  `true` when `invoke` returns. -/
def invokeEnd (s : Calls) (sync : Bool) (msg : Option MessagePtr) :
    Except Fault (Bool × Calls) :=
  if sync then do
    let message ← s.load msg
    .ok (message.monitorFin, s)
  else .ok (true, s)

/-- `invoke(msg)` at the time `now`. -/
def invoke (s : Calls) (thread proxy : Nat) (msg : MessagePtr) (created : Option Nat)
    (now : Int) : Except Fault (Bool × Calls) := do
  let (choice, client) ← s.client.choose thread proxy created
  let s := { s with client := client }
  let message ← s.load (some msg)
  let sync := decide (message.type = .syncCall)
  let s ← s.store msg
    { message with
      beginTime := now
      objectProxy := some ((client.proxies proxy).objectProxy choice.index)
      monitorFin := if sync then false else message.monitorFin }
  let queue ← s.chosenQueue choice
  let ((stored, _), queue) := queue.pushBack msg
  let s := s.setQueue choice queue
  if stored then do
    let s ← s.notify choice
    s.invokeEnd sync (some msg)
  else do
    let s ← s.delete msg
    let s ← s.notify choice
    let s ← s.notify choice
    s.invokeEnd sync none

/-- `tars_invoke`: the response, or `none` while the call waits for its answer. -/
def tarsInvoke (s : Calls) (thread proxy : Nat) (funcName request : List UInt8)
    (created : Option Nat) (now : Int) : Except Fault (Option (List UInt8) × Calls) := do
  let (msg, s) := s.newMessage true funcName request
  let (returned, s) ← s.invoke thread proxy msg created now
  if returned then do
    let message ← s.load (some msg)
    let s ← s.delete msg
    .ok (some message.response, s)
  else .ok (none, s)

/-- `tars_invoke_async`; `false` while the call waits. -/
def tarsInvokeAsync (s : Calls) (thread proxy : Nat) (funcName request : List UInt8)
    (created : Option Nat) (now : Int) : Except Fault (Bool × Calls) := do
  let (msg, s) := s.newMessage false funcName request
  s.invoke thread proxy msg created now

/-- A call of a client: whether it returned. -/
def call (s : Calls) (sync : Bool) (thread proxy : Nat) (funcName request : List UInt8)
    (created : Option Nat) (now : Int) : Except Fault (Bool × Calls) :=
  if sync then do
    let (response, s) ← s.tarsInvoke thread proxy funcName request created now
    .ok (response.isSome, s)
  else s.tarsInvokeAsync thread proxy funcName request created now

/-! ## A full queue -/

/-- The queue that the call chooses does not take its message. -/
def PushFails (s : Calls) (thread proxy : Nat) (created : Option Nat) : Prop :=
  ∃ choice client queue, s.client.choose thread proxy created = .ok (choice, client) ∧
    (client.data choice.record).reqQueue choice.index = some queue ∧
      (queue.pushBack s.messages.length).1.1 = false

/-- The call returns with the queues and the other messages as they were, and its own
message deleted once. -/
def Abandoned (s : Calls) (sync : Bool) (thread proxy : Nat) (funcName request : List UInt8)
    (created : Option Nat) (now : Int) : Prop :=
  ∃ last, s.call sync thread proxy funcName request created now = .ok (true, last) ∧
    (∀ record index, (last.client.data record).reqQueue index =
      (s.client.data record).reqQueue index) ∧
    last.messages = s.messages ++ [none]

end Calls

theorem initQueues_spec {queueSize : Nat} (count : Nat)
    {queues last : Nat → Option (LoopQueue MessagePtr)}
    (hinit : initQueues queueSize count queues = .ok last) {index : Nat} (hindex : index < count) :
    ∃ queue, last index = some queue ∧ queue.full = false := by
  induction count generalizing last with
  | zero => exact absurd hindex (Nat.not_lt_zero _)
  | succ count ih =>
      obtain ⟨before, hbefore, hrest⟩ := ok_of_bind_ok hinit
      obtain ⟨queue, hcreate, hdone⟩ := ok_of_bind_ok hrest
      split at hdone
      · cases hdone
        by_cases hlast : index = count
        · subst hlast
          refine ⟨queue, Function.update_self _ _ _, ?_⟩
          rw [LoopQueue.create] at hcreate
          split at hcreate
          · cases hcreate
            rfl
          · cases hcreate
        · rw [Function.update_of_ne hlast]
          exact ih hbefore (by omega)
      · cases hdone

/-- The index is that of a net thread of the proxy, and a record that is used for the first
time gets new queues. -/
theorem selectNetThreadInfo_spec {data data' : ServantProxyThreadData} {proxy : ServantProxy}
    {index : Nat} (hselect : selectNetThreadInfo data proxy = .ok (index, data')) :
    (data.queueInit = true ∧ data'.reqQueue = data.reqQueue) ∨
      ∃ queue, data'.reqQueue index = some queue ∧ queue.full = false := by
  obtain ⟨ready, hinit, hrest⟩ := ok_of_bind_ok hselect
  have hindex : index < proxy.objectProxyNum ∧ data'.reqQueue = ready.reqQueue := by
    split at hrest
    · rename_i hone
      cases hrest
      exact ⟨by omega, rfl⟩
    split at hrest
    · rename_i hnonneg
      split at hrest
      · rename_i hlt
        split at hrest
        · cases hrest
          have hle := toInt32_le proxy.objectProxyNum
          exact ⟨by omega, rfl⟩
        · cases hrest
      · cases hrest
    split at hrest
    · rename_i hlt
      cases hrest
      exact ⟨hlt.1, rfl⟩
    · cases hrest
  rw [hindex.2]
  rw [initData] at hinit
  split at hinit
  · rename_i hready
    cases hinit
    exact .inl ⟨hready, rfl⟩
  · obtain ⟨queues, hqueues, hdone⟩ := ok_of_bind_ok hinit
    cases hdone
    exact .inr (initQueues_spec _ hqueues hindex.1)

theorem getData_data {c c' : Client} {thread record : Nat} {created : Option Nat}
    (hget : c.getData thread created = (some record, c')) :
    c'.data = c.data ∨ (c'.data record).queueInit = false := by
  obtain ⟨d, hkey, hrecord⟩ := getData_cases hget
  have hdata : d.data = c.data := by
    rcases hkey with ⟨rfl, -⟩ | ⟨-, hcreate⟩
    · rfl
    · obtain ⟨key, -, rfl⟩ := Option.map_eq_some_iff.mp hcreate
      rfl
  rcases hrecord with ⟨-, rfl⟩ | ⟨-, rfl, rfl⟩
  · exact .inl hdata
  · exact .inr (by simp [newRecord])

/-- A call that chooses a full queue finds all queues made and leaves them as they are. -/
theorem choose_full {c c' : Client} {thread proxy : Nat} {created : Option Nat} {choice : Choice}
    {queue : LoopQueue MessagePtr}
    (hchoose : c.choose thread proxy created = .ok (choice, c'))
    (hqueue : (c'.data choice.record).reqQueue choice.index = some queue)
    (hfull : queue.full = true) (record index : Nat) :
    (c'.data record).reqQueue index = (c.data record).reqQueue index := by
  obtain ⟨d, data, hrecord, hselect, -, -, -, -, rfl⟩ := choose_cases hchoose
  have hdata : d.data = c.data ∨ (d.data choice.record).queueInit = false := by
    rcases hrecord with ⟨-, rfl⟩ | ⟨-, hget⟩
    · exact .inl rfl
    · exact getData_data hget
  simp only [useRecord, Function.update_self] at hqueue
  rcases selectNetThreadInfo_spec hselect with ⟨hready, hsame⟩ | ⟨fresh, hfresh, hnotfull⟩
  · rcases hdata with hdata | hnew
    · rw [← hdata]
      by_cases hused : record = choice.record
      · subst hused
        simp only [useRecord, Function.update_self, hsame]
      · simp only [useRecord, Function.update_of_ne hused]
    · rw [hnew] at hready
      cases hready
  · rw [hfresh, Option.some.injEq] at hqueue
    rw [← hqueue, hnotfull] at hfull
    cases hfull

namespace Calls

/-! ## The messages of a call -/

section

variable {s : Calls} {before : List (Option ReqMessage)} {message : ReqMessage}

theorem load_last (hlast : s.messages = before ++ [some message]) :
    s.load (some before.length) = .ok message := by
  simp [load, hlast]

theorem store_last (hlast : s.messages = before ++ [some message]) (next : ReqMessage) :
    s.store before.length next = .ok { s with messages := before ++ [some next] } := by
  simp [store, load_last hlast, hlast, bind, Except.bind]

theorem delete_last (hlast : s.messages = before ++ [some message]) :
    s.delete before.length = .ok { s with messages := before ++ [none] } := by
  simp [delete, load_last hlast, hlast, bind, Except.bind]

end

/-- A slot is always there: `netSeq_` is the number of a net thread. -/
theorem notify_ok (s : Calls) (choice : Choice) :
    ∃ notified, s.notify choice = .ok { s with notified := notified } := by
  have hseq := (s.client.data choice.record).netSeq_le
  exact ⟨_, by rw [notify, if_pos (by omega)]⟩

/-- `invoke` of a message that its queue does not take.  The synchronous call goes on to look
at the message through the pointer it has just set to null. -/
theorem invoke_full {s : Calls} {before : List (Option ReqMessage)} {message : ReqMessage}
    (hlast : s.messages = before ++ [some message]) {thread proxy : Nat} {created : Option Nat}
    {choice : Choice} {client : Client} {queue : LoopQueue MessagePtr}
    (hchoose : s.client.choose thread proxy created = .ok (choice, client))
    (hqueue : (client.data choice.record).reqQueue choice.index = some queue)
    (hfull : queue.full = true) (now : Int) :
    (message.type = .syncCall →
      s.invoke thread proxy before.length created now = .error .nullPointer) ∧
    (message.type ≠ .syncCall → ∃ last,
      s.invoke thread proxy before.length created now = .ok (true, last) ∧
        last.messages = before ++ [none] ∧
        ∀ record index, (last.client.data record).reqQueue index =
          (client.data record).reqQueue index) := by
  let sync := decide (message.type = .syncCall)
  let chosen : Calls := { s with client := client }
  let next : ReqMessage :=
    { message with
      beginTime := now
      objectProxy := some ((client.proxies proxy).objectProxy choice.index)
      monitorFin := if sync then false else message.monitorFin }
  let stored : Calls := { chosen with messages := before ++ [some next] }
  let full := stored.setQueue choice queue
  let deleted : Calls := { full with messages := before ++ [none] }
  have hload : chosen.load (some before.length) = .ok message := load_last hlast
  have hstore : chosen.store before.length next = .ok stored :=
    @store_last chosen before message hlast next
  have hpush : queue.pushBack before.length = ((false, false), queue) := by
    rw [LoopQueue.pushBack, if_pos hfull]
  have hdelete : full.delete before.length = .ok deleted := delete_last rfl
  obtain ⟨once, hfirst⟩ := notify_ok deleted choice
  obtain ⟨twice, hsecond⟩ := notify_ok { deleted with notified := once } choice
  have hrun : s.invoke thread proxy before.length created now =
      Calls.invokeEnd { deleted with notified := twice } sync none := by
    rw [invoke, hchoose]
    change (chosen.load (some before.length)).bind _ = _
    rw [hload]
    change (chosen.store before.length next).bind _ = _
    rw [hstore]
    change (stored.chosenQueue choice).bind _ = _
    rw [chosenQueue, hqueue]
    simp only [Except.bind, hpush]
    change (full.delete before.length).bind _ = _
    rw [hdelete]
    change (deleted.notify choice).bind _ = _
    rw [hfirst]
    change (Calls.notify { deleted with notified := once } choice).bind _ = _
    rw [hsecond]
    rfl
  rw [hrun]
  constructor
  · intro htype
    simp [invokeEnd, sync, htype, load, bind, Except.bind]
  · intro htype
    refine ⟨{ deleted with notified := twice }, by simp [invokeEnd, sync, htype], rfl, ?_⟩
    intro record index
    by_cases hrecord : record = choice.record
    · subst hrecord
      by_cases hindex : index = choice.index
      · subst hindex
        simp [deleted, full, setQueue, stored, chosen, hqueue]
      · simp [deleted, full, setQueue, stored, chosen, hindex]
    · simp [deleted, full, setQueue, stored, chosen, hrecord]

/-- A call whose message is not taken by its queue is abandoned cleanly exactly when it is
asynchronous. -/
theorem abandoned_iff {s : Calls} {thread proxy : Nat} {created : Option Nat}
    (hfails : s.PushFails thread proxy created) (sync : Bool) (funcName request : List UInt8)
    (now : Int) :
    s.Abandoned sync thread proxy funcName request created now ↔ sync = false := by
  obtain ⟨choice, client, queue, hchoose, hqueue, hpush⟩ := hfails
  have hfull : queue.full = true := by
    by_contra hroom
    rw [LoopQueue.pushBack, if_neg hroom] at hpush
    cases hpush
  have hkept := choose_full hchoose hqueue hfull
  let message : ReqMessage :=
    { address := s.messages.length
      type := if sync then .syncCall else .asyncCall
      request := funcName ++ colon :: request }
  have hinvoke := @invoke_full { s with messages := s.messages ++ [some message] } s.messages
    message rfl thread proxy created choice client queue hchoose hqueue hfull now
  cases sync with
  | true =>
      have hcall : s.call true thread proxy funcName request created now =
          .error .nullPointer := by
        have hnull := hinvoke.1 rfl
        simp only [call, if_true]
        change Except.bind (Except.bind (Calls.invoke
          { s with messages := s.messages ++ [some message] } thread proxy s.messages.length
            created now) _) _ = _
        rw [hnull]
        rfl
      constructor
      · rintro ⟨last, hlast, -⟩
        rw [hcall] at hlast
        cases hlast
      · intro hfalse
        cases hfalse
  | false =>
      obtain ⟨last, hlast, hmessages, hqueues⟩ := hinvoke.2 (by simp [message])
      refine ⟨fun _ => rfl, fun _ => ⟨last, ?_, fun record index => ?_, hmessages⟩⟩
      · simp only [call, tarsInvokeAsync, newMessage, Bool.false_eq_true, if_false]
        exact hlast
      · rw [hqueues, hkept]

/-! ### At a full queue -/

/-- A queue of capacity 1000 that holds 1000 messages. -/
def fullQueue : LoopQueue MessagePtr where
  capacitySub := 1000
  cells := fun _ => 0
  beginPos := 1000
  capacitySub_lt := by decide

/-- A thread that has filled its queue. -/
def busy : Calls where
  client :=
    { key := 1, specific := fun _ thread => if thread = 0 then some 0 else none, recordNum := 1
      data := fun _ =>
        { (default : ServantProxyThreadData) with
          reqQueue := fun index => if index = 0 then some fullQueue else none
          queueInit := true, objectProxyNum := 1 }
      proxies := fun _ => { sptd := some 0 } }

theorem busy_pushFails : busy.PushFails 0 0 none := ⟨_, _, fullQueue, rfl, rfl, by decide⟩

theorem async_abandoned : busy.PushFails 0 0 none ∧ busy.Abandoned false 0 0 [97] [98] none 7 :=
  ⟨busy_pushFails, (abandoned_iff busy_pushFails false [97] [98] 7).mpr rfl⟩

/-- The synchronous call reads `monitorFin` of a null pointer. -/
theorem sync_not_abandoned : busy.PushFails 0 0 none ∧
    busy.call true 0 0 [97] [98] none 7 = .error .nullPointer ∧
    ¬ busy.Abandoned true 0 0 [97] [98] none 7 := by
  have hcall : busy.call true 0 0 [97] [98] none 7 = .error .nullPointer := rfl
  refine ⟨busy_pushFails, hcall, ?_⟩
  rintro ⟨last, hlast, -⟩
  rw [hcall] at hlast
  cases hlast

end Calls

end Client

end Tarsx
