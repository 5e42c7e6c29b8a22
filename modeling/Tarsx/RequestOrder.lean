/-
The order of requests on a connected client: what the socket took, what the
transceiver keeps and what waits in the send list are together the frames of all
messages in call order.  The send list is never taken up again, so this holds in
the runs where no writable event gets to it while it is not empty; the other way to
lose bytes is to write 2^31 of them or more at once.
-/
import Tarsx.ObjectProxy
import Tarsx.TransceiverStream

namespace Tarsx

open Foundation

namespace ObjectProxy

/-- A client with the bytes its socket took so far and the frames of its messages
in call order. -/
structure Client where
  proxy : ObjectProxy
  wire : List UInt8 := []
  issued : List UInt8 := []
deriving DecidableEq, Repr

/-- What happens to a client: a message is sent, or its socket is writable. -/
inductive ClientAction where
  | send (msg : ReqMessage) (socket : Option Nat) (result : WriteResult)
  | writable (result : WriteResult) (results : List WriteResult)
deriving DecidableEq, Repr

def clientStep (c : Client) : ClientAction → Except Fault Client
  | .send msg socket result => do
      let (proxy, (_, taken)) ← c.proxy.sendReqMessage msg socket result
      .ok { proxy := proxy, wire := c.wire ++ taken,
            issued := c.issued ++ (c.proxy.prepare msg).2.reqData }
  | .writable result results => do
      let (proxy, (_, taken)) ← c.proxy.doRequest result results
      .ok { c with proxy := proxy, wire := c.wire ++ taken }

/-- The frame of a message. -/
def frameOf (msg : Option ReqMessage) : List UInt8 :=
  match msg with
  | some msg => msg.reqData
  | none => []

/-- The frames that wait in the send list, oldest first. -/
def waiting (p : ObjectProxy) : List UInt8 := p.timeoutQueue.unsent.flatMap frameOf

/-- Nothing is lost, doubled or out of order. -/
def InOrder (c : Client) : Prop :=
  c.wire ++ c.proxy.trans.sendBuffer.contents ++ c.proxy.waiting = c.issued

/-- The id of the message is not outstanding, its frame is no longer than a string
can be, and no write ends the process. -/
inductive Legal (c : Client) : ClientAction → Prop where
  | send {msg : ReqMessage} {socket : Option Nat} {result : WriteResult} :
      c.proxy.timeoutQueue.find (toUInt32 (c.proxy.prepare msg).2.requestId) = none →
      (c.proxy.prepare msg).2.reqData.length < Buffer.maxBufferSize → result.Alive →
      Legal c (.send msg socket result)
  | writable {result : WriteResult} {results : List WriteResult} : result.Alive →
      Legal c (.writable result results)

/-- The message goes to the socket and not to the send list. -/
def Direct (p : ObjectProxy) : Prop :=
  p.timeoutQueue.sendListEmpty = true ∧ p.trans.sendBuffer.contents = []

/-- A message that goes to the socket is one whose rest is kept.  A writable event
finds the send list empty, or the socket takes some of the kept bytes and not all; and
it takes less than 2^31 of them. -/
def KeepsOrder (c : Client) : ClientAction → Prop
  | .send msg _ result =>
      c.proxy.Direct → Transceiver.KeepsRest (c.proxy.prepare msg).2.reqData.length result
  | .writable result _ =>
      result.takes c.proxy.trans.sendBuffer.contents.length < 2 ^ 31 ∧
        (c.proxy.timeoutQueue.send = [] ∨
          0 < result.takes c.proxy.trans.sendBuffer.contents.length ∧
            result.takes c.proxy.trans.sendBuffer.contents.length <
              c.proxy.trans.sendBuffer.contents.length)

/-- The invariant of a connected client. -/
structure Client.Sound (c : Client) : Prop where
  buffer : c.proxy.trans.sendBuffer.WellFormed
  connected : c.proxy.trans.connected = true
  linked : c.proxy.timeoutQueue.Linked
  messages : ∀ msg ∈ c.proxy.timeoutQueue.unsent, msg.isNone = false
  inOrder : InOrder c

/-! ### `sendReqMessage` -/

section Send

variable {p : ObjectProxy} {msg : ReqMessage}

/-- A sent message leaves the send list as it is. -/
theorem enqueue_sent (hlinked : p.timeoutQueue.Linked)
    (hfresh : p.timeoutQueue.find (toUInt32 msg.requestId) = none) :
    ∃ q, p.enqueue msg true = ({ p with timeoutQueue := q }, none) ∧ q.Linked ∧
      q.unsent = p.timeoutQueue.unsent := by
  obtain ⟨hok, hgood, hsame⟩ :=
    TimeoutQueueNew.push_sent hlinked hfresh (some msg) (1000 + msg.beginTime)
  exact ⟨_, by simp only [enqueue, hok, if_true], hgood, hsame⟩

/-- A message that could not be sent becomes the newest of the send list. -/
theorem enqueue_unsent (hlinked : p.timeoutQueue.Linked)
    (hfresh : p.timeoutQueue.find (toUInt32 msg.requestId) = none) :
    ∃ q, p.enqueue msg false = ({ p with timeoutQueue := q }, none) ∧ q.Linked ∧
      q.unsent = p.timeoutQueue.unsent ++ [some msg] := by
  obtain ⟨hok, hgood, hmore⟩ :=
    TimeoutQueueNew.push_unsent hlinked hfresh (some msg) (1000 + msg.beginTime)
  exact ⟨_, by simp only [enqueue, hok, if_true], hgood, hmore⟩

/-- On a connected transceiver there is no `connect`. -/
theorem sendReqMessage_of_connected (hconnected : p.trans.connected = true)
    (socket : Option Nat) (result : WriteResult) :
    p.sendReqMessage msg socket result =
      if p.timeoutQueue.sendListEmpty then do
        let (trans, (ret, taken)) ←
          p.trans.sendRequest (p.prepare msg).2.reqData result
        let (last, finished) := enqueue { (p.prepare msg).1 with trans := trans }
          (p.prepare msg).2 (decide (ret ≠ Transceiver.retError))
        .ok (last, (finished, taken))
      else
        let (last, finished) := (p.prepare msg).1.enqueue (p.prepare msg).2 false
        .ok (last, (finished, [])) := by
  simp only [sendReqMessage, hconnected, if_true, bind, Except.bind]
  rfl

/-- With an empty send list and nothing kept the frame goes to the socket. -/
theorem sendReqMessage_sent (hconnected : p.trans.connected = true)
    (hwell : p.trans.sendBuffer.WellFormed) (hlinked : p.timeoutQueue.Linked)
    (hdirect : p.Direct)
    (hfresh : p.timeoutQueue.find (toUInt32 (p.prepare msg).2.requestId) = none)
    (hsize : (p.prepare msg).2.reqData.length < Buffer.maxBufferSize)
    (socket : Option Nat) {result : WriteResult} (halive : result.Alive)
    (hrest : Transceiver.KeepsRest (p.prepare msg).2.reqData.length result) :
    ∃ b q taken, p.sendReqMessage msg socket result =
        .ok (⟨{ p.trans with sendBuffer := b }, q, (p.prepare msg).1.id⟩,
          (none, taken)) ∧
      taken ++ b.contents = (p.prepare msg).2.reqData ∧ b.WellFormed ∧ q.Linked ∧
      q.unsent = p.timeoutQueue.unsent := by
  obtain ⟨hempty, hnone⟩ := hdirect
  obtain ⟨b, ret, taken, hsend, hret, hjoin, hwell'⟩ :=
    Transceiver.sendRequest_spec hwell hnone hsize hrest halive
  obtain ⟨q, henqueue, hlinked', hsame⟩ := @enqueue_sent
    { (p.prepare msg).1 with trans := { p.trans with sendBuffer := b } }
    (p.prepare msg).2 hlinked hfresh
  refine ⟨b, q, taken, ?_, hjoin, hwell', hlinked', hsame⟩
  rw [sendReqMessage_of_connected hconnected, if_pos hempty, hsend]
  simp only [bind, Except.bind, decide_eq_true hret, henqueue]

/-- A frame whose rest is not kept is not what the socket took and the send list got
together. -/
theorem sendReqMessage_loses (hconnected : p.trans.connected = true)
    (hwell : p.trans.sendBuffer.WellFormed) (hlinked : p.timeoutQueue.Linked)
    (hdirect : p.Direct)
    (hfresh : p.timeoutQueue.find (toUInt32 (p.prepare msg).2.requestId) = none)
    (socket : Option Nat) {result : WriteResult} (halive : result.Alive)
    (hrest : ¬ Transceiver.KeepsRest (p.prepare msg).2.reqData.length result) :
    ∃ q taken, p.sendReqMessage msg socket result =
        .ok (⟨p.trans, q, (p.prepare msg).1.id⟩, (none, taken)) ∧
      taken ++ q.unsent.flatMap frameOf ≠ (p.prepare msg).2.reqData := by
  obtain ⟨hempty, hnone⟩ := hdirect
  have hunsent : (p.prepare msg).1.timeoutQueue.unsent = [] :=
    (TimeoutQueueNew.sendListEmpty_iff hlinked).mp hempty
  obtain ⟨ret, taken, hsend, hloses⟩ :=
    Transceiver.sendRequest_loses hwell hnone hrest halive
  by_cases hret : ret = Transceiver.retError
  · obtain ⟨q, henqueue, _, hmore⟩ :=
      @enqueue_unsent (p.prepare msg).1 (p.prepare msg).2 hlinked hfresh
    refine ⟨q, taken, ?_, ?_⟩
    · rw [sendReqMessage_of_connected hconnected, if_pos hempty, hsend]
      simp only [bind, Except.bind, hret, ne_eq, not_true_eq_false, decide_false]
      change (let (last, finished) := (p.prepare msg).1.enqueue (p.prepare msg).2 false
        Except.ok (last, (finished, taken))) = _
      rw [henqueue]
      rfl
    · rw [if_pos hret] at hloses
      rw [hmore, hunsent]
      intro hsame
      apply hloses
      simpa [frameOf] using hsame
  · obtain ⟨q, henqueue, _, hsame⟩ :=
      @enqueue_sent (p.prepare msg).1 (p.prepare msg).2 hlinked hfresh
    refine ⟨q, taken, ?_, ?_⟩
    · rw [sendReqMessage_of_connected hconnected, if_pos hempty, hsend]
      simp only [bind, Except.bind, decide_eq_true hret]
      change (let (last, finished) := (p.prepare msg).1.enqueue (p.prepare msg).2 true
        Except.ok (last, (finished, taken))) = _
      rw [henqueue]
      rfl
    · rw [if_neg hret] at hloses
      rwa [hsame, hunsent, List.flatMap_nil, List.append_nil]

/-- Otherwise the message joins the send list and nothing is written. -/
theorem sendReqMessage_waits (hconnected : p.trans.connected = true)
    (hwell : p.trans.sendBuffer.WellFormed) (hlinked : p.timeoutQueue.Linked)
    (hwait : ¬ p.Direct)
    (hfresh : p.timeoutQueue.find (toUInt32 (p.prepare msg).2.requestId) = none)
    (socket : Option Nat) (result : WriteResult) :
    ∃ q, p.sendReqMessage msg socket result =
        .ok (⟨p.trans, q, (p.prepare msg).1.id⟩, (none, [])) ∧ q.Linked ∧
      q.unsent = p.timeoutQueue.unsent ++ [some (p.prepare msg).2] := by
  obtain ⟨q, henqueue, hlinked', hmore⟩ :=
    @enqueue_unsent (p.prepare msg).1 (p.prepare msg).2 hlinked hfresh
  refine ⟨q, ?_, hlinked', hmore⟩
  rw [sendReqMessage_of_connected hconnected]
  by_cases hempty : p.timeoutQueue.sendListEmpty = true
  · have hrefused := Transceiver.sendRequest_of_kept hwell
      (fun hnone => hwait ⟨hempty, hnone⟩) (p.prepare msg).2.reqData result
    have hnot : decide (Transceiver.retError ≠ Transceiver.retError) = false := rfl
    rw [if_pos hempty, hrefused]
    simp only [bind, Except.bind, hnot]
    change (let (last, finished) := (p.prepare msg).1.enqueue (p.prepare msg).2 false
      Except.ok (last, (finished, []))) = _
    rw [henqueue]
    rfl
  · rw [if_neg hempty, henqueue]
    rfl

end Send

/-! ### One step of a client -/

theorem clientStep_send {c : Client} {msg : ReqMessage} {socket : Option Nat}
    {result : WriteResult} {next : ObjectProxy} {finished : Option ReqMessage}
    {taken : List UInt8}
    (hsend : c.proxy.sendReqMessage msg socket result = .ok (next, (finished, taken))) :
    clientStep c (.send msg socket result) =
      .ok ⟨next, c.wire ++ taken, c.issued ++ (c.proxy.prepare msg).2.reqData⟩ := by
  simp only [clientStep, hsend, bind, Except.bind]

theorem send_sound {c : Client} (h : c.Sound) {msg : ReqMessage}
    {socket : Option Nat} {result : WriteResult}
    (hlegal : Legal c (.send msg socket result))
    (hkeeps : KeepsOrder c (.send msg socket result)) :
    ∃ next, clientStep c (.send msg socket result) = .ok next ∧ next.Sound := by
  cases hlegal with
  | send hfresh hsize halive =>
      have hold := h.inOrder
      by_cases hdirect : c.proxy.Direct
      · have hnone := (TimeoutQueueNew.sendListEmpty_iff h.linked).mp hdirect.1
        obtain ⟨b, q, taken, hsend, hjoin, hwell, hlinked, hsame⟩ :=
          sendReqMessage_sent h.connected h.buffer h.linked hdirect hfresh hsize
            socket halive (hkeeps hdirect)
        refine ⟨_, clientStep_send hsend, hwell, h.connected, hlinked, ?_, ?_⟩
        · simp only [hsame]
          exact h.messages
        · simp only [InOrder, waiting, hsame, hnone, List.flatMap_nil,
            List.append_nil, hdirect.2] at hold ⊢
          rw [List.append_assoc, hjoin, hold]
      · obtain ⟨q, hsend, hlinked, hmore⟩ := sendReqMessage_waits h.connected
          h.buffer h.linked hdirect hfresh socket result
        refine ⟨_, clientStep_send hsend, h.buffer, h.connected, hlinked, ?_, ?_⟩
        · intro other hother
          rw [hmore, List.mem_append, List.mem_singleton] at hother
          rcases hother with hother | rfl
          · exact h.messages other hother
          · rfl
        · simp only [InOrder, waiting, hmore, List.flatMap_append,
            List.flatMap_singleton, frameOf, List.append_nil] at hold ⊢
          rw [← hold]
          simp only [List.append_assoc]

/-- A message that goes to the socket and whose rest is not kept breaks the order. -/
theorem send_breaks {c : Client} (h : c.Sound) {msg : ReqMessage}
    {socket : Option Nat} {result : WriteResult}
    (hlegal : Legal c (.send msg socket result))
    (hbad : ¬ KeepsOrder c (.send msg socket result)) :
    ∃ next, clientStep c (.send msg socket result) = .ok next ∧ ¬ InOrder next := by
  cases hlegal with
  | send hfresh hsize halive =>
      simp only [KeepsOrder, Classical.not_imp] at hbad
      obtain ⟨hdirect, hrest⟩ := hbad
      obtain ⟨q, taken, hsend, hloses⟩ := sendReqMessage_loses h.connected h.buffer
        h.linked hdirect hfresh socket halive hrest
      refine ⟨_, clientStep_send hsend, ?_⟩
      have hold := h.inOrder
      have hnone := (TimeoutQueueNew.sendListEmpty_iff h.linked).mp hdirect.1
      simp only [InOrder, waiting, hdirect.2, hnone, List.flatMap_nil,
        List.append_nil] at hold ⊢
      rw [hold, List.append_assoc]
      exact fun hsame => hloses (List.append_cancel_left hsame)

/-- A writable event that keeps off the send list flushes the buffer. -/
theorem writable_sound {c : Client} (h : c.Sound) {result : WriteResult}
    {results : List WriteResult} (halive : result.Alive)
    (hkeeps : KeepsOrder c (.writable result results)) :
    ∃ next, clientStep c (.writable result results) = .ok next ∧ next.Sound := by
  obtain ⟨hsmall, hkeeps⟩ := hkeeps
  obtain ⟨b, done, taken, hflush, hjoin, hwell, hdone⟩ :=
    Transceiver.flush_spec h.buffer hsmall halive
  have hstep : clientStep c (.writable result results) =
      .ok { c with
        proxy := { c.proxy with trans := { c.proxy.trans with sendBuffer := b } }
        wire := c.wire ++ taken } := by
    cases done with
    | some ret => simp only [clientStep, doRequest, hflush, bind, Except.bind]
    | none =>
        have hempty : c.proxy.timeoutQueue.sendListEmpty = true := by
          rcases hkeeps with hnil | hpart
          · rw [TimeoutQueueNew.sendListEmpty, hnil]
            rfl
          · exact absurd rfl (hdone.mpr hpart)
        simp only [clientStep, doRequest, hflush, bind, Except.bind, doInvoke,
          if_pos hempty, List.append_nil]
  refine ⟨_, hstep, hwell, h.connected, h.linked, h.messages, ?_⟩
  have hold := h.inOrder
  simp only [InOrder, waiting] at hold ⊢
  rw [← hold, ← hjoin]
  simp only [List.append_assoc]

/-- Any other writable event writes bytes that stay in the buffer, or gets to the
send list and fails the assertion of `getSend`. -/
theorem writable_breaks {c : Client} (h : c.Sound) {result : WriteResult}
    {results : List WriteResult} (halive : result.Alive)
    (hbad : ¬ KeepsOrder c (.writable result results)) :
    clientStep c (.writable result results) = .error .assertion ∨
      ∃ next, clientStep c (.writable result results) = .ok next ∧ ¬ InOrder next := by
  by_cases hsmall : result.takes c.proxy.trans.sendBuffer.contents.length < 2 ^ 31
  · left
    simp only [KeepsOrder, not_and, not_or] at hbad
    obtain ⟨hsome, hpart⟩ := hbad hsmall
    obtain ⟨b, done, taken, hflush, _, _, hdone⟩ :=
      Transceiver.flush_spec h.buffer hsmall halive
    have hnone : done = none := by
      by_contra hreturns
      obtain ⟨hpos, hlt⟩ := hdone.mp hreturns
      exact hpart hpos hlt
    subst hnone
    have hempty : ¬ c.proxy.timeoutQueue.sendListEmpty = true := by
      rw [TimeoutQueueNew.sendListEmpty, List.isEmpty_iff]
      exact hsome
    have hget := TimeoutQueueNew.getSend_of_not_null h.linked hsome h.messages none
    simp only [clientStep, doRequest, hflush, bind, Except.bind, doInvoke, invokeLoop,
      if_neg hempty, hget]
  · right
    obtain ⟨ret, taken, hflush, htaken⟩ :=
      Transceiver.flush_doubles h.buffer (Nat.not_lt.mp hsmall) halive
    refine ⟨{ c with wire := c.wire ++ taken }, ?_, ?_⟩
    · simp only [clientStep, doRequest, hflush, bind, Except.bind]
    · intro hboth
      have hold := h.inOrder
      simp only [InOrder] at hold hboth
      rw [← hold] at hboth
      have hlength := congrArg List.length hboth
      simp only [List.length_append] at hlength
      have hpos := List.length_pos_iff.mpr htaken
      omega

/-! ### Runs -/

/-- From a sound client: no step of a legal run faults and every state is in order
exactly when every step meets the condition. -/
theorem Client.Sound.inOrder_iff {c : Client} (h : c.Sound)
    {actions : List ClientAction} (hlegal : Along clientStep Legal c actions) :
    Stays clientStep InOrder c actions ↔ Along clientStep KeepsOrder c actions := by
  apply stays_iff_along_of_legal (fun c (hsound : Client.Sound c) => hsound.inOrder) ?_ ?_
    h hlegal
  · intro c action hsound hlegal hkeeps
    cases action with
    | send msg socket result => exact send_sound hsound hlegal hkeeps
    | writable result results =>
        cases hlegal with
        | writable halive => exact writable_sound hsound halive hkeeps
  · intro c action next hsound hlegal hbad hstep
    cases action with
    | send msg socket result =>
        obtain ⟨other, hother, hbroken⟩ := send_breaks hsound hlegal hbad
        exact Except.ok.inj (hother.symm.trans hstep) ▸ hbroken
    | writable result results =>
        cases hlegal with
        | writable halive =>
            rcases writable_breaks hsound halive hbad with
              hasserts | ⟨other, hother, hbroken⟩
            · rw [hasserts] at hstep
              contradiction
            · exact Except.ok.inj (hother.symm.trans hstep) ▸ hbroken

/-- A client whose transceiver is connected and that has sent nothing. -/
def connectedClient (fd : Int) (ip : String) (port : Nat) (interest : List EpollEvent)
    (uniqueId id : Nat) : Client :=
  { proxy :=
      { trans := Transceiver.fresh true fd ip port interest
        timeoutQueue := { uniqueId := uniqueId }
        id := id } }

theorem connectedClient_sound (fd : Int) (ip : String) (port : Nat)
    (interest : List EpollEvent) (uniqueId id : Nat) :
    (connectedClient fd ip port interest uniqueId id).Sound := by
  have hempty : (Transceiver.fresh true fd ip port interest).sendBuffer.contents = [] :=
    Buffer.contents_default
  refine ⟨Buffer.wellFormed_default, rfl, TimeoutQueueNew.linked_default uniqueId,
    ?_, ?_⟩
  · intro msg hmsg
    contradiction
  · simp only [InOrder, waiting, connectedClient, hempty,
      TimeoutQueueNew.unsent_default, List.flatMap_nil, List.append_nil]

/-- Over every legal run of a connected client: the bytes the socket took, the bytes
kept and the frames on the send list are always the frames of all messages in call
order, and every writable event returns, exactly when every step meets
`KeepsOrder`. -/
theorem requests_in_order_iff (fd : Int) (ip : String) (port : Nat)
    (interest : List EpollEvent) (uniqueId id : Nat) (actions : List ClientAction)
    (hlegal : Along clientStep Legal (connectedClient fd ip port interest uniqueId id)
      actions) :
    Stays clientStep InOrder (connectedClient fd ip port interest uniqueId id)
        actions ↔
      Along clientStep KeepsOrder (connectedClient fd ip port interest uniqueId id)
        actions :=
  (connectedClient_sound fd ip port interest uniqueId id).inOrder_iff hlegal

set_option maxRecDepth 4000 in
/-- The socket takes one byte of the first request, the second waits in the send
list, and the writable event that sends the rest fails the assertion of `getSend`. -/
theorem send_list_asserts :
    Along clientStep Legal (connectedClient 7 "127.0.0.1" 80 [.epollin] 0 0)
      [.send { request := [97] } none (.accepted 1),
        .send { request := [98] } none .again, .writable (.accepted 100) []] ∧
    run clientStep (connectedClient 7 "127.0.0.1" 80 [.epollin] 0 0)
      [.send { request := [97] } none (.accepted 1),
        .send { request := [98] } none .again, .writable (.accepted 100) []] =
      .error .assertion ∧
    ¬ Stays clientStep InOrder (connectedClient 7 "127.0.0.1" 80 [.epollin] 0 0)
      [.send { request := [97] } none (.accepted 1),
        .send { request := [98] } none .again, .writable (.accepted 100) []] := by
  have hrun : run clientStep (connectedClient 7 "127.0.0.1" 80 [.epollin] 0 0)
      [.send { request := [97] } none (.accepted 1),
        .send { request := [98] } none .again, .writable (.accepted 100) []] =
      .error .assertion := rfl
  refine ⟨?_, hrun, ?_⟩
  · apply Along.cons_of_ok (.send rfl (by decide) (.accepted 1)) rfl
    apply Along.cons_of_ok (.send rfl (by decide) .again) rfl
    exact ⟨.writable (.accepted 100), fun _ _ => trivial⟩
  · intro hstays
    obtain ⟨last, hlast, _⟩ := hstays.run_ok
    rw [hrun] at hlast
    contradiction

set_option maxRecDepth 4000 in
/-- One request, written in three parts. -/
theorem requests_in_order_one :
    Stays clientStep InOrder (connectedClient 7 "127.0.0.1" 80 [.epollin] 0 0)
      [.send { request := [97] } none (.accepted 1), .writable (.accepted 2) [],
        .writable (.accepted 100) []] := by
  apply (requests_in_order_iff 7 "127.0.0.1" 80 [.epollin] 0 0 _ ?_).mpr
  · apply Along.cons_of_ok (fun _ => Or.inl (by decide)) rfl
    apply Along.cons_of_ok ⟨by decide, Or.inl rfl⟩ rfl
    exact ⟨⟨by decide, Or.inl rfl⟩, fun _ _ => trivial⟩
  · apply Along.cons_of_ok (.send rfl (by decide) (.accepted 1)) rfl
    exact ⟨.writable (.accepted 2), fun _ _ =>
      ⟨.writable (.accepted 100), fun _ _ => trivial⟩⟩

end ObjectProxy

end Tarsx
