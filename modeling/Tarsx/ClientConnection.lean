/-
A client connection over any order of requests, socket events and epoll calls: when it
can be sent on, and when what could not be sent has an event to be sent at.
-/
import Tarsx.RequestLedger
import Tarsx.Responses

namespace Tarsx

open Foundation

/-! ### The steps of a connection -/

/-- A call of `epoll_ctl` on the descriptor of a connection, for at least one event. -/
inductive EpollCall where
  | add (event : EpollEvent) (more : List EpollEvent)
  | mod (event : EpollEvent) (more : List EpollEvent)
  | del
deriving DecidableEq, Repr

/-- The registration after a call: one that exists is not added again, and only one that
exists is changed. -/
def EpollCall.apply (call : EpollCall) (interest : List EpollEvent) : List EpollEvent :=
  match call with
  | .add event more => if interest = [] then event :: more else interest
  | .mod event more => if interest = [] then [] else event :: more
  | .del => []

/-- `epoll_ctl` fails on the descriptor -1. -/
def Transceiver.epollCtl (t : Transceiver) (call : EpollCall) : Transceiver :=
  if t.valid then { t with interest := call.apply t.interest } else t

namespace ObjectProxy

open Transceiver (ResponseCall ReadEnd Idle)

/-- What happens to a client connection: `sendReqMessage`, `doRequest`, `doResponse` with
what its `readv` calls bring, `finishInvoke(response)`, and epoll calls. -/
inductive ConnectionAction where
  | send (msg : ReqMessage) (socket : Option Nat) (result : WriteResult)
  | writable (result : WriteResult) (results : List WriteResult)
  | readable (call : ResponseCall) (ending : ReadEnd)
  | respond (response : List UInt8)
  | epoll (call : EpollCall)

def connectionStep (p : ObjectProxy) : ConnectionAction → Except Fault ObjectProxy
  | .send msg socket result => do
      let (p, _) ← p.sendReqMessage msg socket result
      .ok p
  | .writable result results => do
      let (p, _) ← p.doRequest result results
      .ok p
  | .readable call ending => do
      let (trans, _) ← p.trans.doResponse (call.chunks.map .data ++ [ending.result])
      .ok { p with trans := trans }
  | .respond response => do
      let (p, _) ← p.finishInvokeResponse response
      .ok p
  | .epoll call => .ok { p with trans := p.trans.epollCtl call }

/-- An `ObjectProxy` that was just made. -/
def newProxy (ip : String) (port uniqueId : Nat) : ObjectProxy :=
  { trans := { ip := ip, port := port }, timeoutQueue := { uniqueId := uniqueId } }

/-! ### What the steps leave alone -/

section Effects

variable {p q : ObjectProxy}

theorem sendRequest_keeps {t t' : Transceiver} {data : List UInt8} {result : WriteResult}
    {out : Int × List UInt8} (hstep : t.sendRequest data result = .ok (t', out)) :
    ∃ b, t' = { t with sendBuffer := b } := by
  rw [Transceiver.sendRequest] at hstep
  split at hstep
  · simp only [Except.ok.injEq, Prod.mk.injEq] at hstep
    exact ⟨t.sendBuffer, hstep.1.symm⟩
  · obtain ⟨⟨ret, taken⟩, _, hstep⟩ := ok_of_bind_ok hstep
    dsimp only at hstep
    split at hstep
    · simp only [Except.ok.injEq, Prod.mk.injEq] at hstep
      exact ⟨t.sendBuffer, hstep.1.symm⟩
    · split at hstep
      · obtain ⟨⟨_, rest⟩, _, hstep⟩ := ok_of_bind_ok hstep
        simp only [Except.ok.injEq, Prod.mk.injEq] at hstep
        exact ⟨rest, hstep.1.symm⟩
      · simp only [Except.ok.injEq, Prod.mk.injEq] at hstep
        exact ⟨t.sendBuffer, hstep.1.symm⟩

theorem flush_wellFormed {t t' : Transceiver} {result : WriteResult}
    {out : Option Int × List UInt8} (h : t.sendBuffer.WellFormed)
    (hstep : t.flush result = .ok (t', out)) : t'.sendBuffer.WellFormed := by
  by_cases halive : result.Alive
  · by_cases hsmall : result.takes t.sendBuffer.contents.length < 2 ^ 31
    · obtain ⟨b, done, taken, hflush, _, hwell, _⟩ := Transceiver.flush_spec h hsmall halive
      rw [hflush, Except.ok.injEq, Prod.mk.injEq] at hstep
      rw [← hstep.1]
      exact hwell
    · obtain ⟨ret, taken, hflush, _⟩ :=
        Transceiver.flush_doubles h (Nat.not_lt.mp hsmall) halive
      rw [hflush, Except.ok.injEq, Prod.mk.injEq] at hstep
      rw [← hstep.1]
      exact h
  · rw [Transceiver.flush] at hstep
    split at hstep
    · rw [Except.ok.injEq, Prod.mk.injEq] at hstep
      rw [← hstep.1]
      exact h
    · obtain ⟨data, _, hstep⟩ := ok_of_bind_ok hstep
      cases result with
      | accepted n => exact absurd (.accepted n) halive
      | again => exact absurd .again halive
      | interrupted => contradiction
      | failed => contradiction

theorem flush_keeps {t t' : Transceiver} {result : WriteResult}
    {out : Option Int × List UInt8} (hstep : t.flush result = .ok (t', out)) :
    ∃ b, t' = { t with sendBuffer := b } ∧
      (t.sendBuffer.empty = true → b = t.sendBuffer) ∧
      (t.sendBuffer.WellFormed → b.WellFormed) := by
  have hwell := fun h => flush_wellFormed h hstep
  rw [Transceiver.flush] at hstep
  split at hstep
  · simp only [Except.ok.injEq, Prod.mk.injEq] at hstep
    exact ⟨t.sendBuffer, hstep.1.symm, fun _ => rfl, fun h => h⟩
  · rename_i hsome
    refine ⟨t'.sendBuffer, ?_, fun hempty => absurd hempty hsome, hwell⟩
    obtain ⟨data, _, hstep⟩ := ok_of_bind_ok hstep
    obtain ⟨⟨ret, taken⟩, _, hstep⟩ := ok_of_bind_ok hstep
    dsimp only at hstep
    split at hstep
    · simp only [Except.ok.injEq, Prod.mk.injEq] at hstep
      rw [← hstep.1]
    · split at hstep
      · obtain ⟨rest, _, hstep⟩ := ok_of_bind_ok hstep
        split at hstep
        · obtain ⟨small, _, hstep⟩ := ok_of_bind_ok hstep
          simp only [Except.ok.injEq, Prod.mk.injEq] at hstep
          rw [← hstep.1]
        · simp only [Except.ok.injEq, Prod.mk.injEq] at hstep
          rw [← hstep.1]
      · simp only [Except.ok.injEq, Prod.mk.injEq] at hstep
        rw [← hstep.1]

/-- `doInvoke` returns only when the send list is empty: the message it would send next
is never there. -/
theorem doInvoke_returns {results : List WriteResult} {taken : List UInt8}
    (hstep : p.doInvoke results = .ok (q, taken)) : q = p := by
  rw [doInvoke] at hstep
  split at hstep
  · simp only [Except.ok.injEq, Prod.mk.injEq] at hstep
    exact hstep.1.symm
  · rename_i hsome
    rw [invokeLoop, if_neg hsome] at hstep
    obtain ⟨⟨found, msg⟩, hget, hstep⟩ := ok_of_bind_ok hstep
    obtain ⟨data, hdata, _⟩ := ok_of_bind_ok hstep
    have hnull : msg = none := by
      rw [TimeoutQueueNew.getSend] at hget
      split at hget
      · simp only [Except.ok.injEq, Prod.mk.injEq] at hget
        exact hget.2.symm
      · obtain ⟨info, _, hget⟩ := ok_of_bind_ok hget
        split at hget
        · simp only [Except.ok.injEq, Prod.mk.injEq] at hget
          exact hget.2.symm
        · contradiction
    rw [hnull, reqDataOf] at hdata
    contradiction

theorem doRequest_keeps {result : WriteResult} {results : List WriteResult}
    {out : Int × List UInt8} (hstep : p.doRequest result results = .ok (q, out)) :
    ∃ b, q = { p with trans := { p.trans with sendBuffer := b } } ∧
      (p.trans.sendBuffer.empty = true → b = p.trans.sendBuffer) ∧
      (p.trans.sendBuffer.WellFormed → b.WellFormed) := by
  rw [doRequest] at hstep
  obtain ⟨⟨t, done, taken⟩, hflush, hstep⟩ := ok_of_bind_ok hstep
  obtain ⟨b, rfl, hkeeps⟩ := flush_keeps hflush
  cases done with
  | some ret =>
      simp only [Except.ok.injEq, Prod.mk.injEq] at hstep
      exact ⟨b, hstep.1.symm, hkeeps⟩
  | none =>
      obtain ⟨⟨last, more⟩, hinvoke, hstep⟩ := ok_of_bind_ok hstep
      simp only [Except.ok.injEq, Prod.mk.injEq] at hstep
      rw [doInvoke_returns hinvoke] at hstep
      exact ⟨b, hstep.1.symm, hkeeps⟩

theorem enqueue_keeps (msg : ReqMessage) (hasSend : Bool) :
    (p.enqueue msg hasSend).1.trans = p.trans := by
  simp only [enqueue]
  split <;> rfl

theorem connectFirst_keeps {t base : Transceiver} {socket : Option Nat}
    (hbase : connectFirst t socket = .ok base) :
    base.sendBuffer = t.sendBuffer ∧ base.receiveBuffer = t.receiveBuffer := by
  rw [connectFirst] at hbase
  split at hbase
  · rw [Except.ok.injEq] at hbase
    subst hbase
    exact ⟨rfl, rfl⟩
  · cases socket with
    | none => contradiction
    | some fd =>
        rw [Transceiver.connect, Except.ok.injEq] at hbase
        subst hbase
        exact ⟨rfl, rfl⟩

theorem epollCtl_keeps (t : Transceiver) (call : EpollCall) :
    (t.epollCtl call).sendBuffer = t.sendBuffer ∧
      (t.epollCtl call).receiveBuffer = t.receiveBuffer := by
  rw [Transceiver.epollCtl]
  split
  · exact ⟨rfl, rfl⟩
  · exact ⟨rfl, rfl⟩

theorem sendReqMessage_keeps {msg : ReqMessage} {socket : Option Nat} {result : WriteResult}
    {out : Option ReqMessage × List UInt8}
    (hstep : p.sendReqMessage msg socket result = .ok (q, out)) :
    ∃ base b, connectFirst p.trans socket = .ok base ∧
      q.trans = { base with sendBuffer := b } := by
  rw [sendReqMessage_eq] at hstep
  obtain ⟨base, hbase, hstep⟩ := ok_of_bind_ok hstep
  refine ⟨base, q.trans.sendBuffer, hbase, ?_⟩
  split at hstep
  · obtain ⟨⟨t, ret, taken⟩, hsend, hstep⟩ := ok_of_bind_ok hstep
    obtain ⟨b, rfl⟩ := sendRequest_keeps hsend
    simp only [Except.ok.injEq, Prod.mk.injEq] at hstep
    rw [← hstep.1, enqueue_keeps]
  · simp only [Except.ok.injEq, Prod.mk.injEq] at hstep
    rw [← hstep.1, enqueue_keeps]

theorem eraseTime_keeps {T : Type*} {t u : TimeoutQueueNew T} {timeIter : Option Nat}
    (hstep : t.eraseTime timeIter = .ok u) : u.send = t.send := by
  rw [TimeoutQueueNew.eraseTime] at hstep
  split at hstep
  · rw [Except.ok.injEq] at hstep
    rw [← hstep]
  · contradiction

/-- An erased entry may take its node off the send list, which gets no other. -/
theorem erase_keeps {T : Type*} {t u : TimeoutQueueNew T} {uniqId : Nat} {ptr : Option T}
    (hstep : t.erase uniqId = .ok (ptr, u)) (hnil : t.send = []) : u.send = [] := by
  rw [TimeoutQueueNew.erase] at hstep
  split at hstep
  · simp only [Except.ok.injEq, Prod.mk.injEq] at hstep
    rw [← hstep.2, hnil]
  · split at hstep
    · obtain ⟨sendErased, hsend, hstep⟩ := ok_of_bind_ok hstep
      rw [Except.ok.injEq] at hsend
      subst hsend
      obtain ⟨timeErased, htime, hstep⟩ := ok_of_bind_ok hstep
      simp only [Except.ok.injEq, Prod.mk.injEq] at hstep
      rw [← hstep.2]
      exact (eraseTime_keeps htime).trans hnil
    · rw [TimeoutQueueNew.eraseSend, hnil] at hstep
      contradiction

theorem finishInvokeResponse_keeps {response : List UInt8} {out : Option ReqMessage}
    (hstep : p.finishInvokeResponse response = .ok (q, out)) :
    q.trans = p.trans ∧ (p.timeoutQueue.send = [] → q.timeoutQueue.send = []) := by
  obtain ⟨⟨msg, rest⟩, herase, hstep⟩ := ok_of_bind_ok hstep
  dsimp only at hstep
  split at hstep
  · simp only [Except.ok.injEq, Prod.mk.injEq] at hstep
    rw [← hstep.1]
    exact ⟨rfl, erase_keeps herase⟩
  · contradiction
  · simp only [Except.ok.injEq, Prod.mk.injEq] at hstep
    rw [← hstep.1]
    exact ⟨rfl, erase_keeps herase⟩

/-- What `close` does to the other fields does not depend on the receive buffer. -/
theorem close_receiveBuffer (t : Transceiver) (b last : Buffer) :
    { Transceiver.close { t with receiveBuffer := b } with receiveBuffer := last } =
      { t.close with receiveBuffer := last } := by
  by_cases hvalid : t.valid = true
  · have hother : Transceiver.valid { t with receiveBuffer := b } = true := hvalid
    simp only [Transceiver.close, hvalid, hother, if_true]
  · have hother : ¬ Transceiver.valid { t with receiveBuffer := b } = true := hvalid
    simp only [Transceiver.close, hvalid, hother, if_false, Bool.false_eq_true]

/-- `close` takes the descriptor and leaves `connected_`. -/
theorem close_of_valid {t : Transceiver} (hvalid : t.valid = true) :
    t.close.connected = t.connected ∧
      ∀ b, Transceiver.valid { t.close with receiveBuffer := b } = false := by
  rw [Transceiver.close, if_pos hvalid]
  exact ⟨rfl, fun _ => rfl⟩

theorem close_wellFormed {t : Transceiver} (h : t.receiveBuffer.WellFormed) :
    t.close.receiveBuffer.WellFormed := by
  rw [Transceiver.close]
  split
  · exact (Buffer.clear_spec h).1
  · exact h

/-- A readable event never faults and leaves an empty receive buffer. -/
theorem readable_spec (h : Idle p.trans) (call : ResponseCall) (ending : ReadEnd) :
    ∃ b, connectionStep p (.readable call ending) =
        .ok { p with trans := { ending.leaves p.trans with receiveBuffer := b } } ∧
      b.WellFormed ∧ b.contents = [] := by
  obtain ⟨b, hloop, hwell, _⟩ := Transceiver.responseLoop_spec call.chunks ending h.buffer
    call.nonempty call.small (h.fits call)
  have hleaves : ∀ last, { ending.leaves { p.trans with receiveBuffer := b } with
      receiveBuffer := last } = { ending.leaves p.trans with receiveBuffer := last } := by
    intro last
    cases ending with
    | dry => rfl
    | endOfFile => exact close_receiveBuffer p.trans b last
    | error => exact close_receiveBuffer p.trans b last
  have hread : (ending.leaves { p.trans with receiveBuffer := b }).receiveBuffer.WellFormed := by
    cases ending with
    | dry => exact hwell
    | endOfFile => exact close_wellFormed (t := { p.trans with receiveBuffer := b }) hwell
    | error => exact close_wellFormed (t := { p.trans with receiveBuffer := b }) hwell
  obtain ⟨last, hresponse, hgood, hnil⟩ := Transceiver.doResponse_of_loop hloop hread
  refine ⟨last, ?_, hgood, hnil⟩
  simp only [connectionStep, hresponse, bind, Except.bind, hleaves]

end Effects

/-! ### Sending on a closed descriptor -/

/-- A connected transceiver has a descriptor, a message goes to a descriptor, and there
is nothing to flush without one. -/
structure Usable (t : Transceiver) : Prop where
  valid : t.connected = true → t.valid = true
  sends : ∀ socket base, connectFirst t socket = .ok base → base.valid = true
  flushes : t.valid = false → t.sendBuffer.empty = true

/-- The reads of a readable event on an open connection run dry. -/
def StaysOpen (p : ObjectProxy) : ConnectionAction → Prop
  | .readable _ ending => ending = .dry ∨ p.trans.valid = false
  | _ => True

/-- The invariant while the peer keeps the connection open. -/
structure Open (p : ObjectProxy) : Prop where
  idle : Idle p.trans
  valid : p.trans.connected = p.trans.valid
  kept : p.trans.valid = false → p.trans.sendBuffer.empty = true

section Closing

variable {p q : ObjectProxy}

theorem connectFirst_valid {t base : Transceiver} {socket : Option Nat}
    (hvalid : t.connected = t.valid) (hbase : connectFirst t socket = .ok base) :
    base.connected = true ∧ base.valid = true := by
  rw [connectFirst] at hbase
  split at hbase
  · rename_i hconnected
    rw [Except.ok.injEq] at hbase
    subst hbase
    exact ⟨hconnected, hvalid ▸ hconnected⟩
  · cases socket with
    | none => contradiction
    | some fd =>
        rw [Transceiver.connect, Except.ok.injEq] at hbase
        subst hbase
        refine ⟨rfl, ?_⟩
        simp only [Transceiver.valid, decide_eq_true_eq]
        omega

theorem Open.usable (h : Open p) : Usable p.trans :=
  ⟨fun hconnected => h.valid ▸ hconnected,
    fun _ _ hbase => (connectFirst_valid h.valid hbase).2, h.kept⟩

theorem Open.step (h : Open p) {action : ConnectionAction} (hopen : StaysOpen p action)
    (hstep : connectionStep p action = .ok q) : Open q := by
  cases action with
  | send msg socket result =>
      obtain ⟨⟨last, out⟩, hsend, hstep⟩ := ok_of_bind_ok hstep
      rw [Except.ok.injEq] at hstep
      subst hstep
      obtain ⟨base, b, hbase, htrans⟩ := sendReqMessage_keeps hsend
      obtain ⟨hconnected, hvalid⟩ := connectFirst_valid h.valid hbase
      obtain ⟨_, hsame⟩ := connectFirst_keeps hbase
      have hopen : last.trans.valid = true := by rw [htrans]; exact hvalid
      refine ⟨h.idle.of_eq ?_, ?_, ?_⟩
      · rw [htrans]
        exact hsame
      · rw [hopen, htrans]
        exact hconnected
      · intro hclosed
        rw [hopen] at hclosed
        contradiction
  | writable result results =>
      obtain ⟨⟨last, out⟩, hrequest, hstep⟩ := ok_of_bind_ok hstep
      rw [Except.ok.injEq] at hstep
      subst hstep
      obtain ⟨b, rfl, hempty, _⟩ := doRequest_keeps hrequest
      refine ⟨h.idle.of_eq rfl, h.valid, ?_⟩
      intro hclosed
      have hkept := h.kept hclosed
      rw [hempty hkept]
      exact hkept
  | readable call ending =>
      obtain ⟨b, hread, hwell, hnil⟩ := readable_spec h.idle call ending
      rw [hread, Except.ok.injEq] at hstep
      subst hstep
      rcases hopen with rfl | hclosed
      · exact ⟨⟨hwell, hnil⟩, h.valid, h.kept⟩
      · have hleaves : ending.leaves p.trans = p.trans := by
          cases ending <;> simp [ReadEnd.leaves, Transceiver.close, hclosed]
        rw [hleaves]
        exact ⟨⟨hwell, hnil⟩, h.valid, h.kept⟩
  | respond response =>
      obtain ⟨⟨last, out⟩, hrespond, hstep⟩ := ok_of_bind_ok hstep
      rw [Except.ok.injEq] at hstep
      subst hstep
      obtain ⟨htrans, _⟩ := finishInvokeResponse_keeps hrespond
      refine ⟨?_, ?_, ?_⟩
      · rw [htrans]
        exact h.idle
      · rw [htrans]
        exact h.valid
      · rw [htrans]
        exact h.kept
  | epoll call =>
      rw [connectionStep, Except.ok.injEq] at hstep
      subst hstep
      rw [Transceiver.epollCtl]
      split
      · exact ⟨h.idle.of_eq rfl, h.valid, h.kept⟩
      · exact h

/-- The end of the stream and an error leave the connection unusable. -/
theorem Open.close (h : Open p) {action : ConnectionAction} (hclose : ¬ StaysOpen p action)
    (hstep : connectionStep p action = .ok q) : ¬ Usable q.trans := by
  cases action with
  | send msg socket result => exact absurd trivial hclose
  | writable result results => exact absurd trivial hclose
  | respond response => exact absurd trivial hclose
  | epoll call => exact absurd trivial hclose
  | readable call ending =>
      simp only [StaysOpen, not_or, Bool.not_eq_false] at hclose
      obtain ⟨hending, hvalid⟩ := hclose
      obtain ⟨b, hread, _, _⟩ := readable_spec h.idle call ending
      rw [hread, Except.ok.injEq] at hstep
      subst hstep
      intro husable
      have hconnected : p.trans.connected = true := h.valid.trans hvalid
      have hleaves : ending.leaves p.trans = p.trans.close := by
        cases ending with
        | dry => exact absurd rfl hending
        | endOfFile => rfl
        | error => rfl
      have hvalid' := husable.valid
      rw [hleaves] at hvalid'
      obtain ⟨hkeeps, hcloses⟩ := close_of_valid hvalid
      rw [hcloses] at hvalid'
      exact Bool.noConfusion (hvalid' (hkeeps.trans hconnected))

end Closing

theorem open_newProxy (ip : String) (port uniqueId : Nat) :
    Open (newProxy ip port uniqueId) where
  idle := ⟨Buffer.wellFormed_default, Buffer.contents_default⟩
  valid := by simp only [newProxy, Transceiver.valid, ne_eq, not_true_eq_false, decide_false]
  kept := fun _ => by simp only [newProxy, Buffer.empty, Buffer.readableSize]; decide

/-- Over any run of a client connection: in every state reached `connected_` implies a
descriptor, a message connects first if there is none, and nothing is flushed without
one, exactly when no readable event on the open connection reads the end of the stream or
an error. -/
theorem connected_valid_iff (ip : String) (port uniqueId : Nat)
    (actions : List ConnectionAction) :
    StaysUpTo (fun _ => True) connectionStep (fun p => Usable p.trans)
        (newProxy ip port uniqueId) actions ↔
      Along connectionStep StaysOpen (newProxy ip port uniqueId) actions := by
  apply staysUpTo_iff_along (fun p h => Open.usable h)
    (fun p action q h _ hopen hstep => Open.step h hopen hstep) _
    (fun p action q h _ hclose hstep => Open.close h hclose hstep)
    (open_newProxy ip port uniqueId) along_true
  intro p action fault h _ hstep
  refine ⟨fun _ => ?_, fun _ => trivial⟩
  cases action with
  | send msg socket result => trivial
  | writable result results => trivial
  | respond response => trivial
  | epoll call => trivial
  | readable call ending =>
      obtain ⟨b, hread, _, _⟩ := readable_spec h.idle call ending
      rw [hread] at hstep
      contradiction

set_option maxRecDepth 4000 in
/-- The peer closes after the first request: `connected_` stays, no request connects
again, and the next one is sent on the descriptor -1, where every write fails. -/
theorem request_after_close :
    ∃ p, run connectionStep (newProxy "127.0.0.1" 80 0)
        [.send {} (some 7) (.accepted 8), .readable ⟨[], by simp, by simp, by simp⟩ .endOfFile] =
          .ok p ∧
      p.trans.connected = true ∧ p.trans.fd = -1 ∧
      (∀ socket, connectFirst p.trans socket = .ok p.trans) ∧
      connectionStep p (.send {} (some 8) .failed) = .error .aborted ∧
      ¬ StaysUpTo (fun _ => True) connectionStep (fun p => Usable p.trans)
        (newProxy "127.0.0.1" 80 0)
        [.send {} (some 7) (.accepted 8),
          .readable ⟨[], by simp, by simp, by simp⟩ .endOfFile] := by
  refine ⟨_, rfl, rfl, rfl, fun _ => rfl, rfl, ?_⟩
  intro hstays
  have hlast := hstays.last rfl
  exact absurd (hlast.valid rfl) (by decide)

end ObjectProxy

end Tarsx
