/-
A peer that sends its requests and closes: which of them reach the queue of the
adapter.  The call of `recv` that meets the end of the stream, or an error, returns
before it frames what it has read itself, so the requests that only its own bytes
complete are not inserted.  A call whose number of requests is negative as an `int`
has the connection deleted behind it.
-/
import Tarsx.ConnectionDelivery
import Tarsx.NetThreadEffects

namespace Tarsx

open Foundation

namespace Connection

/-- How the last `recv` call of a connection ends. -/
inductive Hangup where
  | closed
  | failed
deriving DecidableEq, Repr

def Hangup.result : Hangup → ReadResult
  | .closed => .closed
  | .failed => .failed

/-- The `recv` call that meets the end of the stream or an error: reads that fill
the 32768 bytes, and then that. -/
structure ClosingCall where
  fulls : List (List UInt8)
  hangup : Hangup
  full : ∀ bytes ∈ fulls, bytes.length = readSize

def ClosingCall.bytes (call : ClosingCall) : List UInt8 := call.fulls.flatten

def ClosingCall.reads (call : ClosingCall) : List ReadResult :=
  call.fulls.map .data ++ [call.hangup.result]

theorem Drains.fits {reads : List ReadResult} (h : Drains reads) :
    ∀ bytes, .data bytes ∈ reads → bytes.length ≤ readSize := by
  induction h with
  | again => simp
  | @short short _ hshort =>
      intro bytes hmem
      obtain rfl : bytes = short := by simpa using hmem
      exact Nat.le_of_lt hshort
  | @full first rest hfull _ ih =>
      intro bytes hmem
      rcases List.mem_cons.mp hmem with hsame | hlater
      · rw [ReadResult.data.injEq] at hsame
        exact Nat.le_of_eq (hsame ▸ hfull)
      · exact ih bytes hlater

theorem ClosingCall.fits (call : ClosingCall) :
    ∀ bytes, .data bytes ∈ call.reads → bytes.length ≤ readSize := by
  intro bytes hmem
  rcases List.mem_append.mp hmem with hdata | hend
  · obtain ⟨other, hother, hsame⟩ := List.mem_map.mp hdata
    rw [ReadResult.data.injEq] at hsame
    exact Nat.le_of_eq (hsame ▸ call.full other hother)
  · cases hhangup : call.hangup <;> simp [hhangup, Hangup.result] at hend

theorem ClosingCall.hangsUp (call : ClosingCall) : hangsUp call.reads = true := by
  obtain ⟨fulls, hangup, hfull⟩ := call
  rw [reads]
  induction fulls with
  | nil => cases hangup <;> rfl
  | cons bytes rest ih =>
      have hsize := hfull bytes List.mem_cons_self
      simp only [List.map_cons, List.cons_append, Connection.hangsUp]
      rw [if_neg (by omega)]
      exact ih fun other hother => hfull other (List.mem_cons_of_mem _ hother)

/-- A call that meets the end returns no requests. -/
theorem recv_closing {uid : Nat} {c : Connection} (h : c.Whole uid) (call : ClosingCall) :
    ∃ b, c.recv call.reads = .ok ({ c with recvBuffer := b }, (-1, [])) ∧ b.WellFormed := by
  obtain ⟨b, hread, hwell⟩ := readLoop_any call.reads h.buffer call.fits
  refine ⟨b, ?_, hwell⟩
  rw [call.hangsUp] at hread
  simp only [recv, hread, bind, Except.bind, if_true]

end Connection

namespace NetThread

open Connection (RecvCall ClosingCall Receiving requestDecoder WellFramed streamOf)

/-- What happens around one event of a connection: before it, anything that leaves
the connection alone, and a writable socket. -/
structure Surroundings (uid : Nat) where
  before : NetThread → NetThread
  keeps : ∀ n, (before n).connectionUids uid = n.connectionUids uid
  epollout : Bool := false
  writes : List WriteResult := []

/-- A readable socket: `recv` drains it, or meets the end of the stream. -/
inductive Readable where
  | draining (call : RecvCall)
  | closing (call : ClosingCall)

def Readable.reads : Readable → List ReadResult
  | .draining call => call.reads
  | .closing call => call.reads

theorem Readable.fits (input : Readable) :
    ∀ bytes, .data bytes ∈ input.reads → bytes.length ≤ Connection.readSize := by
  cases input with
  | draining call => exact call.drains.fits
  | closing call => exact call.fits

/-- The event epoll reports for it. -/
def Readable.event (input : Readable) {uid : Nat} (around : Surroundings uid) : NetEvent :=
  { uid := uid, epollin := true, epollout := around.epollout, reads := input.reads,
    writes := around.writes, fits := input.fits }

/-- The requests that a step put behind those in an adapter's queue. -/
def inserted (n next : NetThread) (adapter : Nat) : List TagRecvData :=
  (requests (next.receiveBuffers adapter)).drop (requests (n.receiveBuffers adapter)).length

/-- One call of `processNet` for the connection, and what it inserts.  The descriptor of a
deleted connection is watched no more. -/
def inputStep (maxIOVcount adapter : Nat) {uid : Nat} (n : NetThread)
    (input : Readable × Surroundings uid) :
    Except Fault (NetThread × List TagRecvData) :=
  if n.Live uid then do
    let next ← (input.2.before n).processNet maxIOVcount (input.1.event input.2)
    .ok (next, inserted (input.2.before n) next adapter)
  else .ok (input.2.before n, [])

section Serving

variable {uid : Nat} {n : NetThread} {c : Connection}

theorem netOutput_drained (h : c.sendBuffer = []) (maxIOVcount : Nat) (ev : NetEvent)
    (huid : ev.uid = uid)
    (hentry : n.connectionUids uid = some (some c) ∨ n.connectionUids uid = none) :
    ∃ next, n.netOutput maxIOVcount ev (some c) = .ok next ∧
      next.connectionUids uid = n.connectionUids uid := by
  subst huid
  have hsend : c.sendPending maxIOVcount ev.writes = .ok (c, (0, [])) := by
    rw [Connection.sendPending, if_pos h]
  by_cases hout : ev.epollout = true
  · by_cases hnone : n.connectionUids ev.uid = none
    · refine ⟨n, ?_, rfl⟩
      simp only [netOutput, if_pos hout, hsend, bind, Except.bind, if_pos hnone]
    · refine ⟨n.store ev.uid c, ?_, ?_⟩
      · simp only [netOutput, if_pos hout, hsend, bind, Except.bind, if_neg hnone]
      · simp only [store, Function.update_self, hentry.resolve_right hnone]
  · exact ⟨n, by rw [netOutput, if_neg hout], rfl⟩

/-- `insertRecvDeque`, which leaves out an empty deque, leaves the table alone. -/
theorem insertRecvDeque_table (n : NetThread) (adapter : Nat) (deque : List TagRecvData) :
    (if deque = [] then n else n.insertRecvDeque adapter deque true).connectionUids =
      n.connectionUids := by
  split
  · rfl
  · rfl

/-- The deletion erases the entry. -/
theorem delConnection_erases (hopen : c.listenfd ≠ -1) (closeType : CloseType) :
    ∃ next, n.delConnection (some c) closeType = .ok next ∧
      next.connectionUids c.uid = none := by
  refine ⟨_, by rw [delConnection, if_pos hopen], ?_⟩
  simp only [Function.update_self]

/-- The `EPOLLIN` part deletes the connection when `recv` returns a negative number. -/
theorem netInput_serving {ev : NetEvent} (hin : ev.epollin = true) (huid : ev.uid = uid)
    {c' : Connection} {ret : Int} {deque : List TagRecvData}
    (hrecv : c.recv ev.reads = .ok (c', (ret, deque))) (hwhole : c'.Whole uid) :
    ∃ next c'', n.netInput ev (some c) = .ok (next, some c'') ∧ c''.sendBuffer = [] ∧
      (next.connectionUids uid = some (some c'') ∨ next.connectionUids uid = none) ∧
      next.connectionUids uid = if ret < 0 then none else some (some c') := by
  subst huid
  by_cases hneg : ret < 0
  · obtain ⟨deleted, hdelete, hnone⟩ :=
      delConnection_erases (n := n.store ev.uid c') hwhole.isOpen .clientClose
    rw [hwhole.uid_eq] at hnone
    refine ⟨if deque = [] then deleted else deleted.insertRecvDeque c'.bindAdapter deque true,
      c'.closeSocket, ?_, ?_, Or.inr ?_, ?_⟩
    · simp only [netInput, if_pos hin, hrecv, bind, Except.bind, if_pos hneg, hdelete]
    · rw [Connection.closeSocket, if_pos hwhole.isOpen]
      exact hwhole.drained
    · rw [insertRecvDeque_table, hnone]
    · rw [insertRecvDeque_table, hnone, if_pos hneg]
  · have hstored : (n.store ev.uid c').connectionUids ev.uid = some (some c') := by
      simp only [store, Function.update_self]
    refine ⟨if deque = [] then n.store ev.uid c'
      else (n.store ev.uid c').insertRecvDeque c'.bindAdapter deque true,
      c', ?_, hwhole.drained, Or.inl ?_, ?_⟩
    · simp only [netInput, if_pos hin, hrecv, bind, Except.bind, if_neg hneg]
    · rw [insertRecvDeque_table, hstored]
    · rw [insertRecvDeque_table, hstored, if_neg hneg]

/-- A readable event of a live connection keeps it, or deletes it when `recv` returns a
negative number. -/
theorem processNet_serving (hc : n.connectionUids uid = some (some c)) (ev : NetEvent)
    (hin : ev.epollin = true) (herr : ¬ (ev.epollerr ∨ ev.epollhup)) (huid : ev.uid = uid)
    {c' : Connection} {ret : Int} {deque : List TagRecvData}
    (hrecv : c.recv ev.reads = .ok (c', (ret, deque))) (hwhole : c'.Whole uid)
    (maxIOVcount : Nat) :
    ∃ next, n.processNet maxIOVcount ev = .ok next ∧
      next.connectionUids uid = if ret < 0 then none else some (some c') := by
  obtain ⟨told, c'', htold, hdrained, hentry, htable⟩ :=
    netInput_serving (n := n) hin huid hrecv hwhole
  obtain ⟨next, hout, hkept⟩ := netOutput_drained hdrained maxIOVcount ev huid hentry
  have hlookup : n.lookup ev.uid = (some c, n) := lookup_of_live (huid ▸ hc)
  refine ⟨next, ?_, hkept.trans htable⟩
  simp only [processNet, hlookup, if_neg herr, htold, bind, Except.bind, hout]

/-- The requests put behind the queue of an adapter are inserted. -/
theorem inserted_of_told {next : NetThread} {reqs : Nat → List TagRecvData}
    (htold : Told n next reqs) (adapter : Nat) : inserted n next adapter = reqs adapter := by
  obtain ⟨news, hqueue, hreqs⟩ := htold.queues adapter
  rw [inserted, hqueue, requests_append, List.drop_left, hreqs]

/-- A call of `processNet` inserts what `recv` returns. -/
theorem inserted_processNet (hc : n.connectionUids uid = some (some c)) (ev : NetEvent)
    (hin : ev.epollin = true) (herr : ¬ (ev.epollerr ∨ ev.epollhup)) (huid : ev.uid = uid)
    {c' : Connection} {ret : Int} {deque : List TagRecvData}
    (hrecv : c.recv ev.reads = .ok (c', (ret, deque))) {maxIOVcount : Nat} {next : NetThread}
    (hstep : n.processNet maxIOVcount ev = .ok next) :
    inserted n next c.bindAdapter = deque := by
  subst huid
  have hconnection : n.connectionOf ev.uid = some c := by
    rw [connectionOf, hc]
    rfl
  have harriving := arriving_of_recv herr hin hconnection hrecv
  rcases processNet_queues hstep with ⟨hnone, htold⟩ | ⟨other, hother, htold, _⟩
  · rw [inserted_of_told htold, ← harriving, hnone]
    rfl
  · rw [hc, Option.some.injEq, Option.some.injEq] at hother
    subst hother
    rw [inserted_of_told htold, if_pos rfl, harriving]

/-- One call of a connection that is still there. -/
theorem inputStep_live (hc : n.connectionUids uid = some (some c)) (input : Readable)
    (around : Surroundings uid) {c' : Connection} {ret : Int} {deque : List TagRecvData}
    (hrecv : c.recv input.reads = .ok (c', (ret, deque))) (hwhole : c'.Whole uid)
    (maxIOVcount : Nat) :
    ∃ next, inputStep maxIOVcount c.bindAdapter n (input, around) = .ok (next, deque) ∧
      next.connectionUids uid = if ret < 0 then none else some (some c') := by
  have hlive : n.Live uid := live_iff.mpr ⟨c, hc⟩
  have hentry : (around.before n).connectionUids uid = some (some c) := by
    rw [around.keeps, hc]
  have herr : ¬ ((input.event around).epollerr ∨ (input.event around).epollhup) := by
    simp [Readable.event]
  obtain ⟨next, hprocess, htable⟩ :=
    processNet_serving hentry (input.event around) rfl herr rfl hrecv hwhole maxIOVcount
  refine ⟨next, ?_, htable⟩
  simp only [inputStep, if_pos hlive, hprocess, bind, Except.bind,
    inserted_processNet hentry (input.event around) rfl herr rfl hrecv hprocess]

/-- A draining call inserts the frames it completes. -/
theorem inputStep_draining (hc : n.connectionUids uid = some (some c)) (hwhole : c.Whole uid)
    (hrecv : Receiving c) (maxIOVcount : Nat) (call : RecvCall) (around : Surroundings uid)
    (hstream : WellFramed (c.recvBuffer.contents ++ call.bytes)) :
    ∃ next b, inputStep maxIOVcount c.bindAdapter n (.draining call, around) =
        .ok (next, (requestDecoder.drain (c.recvBuffer.contents ++ call.bytes)).1.map
          c.recvData) ∧
      (next.connectionUids uid =
        if toInt32 (requestDecoder.drain (c.recvBuffer.contents ++ call.bytes)).1.length < 0
        then none else some (some { c with recvBuffer := b })) ∧
      b.contents = (requestDecoder.drain (c.recvBuffer.contents ++ call.bytes)).2 ∧
      Connection.Whole uid { c with recvBuffer := b } ∧ Receiving { c with recvBuffer := b } := by
  obtain ⟨b, hcall, hleft, hnext⟩ := Connection.recvCall_spec hrecv call hstream
  have hwhole' : Connection.Whole uid { c with recvBuffer := b } :=
    ⟨hwhole.uid_eq, hnext.buffer, hwhole.drained, hwhole.isOpen⟩
  obtain ⟨next, hstep, htable⟩ :=
    inputStep_live hc (.draining call) around hcall hwhole' maxIOVcount
  exact ⟨next, b, hstep, htable, hleft, hwhole', hnext⟩

/-- The call that meets the end inserts nothing. -/
theorem inputStep_closing (hc : n.connectionUids uid = some (some c)) (hwhole : c.Whole uid)
    (maxIOVcount : Nat) (call : ClosingCall) (around : Surroundings uid) :
    ∃ next, inputStep maxIOVcount c.bindAdapter n (.closing call, around) = .ok (next, []) := by
  obtain ⟨b, hrecv, hwell⟩ := Connection.recv_closing hwhole call
  obtain ⟨next, hstep, _⟩ := inputStep_live hc (.closing call) around hrecv
    ⟨hwhole.uid_eq, hwell, hwhole.drained, hwhole.isOpen⟩ maxIOVcount
  exact ⟨next, hstep⟩

end Serving

/-! ### A connection from its first byte to its close -/

/-- The events of a connection whose stream is split so: calls that drain the socket,
and one that meets the end. -/
def serving {uid : Nat} (calls : List (RecvCall × Surroundings uid)) (closing : ClosingCall)
    (around : Surroundings uid) : List (Readable × Surroundings uid) :=
  calls.map (fun call => (.draining call.1, call.2)) ++ [(.closing closing, around)]

/-- The bytes that the draining calls read. -/
def drained {uid : Nat} (calls : List (RecvCall × Surroundings uid)) : List UInt8 :=
  streamOf (calls.map Prod.fst)

/-- All events are handled, and these payloads are what they insert. -/
def Inserts (maxIOVcount adapter : Nat) {uid : Nat} (n : NetThread)
    (inputs : List (Readable × Surroundings uid)) (payloads : List (List UInt8)) : Prop :=
  ∃ last outs, trace (inputStep maxIOVcount adapter) n inputs = .ok (last, outs) ∧
    outs.flatten.map TagRecvData.buffer = payloads

theorem Inserts.unique {maxIOVcount adapter uid : Nat} {n : NetThread}
    {inputs : List (Readable × Surroundings uid)} {payloads others : List (List UInt8)}
    (h : Inserts maxIOVcount adapter n inputs payloads)
    (h' : Inserts maxIOVcount adapter n inputs others) : payloads = others := by
  obtain ⟨last, outs, htrace, hall⟩ := h
  obtain ⟨last', outs', htrace', hall'⟩ := h'
  rw [htrace, Except.ok.injEq, Prod.mk.injEq] at htrace'
  rw [← hall, ← hall', htrace'.2]

/-- The frames of which all bytes are in the stream. -/
def completeFrames (payloads : List (List UInt8)) (stream : List UInt8) : Nat :=
  Decoder.framesWithin encodeRequest payloads stream.length

/-- The frames that the first `k` calls complete, behind these bytes. -/
def framesBy {uid : Nat} (pending : List UInt8) (calls : List (RecvCall × Surroundings uid))
    (k : Nat) : List (List UInt8) :=
  (requestDecoder.drain (pending ++ drained (calls.take k))).1

section Calls

variable {uid : Nat} {pending : List UInt8} {call : RecvCall × Surroundings uid}
  {rest : List (RecvCall × Surroundings uid)}

theorem framesBy_succ (k : Nat) :
    framesBy pending (call :: rest) (k + 1) =
      (requestDecoder.drain (pending ++ call.1.bytes)).1 ++
        framesBy (requestDecoder.drain (pending ++ call.1.bytes)).2 rest k := by
  have hsplit : drained ((call :: rest).take (k + 1)) = call.1.bytes ++ drained (rest.take k) :=
    rfl
  rw [framesBy, hsplit, ← List.append_assoc, Decoder.drain_append]
  rfl

theorem framesBy_zero (hpending : requestDecoder.next pending = none)
    (calls : List (RecvCall × Surroundings uid)) : framesBy pending calls 0 = [] := by
  have hnothing : drained (calls.take 0) = [] := rfl
  rw [framesBy, hnothing, List.append_nil, Decoder.drain_of_none hpending]

theorem framesBy_one :
    framesBy pending (call :: rest) 1 = (requestDecoder.drain (pending ++ call.1.bytes)).1 := by
  rw [framesBy_succ, framesBy_zero (Decoder.next_drain requestDecoder _), List.append_nil]

/-- The number of frames that call `k` completes is negative as an `int`. -/
def Overflows {uid : Nat} (pending : List UInt8) (calls : List (RecvCall × Surroundings uid))
    (k : Nat) : Prop :=
  toInt32 ((framesBy pending calls (k + 1)).length - (framesBy pending calls k).length) < 0

theorem overflows_zero (hpending : requestDecoder.next pending = none) :
    Overflows pending (call :: rest) 0 ↔
      toInt32 (requestDecoder.drain (pending ++ call.1.bytes)).1.length < 0 := by
  rw [Overflows, framesBy_zero hpending, Nat.zero_add, framesBy_one, List.length_nil,
    Nat.sub_zero]

theorem overflows_succ (k : Nat) :
    Overflows pending (call :: rest) (k + 1) ↔
      Overflows (requestDecoder.drain (pending ++ call.1.bytes)).2 rest k := by
  rw [Overflows, Overflows, framesBy_succ, framesBy_succ, List.length_append,
    List.length_append, Nat.add_sub_add_left]

end Calls

/-- Without its connection no event comes, and nothing is inserted. -/
theorem inserts_nothing {uid : Nat} (maxIOVcount adapter : Nat)
    (inputs : List (Readable × Surroundings uid)) :
    ∀ {n : NetThread}, n.connectionUids uid = none →
      Inserts maxIOVcount adapter n inputs [] := by
  induction inputs with
  | nil => exact fun _ => ⟨_, [], rfl, rfl⟩
  | cons input rest ih =>
      intro n hnone
      have hgone : ¬ n.Live uid := not_live_iff.mpr (Or.inl hnone)
      obtain ⟨last, outs, htrace, hall⟩ :=
        ih (n := input.2.before n) (by rw [input.2.keeps, hnone])
      have hstep : inputStep maxIOVcount adapter n input = .ok (input.2.before n, []) := by
        rw [inputStep, if_neg hgone]
      exact ⟨last, _, trace_cons_of_ok hstep htrace, hall⟩

/-- The frames that the first `served` calls complete are inserted, and no others: all
draining calls, or those up to one whose number of frames is negative. -/
theorem trace_serving {uid : Nat} (maxIOVcount : Nat)
    (calls : List (RecvCall × Surroundings uid)) (closing : ClosingCall)
    (around : Surroundings uid) :
    ∀ {n : NetThread} {c : Connection}, n.connectionUids uid = some (some c) → c.Whole uid →
      Receiving c → WellFramed (c.recvBuffer.contents ++ drained calls) →
      ∃ served ≤ calls.length,
        Inserts maxIOVcount c.bindAdapter n (serving calls closing around)
          (framesBy c.recvBuffer.contents calls served) ∧
        (∀ k, k + 1 < served → ¬ Overflows c.recvBuffer.contents calls k) ∧
        (served = calls.length ∨
          ∃ k, served = k + 1 ∧ Overflows c.recvBuffer.contents calls k) := by
  induction calls with
  | nil =>
      intro n c hc hwhole hrecv _
      obtain ⟨next, hstep⟩ := inputStep_closing hc hwhole maxIOVcount closing around
      refine ⟨0, Nat.le_refl 0, ⟨next, [[]], trace_cons_of_ok hstep rfl, ?_⟩,
        fun k hk => absurd hk (Nat.not_lt_zero _), Or.inl rfl⟩
      rw [framesBy_zero hrecv.drained]
      rfl
  | cons call rest ih =>
      intro n c hc hwhole hrecv hstream
      have hsplit : drained (call :: rest) = call.1.bytes ++ drained rest := rfl
      rw [hsplit, ← List.append_assoc] at hstream
      obtain ⟨hnow, hlater⟩ := (Connection.wellFramed_append_iff _ _).mp hstream
      obtain ⟨next, b, hstep, htable, hleft, hwhole', hrecv'⟩ :=
        inputStep_draining hc hwhole hrecv maxIOVcount call.1 call.2 hnow
      have hbegin := @overflows_zero uid c.recvBuffer.contents call rest hrecv.drained
      by_cases hover : Overflows c.recvBuffer.contents (call :: rest) 0
      · rw [if_pos (hbegin.mp hover)] at htable
        obtain ⟨last, outs, htrace, hall⟩ := inserts_nothing maxIOVcount c.bindAdapter
          (serving rest closing around) htable
        refine ⟨1, by simp, ⟨last, _, trace_cons_of_ok hstep htrace, ?_⟩,
          fun k hk => absurd hk (by omega), Or.inr ⟨0, rfl, hover⟩⟩
        rw [framesBy_one, List.flatten_cons, List.map_append, Connection.map_buffer_recvData,
          hall, List.append_nil]
      · rw [if_neg fun hneg => hover (hbegin.mpr hneg)] at htable
        rw [← hleft] at hlater
        obtain ⟨served, hserved, ⟨last, outs, htrace, hall⟩, hbefore, hends⟩ :=
          ih htable hwhole' hrecv' hlater
        refine ⟨served + 1, Nat.succ_le_succ hserved,
          ⟨last, _, trace_cons_of_ok hstep htrace, ?_⟩, ?_, ?_⟩
        · rw [framesBy_succ, ← hleft, List.flatten_cons, List.map_append,
            Connection.map_buffer_recvData, hall]
        · intro k hk
          cases k with
          | zero => exact hover
          | succ k =>
              rw [overflows_succ, ← hleft]
              exact hbefore k (Nat.lt_of_succ_lt_succ hk)
        · rcases hends with hall | ⟨k, hk, hlast⟩
          · exact Or.inl (by rw [hall, List.length_cons])
          · exact Or.inr ⟨k + 1, by rw [hk], (overflows_succ k).mpr (hleft ▸ hlast)⟩

/-! ### A new connection, whose stream is a part of encoded requests -/

section New

variable {payloads : List (List UInt8)}

theorem drain_of_part {stream : List UInt8}
    (hlen : ∀ payload ∈ payloads, payload.length < 2 ^ 31)
    (hstream : stream <+: payloads.flatMap encodeRequest) :
    (requestDecoder.drain stream).1 = payloads.take (completeFrames payloads stream) := by
  have hdecode : ∀ payload : List UInt8, payload.length < 2 ^ 31 → ∀ more,
      requestDecoder.next (encodeRequest payload ++ more) = some (payload, more) :=
    fun _ hpayload more => Connection.nextFrame_encodeRequest hpayload more
  rw [Decoder.drain_prefix hdecode hlen Connection.nextFrame_nil hstream]
  rfl

theorem completeFrames_le (payloads : List (List UInt8)) (stream : List UInt8) :
    completeFrames payloads stream ≤ payloads.length :=
  Decoder.framesWithin_le encodeRequest payloads _

theorem completeFrames_mono {stream longer : List UInt8} (h : stream <+: longer) :
    completeFrames payloads stream ≤ completeFrames payloads longer :=
  Decoder.framesWithin_mono encodeRequest payloads h.length_le

theorem drained_take_part {uid : Nat} (calls : List (RecvCall × Surroundings uid)) (k : Nat) :
    drained (calls.take k) <+: drained calls := by
  rw [drained, drained, List.map_take]
  exact Connection.streamOf_take_isPart (calls.map Prod.fst) k

/-- The number of frames that call `k` completes is negative as an `int`: 2^31 or more. -/
def CountOverflows (payloads : List (List UInt8)) {uid : Nat}
    (calls : List (RecvCall × Surroundings uid)) (k : Nat) : Prop :=
  toInt32 (completeFrames payloads (drained (calls.take (k + 1))) -
    completeFrames payloads (drained (calls.take k))) < 0

instance (payloads : List (List UInt8)) {uid : Nat}
    (calls : List (RecvCall × Surroundings uid)) (k : Nat) :
    Decidable (CountOverflows payloads calls k) :=
  inferInstanceAs (Decidable (_ < _))

/-- The requests inserted are those that the first `served` draining calls complete. -/
theorem inserts_served {uid : Nat} (maxIOVcount bindAdapter listenfd : Nat) (fd : Int)
    (ip : String) (port : Nat) (close : Bool) (serial : Nat) {n : NetThread}
    (hconnection : n.connectionUids uid =
      some (some ((Connection.accepted bindAdapter listenfd fd ip port close serial).init uid)))
    (calls : List (RecvCall × Surroundings uid))
    (closing : ClosingCall) (around : Surroundings uid)
    (hlen : ∀ payload ∈ payloads, payload.length < 2 ^ 31)
    (hstream : drained calls <+: payloads.flatMap encodeRequest) :
    ∃ served ≤ calls.length,
      Inserts maxIOVcount bindAdapter n (serving calls closing around)
        (payloads.take (completeFrames payloads (drained (calls.take served)))) ∧
      (∀ k, k + 1 < served → ¬ CountOverflows payloads calls k) ∧
      (served = calls.length ∨
        ∃ k, served = k + 1 ∧ CountOverflows payloads calls k) := by
  have hempty : ((Connection.accepted bindAdapter listenfd fd ip port close serial).init
      uid).recvBuffer.contents = [] := Buffer.contents_default
  have hwhole := whole_accepted bindAdapter listenfd fd ip port close serial uid
  obtain ⟨served, hserved, hinserts, hbefore, hends⟩ :=
    trace_serving maxIOVcount calls closing around hconnection hwhole
      (Connection.receiving_init bindAdapter listenfd fd ip port close serial uid)
      (by rw [hempty, List.nil_append]; exact Connection.wellFramed_of_prefix hlen hstream)
  have hframes : ∀ k, framesBy [] calls k =
      payloads.take (completeFrames payloads (drained (calls.take k))) := by
    intro k
    rw [framesBy, List.nil_append,
      drain_of_part hlen ((drained_take_part calls k).trans hstream)]
  have hoverflows : ∀ k, Overflows [] calls k ↔ CountOverflows payloads calls k := by
    intro k
    rw [Overflows, CountOverflows, hframes, hframes,
      List.length_take_of_le (completeFrames_le _ _),
      List.length_take_of_le (completeFrames_le _ _)]
  rw [hempty] at hinserts hbefore hends
  simp only [hoverflows] at hbefore hends
  exact ⟨served, hserved, hframes served ▸ hinserts, hbefore, hends⟩

/-- Encoded requests and the peer's close, split in any way: all complete frames of the
stream are inserted exactly when the bytes read by the call that meets the close, or an
error, complete none of them, and no call that has further frames behind it returns a
number of requests that is negative as an `int`. -/
theorem inserts_complete_iff {uid : Nat} (maxIOVcount bindAdapter listenfd : Nat) (fd : Int)
    (ip : String) (port : Nat) (close : Bool) (serial : Nat) (n : NetThread)
    (hconnection : n.connectionUids uid =
      some (some ((Connection.accepted bindAdapter listenfd fd ip port close serial).init uid)))
    (payloads : List (List UInt8)) (calls : List (RecvCall × Surroundings uid))
    (closing : ClosingCall) (around : Surroundings uid)
    (hlen : ∀ payload ∈ payloads, payload.length < 2 ^ 31)
    (hstream : drained calls ++ closing.bytes <+: payloads.flatMap encodeRequest) :
    Inserts maxIOVcount bindAdapter n (serving calls closing around)
        (payloads.take (completeFrames payloads (drained calls ++ closing.bytes))) ↔
      completeFrames payloads (drained calls) =
          completeFrames payloads (drained calls ++ closing.bytes) ∧
        ∀ k < calls.length, CountOverflows payloads calls k →
          completeFrames payloads (drained (calls.take (k + 1))) =
            completeFrames payloads (drained calls ++ closing.bytes) := by
  obtain ⟨served, hserved, hinserts, hbefore, hends⟩ :=
    inserts_served maxIOVcount bindAdapter listenfd fd ip port close serial hconnection calls
      closing around hlen ((List.prefix_append _ _).trans hstream)
  have hpart : ∀ k, completeFrames payloads (drained (calls.take k)) ≤
      completeFrames payloads (drained calls) :=
    fun k => completeFrames_mono (drained_take_part calls k)
  have hwhole : completeFrames payloads (drained calls) ≤
      completeFrames payloads (drained calls ++ closing.bytes) :=
    completeFrames_mono (List.prefix_append _ _)
  constructor
  · intro hall
    have hcounts := congrArg List.length (hinserts.unique hall)
    rw [List.length_take_of_le (completeFrames_le _ _),
      List.length_take_of_le (completeFrames_le _ _)] at hcounts
    refine ⟨Nat.le_antisymm hwhole (hcounts ▸ hpart served), fun k hk hover => ?_⟩
    have hlate : served ≤ k + 1 := by
      by_contra hearly
      exact hbefore k (Nat.not_le.mp hearly) hover
    have hmore : completeFrames payloads (drained (calls.take served)) ≤
        completeFrames payloads (drained (calls.take (k + 1))) := by
      have htake : (calls.take (k + 1)).take served = calls.take served := by
        rw [List.take_take, Nat.min_eq_left hlate]
      rw [← htake]
      exact completeFrames_mono (drained_take_part _ served)
    exact Nat.le_antisymm ((hpart (k + 1)).trans hwhole) (hcounts ▸ hmore)
  · rintro ⟨hlast, hover⟩
    have hsame : completeFrames payloads (drained (calls.take served)) =
        completeFrames payloads (drained calls ++ closing.bytes) := by
      rcases hends with hall | ⟨k, hk, hcount⟩
      · rw [hall, List.take_length, hlast]
      · rw [hk]
        exact hover k (by omega) hcount
    rw [← hsame]
    exact hinserts

/-- As long as no call returns a negative number, the requests that the draining calls
complete are inserted. -/
theorem inserts_drained {uid : Nat} (maxIOVcount bindAdapter listenfd : Nat) (fd : Int)
    (ip : String) (port : Nat) (close : Bool) (serial : Nat) {n : NetThread}
    (hconnection : n.connectionUids uid =
      some (some ((Connection.accepted bindAdapter listenfd fd ip port close serial).init uid)))
    (calls : List (RecvCall × Surroundings uid))
    (closing : ClosingCall) (around : Surroundings uid)
    (hlen : ∀ payload ∈ payloads, payload.length < 2 ^ 31)
    (hstream : drained calls <+: payloads.flatMap encodeRequest)
    (hnever : ∀ k < calls.length, ¬ CountOverflows payloads calls k) :
    Inserts maxIOVcount bindAdapter n (serving calls closing around)
      (payloads.take (completeFrames payloads (drained calls))) := by
  obtain ⟨served, hserved, hinserts, _, hends⟩ :=
    inserts_served maxIOVcount bindAdapter listenfd fd ip port close serial hconnection calls
      closing around hlen hstream
  rcases hends with hall | ⟨k, hk, hcount⟩
  · rwa [hall, List.take_length] at hinserts
  · exact absurd hcount (hnever k (by omega))

end New

/-! ### One request of 32768 bytes -/

/-- Nothing happens around the events. -/
def quietly : Surroundings 1 := { before := id, keeps := fun _ => rfl }

/-- A net thread that has accepted one connection. -/
def serverOfOne : NetThread :=
  { freeSize := 0, listeners := fun _ => 0
    connectionUids := fun uid =>
      if uid = 1 then some (some ((Connection.accepted 0 4 9 "127.0.0.1" 80 false).init 1))
      else none }

/-- A request whose frame fills the buffer of `recv`. -/
def largeRequest : List UInt8 := List.replicate 32763 0

theorem length_largeRequest : (encodeRequest largeRequest).length = Connection.readSize := by
  rw [length_encodeRequest, largeRequest, List.length_replicate]
  rfl

/-- Its frame is read in one call with the end of the stream. -/
def readWithClose : ClosingCall :=
  { fulls := [encodeRequest largeRequest], hangup := .closed
    full := by
      intro bytes hbytes
      rw [List.mem_singleton.mp hbytes, length_largeRequest] }

/-- Its frame is read in one call, and the end of the stream in another. -/
def readBeforeClose : RecvCall :=
  { reads := [.data (encodeRequest largeRequest), .again]
    drains := .full length_largeRequest .again
    bounded := by
      rw [Connection.readBytes_data, List.length_append, length_largeRequest]
      decide }

def closeAlone : ClosingCall := { fulls := [], hangup := .closed, full := by simp }

theorem completeFrames_largeRequest :
    completeFrames [largeRequest] (encodeRequest largeRequest) = 1 := by
  simp [completeFrames, Decoder.framesWithin]

theorem completeFrames_nothing :
    completeFrames [largeRequest] (drained ([] : List (RecvCall × Surroundings 1))) = 0 := by
  simp [completeFrames, drained, streamOf, Decoder.framesWithin]

theorem bytes_readBeforeClose : drained [(readBeforeClose, quietly)] =
    encodeRequest largeRequest := by
  simp [drained, streamOf, RecvCall.bytes, readBeforeClose, Connection.readBytes]

/-- The same stream, one request of 32768 bytes and the close: the request is inserted
when the close is read by a call of its own, and lost when one call reads both. -/
theorem request_lost_with_close :
    Inserts 16 0 serverOfOne (serving [(readBeforeClose, quietly)] closeAlone quietly)
      [largeRequest] ∧
    Inserts 16 0 serverOfOne (serving [] readWithClose quietly) [] ∧
    ¬ Inserts 16 0 serverOfOne (serving [] readWithClose quietly) [largeRequest] := by
  have hlen : ∀ payload ∈ [largeRequest], payload.length < 2 ^ 31 := by
    intro payload hpayload
    rw [List.mem_singleton.mp hpayload, largeRequest, List.length_replicate]
    decide
  have hcount : ∀ k < 1, ¬ CountOverflows [largeRequest] [(readBeforeClose, quietly)] k := by
    intro k hk
    obtain rfl : k = 0 := Nat.lt_one_iff.mp hk
    have hone : drained ([(readBeforeClose, quietly)].take (0 + 1)) =
        encodeRequest largeRequest := bytes_readBeforeClose
    have hzero : drained ([(readBeforeClose, quietly)].take 0) = [] := rfl
    rw [CountOverflows, hone, hzero, completeFrames_largeRequest]
    simp [completeFrames, Decoder.framesWithin, toInt32]
  have hapart := inserts_drained 16 0 4 9 "127.0.0.1" 80 false 0 (n := serverOfOne) rfl
    [(readBeforeClose, quietly)] closeAlone quietly hlen
    (by rw [bytes_readBeforeClose]; simp) hcount
  have htogether := inserts_drained 16 0 4 9 "127.0.0.1" 80 false 0 (n := serverOfOne) rfl
    [] readWithClose quietly hlen List.nil_prefix (by simp)
  rw [bytes_readBeforeClose, completeFrames_largeRequest] at hapart
  rw [completeFrames_nothing] at htogether
  exact ⟨hapart, htogether, fun hboth => List.cons_ne_nil _ _ (hboth.unique htogether)⟩

/-- A request of one byte whose close is read by a call of its own is inserted. -/
theorem inserts_complete_short :
    Inserts 16 0 serverOfOne
      (serving [(RecvCall.short (encodeRequest [7]) (by decide) (by decide), quietly)]
        closeAlone quietly) [[7]] :=
  (inserts_complete_iff 16 0 4 9 "127.0.0.1" 80 false 0 serverOfOne rfl [[7]]
    [(RecvCall.short (encodeRequest [7]) (by decide) (by decide), quietly)] closeAlone quietly
    (by decide) ⟨[], rfl⟩).mpr ⟨rfl, by decide⟩

end NetThread

end Tarsx
