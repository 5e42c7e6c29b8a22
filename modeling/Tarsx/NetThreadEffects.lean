/-
What the functions of `NetThread` do to the table of connections: which uids lose
their connection, where a null pointer appears, and which faults are possible.
Every later statement about net threads is derived from these.
-/
import Tarsx.BufferSpec
import Tarsx.ConnectionFrames
import Tarsx.NetThreadQueues

namespace Tarsx

open Foundation

namespace Connection

/-! ### A connection that is only read from and written to -/

/-- The reading loop of `recv` ends at the end of the stream or an error. -/
def hangsUp : List ReadResult → Bool
  | [] => false
  | .again :: _ => false
  | .closed :: _ => true
  | .failed :: _ => true
  | .data bytes :: rest => if bytes.length < readSize then false else hangsUp rest

/-- With reads of at most the buffer's size, the reading loop returns. -/
theorem readLoop_any (reads : List ReadResult) : ∀ {b : Buffer}, b.WellFormed →
    (∀ bytes, .data bytes ∈ reads → bytes.length ≤ readSize) →
    ∃ b', readLoop reads b = .ok (hangsUp reads, b') ∧ b'.WellFormed := by
  induction reads with
  | nil => exact fun hwell _ => ⟨_, rfl, hwell⟩
  | cons result rest ih =>
      intro b hwell hfits
      cases result with
      | again => exact ⟨b, rfl, hwell⟩
      | closed => exact ⟨b, rfl, hwell⟩
      | failed => exact ⟨b, rfl, hwell⟩
      | data bytes =>
          have hsize : bytes.length < 2 ^ 63 := Nat.lt_of_le_of_lt
            (hfits bytes List.mem_cons_self) (by decide)
          obtain ⟨n, pushed, hpush, hwell', _⟩ := Buffer.pushData_any hwell hsize
          by_cases hshort : bytes.length < readSize
          · refine ⟨pushed, ?_, hwell'⟩
            rw [readLoop_cons_data hpush, hangsUp, if_pos hshort, if_pos hshort]
          · obtain ⟨b', hloop, hwell''⟩ := ih hwell' fun other hother =>
              hfits other (List.mem_cons_of_mem _ hother)
            refine ⟨b', ?_, hwell''⟩
            rw [readLoop_cons_data hpush, hangsUp, if_neg hshort, if_neg hshort, hloop]

/-- A fault that a length field can cause: not a null pointer and not an empty
list. -/
structure LengthFault (fault : Fault) : Prop where
  notNull : fault ≠ .nullPointer
  notEmpty : fault ≠ .emptyList

/-- The framing loop returns or faults because of a length field. -/
theorem frameLoop_any (fuel : Nat) : ∀ {b : Buffer}, b.WellFormed →
    (∃ reqs b', frameLoop fuel b = .ok (reqs, b') ∧ b'.WellFormed) ∨
      ∃ fault, frameLoop fuel b = .error fault ∧ LengthFault fault := by
  induction fuel with
  | zero =>
      intro b _
      exact Or.inr ⟨_, rfl, by decide, by decide⟩
  | succ fuel ih =>
      intro b hwell
      by_cases hfour : 4 ≤ b.contents.length
      · have henter : kHeaderSize - 1 ≤ b.readableSize := by
          rw [hwell.readableSize_eq_length]
          exact hfour
        have hlen := frameLen_eq hwell hfour
        by_cases hfits : wordAdd (toWord (headerLen b.contents)) kHeaderSize ≤
            b.readableSize
        · by_cases hfive : 5 ≤ b.contents.length
          · obtain ⟨body, hbody, hwell', _, _⟩ :=
              Buffer.consume_spec hwell (n := kHeaderSize) hfive
            by_cases hstring :
                toWord (headerLen b.contents) ≤ body.contents.length
            · have hpeek := peekString_eq hwell' _ hstring
              obtain ⟨rest, hrest, hwell'', _, _⟩ := Buffer.consume_spec hwell' hstring
              rcases ih hwell'' with ⟨reqs, b', hloop, hgood⟩ | ⟨fault, hloop, hfault⟩
              · refine Or.inl ⟨body.contents.take (toWord (headerLen b.contents)) :: reqs,
                  b', ?_, hgood⟩
                simp only [frameLoop, if_pos henter, hlen, bind, Except.bind,
                  if_pos hfits, hbody, hpeek, hrest, hloop]
              · refine Or.inr ⟨fault, ?_, hfault⟩
                simp only [frameLoop, if_pos henter, hlen, bind, Except.bind,
                  if_pos hfits, hbody, hpeek, hrest, hloop]
            · have hpeek : peekString body (toWord (headerLen b.contents)) =
                  .error .lengthError := by
                rw [peekString, hwell'.readableSize_eq_length,
                  if_pos (Nat.not_le.mp hstring)]
              refine Or.inr ⟨.lengthError, ?_, by decide, by decide⟩
              simp only [frameLoop, if_pos henter, hlen, bind, Except.bind,
                if_pos hfits, hbody, hpeek]
          · have hbody : b.consume kHeaderSize = .error .assertion :=
              Buffer.consume_of_too_many hwell (by decide) (Nat.not_le.mp hfive)
            refine Or.inr ⟨.assertion, ?_, by decide, by decide⟩
            simp only [frameLoop, if_pos henter, hlen, bind, Except.bind,
              if_pos hfits, hbody]
        · refine Or.inl ⟨[], b, ?_, hwell⟩
          simp only [frameLoop, if_pos henter, hlen, bind, Except.bind, if_neg hfits]
      · exact Or.inl ⟨[], b, frameLoop_of_short hwell fuel (Nat.not_le.mp hfour), hwell⟩

/-- What the table holds for a uid: its connection, with nothing left to send. -/
structure Whole (uid : Nat) (c : Connection) : Prop where
  uid_eq : c.uid = uid
  buffer : c.recvBuffer.WellFormed
  drained : c.sendBuffer = []
  isOpen : c.listenfd ≠ -1

section

variable {uid : Nat} {c : Connection}

/-- `recv` changes the receive buffer only.  Its result is negative when the peer hung up
or an `int` cannot hold the number of requests. -/
theorem Whole.recv (h : Whole uid c) {reads : List ReadResult}
    (hfits : ∀ bytes, .data bytes ∈ reads → bytes.length ≤ readSize) :
    (∃ c' ret reqs, c.recv reads = .ok (c', (ret, reqs)) ∧ Whole uid c' ∧
        (ret < 0 ↔ hangsUp reads = true ∨ toInt32 reqs.length < 0)) ∨
      ∃ fault, c.recv reads = .error fault ∧ LengthFault fault := by
  obtain ⟨b, hread, hwell⟩ := readLoop_any reads h.buffer hfits
  cases hgone : hangsUp reads with
  | true =>
      refine Or.inl ⟨{ c with recvBuffer := b }, -1, [], ?_,
        ⟨h.uid_eq, hwell, h.drained, h.isOpen⟩, by simp⟩
      rw [hgone] at hread
      simp only [Connection.recv, hread, bind, Except.bind, if_true]
  | false =>
      rw [hgone] at hread
      rcases frameLoop_any (b.readableSize + 1) hwell with
        ⟨reqs, b', hloop, hwell'⟩ | ⟨fault, hloop, hfault⟩
      · refine Or.inl ⟨{ c with recvBuffer := b' }, toInt32 reqs.length,
          reqs.map c.recvData, ?_, ⟨h.uid_eq, hwell', h.drained, h.isOpen⟩, by simp⟩
        simp only [Connection.recv, hread, bind, Except.bind, Bool.false_eq_true,
          if_false, if_pos h.isOpen, hloop]
      · refine Or.inr ⟨fault, ?_, hfault⟩
        simp only [Connection.recv, hread, bind, Except.bind, Bool.false_eq_true,
          if_false, if_pos h.isOpen, hloop]

theorem Whole.sendEnd (h : Whole uid c) : ∃ status, c.sendEnd = .ok (c, status) := by
  have hsmall : ¬ 8 * 1024 ≤ (c.sendBuffer.map Slice.dataLen).sum := by
    rw [h.drained]
    decide
  by_cases hclose : c.close = true ∧ c.sendBuffer = []
  · exact ⟨-2, by rw [Connection.sendEnd, if_neg hsmall, if_pos hclose]⟩
  · exact ⟨0, by rw [Connection.sendEnd, if_neg hsmall, if_neg hclose]⟩

/-- A response that is sent directly leaves the connection as it is. -/
theorem Whole.send (h : Whole uid c) (maxIOVcount : Nat) (buffer : List UInt8)
    (results : List WriteResult) :
    ∃ out, c.send maxIOVcount buffer false results = .ok (c, out) := by
  obtain ⟨status, hend⟩ := h.sendEnd
  rcases hsend : tcpSend buffer (results.headD .again) with ⟨bytes, taken⟩
  by_cases hfailed : bytes = -1
  · refine ⟨(-1, taken), ?_⟩
    simp only [Connection.send, Bool.false_eq_true, if_false, hsend, if_pos hfailed]
  · refine ⟨(status, taken), ?_⟩
    simp only [Connection.send, Bool.false_eq_true, if_false, hsend, if_neg hfailed,
      hend, bind, Except.bind]

theorem Whole.sendPending (h : Whole uid c) (maxIOVcount : Nat)
    (results : List WriteResult) :
    c.sendPending maxIOVcount results = .ok (c, (0, [])) := by
  rw [Connection.sendPending, if_pos h.drained]

end

end Connection

namespace NetThread

/-- Every connection of the table is whole. -/
def Sound (n : NetThread) : Prop :=
  ∀ uid c, n.connectionUids uid = some (some c) → c.Whole uid

/-- A null pointer stands in the table for the uid. -/
def Null (n : NetThread) (uid : Nat) : Prop := n.connectionUids uid = some none

/-- What a step did: the uids of `gone` lost their connections, null pointers were
added for the uids of `added`, and the list of free uids was not touched. -/
structure Effect (n next : NetThread) (gone added : Nat → Prop) : Prop where
  free : next.free = n.free
  freeSize : next.freeSize = n.freeSize
  live : ∀ uid, next.Live uid ↔ n.Live uid ∧ ¬ gone uid
  null : ∀ uid, next.Null uid ↔ n.Null uid ∨ added uid
  sound : Sound next

/-- No uid. -/
def nowhere (_ : Nat) : Prop := False

theorem live_iff {n : NetThread} {uid : Nat} :
    n.Live uid ↔ ∃ c, n.connectionUids uid = some (some c) := by
  rw [Live, connectionOf]
  cases h : n.connectionUids uid with
  | none => simp
  | some connection => cases connection <;> simp

theorem not_live_iff {n : NetThread} {uid : Nat} :
    ¬ n.Live uid ↔ n.connectionUids uid = none ∨ n.Null uid := by
  rw [live_iff, Null]
  cases h : n.connectionUids uid with
  | none => simp
  | some connection => cases connection <;> simp

namespace Effect

theorem refl {n : NetThread} (h : n.Sound) : Effect n n nowhere nowhere :=
  ⟨rfl, rfl, fun _ => by simp [nowhere], fun _ => by simp [nowhere], h⟩

theorem trans {n middle next : NetThread} {gone added gone' added' : Nat → Prop}
    (h : Effect n middle gone added) (h' : Effect middle next gone' added') :
    Effect n next (fun uid => gone uid ∨ gone' uid)
      (fun uid => added uid ∨ added' uid) := by
  refine ⟨h'.free.trans h.free, h'.freeSize.trans h.freeSize, ?_, ?_, h'.sound⟩
  · intro uid
    rw [h'.live, h.live, not_or, and_assoc]
  · intro uid
    rw [h'.null, h.null, or_assoc]

theorem congr {n next : NetThread} {gone added gone' added' : Nat → Prop}
    (h : Effect n next gone added) (hgone : ∀ uid, gone uid ↔ gone' uid)
    (hadded : ∀ uid, added uid ↔ added' uid) : Effect n next gone' added' := by
  refine ⟨h.free, h.freeSize, ?_, ?_, h.sound⟩
  · intro uid
    rw [h.live, hgone]
  · intro uid
    rw [h.null, hadded]

/-- A step that leaves the table as it is. -/
theorem of_table_eq {n next : NetThread} (h : n.Sound) (hfree : next.free = n.free)
    (hsize : next.freeSize = n.freeSize)
    (htable : next.connectionUids = n.connectionUids) :
    Effect n next nowhere nowhere := by
  refine ⟨hfree, hsize, ?_, ?_, ?_⟩
  · intro uid
    simp [Live, connectionOf, htable, nowhere]
  · intro uid
    simp [Null, htable, nowhere]
  · intro uid c hc
    exact h uid c (htable ▸ hc)

end Effect

section Table

variable {n next : NetThread} {uid : Nat} {c : Connection}
  {entry : Option (Option Connection)}

/-! ### Changing one entry of the table -/

theorem live_of_update
    (htable : next.connectionUids = Function.update n.connectionUids uid entry)
    (other : Nat) : next.Live other ↔
      (other = uid ∧ ∃ c, entry = some (some c)) ∨ (other ≠ uid ∧ n.Live other) := by
  rw [live_iff, live_iff, htable]
  by_cases heq : other = uid
  · subst heq
    simp
  · simp [heq]

theorem null_of_update
    (htable : next.connectionUids = Function.update n.connectionUids uid entry)
    (other : Nat) : next.Null other ↔
      (other = uid ∧ entry = some none) ∨ (other ≠ uid ∧ n.Null other) := by
  rw [Null, Null, htable]
  by_cases heq : other = uid
  · subst heq
    simp
  · simp [heq]

theorem sound_of_update (h : n.Sound)
    (htable : next.connectionUids = Function.update n.connectionUids uid entry)
    (hentry : ∀ c, entry = some (some c) → c.Whole uid) : Sound next := by
  intro other c hc
  rw [htable] at hc
  by_cases heq : other = uid
  · subst heq
    rw [Function.update_self] at hc
    exact hentry c hc
  · rw [Function.update_of_ne heq] at hc
    exact h other c hc

theorem lookup_of_live (hc : n.connectionUids uid = some (some c)) :
    n.lookup uid = (some c, n) := by
  rw [lookup, hc]

/-- Looking up a uid without a connection gives a null pointer, and the entry for
it stays if there was none. -/
theorem lookup_of_not_live (h : n.Sound) (hnot : ¬ n.Live uid) :
    (n.lookup uid).1 = none ∧ Effect n (n.lookup uid).2 nowhere
      (fun other => other = uid ∧ n.connectionUids uid = none) := by
  rcases not_live_iff.mp hnot with hnone | hnull
  · have htable : (n.lookup uid).2.connectionUids =
        Function.update n.connectionUids uid (some none) := by
      simp only [lookup, hnone]
    refine ⟨by simp only [lookup, hnone], by simp only [lookup, hnone],
      by simp only [lookup, hnone], ?_, ?_, sound_of_update h htable (by simp)⟩
    · intro other
      rw [live_of_update htable]
      by_cases heq : other = uid
      · subst heq
        simp [hnot]
      · simp [heq, nowhere]
    · intro other
      rw [null_of_update htable]
      by_cases heq : other = uid
      · simp [heq, hnone]
      · simp [heq]
  · have hsame : n.lookup uid = (none, n) := by
      unfold Null at hnull
      rw [lookup, hnull]
    have hsome : n.connectionUids uid ≠ none := by
      unfold Null at hnull
      rw [hnull]
      exact Option.some_ne_none none
    rw [hsame]
    refine ⟨rfl, (Effect.refl h).congr (fun _ => Iff.rfl) ?_⟩
    intro other
    simp [nowhere, hsome]

/-- A changed connection stays in its place. -/
theorem store_effect (h : n.Sound) (hlive : n.Live uid) (hwhole : c.Whole uid) :
    Effect n (n.store uid c) nowhere nowhere := by
  have htable : (n.store uid c).connectionUids =
      Function.update n.connectionUids uid (some (some c)) := rfl
  refine ⟨rfl, rfl, ?_, ?_, sound_of_update h htable ?_⟩
  · intro other
    rw [live_of_update htable]
    by_cases heq : other = uid
    · subst heq
      simp [hlive, nowhere]
    · simp [heq, nowhere]
  · intro other
    rw [null_of_update htable]
    by_cases heq : other = uid
    · obtain ⟨old, hold⟩ := live_iff.mp hlive
      simp [heq, Null, hold, nowhere]
    · simp [heq, nowhere]
  · intro c' hc'
    rw [Option.some.injEq, Option.some.injEq] at hc'
    exact hc' ▸ hwhole

/-- A deleted connection leaves the table. -/
theorem delConnection_effect (h : n.Sound) (hlive : n.Live uid) (hwhole : c.Whole uid)
    (closeType : CloseType) :
    ∃ next, n.delConnection (some c) closeType = .ok next ∧
      Effect n next (fun other => other = uid) nowhere := by
  obtain ⟨next, hnext, hfree, hsize, htable⟩ : ∃ next,
      n.delConnection (some c) closeType = .ok next ∧ next.free = n.free ∧
        next.freeSize = n.freeSize ∧
        next.connectionUids = Function.update n.connectionUids uid none := by
    rw [delConnection, if_pos hwhole.isOpen]
    exact ⟨_, rfl, rfl, rfl, by rw [hwhole.uid_eq]; rfl⟩
  refine ⟨next, hnext, hfree, hsize, ?_, ?_, sound_of_update h htable (by simp)⟩
  · intro other
    rw [live_of_update htable]
    by_cases heq : other = uid
    · simp [heq]
    · simp [heq]
  · intro other
    rw [null_of_update htable]
    by_cases heq : other = uid
    · obtain ⟨old, hold⟩ := live_iff.mp hlive
      simp [heq, Null, hold, nowhere]
    · simp [heq, nowhere]

theorem insertRecvDeque_effect (h : n.Sound) (adapter : Nat) (deque : List TagRecvData)
    (pushback : Bool) :
    Effect n (n.insertRecvDeque adapter deque pushback) nowhere nowhere :=
  Effect.of_table_eq h rfl rfl rfl

/-- The first free uid gets the new connection. -/
theorem addTConnection_spec (h : n.Sound) {rest : List Nat} (hfree : n.free = uid :: rest)
    (hwhole : (c.init uid).Whole uid) :
    ∃ next, n.addTConnection c = .ok next ∧ next.free = rest ∧
      next.freeSize = wordSub n.freeSize 1 ∧
      (∀ other, next.Live other ↔ n.Live other ∨ other = uid) ∧
      (∀ other, next.Null other ↔ n.Null other ∧ other ≠ uid) ∧ Sound next := by
  obtain ⟨next, hnext, hrest, hsize, htable⟩ : ∃ next,
      n.addTConnection c = .ok next ∧ next.free = rest ∧
        next.freeSize = wordSub n.freeSize 1 ∧
        next.connectionUids =
          Function.update n.connectionUids uid (some (some (c.init uid))) := by
    rw [addTConnection, hfree]
    exact ⟨_, rfl, rfl, rfl, rfl⟩
  refine ⟨next, hnext, hrest, hsize, ?_, ?_, sound_of_update h htable ?_⟩
  · intro other
    rw [live_of_update htable]
    by_cases heq : other = uid
    · simp [heq]
    · simp [heq]
  · intro other
    rw [null_of_update htable]
    by_cases heq : other = uid
    · simp [heq]
    · simp [heq]
  · intro c' hc'
    rw [Option.some.injEq, Option.some.injEq] at hc'
    exact hc' ▸ hwhole

end Table

/-! ### Events -/

/-- The event makes the net thread delete its connection: the peer hung up, or `recv` returns
a number of requests that is negative as an `int`. -/
def Drops (n : NetThread) (ev : NetEvent) : Prop :=
  ev.epollerr ∨ ev.epollhup ∨ (ev.epollin ∧
    (Connection.hangsUp ev.reads ∨ toInt32 (n.arriving ev).length < 0))

section Events

variable {n : NetThread}

/-- A readable event deletes its connection when `recv` returns a negative number. -/
theorem drops_iff_of_recv {ev : NetEvent} {c c' : Connection} {ret : Int}
    {deque : List TagRecvData} (hc : n.connectionUids ev.uid = some (some c))
    (herr : ¬ (ev.epollerr ∨ ev.epollhup)) (hin : ev.epollin = true)
    (hrecv : c.recv ev.reads = .ok (c', (ret, deque)))
    (hret : ret < 0 ↔ Connection.hangsUp ev.reads = true ∨ toInt32 deque.length < 0) :
    n.Drops ev ↔ ret < 0 := by
  have hconnection : n.connectionOf ev.uid = some c := by
    rw [connectionOf, hc]
    rfl
  rw [Drops, arriving_of_recv herr hin hconnection hrecv, hret]
  rw [not_or] at herr
  simp [herr.1, herr.2, hin]

/-- The `EPOLLIN` part deletes a live connection when the event says so. -/
theorem netInput_live (h : n.Sound) {ev : NetEvent} {c : Connection}
    (herr : ¬ (ev.epollerr ∨ ev.epollhup))
    (hc : n.connectionUids ev.uid = some (some c)) :
    (∃ next c', n.netInput ev (some c) = .ok (next, some c') ∧ c'.Whole ev.uid ∧
        Effect n next (fun other => other = ev.uid ∧ n.Drops ev) nowhere) ∨
      ∃ fault, n.netInput ev (some c) = .error fault ∧
        Connection.LengthFault fault := by
  have hlive : n.Live ev.uid := live_iff.mpr ⟨c, hc⟩
  by_cases hin : ev.epollin = true
  · rcases (h ev.uid c hc).recv ev.fits with
      ⟨c', ret, reqs, hrecv, hwhole, hret⟩ | ⟨fault, hrecv, hfault⟩
    · left
      have hdrops := drops_iff_of_recv hc herr hin hrecv hret
      have hstored := store_effect h hlive hwhole
      by_cases hneg : ret < 0
      · have hclosed : c'.closeSocket.Whole ev.uid := by
          rw [Connection.closeSocket, if_pos hwhole.isOpen]
          exact ⟨hwhole.uid_eq, hwhole.buffer, hwhole.drained, hwhole.isOpen⟩
        obtain ⟨deleted, hdelete, hgone⟩ := delConnection_effect hstored.sound
          ((hstored.live ev.uid).mpr ⟨hlive, id⟩) hwhole .clientClose
        have htold := insertRecvDeque_effect hgone.sound c'.bindAdapter reqs true
        by_cases hnone : reqs = []
        · refine ⟨deleted, c'.closeSocket, ?_, hclosed, (hstored.trans hgone).congr ?_ ?_⟩
          · simp only [netInput, if_pos hin, hrecv, bind, Except.bind, if_pos hneg,
              hdelete, if_pos hnone]
          · intro other
            simp [nowhere, hdrops.mpr hneg]
          · intro other
            simp [nowhere]
        · refine ⟨_, c'.closeSocket, ?_, hclosed,
            ((hstored.trans hgone).trans htold).congr ?_ ?_⟩
          · simp only [netInput, if_pos hin, hrecv, bind, Except.bind, if_pos hneg,
              hdelete, if_neg hnone]
          · intro other
            simp [nowhere, hdrops.mpr hneg]
          · intro other
            simp [nowhere]
      · have hstays : ¬ n.Drops ev := fun hgone => hneg (hdrops.mp hgone)
        have htold := insertRecvDeque_effect hstored.sound c'.bindAdapter reqs true
        by_cases hnone : reqs = []
        · refine ⟨n.store ev.uid c', c', ?_, hwhole, hstored.congr ?_ fun _ => Iff.rfl⟩
          · simp only [netInput, if_pos hin, hrecv, bind, Except.bind, if_neg hneg,
              if_pos hnone]
          · intro other
            simp [nowhere, hstays]
        · refine ⟨_, c', ?_, hwhole, (hstored.trans htold).congr ?_ ?_⟩
          · simp only [netInput, if_pos hin, hrecv, bind, Except.bind, if_neg hneg,
              if_neg hnone]
          · intro other
            simp [nowhere, hstays]
          · intro other
            simp [nowhere]
    · right
      refine ⟨fault, ?_, hfault⟩
      simp only [netInput, if_pos hin, hrecv, bind, Except.bind]
  · left
    refine ⟨n, c, by rw [netInput, if_neg hin], h ev.uid c hc,
      (Effect.refl h).congr ?_ fun _ => Iff.rfl⟩
    rw [not_or] at herr
    intro other
    simp [nowhere, Drops, herr.1, herr.2, hin]

/-- The `EPOLLOUT` part changes nothing: nothing is ever left to send. -/
theorem netOutput_whole (h : n.Sound) {ev : NetEvent} {c : Connection}
    (hwhole : c.Whole ev.uid)
    (hentry : n.Live ev.uid ∨ n.connectionUids ev.uid = none) (maxIOVcount : Nat) :
    ∃ next, n.netOutput maxIOVcount ev (some c) = .ok next ∧
      Effect n next nowhere nowhere := by
  have hsend := hwhole.sendPending maxIOVcount ev.writes
  by_cases hout : ev.epollout = true
  · by_cases hnone : n.connectionUids ev.uid = none
    · refine ⟨n, ?_, Effect.refl h⟩
      simp only [netOutput, if_pos hout, hsend, bind, Except.bind, if_pos hnone]
    · refine ⟨n.store ev.uid c, ?_, store_effect h (hentry.resolve_right hnone) hwhole⟩
      simp only [netOutput, if_pos hout, hsend, bind, Except.bind, if_neg hnone]
  · exact ⟨n, by rw [netOutput, if_neg hout], Effect.refl h⟩

/-- An event for a live connection: it is deleted if the event says so. -/
theorem processNet_live (h : n.Sound) {ev : NetEvent} (hlive : n.Live ev.uid)
    (maxIOVcount : Nat) :
    (∃ next, n.processNet maxIOVcount ev = .ok next ∧
        Effect n next (fun other => other = ev.uid ∧ n.Drops ev) nowhere) ∨
      ∃ fault, n.processNet maxIOVcount ev = .error fault ∧
        Connection.LengthFault fault := by
  obtain ⟨c, hc⟩ := live_iff.mp hlive
  have hlookup := lookup_of_live hc
  by_cases herr : ev.epollerr = true ∨ ev.epollhup = true
  · obtain ⟨next, hdelete, hgone⟩ :=
      delConnection_effect h hlive (h ev.uid c hc) .serverClose
    have hdrops : n.Drops ev := herr.elim Or.inl fun hhup => Or.inr (Or.inl hhup)
    refine Or.inl ⟨next, ?_, hgone.congr (fun other => by simp [hdrops]) fun _ => Iff.rfl⟩
    simp only [processNet, hlookup, if_pos herr, hdelete]
  · rcases netInput_live h herr hc with
      ⟨middle, c', hinput, hwhole, heffect⟩ | ⟨fault, hinput, hfault⟩
    · have hentry : middle.Live ev.uid ∨ middle.connectionUids ev.uid = none := by
        by_cases hstill : middle.Live ev.uid
        · exact Or.inl hstill
        · rcases not_live_iff.mp hstill with hnone | hnull
          · exact Or.inr hnone
          · have hold := (heffect.null ev.uid).mp hnull
            simp [Null, hc, nowhere] at hold
      obtain ⟨next, hwrite, hsame⟩ :=
        netOutput_whole heffect.sound hwhole hentry maxIOVcount
      refine Or.inl ⟨next, ?_, (heffect.trans hsame).congr ?_ ?_⟩
      · simp only [processNet, hlookup, if_neg herr, hinput, bind, Except.bind, hwrite]
      · intro other
        simp [nowhere]
      · intro other
        simp [nowhere]
    · refine Or.inr ⟨fault, ?_, hfault⟩
      simp only [processNet, hlookup, if_neg herr, hinput, bind, Except.bind]

/-- An event for a uid without a connection dereferences a null pointer, unless it
reports nothing. -/
theorem processNet_not_live (h : n.Sound) {ev : NetEvent} (hnot : ¬ n.Live ev.uid)
    (maxIOVcount : Nat) :
    n.processNet maxIOVcount ev = .error .nullPointer ∨
      ∃ next, n.processNet maxIOVcount ev = .ok next ∧ Effect n next nowhere
        (fun other => other = ev.uid ∧ n.connectionUids ev.uid = none) := by
  obtain ⟨hnull, heffect⟩ := lookup_of_not_live h hnot
  rcases hlookup : n.lookup ev.uid with ⟨connection, looked⟩
  rw [hlookup] at hnull heffect
  change connection = none at hnull
  subst hnull
  by_cases herr : ev.epollerr = true ∨ ev.epollhup = true
  · left
    simp only [processNet, hlookup, if_pos herr, delConnection]
  · by_cases hin : ev.epollin = true
    · left
      simp only [processNet, hlookup, if_neg herr, netInput, if_pos hin, bind,
        Except.bind]
    · by_cases hout : ev.epollout = true
      · left
        simp only [processNet, hlookup, if_neg herr, netInput, if_neg hin, netOutput,
          if_pos hout, bind, Except.bind]
      · right
        refine ⟨looked, ?_, heffect⟩
        simp only [processNet, hlookup, if_neg herr, netInput, if_neg hin, netOutput,
          if_neg hout, bind, Except.bind]

end Events

/-! ### Commands -/

section Commands

variable {n : NetThread} {msg : TagSendData}

theorem sendCommand_live (h : n.Sound) (hlive : n.Live msg.uid) (maxIOVcount : Nat)
    (result : WriteResult) :
    ∃ next, n.sendCommand maxIOVcount msg result = .ok next ∧
      Effect n next nowhere nowhere := by
  obtain ⟨c, hc⟩ := live_iff.mp hlive
  have hwhole := h msg.uid c hc
  obtain ⟨out, hsend⟩ := hwhole.send maxIOVcount msg.buffer [result]
  let logged : NetThread := { n with written := n.written ++ [⟨c.serial, msg⟩] }
  have hsame : Effect n logged nowhere nowhere := Effect.of_table_eq h rfl rfl rfl
  have hlive' : logged.Live msg.uid := hlive
  have hstored := store_effect hsame.sound hlive' hwhole
  refine ⟨logged.store msg.uid c, ?_, (hsame.trans hstored).congr (fun other => ?_)
    fun other => ?_⟩
  · simp only [sendCommand, lookup_of_live hc, hsend, bind, Except.bind, logged]
  · simp [nowhere]
  · simp [nowhere]

theorem sendCommand_not_live (h : n.Sound) (hnot : ¬ n.Live msg.uid)
    (maxIOVcount : Nat) (result : WriteResult) :
    n.sendCommand maxIOVcount msg result = .error .nullPointer := by
  obtain ⟨hnull, _⟩ := lookup_of_not_live h hnot
  rcases hlookup : n.lookup msg.uid with ⟨connection, looked⟩
  rw [hlookup] at hnull
  change connection = none at hnull
  subst hnull
  simp only [sendCommand, hlookup]

/-- Nothing is ever left to send, so a close command always deletes. -/
theorem closeCommand_live (h : n.Sound) (hlive : n.Live msg.uid) :
    ∃ next, n.closeCommand msg = .ok next ∧
      Effect n next (fun other => other = msg.uid) nowhere := by
  obtain ⟨c, hc⟩ := live_iff.mp hlive
  have hwhole := h msg.uid c hc
  have hclosing : c.setClose.1.Whole msg.uid :=
    ⟨hwhole.uid_eq, hwhole.buffer, hwhole.drained, hwhole.isOpen⟩
  have hdrained : c.setClose.2 = true := by
    rw [Connection.setClose, hwhole.drained]
    rfl
  have hstored := store_effect h hlive hclosing
  have hlive' : (n.store msg.uid c.setClose.1).Live msg.uid :=
    (hstored.live msg.uid).mpr ⟨hlive, id⟩
  obtain ⟨next, hdelete, hgone⟩ :=
    delConnection_effect hstored.sound hlive' hclosing .serverClose
  refine ⟨next, ?_, (hstored.trans hgone).congr (fun other => by simp [nowhere])
    (fun other => by simp [nowhere])⟩
  simp only [closeCommand, lookup_of_live hc, hdrained, if_true, hdelete]

theorem closeCommand_not_live (h : n.Sound) (hnot : ¬ n.Live msg.uid) :
    ∃ next, n.closeCommand msg = .ok next ∧ Effect n next nowhere
      (fun other => other = msg.uid ∧ n.connectionUids msg.uid = none) := by
  obtain ⟨hnull, heffect⟩ := lookup_of_not_live h hnot
  rcases hlookup : n.lookup msg.uid with ⟨connection, looked⟩
  rw [hlookup] at hnull heffect
  change connection = none at hnull
  subst hnull
  exact ⟨looked, by simp only [closeCommand, hlookup], heffect⟩

/-- The uids that the close commands of a batch name. -/
def Closes (msgs : List TagSendData) (uid : Nat) : Prop :=
  ∃ msg ∈ msgs, msg.cmd = .close ∧ msg.uid = uid

theorem closes_cons (msg : TagSendData) (rest : List TagSendData) (uid : Nat) :
    Closes (msg :: rest) uid ↔
      (msg.cmd = .close ∧ uid = msg.uid) ∨ Closes rest uid := by
  rw [Closes, Closes, List.exists_mem_cons_iff, eq_comm (a := uid)]

/-- A batch of commands deletes the connections that its close commands name, or
stops at a null pointer. -/
theorem commandLoop_effect (maxIOVcount : Nat) (msgs : List TagSendData) :
    ∀ {n : NetThread} (results : List WriteResult), n.Sound →
      (∃ next added, commandLoop maxIOVcount n msgs results = .ok next ∧
          Effect n next (Closes msgs) added) ∨
        commandLoop maxIOVcount n msgs results = .error .nullPointer := by
  induction msgs with
  | nil =>
      intro n results h
      refine Or.inl ⟨n, nowhere, rfl, (Effect.refl h).congr ?_ fun _ => Iff.rfl⟩
      intro uid
      simp [Closes, nowhere]
  | cons msg rest ih =>
      intro n results h
      cases hcmd : msg.cmd with
      | send =>
          by_cases hlive : n.Live msg.uid
          · obtain ⟨middle, hsend, hsame⟩ :=
              sendCommand_live h hlive maxIOVcount (results.headD .again)
            rcases ih results.tail hsame.sound with
              ⟨next, added, hloop, heffect⟩ | hloop
            · refine Or.inl ⟨next, _, ?_, (hsame.trans heffect).congr ?_
                fun _ => Iff.rfl⟩
              · simp only [commandLoop, hcmd, hsend, bind, Except.bind, hloop]
              · intro uid
                simp [closes_cons, hcmd, nowhere]
            · right
              simp only [commandLoop, hcmd, hsend, bind, Except.bind, hloop]
          · right
            simp only [commandLoop, hcmd, bind, Except.bind,
              sendCommand_not_live h hlive maxIOVcount (results.headD .again)]
      | close =>
          obtain ⟨middle, gone, added, hclose, heffect, hgone⟩ : ∃ middle gone added,
              n.closeCommand msg = .ok middle ∧ Effect n middle gone added ∧
                ∀ uid, n.Live uid → (gone uid ↔ uid = msg.uid) := by
            by_cases hlive : n.Live msg.uid
            · obtain ⟨middle, hclose, heffect⟩ := closeCommand_live h hlive
              exact ⟨middle, _, _, hclose, heffect, fun _ _ => Iff.rfl⟩
            · obtain ⟨middle, hclose, heffect⟩ := closeCommand_not_live h hlive
              refine ⟨middle, _, _, hclose, heffect, ?_⟩
              rintro uid huid
              exact ⟨False.elim, fun heq => hlive (heq ▸ huid)⟩
          rcases ih results heffect.sound with
            ⟨next, added', hloop, hrest⟩ | hloop
          · have hboth := heffect.trans hrest
            refine Or.inl ⟨next, _, ?_, hboth.free, hboth.freeSize, ?_, hboth.null,
              hboth.sound⟩
            · simp only [commandLoop, hcmd, hclose, bind, Except.bind, hloop]
            · intro uid
              rw [hboth.live, closes_cons]
              by_cases huid : n.Live uid
              · simp [huid, hcmd, hgone uid huid]
              · simp [huid]
          · right
            simp only [commandLoop, hcmd, hclose, bind, Except.bind, hloop]

end Commands

/-! ### One step -/

/-- The uids whose connections a step deletes, if they have one. -/
def Deletes (n : NetThread) : NetAction → Nat → Prop
  | .net ev, uid => uid = ev.uid ∧ n.Drops ev
  | .pipe _, uid => Closes n.sendBuffer uid
  | _, _ => False

section Step

variable {n : NetThread}

theorem effect_respond (h : n.Sound) (uid : Nat) (msg : List UInt8) (ip : String)
    (port : Nat) :
    Effect n (n.recvNeedToSendFromServer uid msg ip port) nowhere nowhere := by
  by_cases hterminate : n.terminate = true
  · rw [recvNeedToSendFromServer, if_pos hterminate]
    exact Effect.refl h
  · rw [recvNeedToSendFromServer, if_neg hterminate]
    exact Effect.of_table_eq h rfl rfl rfl

/-- A new connection is whole. -/
theorem whole_accepted (adapter listenfd : Nat) (fd : Int) (ip : String) (port : Nat)
    (close : Bool) (serial uid : Nat) :
    ((Connection.accepted adapter listenfd fd ip port close serial).init uid).Whole uid :=
  ⟨rfl, Buffer.wellFormed_default, rfl, by
    simp only [Connection.init, Connection.accepted]
    omega⟩

/-- Every step but an accept deletes what `Deletes` says, or faults with free uids
left alone. -/
theorem netStep_effect (h : n.Sound) (maxIOVcount : Nat) {action : NetAction}
    (hnot : ∀ listenfd result, action ≠ .accept listenfd result) :
    (∃ next added, netStep maxIOVcount n action = .ok next ∧
        Effect n next (Deletes n action) added) ∨
      ∃ fault, netStep maxIOVcount n action = .error fault ∧ fault ≠ .emptyList := by
  cases action with
  | accept listenfd result => exact absurd rfl (hnot listenfd result)
  | net ev =>
      by_cases hlive : n.Live ev.uid
      · rcases processNet_live h hlive maxIOVcount with
          ⟨next, hnext, heffect⟩ | ⟨fault, hfail, hfault⟩
        · exact Or.inl ⟨next, nowhere, hnext, heffect⟩
        · exact Or.inr ⟨fault, hfail, hfault.notEmpty⟩
      · rcases processNet_not_live h hlive maxIOVcount with hfail | ⟨next, hnext, heffect⟩
        · exact Or.inr ⟨_, hfail, by decide⟩
        · refine Or.inl ⟨next, _, hnext, heffect.free, heffect.freeSize, ?_,
            heffect.null, heffect.sound⟩
          intro uid
          rw [heffect.live]
          constructor
          · rintro ⟨huid, _⟩
            exact ⟨huid, fun hgone => hlive (hgone.1 ▸ huid)⟩
          · rintro ⟨huid, _⟩
            exact ⟨huid, id⟩
  | pipe results =>
      have hsound : Sound { n with sendBuffer := [] } := h
      rcases commandLoop_effect maxIOVcount n.sendBuffer results hsound with
        ⟨next, added, hnext, heffect⟩ | hfail
      · exact Or.inl ⟨next, added, hnext, heffect.free, heffect.freeSize, heffect.live,
          heffect.null, heffect.sound⟩
      · exact Or.inr ⟨_, hfail, by decide⟩
  | respond uid msg ip port =>
      exact Or.inl ⟨_, nowhere, rfl, effect_respond h uid msg ip port⟩
  | close uid => exact Or.inl ⟨_, nowhere, rfl, Effect.of_table_eq h rfl rfl rfl⟩

end Step

end NetThread

end Tarsx
