/-
What the functions of `NetThread` do to its queues: whatever they tell an adapter, about a
closed connection or with the requests that `recv` returned, goes behind its queue.
-/
import Tarsx.Foundation.Run
import Tarsx.NetThread

namespace Tarsx

open Foundation

/-- `recv` returns requests of its connection. -/
theorem Connection.recv_requests {c c' : Connection} {reads : List ReadResult} {ret : Int}
    {deque : List TagRecvData} (hrecv : c.recv reads = .ok (c', (ret, deque))) :
    c'.bindAdapter = c.bindAdapter ∧ ∀ recv ∈ deque, recv.uid = c.uid ∧
      recv.closed = false ∧ recv.adapter = some c.bindAdapter := by
  rw [Connection.recv] at hrecv
  obtain ⟨⟨gone, buffer⟩, _, hrecv⟩ := ok_of_bind_ok hrecv
  dsimp only at hrecv
  split at hrecv
  · simp only [Except.ok.injEq, Prod.mk.injEq] at hrecv
    obtain ⟨rfl, rfl, rfl⟩ := hrecv
    exact ⟨rfl, by simp⟩
  · split at hrecv
    · obtain ⟨⟨reqs, rest⟩, _, hrecv⟩ := ok_of_bind_ok hrecv
      simp only [Except.ok.injEq, Prod.mk.injEq] at hrecv
      obtain ⟨rfl, rfl, rfl⟩ := hrecv
      refine ⟨rfl, ?_⟩
      intro recv hmem
      obtain ⟨req, _, rfl⟩ := List.mem_map.mp hmem
      exact ⟨rfl, rfl, rfl⟩
    · simp only [Except.ok.injEq, Prod.mk.injEq] at hrecv
      obtain ⟨rfl, rfl, rfl⟩ := hrecv
      exact ⟨rfl, by simp⟩

namespace NetThread

/-- The requests of a queue, without what tells of a closed connection. -/
def requests (queue : List TagRecvData) : List TagRecvData := queue.filter fun msg => !msg.closed

theorem requests_append (queue more : List TagRecvData) :
    requests (queue ++ more) = requests queue ++ requests more := List.filter_append queue more

theorem requests_eq_self {queue : List TagRecvData}
    (hopen : ∀ recv ∈ queue, recv.closed = false) : requests queue = queue :=
  List.filter_eq_self.mpr fun recv hmem => by rw [hopen recv hmem]; rfl

/-- Messages were put behind the queues of the adapters, these requests among them. -/
def Behind (n next : NetThread) (reqs : Nat → List TagRecvData) : Prop :=
  ∀ adapter, ∃ news, next.receiveBuffers adapter = n.receiveBuffers adapter ++ news ∧
    requests news = reqs adapter

/-- Messages were put behind the queues, these requests among them, and no command was
queued. -/
structure Told (n next : NetThread) (reqs : Nat → List TagRecvData) : Prop where
  commands : next.sendBuffer = n.sendBuffer
  queues : Behind n next reqs

/-- No request was put behind a queue. -/
def noRequests (_ : Nat) : List TagRecvData := []

section Queues

variable {n middle next : NetThread} {reqs reqs' : Nat → List TagRecvData}

theorem Told.of_eq (hcommands : next.sendBuffer = n.sendBuffer)
    (hqueues : next.receiveBuffers = n.receiveBuffers) : Told n next noRequests :=
  ⟨hcommands, fun adapter => ⟨[], by rw [hqueues, List.append_nil], rfl⟩⟩

theorem Told.refl (n : NetThread) : Told n n noRequests := Told.of_eq rfl rfl

theorem Told.trans (h : Told n middle reqs) (h' : Told middle next reqs') :
    Told n next fun adapter => reqs adapter ++ reqs' adapter := by
  refine ⟨h'.commands.trans h.commands, fun adapter => ?_⟩
  obtain ⟨news, hqueue, hreqs⟩ := h.queues adapter
  obtain ⟨news', hqueue', hreqs'⟩ := h'.queues adapter
  refine ⟨news ++ news', by rw [hqueue', hqueue, List.append_assoc], ?_⟩
  rw [requests_append, hreqs, hreqs']

theorem Told.after (h : Told n middle noRequests) (h' : Told middle next reqs) :
    Told n next reqs := h.trans h'

theorem Told.before (h : Told n middle reqs) (h' : Told middle next noRequests) :
    Told n next reqs := by
  have hboth := h.trans h'
  simpa only [noRequests, List.append_nil] using hboth

/-- `insertRecvDeque` with `pushback`. -/
theorem told_insertRecvDeque (n : NetThread) (own : Nat) (deque : List TagRecvData) :
    Told n (n.insertRecvDeque own deque true)
      fun adapter => if adapter = own then requests deque else [] := by
  refine ⟨rfl, fun adapter => ?_⟩
  by_cases hself : adapter = own
  · subst hself
    exact ⟨deque, by simp [insertRecvDeque], by rw [if_pos rfl]⟩
  · refine ⟨[], ?_, by rw [if_neg hself]; rfl⟩
    simp [insertRecvDeque, Function.update_of_ne hself]

theorem lookup_keeps (n : NetThread) (uid : Nat) :
    (n.lookup uid).2.sendBuffer = n.sendBuffer ∧
      (n.lookup uid).2.receiveBuffers = n.receiveBuffers := by
  rw [lookup]
  split
  · exact ⟨rfl, rfl⟩
  · exact ⟨rfl, rfl⟩

theorem told_lookup (n : NetThread) (uid : Nat) : Told n (n.lookup uid).2 noRequests :=
  Told.of_eq (lookup_keeps n uid).1 (lookup_keeps n uid).2

/-- The adapter of a deleted connection is told, with no request. -/
theorem told_delConnection {connection : Option Connection} {closeType : CloseType}
    (hstep : n.delConnection connection closeType = .ok next) : Told n next noRequests := by
  cases connection with
  | none => contradiction
  | some c =>
      rw [delConnection] at hstep
      split at hstep
      · rw [Except.ok.injEq] at hstep
        subst hstep
        refine ⟨rfl, fun adapter => ?_⟩
        obtain ⟨news, hqueue, hreqs⟩ := (told_insertRecvDeque n c.bindAdapter
          [{ uid := c.uid, buffer := [], ip := c.ip, port := c.port, recvTimestamp := 0,
             overload := false, closed := true, fd := c.fd, adapter := none,
             closeType := closeType }]).queues adapter
        refine ⟨news, hqueue, hreqs.trans ?_⟩
        dsimp only
        split
        · rfl
        · rfl
      · rw [Except.ok.injEq] at hstep
        exact hstep ▸ Told.refl n

theorem netOutput_keeps {maxIOVcount : Nat} {ev : NetEvent} {connection : Option Connection}
    (hstep : n.netOutput maxIOVcount ev connection = .ok next) :
    next.sendBuffer = n.sendBuffer ∧ next.receiveBuffers = n.receiveBuffers := by
  rw [netOutput.eq_def] at hstep
  split at hstep
  · cases connection with
    | none => contradiction
    | some c =>
        obtain ⟨⟨c', out⟩, _, hstep⟩ := ok_of_bind_ok hstep
        dsimp only at hstep
        split at hstep
        · rw [Except.ok.injEq] at hstep
          exact hstep ▸ ⟨rfl, rfl⟩
        · rw [Except.ok.injEq] at hstep
          exact hstep ▸ ⟨rfl, rfl⟩
  · rw [Except.ok.injEq] at hstep
    exact hstep ▸ ⟨rfl, rfl⟩

theorem told_sendCommand {maxIOVcount : Nat} {msg : TagSendData} {result : WriteResult}
    (hstep : n.sendCommand maxIOVcount msg result = .ok next) : Told n next noRequests := by
  have hlookup := told_lookup n msg.uid
  rw [sendCommand] at hstep
  rcases hfound : n.lookup msg.uid with ⟨connection, looked⟩
  rw [hfound] at hstep hlookup
  cases connection with
  | none => contradiction
  | some c =>
      obtain ⟨⟨c', out⟩, _, hstep⟩ := ok_of_bind_ok hstep
      simp only [Except.ok.injEq] at hstep
      exact hstep ▸ hlookup.after (Told.of_eq rfl rfl)

theorem told_closeCommand {msg : TagSendData} (hstep : n.closeCommand msg = .ok next) :
    Told n next noRequests := by
  have hlookup := told_lookup n msg.uid
  rw [closeCommand] at hstep
  rcases hfound : n.lookup msg.uid with ⟨connection, looked⟩
  rw [hfound] at hstep hlookup
  cases connection with
  | none =>
      simp only [Except.ok.injEq] at hstep
      exact hstep ▸ hlookup
  | some c =>
      have hstored : Told n (looked.store msg.uid c.setClose.1) noRequests :=
        hlookup.after (Told.of_eq rfl rfl)
      dsimp only at hstep
      split at hstep
      · exact hstored.after (told_delConnection hstep)
      · rw [Except.ok.injEq] at hstep
        exact hstep ▸ hstored

theorem told_commandLoop {maxIOVcount : Nat} (msgs : List TagSendData) :
    ∀ {n : NetThread} {results : List WriteResult},
      commandLoop maxIOVcount n msgs results = .ok next → Told n next noRequests := by
  induction msgs with
  | nil =>
      intro n results hstep
      rw [commandLoop, Except.ok.injEq] at hstep
      exact hstep ▸ Told.refl n
  | cons msg rest ih =>
      intro n results hstep
      rw [commandLoop] at hstep
      split at hstep
      · obtain ⟨middle, hsend, hstep⟩ := ok_of_bind_ok hstep
        exact (told_sendCommand hsend).after (ih hstep)
      · obtain ⟨middle, hclose, hstep⟩ := ok_of_bind_ok hstep
        exact (told_closeCommand hclose).after (ih hstep)

/-- An accepted connection gets a free uid, and no queue changes. -/
theorem accept_keeps {listenfd : Nat} {result : AcceptResult} {more : Bool}
    (hstep : n.accept listenfd result = .ok (next, more)) :
    next.sendBuffer = n.sendBuffer ∧ next.receiveBuffers = n.receiveBuffers ∧
      ∀ fd ip port close, result = .accepted fd ip port close → n.free ≠ [] := by
  cases result with
  | again =>
      simp only [accept, Except.ok.injEq, Prod.mk.injEq] at hstep
      exact hstep.1 ▸ ⟨rfl, rfl, by simp⟩
  | failed =>
      simp only [accept, Except.ok.injEq, Prod.mk.injEq] at hstep
      exact hstep.1 ▸ ⟨rfl, rfl, by simp⟩
  | accepted fd ip port close =>
      obtain ⟨added, hadd, hstep⟩ := ok_of_bind_ok hstep
      simp only [Except.ok.injEq, Prod.mk.injEq] at hstep
      obtain ⟨rfl, _⟩ := hstep
      rw [addTConnection] at hadd
      split at hadd
      · contradiction
      · rename_i uid rest hfree
        rw [Except.ok.injEq] at hadd
        exact hadd ▸ ⟨rfl, rfl, fun _ _ _ _ _ hnil => by rw [hfree] at hnil; contradiction⟩

/-- The requests that `processNet` receives from the connection of an event. -/
def arriving (n : NetThread) (ev : NetEvent) : List TagRecvData :=
  if ev.epollerr ∨ ev.epollhup ∨ ¬ ev.epollin then []
  else
    match n.connectionOf ev.uid with
    | none => []
    | some c =>
        match c.recv ev.reads with
        | .ok (_, (_, deque)) => deque
        | .error _ => []

theorem lookup_fst (n : NetThread) (uid : Nat) : (n.lookup uid).1 = n.connectionOf uid := by
  rw [lookup, connectionOf]
  cases n.connectionUids uid <;> rfl

/-- A readable event receives what `recv` returns. -/
theorem arriving_of_recv {ev : NetEvent} {c c' : Connection} {ret : Int}
    {deque : List TagRecvData} (herr : ¬ (ev.epollerr ∨ ev.epollhup)) (hin : ev.epollin = true)
    (hc : n.connectionOf ev.uid = some c) (hrecv : c.recv ev.reads = .ok (c', (ret, deque))) :
    n.arriving ev = deque := by
  rw [not_or] at herr
  simp only [arriving, herr.1, herr.2, hin, hc, hrecv, not_true_eq_false, or_self, if_false,
    Bool.false_eq_true]

/-- The `EPOLLIN` part puts the requests behind the queue, behind the news of the close where
the connection is deleted as well. -/
theorem netInput_queues {ev : NetEvent} {c : Connection} {out : Option Connection}
    (hin : ev.epollin = true) (hstep : n.netInput ev (some c) = .ok (next, out)) :
    ∃ c' ret deque, c.recv ev.reads = .ok (c', (ret, deque)) ∧
      Told n next fun adapter => if adapter = c.bindAdapter then deque else [] := by
  rw [netInput.eq_def, if_pos hin] at hstep
  obtain ⟨⟨c', ret, deque⟩, hrecv, hstep⟩ := ok_of_bind_ok hstep
  obtain ⟨hadapter, hreqs⟩ := Connection.recv_requests hrecv
  refine ⟨c', ret, deque, hrecv, ?_⟩
  have hstored : Told n (n.store ev.uid c') noRequests := Told.of_eq rfl rfl
  dsimp only at hstep
  have hdeleted : ∃ middle, Told n middle noRequests ∧
      next = if deque = [] then middle
        else middle.insertRecvDeque c'.bindAdapter deque true := by
    split at hstep
    · obtain ⟨middle, hdelete, hstep⟩ := ok_of_bind_ok hstep
      simp only [Except.ok.injEq, Prod.mk.injEq] at hstep
      exact ⟨middle, hstored.after (told_delConnection hdelete), hstep.1.symm⟩
    · obtain ⟨middle, hmiddle, hstep⟩ := ok_of_bind_ok hstep
      simp only [Except.ok.injEq, Prod.mk.injEq] at hmiddle hstep
      exact ⟨middle, hmiddle ▸ hstored, hstep.1.symm⟩
  obtain ⟨middle, hdeleted, rfl⟩ := hdeleted
  by_cases hempty : deque = []
  · subst hempty
    rw [if_pos rfl]
    simp only [ite_self]
    exact hdeleted
  · have hinserted := told_insertRecvDeque middle c'.bindAdapter deque
    rw [requests_eq_self fun recv hmem => (hreqs recv hmem).2.1, hadapter] at hinserted
    rw [if_neg hempty, hadapter]
    exact hdeleted.after hinserted

/-- An event puts the requests it brings behind the queue of one adapter. -/
theorem processNet_queues {maxIOVcount : Nat} {ev : NetEvent}
    (hstep : n.processNet maxIOVcount ev = .ok next) :
    (n.arriving ev = [] ∧ Told n next noRequests) ∨
      ∃ c, n.connectionUids ev.uid = some (some c) ∧
        (Told n next fun adapter => if adapter = c.bindAdapter then n.arriving ev else []) ∧
        ∀ recv ∈ n.arriving ev, recv.uid = c.uid ∧ recv.closed = false ∧
          recv.adapter = some c.bindAdapter := by
  have hlookup := told_lookup n ev.uid
  have hentry := lookup_fst n ev.uid
  rw [processNet] at hstep
  rcases hfound : n.lookup ev.uid with ⟨connection, looked⟩
  rw [hfound] at hstep hlookup hentry
  dsimp only at hstep hentry
  split at hstep
  · rename_i herr
    have hnone : n.arriving ev = [] := by
      rw [arriving, if_pos (herr.elim Or.inl fun hhup => Or.inr (Or.inl hhup))]
    exact Or.inl ⟨hnone, hlookup.after (told_delConnection hstep)⟩
  · rename_i herr
    obtain ⟨⟨middle, connection'⟩, hinput, houtput⟩ := ok_of_bind_ok hstep
    obtain ⟨hsent, hkept⟩ := netOutput_keeps houtput
    have hwritten : Told middle next noRequests := Told.of_eq hsent hkept
    by_cases hin : ev.epollin = true
    · cases connection with
      | none =>
          rw [netInput.eq_def, if_pos hin] at hinput
          contradiction
      | some c =>
          obtain ⟨c', ret, deque, hrecv, htold⟩ := netInput_queues hin hinput
          rw [arriving_of_recv herr hin hentry.symm hrecv]
          rw [connectionOf] at hentry
          exact Or.inr ⟨c, Option.join_eq_some_iff.mp hentry.symm,
            (hlookup.after htold).before hwritten, (Connection.recv_requests hrecv).2⟩
    · have hnone : n.arriving ev = [] := by
        rw [arriving, if_pos (Or.inr (Or.inr hin))]
      rw [netInput.eq_def, if_neg hin, Except.ok.injEq, Prod.mk.injEq] at hinput
      rw [← hinput.1] at hwritten
      exact Or.inl ⟨hnone, hlookup.after hwritten⟩

end Queues

end NetThread

end Tarsx
