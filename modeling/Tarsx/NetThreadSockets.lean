/-
The sockets of a net thread: an accept adds one connection, and every other step leaves the
connections of the table where they are, with their descriptors, uids and numbers.  What is
written goes to the connection that the table has under the uid of the command.
-/
import Mathlib.Data.List.Forall2
import Tarsx.NetThreadQueues

namespace Tarsx

open Foundation

namespace Connection

/-- What is changed through its pointer keeps its descriptor, its uid and its number. -/
structure Same (c c' : Connection) : Prop where
  fd : c'.fd = c.fd
  uid : c'.uid = c.uid
  serial : c'.serial = c.serial

theorem Same.trans {c middle c' : Connection} (h : Same c middle) (h' : Same middle c') :
    Same c c' :=
  ⟨h'.fd.trans h.fd, h'.uid.trans h.uid, h'.serial.trans h.serial⟩

theorem Same.refl (c : Connection) : Same c c := ⟨rfl, rfl, rfl⟩

section

variable {c c' : Connection} {maxIOVcount : Nat} {results : List WriteResult}

theorem recv_socket {reads : List ReadResult} {ret : Int} {deque : List TagRecvData}
    (hrecv : c.recv reads = .ok (c', (ret, deque))) :
    Same c c' ∧ c'.listenfd = c.listenfd := by
  rw [recv] at hrecv
  obtain ⟨⟨gone, buffer⟩, _, hrecv⟩ := ok_of_bind_ok hrecv
  dsimp only at hrecv
  split at hrecv
  · cases hrecv
    exact ⟨⟨rfl, rfl, rfl⟩, rfl⟩
  split at hrecv
  · obtain ⟨⟨reqs, rest⟩, _, hrecv⟩ := ok_of_bind_ok hrecv
    cases hrecv
    exact ⟨⟨rfl, rfl, rfl⟩, rfl⟩
  · cases hrecv
    exact ⟨⟨rfl, rfl, rfl⟩, rfl⟩

theorem sendEnd_socket {status : Int} (hend : c.sendEnd = .ok (c', status)) :
    Same c c' := by
  rw [sendEnd] at hend
  split at hend
  · obtain ⟨cleared, _, hend⟩ := ok_of_bind_ok hend
    cases hend
    exact ⟨rfl, rfl, rfl⟩
  split at hend
  · cases hend
    exact ⟨rfl, rfl, rfl⟩
  · cases hend
    exact ⟨rfl, rfl, rfl⟩

theorem send_socket {buffer : List UInt8} {byEpollout : Bool} {out : Int × List UInt8}
    (hsend : c.send maxIOVcount buffer byEpollout results = .ok (c', out)) :
    Same c c' := by
  rw [send] at hsend
  split at hsend
  · obtain ⟨⟨bytes, taken⟩, _, hsend⟩ := ok_of_bind_ok hsend
    dsimp only at hsend
    split at hsend
    · cases hsend
      exact ⟨rfl, rfl, rfl⟩
    · obtain ⟨rest, _, hsend⟩ := ok_of_bind_ok hsend
      obtain ⟨⟨last, status⟩, hend, hsend⟩ := ok_of_bind_ok hsend
      have hsame := sendEnd_socket hend
      cases hsend
      exact ⟨hsame.fd, hsame.uid, hsame.serial⟩
  · dsimp only at hsend
    split at hsend
    · cases hsend
      exact ⟨rfl, rfl, rfl⟩
    · obtain ⟨⟨last, status⟩, hend, hsend⟩ := ok_of_bind_ok hsend
      cases hsend
      exact sendEnd_socket hend

theorem sendPending_socket {out : Int × List UInt8}
    (hsend : c.sendPending maxIOVcount results = .ok (c', out)) :
    Same c c' := by
  rw [sendPending] at hsend
  split at hsend
  · cases hsend
    exact ⟨rfl, rfl, rfl⟩
  · exact send_socket hsend

end

end Connection

namespace NetThread

/-! ## The sockets of a net thread -/

/-- No connection was added or moved, and none changed its descriptor. -/
def SameSockets (n next : NetThread) : Prop :=
  ∀ uid c', next.connectionUids uid = some (some c') →
    ∃ c, n.connectionUids uid = some (some c) ∧ c.Same c'

section

variable {n middle next : NetThread}

theorem SameSockets.of_eq (htable : next.connectionUids = n.connectionUids) :
    SameSockets n next :=
  fun _ c' hentry => ⟨c', htable ▸ hentry, .refl c'⟩

theorem SameSockets.trans (h : SameSockets n middle) (h' : SameSockets middle next) :
    SameSockets n next := by
  intro uid c' hentry
  obtain ⟨c, hmiddle, hlater⟩ := h' uid c' hentry
  obtain ⟨first, hfirst, hsame⟩ := h uid c hmiddle
  exact ⟨first, hfirst, hsame.trans hlater⟩

/-- An entry that is erased or made a null pointer. -/
theorem SameSockets.of_update {uid : Nat} {entry : Option (Option Connection)}
    (htable : next.connectionUids = Function.update n.connectionUids uid entry)
    (hnone : entry.join = none) : SameSockets n next := by
  intro other c' hentry
  rw [htable] at hentry
  by_cases hother : other = uid
  · subst hother
    rw [Function.update_self] at hentry
    rw [hentry] at hnone
    cases hnone
  · rw [Function.update_of_ne hother] at hentry
    exact ⟨c', hentry, .refl c'⟩

/-- A connection that is changed through its pointer. -/
theorem sameSockets_store {uid : Nat} {c c' : Connection}
    (hentry : n.connectionUids uid = some (some c)) (hsame : c.Same c') :
    SameSockets n (n.store uid c') := by
  intro other d hd
  dsimp only [store] at hd
  by_cases hother : other = uid
  · subst hother
    rw [Function.update_self, Option.some.injEq, Option.some.injEq] at hd
    subst hd
    exact ⟨c, hentry, hsame⟩
  · rw [Function.update_of_ne hother] at hd
    exact ⟨d, hd, .refl d⟩

theorem sameSockets_lookup (n : NetThread) (uid : Nat) : SameSockets n (n.lookup uid).2 := by
  rw [lookup]
  split
  · exact SameSockets.of_eq rfl
  · exact SameSockets.of_update rfl rfl

theorem sameSockets_delConnection {connection : Option Connection} {closeType : CloseType}
    (hstep : n.delConnection connection closeType = .ok next) : SameSockets n next := by
  cases connection with
  | none => contradiction
  | some c =>
      rw [delConnection] at hstep
      split at hstep
      · rw [Except.ok.injEq] at hstep
        exact hstep ▸ SameSockets.of_update rfl rfl
      · rw [Except.ok.injEq] at hstep
        exact hstep ▸ SameSockets.of_eq rfl

theorem delConnection_entry {c : Connection} {closeType : CloseType}
    (hstep : n.delConnection (some c) closeType = .ok next) :
    next.connectionUids c.uid = none ∨ (c.listenfd = -1 ∧ next = n) := by
  rw [delConnection] at hstep
  split at hstep
  · cases hstep
    exact .inl (Function.update_self _ _ _)
  · rename_i hlisten
    cases hstep
    exact .inr ⟨by simpa using hlisten, rfl⟩

/-- The `EPOLLIN` part leaves the connection it goes on with in its place, or no entry. -/
theorem sameSockets_netInput {ev : NetEvent} {c : Connection} {out : Option Connection}
    (hentry : n.connectionUids ev.uid = some (some c)) (huid : c.uid = ev.uid)
    (hstep : n.netInput ev (some c) = .ok (next, out)) :
    SameSockets n next ∧ ∃ c', out = some c' ∧
      (next.connectionUids ev.uid = none ∨ next.connectionUids ev.uid = some (some c')) := by
  rw [netInput.eq_def] at hstep
  split at hstep
  · obtain ⟨⟨c', ret, deque⟩, hrecv, hstep⟩ := ok_of_bind_ok hstep
    obtain ⟨hsame, hlisten⟩ := Connection.recv_socket hrecv
    have hstored := sameSockets_store hentry hsame
    dsimp only at hstep
    split at hstep
    · rename_i hneg
      obtain ⟨middle, hdelete, hstep⟩ := ok_of_bind_ok hstep
      have hdeleted := sameSockets_delConnection hdelete
      have hleft := delConnection_entry hdelete
      simp only [Except.ok.injEq, Prod.mk.injEq] at hstep
      obtain ⟨rfl, rfl⟩ := hstep
      have htable : (if deque = [] then middle
          else middle.insertRecvDeque c'.bindAdapter deque true).connectionUids =
          middle.connectionUids := by
        split <;> rfl
      refine ⟨(hstored.trans hdeleted).trans (SameSockets.of_eq htable), _, rfl, ?_⟩
      rw [htable]
      rcases hleft with hnone | ⟨hlisten, rfl⟩
      · exact .inl (by rw [← huid, ← hsame.uid, hnone])
      · have hopen : c'.closeSocket = c' := by
          rw [Connection.closeSocket, if_neg (by simpa using hlisten)]
        rw [hopen]
        exact .inr (Function.update_self _ _ _)
    · rename_i hneg
      obtain ⟨middle, hmiddle, hstep⟩ := ok_of_bind_ok hstep
      cases hmiddle
      simp only [Except.ok.injEq, Prod.mk.injEq] at hstep
      obtain ⟨rfl, rfl⟩ := hstep
      have htable : (if deque = [] then n.store ev.uid c'
          else (n.store ev.uid c').insertRecvDeque c'.bindAdapter deque true).connectionUids =
          (n.store ev.uid c').connectionUids := by
        split <;> rfl
      refine ⟨hstored.trans (SameSockets.of_eq htable), c', rfl, .inr ?_⟩
      rw [htable]
      exact Function.update_self _ _ _
  · cases hstep
    exact ⟨SameSockets.of_eq rfl, c, rfl, .inr hentry⟩

theorem sameSockets_netOutput {maxIOVcount : Nat} {ev : NetEvent} {c : Connection}
    (hentry : n.connectionUids ev.uid = none ∨ n.connectionUids ev.uid = some (some c))
    (hstep : n.netOutput maxIOVcount ev (some c) = .ok next) : SameSockets n next := by
  rw [netOutput.eq_def] at hstep
  split at hstep
  · obtain ⟨⟨c', out⟩, hsend, hstep⟩ := ok_of_bind_ok hstep
    have hsame := Connection.sendPending_socket hsend
    dsimp only at hstep
    rcases hentry with hnone | hsome
    · rw [if_pos hnone] at hstep
      cases hstep
      exact SameSockets.of_eq rfl
    · rw [if_neg (by rw [hsome]; simp)] at hstep
      cases hstep
      exact sameSockets_store hsome hsame
  · cases hstep
    exact SameSockets.of_eq rfl

/-- Every connection of the table has the uid it is under. -/
def OwnUids (n : NetThread) : Prop :=
  ∀ uid c, n.connectionUids uid = some (some c) → c.uid = uid

theorem OwnUids.of_sameSockets (h : n.OwnUids) (hsame : SameSockets n next) : next.OwnUids := by
  intro uid c' hentry
  obtain ⟨c, hold, hkept⟩ := hsame uid c' hentry
  rw [hkept.uid]
  exact h uid c hold

theorem lookup_some {uid : Nat} {c : Connection} (hfound : n.lookup uid = (some c, next)) :
    next = n ∧ n.connectionUids uid = some (some c) := by
  rw [lookup] at hfound
  split at hfound
  · rename_i connection hentry
    cases hfound
    exact ⟨rfl, hentry⟩
  · cases hfound

theorem sameSockets_processNet (h : n.OwnUids) {maxIOVcount : Nat} {ev : NetEvent}
    (hstep : n.processNet maxIOVcount ev = .ok next) : SameSockets n next := by
  have hlookup := sameSockets_lookup n ev.uid
  rw [processNet] at hstep
  rcases hfound : n.lookup ev.uid with ⟨connection, looked⟩
  rw [hfound] at hstep hlookup
  dsimp only at hstep
  split at hstep
  · exact hlookup.trans (sameSockets_delConnection hstep)
  · obtain ⟨⟨middle, connection'⟩, hinput, houtput⟩ := ok_of_bind_ok hstep
    cases connection with
    | none =>
        rw [netInput.eq_def] at hinput
        split at hinput
        · cases hinput
        · cases hinput
          rw [netOutput.eq_def] at houtput
          split at houtput
          · cases houtput
          · cases houtput
            exact hlookup
    | some c =>
        obtain ⟨rfl, hentry⟩ := lookup_some hfound
        obtain ⟨hsame, c', rfl, hleft⟩ := sameSockets_netInput hentry (h ev.uid c hentry) hinput
        exact hsame.trans (sameSockets_netOutput hleft houtput)

theorem sameSockets_sendCommand {maxIOVcount : Nat} {msg : TagSendData} {result : WriteResult}
    (hstep : n.sendCommand maxIOVcount msg result = .ok next) : SameSockets n next := by
  rw [sendCommand] at hstep
  rcases hfound : n.lookup msg.uid with ⟨connection, looked⟩
  rw [hfound] at hstep
  cases connection with
  | none => contradiction
  | some c =>
      obtain ⟨rfl, hentry⟩ := lookup_some hfound
      obtain ⟨⟨c', out⟩, hsend, hstep⟩ := ok_of_bind_ok hstep
      have hsame := Connection.send_socket hsend
      cases hstep
      exact sameSockets_store hentry hsame

theorem sameSockets_closeCommand {msg : TagSendData}
    (hstep : n.closeCommand msg = .ok next) : SameSockets n next := by
  have hlookup := sameSockets_lookup n msg.uid
  rw [closeCommand] at hstep
  rcases hfound : n.lookup msg.uid with ⟨connection, looked⟩
  rw [hfound] at hstep hlookup
  cases connection with
  | none =>
      cases hstep
      exact hlookup
  | some c =>
      obtain ⟨rfl, hentry⟩ := lookup_some hfound
      have hstored : SameSockets looked (looked.store msg.uid c.setClose.1) :=
        sameSockets_store hentry ⟨rfl, rfl, rfl⟩
      dsimp only at hstep
      split at hstep
      · exact hstored.trans (sameSockets_delConnection hstep)
      · cases hstep
        exact hstored

theorem sameSockets_commandLoop {maxIOVcount : Nat} (msgs : List TagSendData) :
    ∀ {n : NetThread} {results : List WriteResult},
      commandLoop maxIOVcount n msgs results = .ok next → SameSockets n next := by
  induction msgs with
  | nil =>
      intro n results hstep
      cases hstep
      exact SameSockets.of_eq rfl
  | cons msg rest ih =>
      intro n results hstep
      rw [commandLoop] at hstep
      split at hstep
      · obtain ⟨middle, hsend, hstep⟩ := ok_of_bind_ok hstep
        exact (sameSockets_sendCommand hsend).trans (ih hstep)
      · obtain ⟨middle, hclose, hstep⟩ := ok_of_bind_ok hstep
        exact (sameSockets_closeCommand hclose).trans (ih hstep)

theorem sameSockets_respond (n : NetThread) (uid : Nat) (msg : List UInt8) (ip : String)
    (port : Nat) : SameSockets n (n.recvNeedToSendFromServer uid msg ip port) := by
  rw [recvNeedToSendFromServer]
  split
  · exact SameSockets.of_eq rfl
  · exact SameSockets.of_eq rfl

theorem sameSockets_processPipe {maxIOVcount : Nat} {results : List WriteResult}
    (hstep : n.processPipe maxIOVcount results = .ok next) : SameSockets n next := by
  have htaken : SameSockets n { n with sendBuffer := [] } := SameSockets.of_eq rfl
  exact htaken.trans (sameSockets_commandLoop _ hstep)

end

/-! ### What is written -/

/-- No connection was made and nothing was written. -/
structure Silent (n next : NetThread) : Prop where
  accepted : next.accepted = n.accepted
  written : next.written = n.written

/-- The response of a command was written to the connection under its uid. -/
def Writes (n : NetThread) (msg : TagSendData) (write : Written) : Prop :=
  write.msg = msg ∧ ∃ c, n.connectionUids msg.uid = some (some c) ∧ write.connection = c.serial

section

variable {n middle next : NetThread}

theorem Silent.trans (h : Silent n middle) (h' : Silent middle next) : Silent n next :=
  ⟨h'.accepted.trans h.accepted, h'.written.trans h.written⟩

theorem silent_lookup (n : NetThread) (uid : Nat) : Silent n (n.lookup uid).2 := by
  rw [lookup]
  split
  · exact ⟨rfl, rfl⟩
  · exact ⟨rfl, rfl⟩

theorem silent_delConnection {connection : Option Connection} {closeType : CloseType}
    (hstep : n.delConnection connection closeType = .ok next) : Silent n next := by
  cases connection with
  | none => contradiction
  | some c =>
      rw [delConnection] at hstep
      split at hstep
      · cases hstep
        exact ⟨rfl, rfl⟩
      · cases hstep
        exact ⟨rfl, rfl⟩

theorem silent_insert (n : NetThread) (adapter : Nat) (deque : List TagRecvData) :
    Silent n (if deque = [] then n else n.insertRecvDeque adapter deque true) := by
  split
  · exact ⟨rfl, rfl⟩
  · exact ⟨rfl, rfl⟩

theorem silent_netInput {ev : NetEvent} {connection out : Option Connection}
    (hstep : n.netInput ev connection = .ok (next, out)) : Silent n next := by
  rw [netInput.eq_def] at hstep
  split at hstep
  · cases connection with
    | none => contradiction
    | some c =>
        obtain ⟨⟨c', ret, deque⟩, _, hstep⟩ := ok_of_bind_ok hstep
        have hstored : Silent n (n.store ev.uid c') := ⟨rfl, rfl⟩
        dsimp only at hstep
        split at hstep
        · obtain ⟨middle, hdelete, hstep⟩ := ok_of_bind_ok hstep
          cases hstep
          exact (hstored.trans (silent_delConnection hdelete)).trans (silent_insert _ _ _)
        · obtain ⟨middle, hmiddle, hstep⟩ := ok_of_bind_ok hstep
          cases hmiddle
          cases hstep
          exact hstored.trans (silent_insert _ _ _)
  · cases hstep
    exact ⟨rfl, rfl⟩

theorem silent_netOutput {maxIOVcount : Nat} {ev : NetEvent} {connection : Option Connection}
    (hstep : n.netOutput maxIOVcount ev connection = .ok next) : Silent n next := by
  rw [netOutput.eq_def] at hstep
  split at hstep
  · cases connection with
    | none => contradiction
    | some c =>
        obtain ⟨⟨c', out⟩, _, hstep⟩ := ok_of_bind_ok hstep
        dsimp only at hstep
        split at hstep
        · cases hstep
          exact ⟨rfl, rfl⟩
        · cases hstep
          exact ⟨rfl, rfl⟩
  · cases hstep
    exact ⟨rfl, rfl⟩

theorem silent_processNet {maxIOVcount : Nat} {ev : NetEvent}
    (hstep : n.processNet maxIOVcount ev = .ok next) : Silent n next := by
  have hlookup := silent_lookup n ev.uid
  rw [processNet] at hstep
  rcases hfound : n.lookup ev.uid with ⟨connection, looked⟩
  rw [hfound] at hstep hlookup
  dsimp only at hstep
  split at hstep
  · exact hlookup.trans (silent_delConnection hstep)
  · obtain ⟨⟨middle, connection'⟩, hinput, houtput⟩ := ok_of_bind_ok hstep
    exact (hlookup.trans (silent_netInput hinput)).trans (silent_netOutput houtput)

theorem silent_closeCommand {msg : TagSendData}
    (hstep : n.closeCommand msg = .ok next) : Silent n next := by
  have hlookup := silent_lookup n msg.uid
  rw [closeCommand] at hstep
  rcases hfound : n.lookup msg.uid with ⟨connection, looked⟩
  rw [hfound] at hstep hlookup
  cases connection with
  | none =>
      cases hstep
      exact hlookup
  | some c =>
      have hstored : Silent n (looked.store msg.uid c.setClose.1) :=
        hlookup.trans ⟨rfl, rfl⟩
      dsimp only at hstep
      split at hstep
      · exact hstored.trans (silent_delConnection hstep)
      · cases hstep
        exact hstored

theorem sendCommand_writes {maxIOVcount : Nat} {msg : TagSendData} {result : WriteResult}
    (hstep : n.sendCommand maxIOVcount msg result = .ok next) :
    next.accepted = n.accepted ∧ ∃ write, next.written = n.written ++ [write] ∧
      n.Writes msg write := by
  rw [sendCommand] at hstep
  rcases hfound : n.lookup msg.uid with ⟨connection, looked⟩
  rw [hfound] at hstep
  cases connection with
  | none => contradiction
  | some c =>
      obtain ⟨rfl, hentry⟩ := lookup_some hfound
      obtain ⟨⟨c', out⟩, _, hstep⟩ := ok_of_bind_ok hstep
      cases hstep
      exact ⟨rfl, _, rfl, rfl, c, hentry, rfl⟩

/-- A connection that is still there was there before, with its number. -/
theorem Writes.of_sameSockets (hsame : SameSockets n middle) {msg : TagSendData} {write : Written}
    (hwrites : middle.Writes msg write) : n.Writes msg write := by
  obtain ⟨hmsg, c', hentry, hconnection⟩ := hwrites
  obtain ⟨c, hold, hkept⟩ := hsame msg.uid c' hentry
  exact ⟨hmsg, c, hold, hconnection.trans hkept.serial⟩

/-- Every send command of a batch is written, in order, to the connection under its uid. -/
theorem commandLoop_writes {maxIOVcount : Nat} (msgs : List TagSendData) :
    ∀ {n : NetThread} {results : List WriteResult},
      commandLoop maxIOVcount n msgs results = .ok next →
      next.accepted = n.accepted ∧ ∃ writes, next.written = n.written ++ writes ∧
        List.Forall₂ n.Writes (msgs.filter fun msg => msg.cmd = .send) writes := by
  induction msgs with
  | nil =>
      intro n results hstep
      cases hstep
      exact ⟨rfl, [], (List.append_nil _).symm, .nil⟩
  | cons msg rest ih =>
      intro n results hstep
      rw [commandLoop] at hstep
      split at hstep
      · rename_i hcmd
        obtain ⟨middle, hsend, hstep⟩ := ok_of_bind_ok hstep
        obtain ⟨haccepted, write, hwritten, hwrite⟩ := sendCommand_writes hsend
        obtain ⟨haccepted', writes, hwritten', hwrites⟩ := ih hstep
        refine ⟨haccepted'.trans haccepted, write :: writes, ?_, ?_⟩
        · rw [hwritten', hwritten, List.append_assoc]
          rfl
        · rw [List.filter_cons_of_pos (by simp [hcmd])]
          exact .cons hwrite (hwrites.imp fun _ _ hlater =>
            hlater.of_sameSockets (sameSockets_sendCommand hsend))
      · rename_i hcmd
        obtain ⟨middle, hclose, hstep⟩ := ok_of_bind_ok hstep
        have hsilent := silent_closeCommand hclose
        obtain ⟨haccepted, writes, hwritten, hwrites⟩ := ih hstep
        refine ⟨haccepted.trans hsilent.accepted, writes, ?_, ?_⟩
        · rw [hwritten, hsilent.written]
        · rw [List.filter_cons_of_neg (by simp [hcmd])]
          exact hwrites.imp fun _ _ hlater =>
            hlater.of_sameSockets (sameSockets_closeCommand hclose)

end

/-- An accept adds one connection, under the first free uid. -/
theorem netStep_accept {n next : NetThread} {maxIOVcount listenfd : Nat} {result : AcceptResult}
    (hstep : netStep maxIOVcount n (.accept listenfd result) = .ok next) :
    ((∀ fd ip port close, result ≠ .accepted fd ip port close) ∧ next = n) ∨
      ∃ fd ip port close uid rest c, result = .accepted fd ip port close ∧ n.free = uid :: rest ∧
        c.fd = (fd : Int) ∧ c.uid = uid ∧ c.serial = n.accepted ∧
        next.accepted = n.accepted + 1 ∧ next.written = n.written ∧
        next.connectionUids = Function.update n.connectionUids uid (some (some c)) := by
  obtain ⟨⟨n', more⟩, haccept, hdone⟩ := ok_of_bind_ok hstep
  cases hdone
  cases result with
  | again =>
      cases haccept
      exact .inl ⟨by simp, rfl⟩
  | failed =>
      cases haccept
      exact .inl ⟨by simp, rfl⟩
  | accepted fd ip port close =>
      obtain ⟨added, hadd, hdone⟩ := ok_of_bind_ok haccept
      cases hdone
      rw [addTConnection] at hadd
      split at hadd
      · cases hadd
      · rename_i uid rest hfree
        cases hadd
        exact .inr ⟨fd, ip, port, close, uid, rest, _, rfl, hfree, rfl, rfl, rfl, rfl, rfl, rfl⟩

end NetThread

end Tarsx
