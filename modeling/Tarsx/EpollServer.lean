/-
`EpollServer` with any number of net threads: which thread accepts a connection, and which
thread a response or a close of its descriptor is given to.
-/
import Tarsx.NetThreadSockets

namespace Tarsx

open Foundation

/-! ## The server -/

/-- The fields of `EpollServer` that say where a connection is; `netThreads_` has
`netThreadNum_` entries. -/
structure EpollServer where
  netThreadNum : Nat
  netThreads : Nat → NetThread

namespace EpollServer

/-- The constructor and `createEpoll` of every net thread; `freeSizes` is what their memory
held. -/
def created (netThreadNum : Nat) (freeSizes : Nat → Nat) (listeners : Nat → Nat → Nat) :
    EpollServer :=
  { netThreadNum := netThreadNum
    netThreads := fun i => NetThread.created (freeSizes i) (listeners i) }

/-- `getNetThreadByfd`: the index; the descriptor becomes a `size_t`. -/
def getNetThreadByfd (s : EpollServer) (fd : Int) : Nat := toWord fd % s.netThreadNum

/-- A step of one net thread. -/
def onThread (s : EpollServer) (i : Nat) (step : NetThread → Except Fault NetThread) :
    Except Fault EpollServer := do
  let n ← step (s.netThreads i)
  .ok { s with netThreads := Function.update s.netThreads i n }

/-- `send`. -/
def send (s : EpollServer) (uid : Nat) (msg : List UInt8) (ip : String) (port : Nat)
    (fd : Int) : Except Fault EpollServer :=
  s.onThread (s.getNetThreadByfd fd) fun n => .ok (n.recvNeedToSendFromServer uid msg ip port)

/-- `close`. -/
def close (s : EpollServer) (uid : Nat) (fd : Int) : Except Fault EpollServer :=
  s.onThread (s.getNetThreadByfd fd) fun n => .ok (n.closeUid uid)

/-- What happens to the server: a net thread accepts, handles an event or the queued
commands; a handler sends or closes. -/
inductive Action where
  | accept (i listenfd : Nat) (result : AcceptResult)
  | net (i : Nat) (ev : NetEvent)
  | pipe (i : Nat) (results : List WriteResult)
  | send (uid : Nat) (msg : List UInt8) (ip : String) (port : Nat) (fd : Int)
  | close (uid : Nat) (fd : Int)

/-- A step of a net thread that is not there leaves the server as it is. -/
def step (maxIOVcount : Nat) (s : EpollServer) : Action → Except Fault EpollServer
  | .accept i listenfd result =>
      if i < s.netThreadNum then
        s.onThread i fun n => NetThread.netStep maxIOVcount n (.accept listenfd result)
      else .ok s
  | .net i ev =>
      if i < s.netThreadNum then s.onThread i fun n => n.processNet maxIOVcount ev else .ok s
  | .pipe i results =>
      if i < s.netThreadNum then s.onThread i fun n => n.processPipe maxIOVcount results
      else .ok s
  | .send uid msg ip port fd => s.send uid msg ip port fd
  | .close uid fd => s.close uid fd

/-- The net thread that is selected for the descriptor of a connection is the one that has
it, under its uid. -/
def Routed (s : EpollServer) : Prop :=
  ∀ i < s.netThreadNum, ∀ uid c, (s.netThreads i).connectionOf uid = some c →
    s.getNetThreadByfd c.fd = i ∧
      (s.netThreads (s.getNetThreadByfd c.fd)).connectionOf c.uid = some c

/-- An accept by a net thread is by the one that the new descriptor selects, unless no uid
is free. -/
def AcceptsOwn (s : EpollServer) : Action → Prop
  | .accept i _ (.accepted fd _ _ _) =>
      i < s.netThreadNum → (s.netThreads i).free ≠ [] → s.getNetThreadByfd fd = i
  | _ => True

/-- Every net thread has only connections that select it, under their uids. -/
def Sorted (s : EpollServer) : Prop :=
  ∀ i < s.netThreadNum, (s.netThreads i).OwnUids ∧
    ∀ uid c, (s.netThreads i).connectionUids uid = some (some c) → s.getNetThreadByfd c.fd = i

theorem Sorted.routed {s : EpollServer} (h : s.Sorted) : s.Routed := by
  intro i hi uid c hentry
  have htable : (s.netThreads i).connectionUids uid = some (some c) :=
    Option.join_eq_some_iff.mp hentry
  obtain ⟨huids, hselects⟩ := h i hi
  have hselected := hselects uid c htable
  refine ⟨hselected, ?_⟩
  rw [hselected, huids uid c htable]
  exact hentry

theorem created_sorted (netThreadNum : Nat) (freeSizes : Nat → Nat)
    (listeners : Nat → Nat → Nat) : (created netThreadNum freeSizes listeners).Sorted := by
  intro i hi
  constructor
  · intro uid c hentry
    cases hentry
  · intro uid c hentry
    cases hentry

section

variable {s next : EpollServer}

/-- A net thread whose connections stay where they are. -/
theorem Sorted.onThread (h : s.Sorted) {i : Nat} {step : NetThread → Except Fault NetThread}
    (hstep : s.onThread i step = .ok next)
    (hsame : i < s.netThreadNum → ∀ n, step (s.netThreads i) = .ok n →
      n.OwnUids ∧ ∀ uid c, n.connectionUids uid = some (some c) → s.getNetThreadByfd c.fd = i) :
    next.Sorted := by
  obtain ⟨n, hn, hdone⟩ := ok_of_bind_ok hstep
  cases hdone
  intro j hj
  by_cases hij : j = i
  · subst hij
    dsimp only
    rw [Function.update_self]
    exact hsame hj n hn
  · dsimp only
    rw [Function.update_of_ne hij]
    exact h j hj

theorem Sorted.sameSockets (h : s.Sorted) {i : Nat} (hi : i < s.netThreadNum) {n : NetThread}
    (hsame : NetThread.SameSockets (s.netThreads i) n) :
    n.OwnUids ∧ ∀ uid c, n.connectionUids uid = some (some c) → s.getNetThreadByfd c.fd = i := by
  obtain ⟨huids, hselects⟩ := h i hi
  refine ⟨huids.of_sameSockets hsame, fun uid c' hentry => ?_⟩
  obtain ⟨c, hold, hkept⟩ := hsame uid c' hentry
  rw [hkept.fd]
  exact hselects uid c hold

theorem sorted_step (h : s.Sorted) {maxIOVcount : Nat} {action : Action}
    (hown : s.AcceptsOwn action) (hstep : step maxIOVcount s action = .ok next) :
    next.Sorted := by
  cases action with
  | accept i listenfd result =>
      rw [step] at hstep
      split at hstep
      · rename_i hi
        refine h.onThread hstep fun _ n hn => ?_
        rcases NetThread.netStep_accept hn with ⟨-, rfl⟩ | hadded
        · exact h.sameSockets hi (NetThread.SameSockets.of_eq rfl)
        · obtain ⟨fd, ip, port, close, uid, rest, c, rfl, hfree, hfd, huid, -, -, -,
            htable⟩ := hadded
          have hselected : s.getNetThreadByfd fd = i := hown hi (by rw [hfree]; simp)
          obtain ⟨huids, hselects⟩ := h i hi
          constructor
          · intro other c' hentry
            rw [htable] at hentry
            by_cases hother : other = uid
            · subst hother
              rw [Function.update_self, Option.some.injEq, Option.some.injEq] at hentry
              rw [← hentry, huid]
            · rw [Function.update_of_ne hother] at hentry
              exact huids other c' hentry
          · intro other c' hentry
            rw [htable] at hentry
            by_cases hother : other = uid
            · subst hother
              rw [Function.update_self, Option.some.injEq, Option.some.injEq] at hentry
              rw [← hentry, hfd, hselected]
            · rw [Function.update_of_ne hother] at hentry
              exact hselects other c' hentry
      · cases hstep
        exact h
  | net i ev =>
      rw [step] at hstep
      split at hstep
      · rename_i hi
        exact h.onThread hstep fun _ n hn =>
          h.sameSockets hi (NetThread.sameSockets_processNet (h i hi).1 hn)
      · cases hstep
        exact h
  | pipe i results =>
      rw [step] at hstep
      split at hstep
      · rename_i hi
        exact h.onThread hstep fun _ n hn =>
          h.sameSockets hi (NetThread.sameSockets_processPipe hn)
      · cases hstep
        exact h
  | send uid msg ip port fd =>
      rw [step, send] at hstep
      refine h.onThread hstep fun hi n hn => ?_
      cases hn
      exact h.sameSockets hi (NetThread.sameSockets_respond _ _ _ _ _)
  | close uid fd =>
      rw [step, close] at hstep
      refine h.onThread hstep fun hi n hn => ?_
      cases hn
      exact h.sameSockets hi (NetThread.SameSockets.of_eq rfl)

/-- An accept by a net thread that the descriptor does not select leaves a connection that
`send` and `close` do not find. -/
theorem not_routed_of_accept {maxIOVcount : Nat} {action : Action}
    (hother : ¬ s.AcceptsOwn action) (hstep : step maxIOVcount s action = .ok next) :
    ¬ next.Routed := by
  cases action with
  | accept i listenfd result =>
      cases result with
      | accepted fd ip port close =>
          simp only [AcceptsOwn, not_forall] at hother
          obtain ⟨hi, hfree, hselects⟩ := hother
          rw [step, if_pos hi] at hstep
          obtain ⟨n, hn, hdone⟩ := ok_of_bind_ok hstep
          cases hdone
          intro hrouted
          rcases NetThread.netStep_accept hn with ⟨hnone, -⟩ | hadded
          · exact hnone fd ip port close rfl
          · obtain ⟨fd', ip', port', close', uid, rest, c, heq, -, hfd, huid, -, -, -,
              htable⟩ := hadded
            cases heq
            have hentry : n.connectionOf uid = some c := by
              rw [NetThread.connectionOf, htable, Function.update_self]
              rfl
            have hfound := hrouted i hi uid c (by
              dsimp only
              rw [Function.update_self]
              exact hentry)
            rw [hfd] at hfound
            exact hselects hfound.1
      | again => exact absurd trivial hother
      | failed => exact absurd trivial hother
  | net i ev => exact absurd trivial hother
  | pipe i results => exact absurd trivial hother
  | send uid msg ip port fd => exact absurd trivial hother
  | close uid fd => exact absurd trivial hother

end

/-- An accept that has a uid to give does not fault. -/
theorem acceptsOwn_of_fault {s : EpollServer} {maxIOVcount : Nat} {action : Action} {fault : Fault}
    (hstep : step maxIOVcount s action = .error fault) : s.AcceptsOwn action := by
  cases action with
  | accept i listenfd result =>
      cases result with
      | accepted fd ip port close =>
          intro hi hfree
          obtain ⟨uid, rest, hcons⟩ := List.exists_cons_of_ne_nil hfree
          rw [step, if_pos hi] at hstep
          simp [onThread, NetThread.netStep, NetThread.accept, NetThread.addTConnection, hcons,
            bind, Except.bind] at hstep
      | again => trivial
      | failed => trivial
  | net i ev => trivial
  | pipe i results => trivial
  | send uid msg ip port fd => trivial
  | close uid fd => trivial

/-- In every run the net thread that a connection's descriptor selects is the one that has
it exactly when each accept is by the net thread that the new descriptor selects. -/
theorem routed_iff_acceptsOwn (maxIOVcount netThreadNum : Nat) (freeSizes : Nat → Nat)
    (listeners : Nat → Nat → Nat) (actions : List Action) :
    StaysUpTo (fun _ => True) (step maxIOVcount) Routed
        (created netThreadNum freeSizes listeners) actions ↔
      Along (step maxIOVcount) AcceptsOwn (created netThreadNum freeSizes listeners) actions := by
  refine staysUpTo_iff_along (fun _ => Sorted.routed)
    (fun s action next h _ => sorted_step h) ?_
    (fun s action next _ _ => not_routed_of_accept)
    (created_sorted netThreadNum freeSizes listeners) along_true
  intro s action fault h _ hstep
  refine ⟨fun _ => acceptsOwn_of_fault hstep, fun _ => trivial⟩

/-- `EpollServer(2)`: net thread 0 accepts descriptor 7, which selects net thread 1. -/
theorem odd_descriptor_not_routed : ∃ s,
    run (step 1024) (created 2 (fun _ => 0) fun _ _ => 0)
        [.accept 0 3 (.accepted 7 "127.0.0.1" 80 false)] = .ok s ∧ ¬ s.Routed := by
  obtain ⟨s, hstep⟩ : ∃ s, step 1024 (created 2 (fun _ => 0) fun _ _ => 0)
      (.accept 0 3 (.accepted 7 "127.0.0.1" 80 false)) = .ok s := ⟨_, rfl⟩
  have hother : ¬ AcceptsOwn (created 2 (fun _ => 0) fun _ _ => 0)
      (.accept 0 3 (.accepted 7 "127.0.0.1" 80 false)) := by
    intro hown
    have hselects := hown (by decide) (List.cons_ne_nil _ _)
    exact absurd hselects (by decide)
  exact ⟨s, by rw [run_cons_of_ok hstep, run_nil], not_routed_of_accept hother hstep⟩

end EpollServer

end Tarsx
