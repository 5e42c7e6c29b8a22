/-
The accept loop of `NetThread::run`: `accept` is called again until it says to stop, over
what accept(2) gives one call after the other.
-/
import Mathlib.Order.Monotone.Basic
import Tarsx.Foundation.Run
import Tarsx.NetThread

namespace Tarsx

open Foundation

/-- The values of `errno` that are told apart, or that a process without free
descriptors gets. -/
inductive Errno where
  | eagain
  | eintr
  | emfile
  | enfile
  | other (code : Nat)
deriving DecidableEq, Repr

/-- What a call of accept(2) leaves: the descriptor, with `none` for -1, `errno`, and for a
new connection its peer and what its memory holds at `close_`. -/
structure AcceptCall where
  fd : Option Nat
  errno : Errno
  ip : String := ""
  port : Nat := 0
  close : Bool := false
deriving DecidableEq, Repr

namespace AcceptCall

/-- The value of the call. -/
def ret (c : AcceptCall) : Int :=
  match c.fd with
  | some fd => fd
  | none => -1

/-- The condition of the loop in `Socket::accept`. -/
def Interrupted (c : AcceptCall) : Prop := c.ret < 0 ∧ c.errno = .eintr

instance (c : AcceptCall) : Decidable c.Interrupted := by
  unfold Interrupted
  infer_instance

/-- A call after which the loop of `run` ends. -/
def Stops (c : AcceptCall) : Prop := ¬ 0 < c.ret ∧ c.errno = .eagain

/-- The branches of `NetThread::accept`: the descriptor 0 is none. -/
def result (c : AcceptCall) : AcceptResult :=
  if 0 < c.ret then .accepted c.ret.toNat c.ip c.port c.close
  else if c.errno = .eagain then .again
  else .failed

end AcceptCall

/-- `Socket::accept` from the `k`th call of accept(2) on: the call it returns from, and
the number of the next one. -/
def socketAccept (calls : Nat → AcceptCall) : Nat → Nat → Except Fault (AcceptCall × Nat)
  | 0, _ => .error .nonterminating
  | fuel + 1, k =>
      if (calls k).Interrupted then socketAccept calls fuel (k + 1)
      else .ok (calls k, k + 1)

/-- The do-while loop of `run` for a listening descriptor. -/
def acceptLoop (calls : Nat → AcceptCall) (listenfd : Nat) :
    Nat → NetThread → Nat → Except Fault (NetThread × Nat)
  | 0, _, _ => .error .nonterminating
  | fuel + 1, n, k => do
      let (c, k) ← socketAccept calls (fuel + 1) k
      let (n, ret) ← n.accept listenfd c.result
      if ret then acceptLoop calls listenfd fuel n k else .ok (n, k)

/-- The connections that the first `k` calls give. -/
def acceptedBefore (calls : Nat → AcceptCall) (k : Nat) : Nat :=
  (List.range k).countP fun i => 0 < (calls i).ret

/-- accept(2) fails from some point on with one error. -/
structure FailingAccept where
  calls : Nat → AcceptCall
  point : Nat
  error : Errno
  fails : ∀ k ≥ point, (calls k).fd = none ∧ (calls k).errno = error

/-! ### One turn -/

section

variable {c : AcceptCall} (n : NetThread) (listenfd : Nat)

theorem AcceptCall.Interrupted.not_pos (h : c.Interrupted) : ¬ 0 < c.ret :=
  not_lt_of_gt h.1

theorem AcceptCall.Stops.not_interrupted (h : c.Stops) : ¬ c.Interrupted := by
  intro hinterrupted
  have herrno := h.2.symm.trans hinterrupted.2
  contradiction

theorem accept_of_stops (h : c.Stops) : n.accept listenfd c.result = .ok (n, false) := by
  rw [AcceptCall.result, if_neg h.1, if_pos h.2]
  rfl

/-- An error other than `EAGAIN`, and the descriptor 0, call for another turn. -/
theorem accept_of_failed (hret : ¬ 0 < c.ret) (hstops : ¬ c.Stops) :
    n.accept listenfd c.result = .ok (n, true) := by
  have herrno : c.errno ≠ .eagain := fun herrno => hstops ⟨hret, herrno⟩
  rw [AcceptCall.result, if_neg hret, if_neg herrno]
  rfl

variable {n}

theorem accept_of_free {uid : Nat} {rest : List Nat} (hret : 0 < c.ret)
    (hfree : n.free = uid :: rest) :
    ∃ n', n.accept listenfd c.result = .ok (n', true) ∧ n'.free = rest := by
  have hadd (connection : Connection) : ∃ n',
      n.addTConnection connection = .ok n' ∧ n'.free = rest := by
    rw [NetThread.addTConnection, hfree]
    exact ⟨_, rfl, rfl⟩
  obtain ⟨n', hok, hrest⟩ := hadd
    (Connection.accepted (n.listeners listenfd) listenfd c.ret.toNat c.ip c.port c.close
      n.accepted)
  refine ⟨n', ?_, hrest⟩
  rw [AcceptCall.result, if_pos hret, NetThread.accept, hok]
  rfl

theorem accept_of_full (hret : 0 < c.ret) (hfree : n.free = []) :
    n.accept listenfd c.result = .error .emptyList := by
  rw [AcceptCall.result, if_pos hret]
  simp only [NetThread.accept, NetThread.addTConnection, hfree]
  rfl

end

/-! ### The loops -/

section

variable {calls : Nat → AcceptCall} {listenfd : Nat}

theorem acceptedBefore_succ (k : Nat) :
    acceptedBefore calls (k + 1) =
      acceptedBefore calls k + if 0 < (calls k).ret then 1 else 0 := by
  rw [acceptedBefore, List.range_succ, List.countP_append, List.countP_singleton]
  simp only [decide_eq_true_eq]
  rfl

theorem acceptedBefore_succ_of_pos {k : Nat} (h : 0 < (calls k).ret) :
    acceptedBefore calls (k + 1) = acceptedBefore calls k + 1 := by
  rw [acceptedBefore_succ, if_pos h]

theorem acceptedBefore_succ_of_not_pos {k : Nat} (h : ¬ 0 < (calls k).ret) :
    acceptedBefore calls (k + 1) = acceptedBefore calls k := by
  rw [acceptedBefore_succ, if_neg h, Nat.add_zero]

theorem acceptedBefore_mono : Monotone (acceptedBefore calls) :=
  monotone_nat_of_le_succ fun k => by
    rw [acceptedBefore_succ]
    exact Nat.le_add_right _ _

/-- The retry loop comes to a call that was not interrupted, and no connection is lost
on the way. -/
theorem socketAccept_spec {fuel k next : Nat} {c : AcceptCall}
    (h : socketAccept calls fuel k = .ok (c, next)) :
    ∃ i ≥ k, c = calls i ∧ next = i + 1 ∧
      acceptedBefore calls i = acceptedBefore calls k := by
  induction fuel generalizing k with
  | zero => contradiction
  | succ fuel ih =>
      rw [socketAccept] at h
      split at h
      · rename_i hinterrupted
        obtain ⟨i, hi, hc, hnext, hcount⟩ := ih h
        rw [acceptedBefore_succ_of_not_pos hinterrupted.not_pos] at hcount
        exact ⟨i, Nat.le_of_succ_le hi, hc, hnext, hcount⟩
      · obtain ⟨rfl, rfl⟩ := Prod.mk.inj (Except.ok.inj h)
        exact ⟨k, Nat.le_refl k, rfl, rfl, rfl⟩

/-- It ends when some later call is not interrupted. -/
theorem socketAccept_ends {fuel k j : Nat} (hk : k ≤ j) (hj : ¬ (calls j).Interrupted)
    (hfuel : j < k + fuel) : ∃ i ≤ j, socketAccept calls fuel k = .ok (calls i, i + 1) := by
  induction fuel generalizing k with
  | zero => omega
  | succ fuel ih =>
      rw [socketAccept]
      by_cases hinterrupted : (calls k).Interrupted
      · have hne : k ≠ j := by
          rintro rfl
          exact hj hinterrupted
        rw [if_pos hinterrupted]
        exact ih (by omega) (by omega)
      · rw [if_neg hinterrupted]
        exact ⟨k, hk, rfl⟩

theorem socketAccept_error {fuel k : Nat} {fault : Fault}
    (h : socketAccept calls fuel k = .error fault) : fault = .nonterminating := by
  induction fuel generalizing k with
  | zero => exact (Except.error.inj h).symm
  | succ fuel ih =>
      rw [socketAccept] at h
      split at h
      · exact ih h
      · contradiction

/-- One turn of the do-while loop. -/
theorem acceptLoop_succ {fuel k i : Nat} {n n' : NetThread} {ret : Bool}
    (hsocket : socketAccept calls (fuel + 1) k = .ok (calls i, i + 1))
    (haccept : n.accept listenfd (calls i).result = .ok (n', ret)) :
    acceptLoop calls listenfd (fuel + 1) n k =
      if ret then acceptLoop calls listenfd fuel n' (i + 1) else .ok (n', i + 1) := by
  rw [acceptLoop, hsocket]
  change (n.accept listenfd (calls i).result).bind _ = _
  rw [haccept]
  rfl

/-- If the loop ends, then at a call after which it stops, and every connection until then
found a free uid. -/
theorem stops_of_acceptLoop {fuel k : Nat} {n : NetThread} {last : NetThread × Nat}
    (h : acceptLoop calls listenfd fuel n k = .ok last) :
    ∃ j ≥ k, (calls j).Stops ∧
      acceptedBefore calls j ≤ acceptedBefore calls k + n.free.length := by
  induction fuel generalizing n k with
  | zero => contradiction
  | succ fuel ih =>
      obtain ⟨⟨c, next⟩, hsocket, h⟩ := ok_of_bind_ok h
      obtain ⟨⟨n', ret⟩, haccept, h⟩ := ok_of_bind_ok h
      obtain ⟨i, hi, rfl, rfl, hcount⟩ := socketAccept_spec hsocket
      by_cases hstops : (calls i).Stops
      · exact ⟨i, hi, hstops, by omega⟩
      · by_cases hret : 0 < (calls i).ret
        · cases hfree : n.free with
          | nil =>
              rw [accept_of_full listenfd hret hfree] at haccept
              contradiction
          | cons uid rest =>
              obtain ⟨after, hok, hrest⟩ := accept_of_free listenfd hret hfree
              obtain ⟨rfl, rfl⟩ := Prod.mk.inj (Except.ok.inj (hok.symm.trans haccept))
              obtain ⟨j, hj, hlast, hfits⟩ := ih h
              rw [acceptedBefore_succ_of_pos hret, hrest] at hfits
              exact ⟨j, by omega, hlast, by rw [List.length_cons]; omega⟩
        · have hok := accept_of_failed n listenfd hret hstops
          obtain ⟨rfl, rfl⟩ := Prod.mk.inj (Except.ok.inj (hok.symm.trans haccept))
          obtain ⟨j, hj, hlast, hfits⟩ := ih h
          rw [acceptedBefore_succ_of_not_pos hret] at hfits
          exact ⟨j, by omega, hlast, by omega⟩

/-- The loop ends when a call comes after which it stops, and every connection until then
finds a free uid. -/
theorem acceptLoop_of_stops {fuel k j : Nat} {n : NetThread} (hk : k ≤ j)
    (hj : (calls j).Stops)
    (hfree : acceptedBefore calls j ≤ acceptedBefore calls k + n.free.length)
    (hfuel : j < k + fuel) : ∃ last, acceptLoop calls listenfd fuel n k = .ok last := by
  induction fuel generalizing n k with
  | zero => omega
  | succ fuel ih =>
      obtain ⟨i, hij, hsocket⟩ := socketAccept_ends hk hj.not_interrupted hfuel
      obtain ⟨i', hi, -, hnext, hcount⟩ := socketAccept_spec hsocket
      obtain rfl : i = i' := Nat.succ.inj hnext
      by_cases hstops : (calls i).Stops
      · exact ⟨(n, i + 1), acceptLoop_succ hsocket (accept_of_stops n listenfd hstops)⟩
      · have hne : i ≠ j := by
          rintro rfl
          exact hstops hj
        by_cases hret : 0 < (calls i).ret
        · have hsucc := acceptedBefore_succ_of_pos hret
          have hmono := @acceptedBefore_mono calls (i + 1) j (by omega)
          obtain ⟨uid, rest, huid⟩ := List.exists_cons_of_length_pos
            (show 0 < n.free.length by omega)
          obtain ⟨after, hok, hrest⟩ := accept_of_free listenfd hret huid
          rw [huid, List.length_cons] at hfree
          obtain ⟨last, hlast⟩ := ih (n := after) (k := i + 1) (by omega)
            (by rw [hrest]; omega) (by omega)
          exact ⟨last, (acceptLoop_succ hsocket hok).trans hlast⟩
        · have hsucc := acceptedBefore_succ_of_not_pos hret
          obtain ⟨last, hlast⟩ := ih (n := n) (k := i + 1) (by omega) (by omega) (by omega)
          have hok := accept_of_failed n listenfd hret hstops
          exact ⟨last, (acceptLoop_succ hsocket hok).trans hlast⟩

/-- Calls that fail with other errors than `EAGAIN` keep the loop going. -/
theorem acceptLoop_of_fails {fuel k : Nat} {n : NetThread}
    (hfails : ∀ j ≥ k, ¬ 0 < (calls j).ret ∧ ¬ (calls j).Stops) :
    acceptLoop calls listenfd fuel n k = .error .nonterminating := by
  induction fuel generalizing k with
  | zero => rfl
  | succ fuel ih =>
      cases hsocket : socketAccept calls (fuel + 1) k with
      | error fault =>
          obtain rfl := socketAccept_error hsocket
          rw [acceptLoop, hsocket]
          rfl
      | ok result =>
          obtain ⟨i, hi, hc, hnext, -⟩ := socketAccept_spec (c := result.1) hsocket
          obtain rfl : result = (calls i, i + 1) := Prod.ext hc hnext
          obtain ⟨hret, hstops⟩ := hfails i hi
          rw [acceptLoop_succ hsocket (accept_of_failed n listenfd hret hstops), if_pos rfl]
          exact ih fun j hj => hfails j (Nat.le_of_succ_le (Nat.le_trans (by omega) hj))

end

/-- The loop ends exactly when accept(2) fails with `EAGAIN` by the point from which on its
error is fixed, and gives no more connections before that than there are free uids. -/
theorem acceptLoop_ends_iff (env : FailingAccept) (listenfd : Nat) (n : NetThread) :
    (∃ fuel last, acceptLoop env.calls listenfd fuel n 0 = .ok last) ↔
      ∃ k ≤ env.point, (env.calls k).Stops ∧
        acceptedBefore env.calls k ≤ n.free.length := by
  constructor
  · rintro ⟨fuel, last, h⟩
    obtain ⟨j, -, hj, hfits⟩ := stops_of_acceptLoop h
    have hzero : acceptedBefore env.calls 0 = 0 := rfl
    rw [hzero, Nat.zero_add] at hfits
    by_cases hpoint : j ≤ env.point
    · exact ⟨j, hpoint, hj, hfits⟩
    · -- the fixed error is `EAGAIN`, so the loop stops at the point already
      have hlater : env.point ≤ j := Nat.le_of_not_le hpoint
      obtain ⟨hfd, herrno⟩ := env.fails env.point (Nat.le_refl _)
      have herror := (env.fails j hlater).2.symm.trans hj.2
      refine ⟨env.point, Nat.le_refl _, ⟨?_, herrno.trans herror⟩, ?_⟩
      · simp [AcceptCall.ret, hfd]
      · exact (acceptedBefore_mono hlater).trans hfits
  · rintro ⟨k, -, hk, hfits⟩
    refine ⟨k + 1, acceptLoop_of_stops (Nat.zero_le k) hk ?_ (by omega)⟩
    exact hfits.trans (Nat.le_add_left _ _)

/-- A process without free descriptors never leaves the loop. -/
theorem acceptLoop_emfile :
    ∃ (env : FailingAccept) (n : NetThread), env.error = .emfile ∧
      n.free.length = NetThread.total ∧
      ∀ fuel, acceptLoop env.calls 3 fuel n 0 = .error .nonterminating := by
  refine ⟨⟨fun _ => ⟨none, .emfile, "", 0, false⟩, 0, .emfile, fun _ _ => ⟨rfl, rfl⟩⟩,
    NetThread.createEpoll { freeSize := 0, listeners := fun _ => 0 }, rfl, ?_, ?_⟩
  · exact List.length_range'
  · intro fuel
    have hfull : ¬ (0 : Int) < -1 := by decide
    exact acceptLoop_of_fails fun _ _ => ⟨hfull, fun hstops => nomatch hstops.2⟩

end Tarsx
