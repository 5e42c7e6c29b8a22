/-
`Monitor`: a mutex, a condition variable, and a count of notifications that are sent when
the mutex is given up.
-/
import Mathlib.Algebra.Group.Int.Defs
import Mathlib.Data.List.Perm.Basic
import Tarsx.Memory

namespace Tarsx

universe u

/-- The fields of `Monitor`, with the thread that holds the mutex, the threads inside
`pthread_cond_wait`, and those that were woken there and want the mutex back. -/
structure Monitor (Thread : Type u) where
  notify_ : Int := 0
  holder : Option Thread := none
  waiting : List Thread := []
  woken : List Thread := []
deriving DecidableEq, Repr

namespace Monitor

variable {Thread : Type u}

/-! ### `Condition` -/

/-- `Condition::signal` wakes one waiting thread if there is one, and any of them. -/
def signal (m : Monitor Thread) (choice : Nat) : Monitor Thread :=
  let i := choice % m.waiting.length
  match m.waiting[i]? with
  | none => m
  | some thread =>
      { m with waiting := m.waiting.eraseIdx i, woken := m.woken ++ [thread] }

/-- `Condition::broadcast`. -/
def broadcast (m : Monitor Thread) : Monitor Thread :=
  { m with waiting := [], woken := m.woken ++ m.waiting }

/-- A thread leaves `pthread_cond_wait` without a signal, which POSIX permits at any time. -/
def spuriousWake [DecidableEq Thread] (m : Monitor Thread) (thread : Thread) :
    Monitor Thread :=
  if thread ∈ m.waiting then
    { m with waiting := m.waiting.erase thread, woken := m.woken ++ [thread] }
  else m

/-! ### `Monitor` -/

/-- The loop of `notifyImpl`; the list says whom each signal wakes. -/
def signalLoop : Nat → Monitor Thread → List Nat → Monitor Thread
  | 0, m, _ => m
  | n + 1, m, choices => signalLoop n (m.signal (choices.headD 0)) choices.tail

/-- `notifyImpl(notify_)`. -/
def notifyImpl (m : Monitor Thread) (choices : List Nat) : Monitor Thread :=
  if m.notify_ = -1 then m.broadcast else signalLoop m.notify_.toNat m choices

/-- `lock`; `none` while another thread holds the mutex. -/
def lock (m : Monitor Thread) (thread : Thread) : Option (Monitor Thread) :=
  match m.holder with
  | some _ => none
  | none => some { m with holder := some thread, notify_ := 0 }

/-- `tryLock`. -/
def tryLock (m : Monitor Thread) (thread : Thread) : Bool × Monitor Thread :=
  match m.lock thread with
  | none => (false, m)
  | some locked => (true, locked)

/-- `notify`; the count is an `int`. -/
def notify (m : Monitor Thread) : Except Fault (Monitor Thread) :=
  if m.notify_ ≠ -1 then
    if m.notify_ = 2 ^ 31 - 1 then .error .overflow
    else .ok { m with notify_ := m.notify_ + 1 }
  else .ok m

/-- `notifyAll`. -/
def notifyAll (m : Monitor Thread) : Monitor Thread := { m with notify_ := -1 }

/-- The end of `unlock`, behind its `notifyImpl`. -/
def release (m : Monitor Thread) : Monitor Thread := { m with holder := none }

/-- `wait` until its thread is blocked: the mutex is given up and the thread waits in one
step. -/
def wait (m : Monitor Thread) (thread : Thread) (choices : List Nat) : Monitor Thread :=
  let notified := m.notifyImpl choices
  { notified with holder := none, waiting := notified.waiting ++ [thread] }

/-- `pthread_cond_wait` returns with the mutex held, and `wait` with it; `none` while the
thread was not woken or another one holds the mutex. -/
def resume [DecidableEq Thread] (m : Monitor Thread) (thread : Thread) :
    Option (Monitor Thread) :=
  if thread ∈ m.woken ∧ m.holder.isNone then
    some { m with holder := some thread, woken := m.woken.erase thread, notify_ := 0 }
  else none

/-- The threads inside `pthread_cond_wait`. -/
def parked (m : Monitor Thread) : List Thread := m.waiting ++ m.woken

section

variable {m next : Monitor Thread} {thread : Thread}

@[simp] theorem signal_holder (choice : Nat) : (m.signal choice).holder = m.holder := by
  simp only [signal]
  split <;> rfl

@[simp] theorem signal_notify_ (choice : Nat) : (m.signal choice).notify_ = m.notify_ := by
  simp only [signal]
  split <;> rfl

theorem signalLoop_notify_ (n : Nat) :
    ∀ (m : Monitor Thread) (choices : List Nat),
      (signalLoop n m choices).notify_ = m.notify_ := by
  induction n with
  | zero => exact fun _ _ => rfl
  | succ n ih =>
      intro m choices
      rw [signalLoop, ih, signal_notify_]

/-- The count is reset by the next `lock` or the return from `wait` only. -/
@[simp] theorem notifyImpl_notify_ (choices : List Nat) :
    (m.notifyImpl choices).notify_ = m.notify_ := by
  rw [notifyImpl]
  split
  · rfl
  · exact signalLoop_notify_ _ m choices

theorem signalLoop_holder (n : Nat) :
    ∀ (m : Monitor Thread) (choices : List Nat), (signalLoop n m choices).holder = m.holder := by
  induction n with
  | zero => exact fun _ _ => rfl
  | succ n ih =>
      intro m choices
      rw [signalLoop, ih, signal_holder]

/-- Signals are sent by the thread that holds the mutex, which keeps it. -/
@[simp] theorem notifyImpl_holder (choices : List Nat) :
    (m.notifyImpl choices).holder = m.holder := by
  rw [notifyImpl]
  split
  · rfl
  · exact signalLoop_holder _ m choices

/-- Below the largest `int`, `notify` counts. -/
theorem notify_of_lt (hcount : 0 ≤ m.notify_) (hlt : m.notify_ < 2 ^ 31 - 1) :
    m.notify = .ok { m with notify_ := m.notify_ + 1 } := by
  rw [notify, if_pos (by omega), if_neg (by omega)]

theorem holder_of_notify (hnotify : m.notify = .ok next) : next.holder = m.holder := by
  rw [notify] at hnotify
  split at hnotify
  · split at hnotify
    · contradiction
    · exact Except.ok.inj hnotify ▸ rfl
  · exact Except.ok.inj hnotify ▸ rfl

theorem overflow_of_notify {fault : Fault} (hnotify : m.notify = .error fault) :
    fault = .overflow := by
  rw [notify] at hnotify
  split at hnotify
  · split at hnotify
    · exact (Except.error.inj hnotify).symm
    · contradiction
  · contradiction

@[simp] theorem spuriousWake_holder [DecidableEq Thread] :
    (m.spuriousWake thread).holder = m.holder := by
  rw [spuriousWake]
  split <;> rfl

@[simp] theorem spuriousWake_notify_ [DecidableEq Thread] :
    (m.spuriousWake thread).notify_ = m.notify_ := by
  rw [spuriousWake]
  split <;> rfl

@[simp] theorem release_holder : m.release.holder = none := rfl

theorem signal_waiting (choice : Nat) :
    (m.signal choice).waiting = m.waiting.eraseIdx (choice % m.waiting.length) := by
  simp only [signal]
  split
  · rename_i hnone
    rw [List.eraseIdx_of_length_le (List.getElem?_eq_none_iff.mp hnone)]
  · rfl

/-- Signals and broadcasts only wake. -/
theorem signalLoop_waiting (n : Nat) :
    ∀ (m : Monitor Thread) (choices : List Nat),
      (signalLoop n m choices).waiting.Sublist m.waiting := by
  induction n with
  | zero => exact fun m _ => List.Sublist.refl m.waiting
  | succ n ih =>
      intro m choices
      refine (ih (m.signal _) choices.tail).trans ?_
      rw [signal_waiting]
      exact List.eraseIdx_sublist _ _

theorem notifyImpl_waiting (choices : List Nat) :
    (m.notifyImpl choices).waiting.Sublist m.waiting := by
  rw [notifyImpl]
  split
  · exact List.nil_sublist _
  · exact signalLoop_waiting _ m choices

/-- One signal wakes the one thread that waits. -/
theorem notifyImpl_wakes (hcount : m.notify_ = 1) (choices : List Nat)
    (hwaiting : m.waiting.length ≤ 1) : (m.notifyImpl choices).waiting = [] := by
  rw [notifyImpl, if_neg (by omega), hcount]
  change (m.signal (choices.headD 0)).waiting = []
  rw [signal_waiting]
  match hlist : m.waiting with
  | [] => rfl
  | [thread] => simp [Nat.mod_one]
  | _ :: _ :: _ => simp [hlist] at hwaiting

/-- A broadcast wakes all that wait. -/
theorem notifyImpl_wakesAll (hcount : m.notify_ = -1) (choices : List Nat) :
    (m.notifyImpl choices).waiting = [] := by
  rw [notifyImpl, if_pos hcount]
  rfl

theorem spuriousWake_waiting [DecidableEq Thread] :
    (m.spuriousWake thread).waiting = m.waiting.erase thread := by
  rw [spuriousWake]
  split
  · rfl
  · rename_i hout
    exact (List.erase_of_not_mem hout).symm

/-- A signal takes no thread out of `pthread_cond_wait`. -/
theorem signal_parked (choice : Nat) : (m.signal choice).parked.Perm m.parked := by
  simp only [signal]
  split
  · exact List.Perm.refl _
  · rename_i woken hwoken
    obtain ⟨hlt, hget⟩ := List.getElem?_eq_some_iff.mp hwoken
    have herased := List.getElem_cons_eraseIdx_perm hlt
    rw [hget] at herased
    simp only [parked]
    rw [← List.append_assoc]
    exact List.perm_append_comm.trans (herased.append_right m.woken)

theorem signalLoop_parked (n : Nat) :
    ∀ (m : Monitor Thread) (choices : List Nat),
      (signalLoop n m choices).parked.Perm m.parked := by
  induction n with
  | zero => exact fun m _ => List.Perm.refl m.parked
  | succ n ih =>
      intro m choices
      exact (ih (m.signal _) choices.tail).trans (signal_parked _)

theorem notifyImpl_parked (choices : List Nat) : (m.notifyImpl choices).parked.Perm m.parked := by
  rw [notifyImpl]
  split
  · change (m.woken ++ m.waiting).Perm (m.waiting ++ m.woken)
    exact List.perm_append_comm
  · exact signalLoop_parked _ m choices

theorem spuriousWake_parked [DecidableEq Thread] :
    (m.spuriousWake thread).parked.Perm m.parked := by
  rw [spuriousWake]
  split
  · rename_i hin
    simp only [parked]
    rw [← List.append_assoc]
    exact List.perm_append_comm.trans ((List.perm_cons_erase hin).symm.append_right m.woken)
  · exact List.Perm.refl _

theorem wait_parked (choices : List Nat) :
    (m.wait thread choices).parked.Perm (thread :: m.parked) := by
  have hnotified : (m.notifyImpl choices).parked.Perm m.parked := notifyImpl_parked choices
  simp only [wait, parked, List.append_assoc, List.singleton_append]
  exact List.perm_middle.trans (hnotified.cons thread)

/-- The mutex is taken from nobody, and nothing is counted yet. -/
theorem lock_eq_some (hlock : m.lock thread = some next) :
    m.holder = none ∧ next = { m with holder := some thread, notify_ := 0 } := by
  cases hholder : m.holder with
  | some other =>
      simp only [lock, hholder] at hlock
      contradiction
  | none =>
      simp only [lock, hholder, Option.some.injEq] at hlock
      exact ⟨rfl, hlock.symm⟩

theorem holder_of_lock (hlock : m.lock thread = some next) :
    m.holder = none ∧ next.holder = some thread := by
  obtain ⟨hfree, rfl⟩ := lock_eq_some hlock
  exact ⟨hfree, rfl⟩

/-- A thread that was woken takes the mutex from nobody. -/
theorem resume_eq_some [DecidableEq Thread] (hresume : m.resume thread = some next) :
    m.holder = none ∧
      next = { m with holder := some thread, woken := m.woken.erase thread, notify_ := 0 } := by
  rw [resume] at hresume
  split at hresume
  · rename_i hwoken
    exact ⟨Option.isNone_iff_eq_none.mp hwoken.2, (Option.some.inj hresume).symm⟩
  · contradiction

/-- A thread that resumes has left `pthread_cond_wait`. -/
theorem resume_parked [DecidableEq Thread] (hresume : m.resume thread = some next) :
    m.parked.Perm (thread :: next.parked) := by
  rw [resume] at hresume
  split at hresume
  · rename_i hwoken
    obtain rfl := Option.some.inj hresume
    simp only [parked]
    exact ((List.perm_cons_erase hwoken.1).append_left m.waiting).trans List.perm_middle
  · contradiction

theorem holder_of_resume [DecidableEq Thread] (hresume : m.resume thread = some next) :
    m.holder = none ∧ next.holder = some thread := by
  obtain ⟨hfree, rfl⟩ := resume_eq_some hresume
  exact ⟨hfree, rfl⟩

end

end Monitor

end Tarsx
