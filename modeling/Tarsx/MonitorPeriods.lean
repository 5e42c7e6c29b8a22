/-
Threads that share one `Monitor`, a statement of its functions at a time and interleaved
in any way, with a log of what they called and what they sent to the condition variable.
The log is a sequence of holding periods, each with the notifications its calls ask for.
-/
import Mathlib.Algebra.Group.Nat.Defs
import Tarsx.Foundation.Exclusion
import Tarsx.Foundation.Run
import Tarsx.Monitor

namespace Tarsx

open Foundation

universe u

variable {Thread : Type u}

/-! ### Periods -/

inductive MonitorCall where
  | notify
  | notifyAll
deriving DecidableEq, Repr

/-- What is logged, with the thread that does it. -/
inductive MonitorEvent (Thread : Type u) where
  /-- The mutex is acquired, or a wait returns. -/
  | began (thread : Thread)
  | called (thread : Thread) (call : MonitorCall)
  | signal (thread : Thread)
  | broadcast (thread : Thread)
  /-- The mutex is given up by `unlock` or a wait. -/
  | ended (thread : Thread)
deriving DecidableEq, Repr

/-- A holding period: its thread, and what was called in it. -/
structure Period (Thread : Type u) where
  thread : Thread
  calls : List MonitorCall

/-- One broadcast if `notifyAll` was called, and else one signal for each `notify`. -/
def Period.notifications (p : Period Thread) : List (MonitorEvent Thread) :=
  if .notifyAll ∈ p.calls then [.broadcast p.thread]
  else List.replicate (p.calls.count .notify) (.signal p.thread)

/-- The calls of a period, and its notifications at the end. -/
def Period.events (p : Period Thread) : List (MonitorEvent Thread) :=
  .began p.thread :: (p.calls.map (.called p.thread) ++ (p.notifications ++ [.ended p.thread]))

/-! ### Threads -/

/-- The functions that give the mutex up. -/
inductive Leave where
  | unlock
  | wait
  | timedWait
deriving DecidableEq, Repr

/-- Where a thread is with regard to the monitor. -/
inductive MonitorPc where
  /-- It does not hold the mutex. -/
  | out
  /-- It has got the mutex, and `notify_ = 0` is next. -/
  | reset
  | held
  /-- In `notifyImpl`, with the value of its `notify`. -/
  | flush (notify : Int) (leave : Leave)
  /-- Behind `notifyImpl`: the mutex is given up next. -/
  | leave (leave : Leave)
  /-- Inside `pthread_cond_wait` or `pthread_cond_timedwait`. -/
  | blocked
deriving DecidableEq, Repr

/-- The thread holds the mutex. -/
def MonitorPc.holds : MonitorPc → Bool
  | .out | .blocked => false
  | _ => true

structure MonitorRun (Thread : Type u) where
  monitor : Monitor Thread := {}
  pc : Thread → MonitorPc := fun _ => .out
  log : List (MonitorEvent Thread) := []

/-- A thread calls a function of the monitor, goes on inside one, or leaves
`pthread_cond_wait` without a signal.  `choice` is whom a signal wakes, and `refused` tells
whether `pthread_cond_timedwait` comes back at once. -/
inductive MonitorAction (Thread : Type u) where
  | lock (thread : Thread)
  | tryLock (thread : Thread)
  | notify (thread : Thread)
  | notifyAll (thread : Thread)
  | leave (thread : Thread) (leave : Leave)
  | proceed (thread : Thread) (choice : Nat) (refused : Bool)
  | wake (thread : Thread)

namespace MonitorRun

variable [DecidableEq Thread]

/-- The run with one thread further on. -/
def advance (s : MonitorRun Thread) (thread : Thread) (pc : MonitorPc)
    (monitor : Monitor Thread) (events : List (MonitorEvent Thread)) : MonitorRun Thread :=
  { monitor := monitor, pc := Function.update s.pc thread pc, log := s.log ++ events }

/-- `pthread_mutex_lock` or a `pthread_mutex_trylock`: while another thread has the mutex,
the one waits and the other fails. -/
def acquire (s : MonitorRun Thread) (thread : Thread) : MonitorRun Thread :=
  match s.monitor.holder with
  | some _ => s
  | none => s.advance thread .reset { s.monitor with holder := some thread } [.began thread]

/-- The mutex is given up and the thread waits. -/
def block (s : MonitorRun Thread) (thread : Thread) : MonitorRun Thread :=
  s.advance thread .blocked
    { s.monitor with holder := none, waiting := s.monitor.waiting ++ [thread] } [.ended thread]

/-- A thread that was woken gets the mutex back. -/
def reacquire (s : MonitorRun Thread) (thread : Thread) : MonitorRun Thread :=
  if thread ∈ s.monitor.woken ∧ s.monitor.holder.isNone then
    s.advance thread .reset
      { s.monitor with holder := some thread, woken := s.monitor.woken.erase thread }
      [.began thread]
  else s

/-- The next statement of the function that the thread is in. -/
def proceed (s : MonitorRun Thread) (thread : Thread) (choice : Nat) (refused : Bool) :
    MonitorRun Thread :=
  match s.pc thread with
  | .out => s
  | .reset => s.advance thread .held { s.monitor with notify_ := 0 } []
  | .held => s
  | .flush notify leave =>
      if notify = -1 then s.advance thread (.leave leave) s.monitor.broadcast [.broadcast thread]
      else if notify > 0 then
        s.advance thread (.flush (notify - 1) leave) (s.monitor.signal choice) [.signal thread]
      else s.advance thread (.leave leave) s.monitor []
  | .leave .unlock => s.advance thread .out s.monitor.release [.ended thread]
  | .leave .wait => s.block thread
  | .leave .timedWait =>
      if refused then s.advance thread .reset s.monitor [.ended thread, .began thread]
      else s.block thread
  | .blocked => s.reacquire thread

end MonitorRun

open MonitorRun

variable [DecidableEq Thread]

/-- A thread that is elsewhere does not do what the action says. -/
def monitorStep (s : MonitorRun Thread) : MonitorAction Thread → Except Fault (MonitorRun Thread)
  | .lock thread => .ok (if s.pc thread = .out then s.acquire thread else s)
  | .tryLock thread => .ok (if s.pc thread = .out then s.acquire thread else s)
  | .notify thread =>
      if s.pc thread = .held then do
        let monitor ← s.monitor.notify
        .ok (s.advance thread .held monitor [.called thread .notify])
      else .ok s
  | .notifyAll thread =>
      .ok (if s.pc thread = .held then
        s.advance thread .held s.monitor.notifyAll [.called thread .notifyAll] else s)
  | .leave thread leave =>
      .ok (if s.pc thread = .held then
        s.advance thread (.flush s.monitor.notify_ leave) s.monitor [] else s)
  | .proceed thread choice refused => .ok (s.proceed thread choice refused)
  | .wake thread => .ok { s with monitor := s.monitor.spuriousWake thread }

namespace MonitorRun

/-- The log is a sequence of periods, of which the last one may not be over. -/
def InPeriods (s : MonitorRun Thread) : Prop :=
  ∃ periods : List (Period Thread), s.log <+: periods.flatMap Period.events

/-- The count is not yet the largest `int` when `notify` raises it. -/
def Counts (s : MonitorRun Thread) : MonitorAction Thread → Prop
  | .notify thread => s.pc thread = .held → s.monitor.notify_ ≠ 2 ^ 31 - 1
  | _ => True

/-! ### `tryLock` and `notifyImpl` as one step -/

/-- With nobody in between, the statements of `tryLock` have the effect of its one step. -/
theorem run_tryLock {s : MonitorRun Thread} {thread : Thread} (hpc : s.pc thread = .out) :
    ∃ last, run monitorStep s [.tryLock thread, .proceed thread 0 false] = .ok last ∧
      last.monitor = (s.monitor.tryLock thread).2 ∧
      last.pc thread = if (s.monitor.tryLock thread).1 then .held else .out := by
  cases hholder : s.monitor.holder with
  | some other =>
      refine ⟨s, ?_, ?_, ?_⟩
      · simp [run, monitorStep, acquire, proceed, hpc, hholder]
      · simp [Monitor.tryLock, Monitor.lock, hholder]
      · simp [Monitor.tryLock, Monitor.lock, hpc, hholder]
  | none =>
      refine ⟨(s.acquire thread).advance thread .held
        { (s.acquire thread).monitor with notify_ := 0 } [], ?_, ?_, ?_⟩
      · simp [run, monitorStep, acquire, advance, proceed, hpc, hholder]
      · simp [Monitor.tryLock, Monitor.lock, acquire, advance, hholder]
      · simp [Monitor.tryLock, Monitor.lock, advance, hholder]

/-- The loop of `notifyImpl` to its end, with the choices of its signals. -/
theorem run_signalLoop {thread : Thread} {leave : Leave} (choices : List Nat) :
    ∀ {s : MonitorRun Thread}, s.pc thread = .flush choices.length leave →
      ∃ last, run monitorStep s ((choices ++ [0]).map (.proceed thread · false)) = .ok last ∧
        last.monitor = Monitor.signalLoop choices.length s.monitor choices ∧
        last.pc thread = .leave leave := by
  induction choices with
  | nil =>
      intro s hpc
      refine ⟨s.advance thread (.leave leave) s.monitor [], ?_, rfl,
        Function.update_self thread _ s.pc⟩
      simp [run, monitorStep, proceed, hpc]
  | cons choice choices ih =>
      intro s hpc
      have hstep : monitorStep s (.proceed thread choice false) =
          .ok (s.advance thread (.flush choices.length leave) (s.monitor.signal choice)
            [.signal thread]) := by
        simp only [monitorStep, proceed, hpc, List.length_cons]
        rw [if_neg (by omega), if_pos (by omega), Int.natCast_succ, Int.add_sub_cancel]
      have hnext : (s.advance thread (.flush choices.length leave) (s.monitor.signal choice)
          [.signal thread]).pc thread = .flush choices.length leave :=
        Function.update_self thread _ s.pc
      obtain ⟨last, hrun, hmonitor, hlast⟩ := ih hnext
      refine ⟨last, ?_, hmonitor, hlast⟩
      rw [List.cons_append, List.map_cons, run_cons_of_ok hstep, hrun]

/-- With nobody in between, the statements of `notifyImpl` have the effect of its one
step. -/
theorem run_notifyImpl {s : MonitorRun Thread} {thread : Thread} {leave : Leave}
    (hpc : s.pc thread = .flush s.monitor.notify_ leave) (hcount : -1 ≤ s.monitor.notify_)
    {choices : List Nat} (hchoices : choices.length = s.monitor.notify_.toNat) :
    ∃ last, run monitorStep s ((choices ++ [0]).map (.proceed thread · false)) = .ok last ∧
      last.monitor = s.monitor.notifyImpl choices ∧ last.pc thread = .leave leave := by
  rw [Monitor.notifyImpl]
  by_cases hall : s.monitor.notify_ = -1
  · have hnone : choices = [] := by
      rw [← List.length_eq_zero_iff, hchoices, hall]
      rfl
    rw [if_pos hall, hnone]
    refine ⟨s.advance thread (.leave leave) s.monitor.broadcast [.broadcast thread], ?_, rfl,
      Function.update_self thread _ s.pc⟩
    simp [run, monitorStep, proceed, hpc, hall]
  · rw [if_neg hall, ← hchoices]
    have hsame : s.monitor.notify_ = choices.length := by omega
    exact run_signalLoop choices (hsame ▸ hpc)

/-! ### The invariant -/

/-- What `notify_` holds after some calls. -/
def countOf (calls : List MonitorCall) : Int :=
  if .notifyAll ∈ calls then -1 else calls.count .notify

/-- What `notifyImpl` has still to send. -/
def pending (thread : Thread) (notify : Int) : List (MonitorEvent Thread) :=
  if notify = -1 then [.broadcast thread] else List.replicate notify.toNat (.signal thread)

omit [DecidableEq Thread] in
theorem pending_countOf (thread : Thread) (calls : List MonitorCall) :
    pending thread (countOf calls) = Period.notifications ⟨thread, calls⟩ := by
  rw [pending, countOf, Period.notifications]
  by_cases hall : .notifyAll ∈ calls
  · simp [hall]
  · rw [if_neg hall, if_neg hall, if_neg (by omega), Int.toNat_natCast]

/-- The events of a period that is not over, by where its thread is. -/
inductive Opened (thread : Thread) (notify_ : Int) :
    MonitorPc → List (MonitorEvent Thread) → Prop where
  | reset : Opened thread notify_ .reset [.began thread]
  | held (calls : List MonitorCall) (counted : notify_ = countOf calls) :
      Opened thread notify_ .held (.began thread :: calls.map (.called thread))
  | flush (calls : List MonitorCall) (sent : List (MonitorEvent Thread)) (notify : Int)
      (leave : Leave)
      (rest : Period.notifications ⟨thread, calls⟩ = sent ++ pending thread notify) :
      Opened thread notify_ (.flush notify leave)
        (.began thread :: (calls.map (.called thread) ++ sent))
  | leave (calls : List MonitorCall) (leave : Leave) :
      Opened thread notify_ (.leave leave)
        (.began thread :: (calls.map (.called thread) ++
          Period.notifications ⟨thread, calls⟩))

/-- The threads agree on who holds the mutex, and the period that is not over is the
holder's. -/
structure Sound (s : MonitorRun Thread) : Prop where
  holds : Excludes MonitorPc.holds s.monitor.holder s.pc
  log : ∃ periods : List (Period Thread), ∃ last,
    s.log = periods.flatMap Period.events ++ last ∧
    (s.monitor.holder = none → last = []) ∧
    ∀ thread, s.monitor.holder = some thread →
      Opened thread s.monitor.notify_ (s.pc thread) last

omit [DecidableEq Thread] in
/-- A period that is not over is the beginning of one that is. -/
theorem Opened.begins {thread : Thread} {notify_ : Int} {pc : MonitorPc}
    {last : List (MonitorEvent Thread)} (h : Opened thread notify_ pc last) :
    ∃ p : Period Thread, last <+: p.events := by
  cases h with
  | reset => exact ⟨⟨thread, []⟩, by simp [Period.events]⟩
  | held calls _ => exact ⟨⟨thread, calls⟩, by simp [Period.events]⟩
  | flush calls sent notify leave hrest =>
      refine ⟨⟨thread, calls⟩, ?_⟩
      rw [Period.events, hrest]
      simp
  | leave calls leave => exact ⟨⟨thread, calls⟩, by simp [Period.events]⟩

omit [DecidableEq Thread] in
theorem Sound.inPeriods {s : MonitorRun Thread} (h : s.Sound) : s.InPeriods := by
  obtain ⟨periods, last, hlog, hnone, hlast⟩ := h.log
  cases hholder : s.monitor.holder with
  | none => exact ⟨periods, by simp [hlog, hnone hholder]⟩
  | some thread =>
      obtain ⟨p, hbegins⟩ := (hlast thread hholder).begins
      refine ⟨periods ++ [p], ?_⟩
      rw [hlog, List.flatMap_append, List.flatMap_singleton]
      exact (List.prefix_append_right_inj _).mpr hbegins

section Steps

variable {s : MonitorRun Thread} {thread : Thread}

omit [DecidableEq Thread] in
/-- A thread that is inside the monitor has a period that is not over. -/
theorem Sound.opened (h : s.Sound) (hin : (s.pc thread).holds = true) :
    s.monitor.holder = some thread ∧ ∃ periods : List (Period Thread), ∃ last,
      s.log = periods.flatMap Period.events ++ last ∧
      Opened thread s.monitor.notify_ (s.pc thread) last := by
  have hholder := h.holds.holder_eq hin
  obtain ⟨periods, last, hlog, _, hlast⟩ := h.log
  exact ⟨hholder, periods, last, hlog, hlast thread hholder⟩

/-- The holder goes on in its period. -/
theorem Sound.extend (h : s.Sound) (hin : (s.pc thread).holds = true) {pc : MonitorPc}
    {monitor : Monitor Thread} {events : List (MonitorEvent Thread)} (hpc : pc.holds = true)
    (hholder : monitor.holder = s.monitor.holder)
    (hopened : ∀ last, Opened thread s.monitor.notify_ (s.pc thread) last →
      Opened thread monitor.notify_ pc (last ++ events)) :
    (s.advance thread pc monitor events).Sound := by
  obtain ⟨hheld, periods, last, hlog, hlast⟩ := h.opened hin
  have hafter : monitor.holder = some thread := hholder.trans hheld
  refine ⟨h.holds.update (Or.inr hheld) pc (by simp [advance, hafter, hpc]), periods,
    last ++ events, ?_, ?_, ?_⟩
  · simp only [advance, hlog, List.append_assoc]
  · intro hnone
    rw [show monitor.holder = none from hnone] at hafter
    contradiction
  · intro other hother
    obtain rfl := Option.some.inj (hafter.symm.trans hother)
    simp only [advance, Function.update_self]
    exact hopened last hlast

/-- A period that begins. -/
theorem opened_reset {monitor : Monitor Thread} {events : List (MonitorEvent Thread)}
    (hafter : monitor.holder = some thread) :
    ((s.advance thread .reset monitor events).monitor.holder = none →
      [.began thread] = ([] : List (MonitorEvent Thread))) ∧
    ∀ other, (s.advance thread .reset monitor events).monitor.holder = some other →
      Opened other (s.advance thread .reset monitor events).monitor.notify_
        ((s.advance thread .reset monitor events).pc other) [.began thread] := by
  constructor
  · intro hnone
    rw [show monitor.holder = none from hnone] at hafter
    contradiction
  · intro other hother
    obtain rfl := Option.some.inj (hafter.symm.trans hother)
    simp only [advance, Function.update_self]
    exact .reset

/-- A period begins where no other is open. -/
theorem Sound.begin (h : s.Sound) {monitor : Monitor Thread} (hfree : s.monitor.holder = none)
    (hafter : monitor.holder = some thread) :
    (s.advance thread .reset monitor [.began thread]).Sound := by
  obtain ⟨periods, last, hlog, hnone, _⟩ := h.log
  refine ⟨h.holds.update (Or.inl hfree) .reset hafter, periods, [.began thread], ?_,
    opened_reset hafter⟩
  simp only [advance, hlog, hnone hfree, List.append_nil]

omit [DecidableEq Thread] in
/-- Behind `notifyImpl` the period is complete. -/
theorem Opened.close {notify_ : Int} {leave : Leave} {last : List (MonitorEvent Thread)}
    (h : Opened thread notify_ (.leave leave) last) :
    ∃ p : Period Thread, last ++ [.ended thread] = p.events := by
  cases h with
  | leave calls leave => exact ⟨⟨thread, calls⟩, by simp [Period.events]⟩

/-- A period ends. -/
theorem Sound.finish (h : s.Sound) {leave : Leave} (hpc : s.pc thread = .leave leave)
    {pc : MonitorPc} {monitor : Monitor Thread} (hout : pc.holds = false)
    (hafter : monitor.holder = none) :
    (s.advance thread pc monitor [.ended thread]).Sound := by
  obtain ⟨hheld, periods, last, hlog, hlast⟩ := h.opened (by rw [hpc]; rfl)
  rw [hpc] at hlast
  obtain ⟨p, hp⟩ := hlast.close
  refine ⟨h.holds.update (Or.inr hheld) pc (by simp [advance, hafter, hout]), periods ++ [p], [],
    ?_, fun _ => rfl, ?_⟩
  · simp [advance, hlog, ← hp]
  · intro other hother
    rw [show monitor.holder = some other from hother] at hafter
    contradiction

theorem Sound.acquire (h : s.Sound) : (s.acquire thread).Sound := by
  rw [MonitorRun.acquire]
  cases hfree : s.monitor.holder with
  | some other => exact h
  | none => exact h.begin hfree rfl

theorem Sound.reacquire (h : s.Sound) : (s.reacquire thread).Sound := by
  rw [MonitorRun.reacquire]
  split
  · rename_i hwoken
    exact h.begin (Option.isNone_iff_eq_none.mp hwoken.2) rfl
  · exact h

/-- The period of the thread ends and, with the mutex kept, its next one begins. -/
theorem Sound.refuse (h : s.Sound) {leave : Leave} (hpc : s.pc thread = .leave leave) :
    (s.advance thread .reset s.monitor [.ended thread, .began thread]).Sound := by
  obtain ⟨hheld, periods, last, hlog, hlast⟩ := h.opened (by rw [hpc]; rfl)
  rw [hpc] at hlast
  obtain ⟨p, hp⟩ := hlast.close
  refine ⟨h.holds.update (Or.inr hheld) .reset hheld, periods ++ [p], [.began thread], ?_,
    opened_reset hheld⟩
  simp [advance, hlog, ← hp]

/-- A turn of `notifyImpl`. -/
theorem Sound.flush (h : s.Sound) {notify : Int} {leave : Leave}
    (hpc : s.pc thread = .flush notify leave) (choice : Nat) (refused : Bool) :
    (s.proceed thread choice refused).Sound := by
  have hin : (s.pc thread).holds = true := by rw [hpc]; rfl
  simp only [proceed, hpc]
  by_cases hall : notify = -1
  · rw [if_pos hall]
    refine h.extend hin rfl rfl ?_
    rw [hpc]
    rintro last ⟨⟩
    rename_i calls sent hrest
    rw [pending, if_pos hall] at hrest
    rw [List.cons_append, List.append_assoc, ← hrest]
    exact .leave calls leave
  · rw [if_neg hall]
    by_cases hpos : notify > 0
    · rw [if_pos hpos]
      refine h.extend hin rfl (Monitor.signal_holder choice) ?_
      rw [hpc]
      rintro last ⟨⟩
      rename_i calls sent hrest
      have hnext : pending thread notify =
          .signal thread :: pending thread (notify - 1) := by
        obtain ⟨n, rfl⟩ : ∃ n : Nat, notify = n + 1 := ⟨(notify - 1).toNat, by omega⟩
        rw [pending, pending, if_neg (by omega), if_neg (by omega), Int.add_sub_cancel]
        rfl
      rw [List.cons_append, List.append_assoc]
      refine .flush calls (sent ++ [.signal thread]) (notify - 1) leave ?_
      rw [hrest, hnext, List.append_cons]
    · rw [if_neg hpos]
      refine h.extend hin rfl rfl ?_
      rw [hpc]
      rintro last ⟨⟩
      rename_i calls sent hrest
      have hnone : pending thread notify = [] := by
        rw [pending, if_neg hall, Int.toNat_of_nonpos (by omega), List.replicate_zero]
      rw [hnone, List.append_nil] at hrest
      rw [List.append_nil, ← hrest]
      exact .leave calls leave

theorem Sound.proceed (h : s.Sound) (choice : Nat) (refused : Bool) :
    (s.proceed thread choice refused).Sound := by
  cases hpc : s.pc thread with
  | out => simpa only [MonitorRun.proceed, hpc] using h
  | held => simpa only [MonitorRun.proceed, hpc] using h
  | reset =>
      simp only [MonitorRun.proceed, hpc]
      refine h.extend (by rw [hpc]; rfl) rfl rfl ?_
      rw [hpc]
      rintro last ⟨⟩
      exact .held [] rfl
  | flush notify leave => exact h.flush hpc choice refused
  | leave leave =>
      cases leave with
      | unlock =>
          simp only [MonitorRun.proceed, hpc]
          exact h.finish hpc rfl rfl
      | wait =>
          simp only [MonitorRun.proceed, hpc]
          exact h.finish hpc rfl rfl
      | timedWait =>
          simp only [MonitorRun.proceed, hpc]
          cases refused with
          | true => exact h.refuse hpc
          | false => exact h.finish hpc rfl rfl
  | blocked =>
      simp only [MonitorRun.proceed, hpc]
      exact h.reacquire

/-- A call of `notify` or `notifyAll` in the period. -/
theorem Sound.called (h : s.Sound) (hpc : s.pc thread = .held) (call : MonitorCall)
    (monitor : Monitor Thread) (hholder : monitor.holder = s.monitor.holder)
    (hcount : ∀ calls, s.monitor.notify_ = countOf calls →
      monitor.notify_ = countOf (calls ++ [call])) :
    (s.advance thread .held monitor [.called thread call]).Sound := by
  refine h.extend (by rw [hpc]; rfl) rfl hholder ?_
  rw [hpc]
  rintro last ⟨⟩
  rename_i calls hcounted
  have hcalled : calls.map (MonitorEvent.called thread) ++ [.called thread call] =
      (calls ++ [call]).map (.called thread) := by simp
  rw [List.cons_append, hcalled]
  exact .held _ (hcount calls hcounted)

/-- Below the largest `int`, `notify` keeps the count of the calls. -/
theorem Sound.notify (h : s.Sound) (hpc : s.pc thread = .held)
    (hcounts : s.monitor.notify_ ≠ 2 ^ 31 - 1) :
    ∃ next, monitorStep s (.notify thread) = .ok next ∧ next.Sound := by
  by_cases hall : s.monitor.notify_ = -1
  · refine ⟨_, ?_, h.called hpc .notify s.monitor rfl ?_⟩
    · simp only [monitorStep, hpc, if_true, Monitor.notify, ne_eq, hall, not_true_eq_false,
        if_false, bind, Except.bind]
    · intro calls hcounted
      have hmem : .notifyAll ∈ calls := by
        by_contra hno
        rw [hall, countOf, if_neg hno] at hcounted
        omega
      rw [hall, countOf, if_pos (by simp [hmem])]
  · refine ⟨_, ?_, h.called hpc .notify
      { s.monitor with notify_ := s.monitor.notify_ + 1 } rfl ?_⟩
    · simp only [monitorStep, hpc, if_true, Monitor.notify, ne_eq, hall, not_false_eq_true,
        hcounts, if_false, bind, Except.bind]
    · intro calls hcounted
      have hmem : .notifyAll ∉ calls := by
        intro hmem
        rw [countOf, if_pos hmem] at hcounted
        exact hall hcounted
      dsimp only
      rw [hcounted, countOf, countOf, if_neg hmem, if_neg (by simp [hmem])]
      simp

theorem Sound.wake (h : s.Sound) :
    Sound { s with monitor := s.monitor.spuriousWake thread } := by
  obtain ⟨periods, last, hlog, hnone, hlast⟩ := h.log
  exact ⟨by simpa [Excludes] using h.holds, periods, last, hlog, by simpa using hnone,
    by simpa using hlast⟩

theorem Sound.step (h : s.Sound) {action : MonitorAction Thread} (hcounts : Counts s action) :
    ∃ next, monitorStep s action = .ok next ∧ next.Sound := by
  cases action with
  | lock thread =>
      refine ⟨_, rfl, ?_⟩
      split
      · exact h.acquire
      · exact h
  | tryLock thread =>
      refine ⟨_, rfl, ?_⟩
      split
      · exact h.acquire
      · exact h
  | notify thread =>
      by_cases hpc : s.pc thread = .held
      · exact h.notify hpc (hcounts hpc)
      · exact ⟨s, by simp only [monitorStep, if_neg hpc], h⟩
  | notifyAll thread =>
      refine ⟨_, rfl, ?_⟩
      split
      · rename_i hpc
        refine h.called hpc .notifyAll s.monitor.notifyAll rfl fun calls _ => ?_
        rw [countOf, if_pos (by simp)]
        rfl
      · exact h
  | leave thread leave =>
      refine ⟨_, rfl, ?_⟩
      split
      · rename_i hpc
        refine h.extend (by rw [hpc]; rfl) rfl rfl ?_
        rw [hpc]
        rintro last ⟨⟩
        rename_i calls hcounted
        rw [hcounted]
        exact .flush calls [] _ leave (by rw [pending_countOf, List.nil_append])
      · exact h
  | proceed thread choice refused => exact ⟨_, rfl, h.proceed choice refused⟩
  | wake thread => exact ⟨_, rfl, h.wake⟩

/-- At the largest `int`, `notify` overflows. -/
theorem notify_overflows (hpc : s.pc thread = .held)
    (hcount : s.monitor.notify_ = 2 ^ 31 - 1) :
    monitorStep s (.notify thread) = .error .overflow := by
  have hnot : s.monitor.notify_ ≠ -1 := by omega
  simp only [monitorStep, hpc, if_true, Monitor.notify, if_pos hnot, if_pos hcount, bind,
    Except.bind]

end Steps

omit [DecidableEq Thread] in
theorem sound_start : ({} : MonitorRun Thread).Sound :=
  ⟨excludes_none fun _ => rfl, [], [], rfl, fun _ => rfl, fun _ hholder => by contradiction⟩

/-- However the threads' steps are interleaved: every period has the notifications its
calls ask for, all at its end and sent by its own thread, exactly when no period without
`notifyAll` counts more calls of `notify` than an `int` holds. -/
theorem inPeriods_iff (actions : List (MonitorAction Thread)) :
    Stays monitorStep InPeriods {} actions ↔ Along monitorStep Counts {} actions := by
  refine stays_iff_along (fun _ h => h.inPeriods) (fun _ _ h hcounts => h.step hcounts) ?_
    sound_start
  intro s action next _ hnot hstep
  cases action with
  | notify thread =>
      simp only [Counts, not_forall, not_not] at hnot
      obtain ⟨hpc, hcount⟩ := hnot
      rw [notify_overflows hpc hcount] at hstep
      contradiction
  | _ => exact absurd trivial hnot

/-- A thread that calls `notify` until the count is the largest `int`, and once more. -/
theorem run_notifies_overflow {thread : Thread} (n : Nat) :
    ∀ {s : MonitorRun Thread}, s.pc thread = .held → 0 ≤ s.monitor.notify_ →
      s.monitor.notify_ + n = 2 ^ 31 - 1 →
      run monitorStep s (List.replicate (n + 1) (.notify thread)) = .error .overflow := by
  induction n with
  | zero =>
      intro s hpc _ hcount
      simp [run, notify_overflows hpc (by omega)]
  | succ n ih =>
      intro s hpc hpos hcount
      have hstep : monitorStep s (.notify thread) =
          .ok (s.advance thread .held { s.monitor with notify_ := s.monitor.notify_ + 1 }
            [.called thread .notify]) := by
        rw [Int.natCast_succ] at hcount
        simp only [monitorStep, hpc, if_true, bind, Except.bind,
          Monitor.notify_of_lt hpos (by omega)]
      rw [List.replicate_succ, run_cons_of_ok hstep]
      refine ih (Function.update_self thread _ s.pc) ?_ ?_
      · simp only [advance]
        omega
      · rw [Int.natCast_succ] at hcount
        simp only [advance]
        omega

/-- A thread gets the mutex and calls `notify` some times. -/
def lockAndNotify (thread : Thread) (times : Nat) : List (MonitorAction Thread) :=
  .lock thread :: .proceed thread 0 false :: List.replicate times (.notify thread)

theorem run_lockAndNotify (thread : Thread) :
    run monitorStep {} (lockAndNotify thread (2 ^ 31 - 1 + 1)) = .error .overflow := by
  have hlock : monitorStep {} (.lock thread) =
      .ok (advance {} thread .reset { holder := some thread } [.began thread]) := rfl
  have hreset : monitorStep (advance {} thread .reset { holder := some thread }
      [.began thread]) (.proceed thread 0 false) =
        .ok (advance (advance {} thread .reset { holder := some thread } [.began thread])
          thread .held { holder := some thread } []) := by
    simp [monitorStep, proceed, advance]
  rw [lockAndNotify, run_cons_of_ok hlock, run_cons_of_ok hreset]
  exact run_notifies_overflow _ (Function.update_self thread _ _) (by simp [advance])
    (by simp [advance])

/-- The call of `notify` number 2^31 of a period. -/
theorem notifications_lost :
    ¬ Stays monitorStep InPeriods ({} : MonitorRun Unit) (lockAndNotify () (2 ^ 31)) := by
  intro hstays
  obtain ⟨last, hrun, _⟩ := hstays.run_ok
  exact absurd (hrun.symm.trans (run_lockAndNotify ())) (by simp)

end MonitorRun

end Tarsx
