/-
`AsyncProcThread`: the thread that runs the callbacks of asynchronous calls, the network
thread that pushes their messages, and a thread that calls `terminate`, a statement at a
time and interleaved in any way.  `run` tests the queue before it takes the monitor, and
waits without a second test.
-/
import Tarsx.Foundation.Exclusion
import Tarsx.Foundation.Run
import Tarsx.LoopQueue
import Tarsx.Monitor

namespace Tarsx

open Foundation

universe u

variable {α : Type u}

/-- The three threads. -/
inductive AsyncParty where
  | producer
  | consumer
  | terminator
deriving DecidableEq, Repr

/-- Where the network thread is in `push_back`; `flag` is what the queue returned. -/
inductive AsyncPushPc (α : Type u) where
  | out
  /-- `msgQueue_->push_back(msg)` -/
  | insert (msg : α)
  | lock (flag : Bool)
  | notify (flag : Bool)
  /-- the `notifyImpl` of `unlock` -/
  | signal (flag : Bool)
  | release (flag : Bool)
  /-- `delete msg` where the queue was full -/
  | delete
deriving DecidableEq, Repr

/-- Where the thread is in `run`. -/
inductive AsyncRunPc (α : Type u) where
  /-- `while (!terminate_)` -/
  | loop
  /-- `if (msgQueue_->empty())`, without the lock -/
  | empty
  | lock
  /-- `monitor_.timedWait(1000)` -/
  | wait
  /-- inside `pthread_cond_timedwait` -/
  | blocked
  | signal
  | release
  /-- `if (msgQueue_->pop_front(msg))` -/
  | pop
  /-- the callback of a message, which is deleted then -/
  | callback (msg : α)
  /-- behind `exit = true` -/
  | done
deriving DecidableEq, Repr

/-- Where the other thread is in `terminate`. -/
inductive AsyncTerminatePc where
  | out
  | lock
  | terminate
  | notifyAll
  | signal
  | release
deriving DecidableEq, Repr

def AsyncPushPc.holds : AsyncPushPc α → Bool
  | .notify _ | .signal _ | .release _ => true
  | _ => false

def AsyncRunPc.holds : AsyncRunPc α → Bool
  | .wait | .signal | .release => true
  | _ => false

def AsyncTerminatePc.holds : AsyncTerminatePc → Bool
  | .terminate | .notifyAll | .signal | .release => true
  | _ => false

/-- A message is in the queue, and its notification has not been sent. -/
def AsyncPushPc.pushing : AsyncPushPc α → Bool
  | .lock flag | .notify flag | .signal flag => flag
  | _ => false

structure AsyncProcThread (α : Type u) where
  msgQueue : LoopQueue α
  monitor : Monitor AsyncParty := {}
  terminate_ : Bool := false
  producer : AsyncPushPc α := .out
  consumer : AsyncRunPc α := .loop
  terminator : AsyncTerminatePc := .out

/-- A call begins, or a thread takes its next step; `refused` tells whether
`pthread_cond_timedwait` comes back at once.  `wake` is the end of the second, or a
wake-up without a signal. -/
inductive AsyncAction (α : Type u) where
  | pushBack (msg : α)
  | producer
  | consumer (refused : Bool)
  | terminate
  | terminator
  | wake
deriving DecidableEq, Repr

namespace AsyncProcThread

/-- The next step of `push_back`. -/
def producerStep (s : AsyncProcThread α) : Except Fault (AsyncProcThread α) :=
  match s.producer with
  | .out => .ok s
  | .insert msg =>
      .ok { s with
        msgQueue := (s.msgQueue.pushBackElement msg).2
        producer := .lock (s.msgQueue.pushBackElement msg).1 }
  | .lock flag =>
      match s.monitor.lock .producer with
      | none => .ok s
      | some locked => .ok { s with monitor := locked, producer := .notify flag }
  | .notify flag =>
      match s.monitor.notify with
      | .error fault => .error fault
      | .ok notified => .ok { s with monitor := notified, producer := .signal flag }
  | .signal flag =>
      .ok { s with monitor := s.monitor.notifyImpl [], producer := .release flag }
  | .release flag =>
      .ok { s with
        monitor := s.monitor.release, producer := if flag then .out else .delete }
  | .delete => .ok { s with producer := .out }

/-- The next step of `run`. -/
def consumerStep (s : AsyncProcThread α) (refused : Bool) : AsyncProcThread α :=
  match s.consumer with
  | .loop => { s with consumer := if s.terminate_ then .done else .empty }
  | .empty => { s with consumer := if s.msgQueue.empty then .lock else .pop }
  | .lock =>
      match s.monitor.lock .consumer with
      | none => s
      | some locked => { s with monitor := locked, consumer := .wait }
  | .wait =>
      if refused then
        { s with
          monitor := { s.monitor.notifyImpl [] with notify_ := 0 }, consumer := .signal }
      else { s with monitor := s.monitor.wait .consumer [], consumer := .blocked }
  | .blocked =>
      match s.monitor.resume .consumer with
      | none => s
      | some resumed => { s with monitor := resumed, consumer := .signal }
  | .signal => { s with monitor := s.monitor.notifyImpl [], consumer := .release }
  | .release => { s with monitor := s.monitor.release, consumer := .pop }
  | .pop =>
      match s.msgQueue.popFront with
      | (none, queue) => { s with msgQueue := queue, consumer := .loop }
      | (some msg, queue) => { s with msgQueue := queue, consumer := .callback msg }
  | .callback _ => { s with consumer := .loop }
  | .done => s

/-- The next step of `terminate`. -/
def terminatorStep (s : AsyncProcThread α) : AsyncProcThread α :=
  match s.terminator with
  | .out => s
  | .lock =>
      match s.monitor.lock .terminator with
      | none => s
      | some locked => { s with monitor := locked, terminator := .terminate }
  | .terminate => { s with terminate_ := true, terminator := .notifyAll }
  | .notifyAll => { s with monitor := s.monitor.notifyAll, terminator := .signal }
  | .signal => { s with monitor := s.monitor.notifyImpl [], terminator := .release }
  | .release => { s with monitor := s.monitor.release, terminator := .out }

/-- The network thread and the terminator call again when their last call is over. -/
def step (s : AsyncProcThread α) : AsyncAction α → Except Fault (AsyncProcThread α)
  | .pushBack msg =>
      match s.producer with
      | .out => .ok { s with producer := .insert msg }
      | _ => .ok s
  | .producer => s.producerStep
  | .consumer refused => .ok (s.consumerStep refused)
  | .terminate => .ok { s with terminator := if s.terminator = .out then .lock else s.terminator }
  | .terminator => .ok s.terminatorStep
  | .wake => .ok { s with monitor := s.monitor.spuriousWake .consumer }

/-! ### What must hold, and when it does -/

/-- While the consumer waits and was not woken, the queue is empty, or a `push_back` is
between its insertion and its notification. -/
def NotStranded (s : AsyncProcThread α) : Prop :=
  .consumer ∈ s.monitor.waiting → s.msgQueue.empty = false → s.producer.pushing = true

/-- The consumer begins to wait while the queue is still empty, or a `push_back` has its
notification still to send. -/
def WaitsInTime (s : AsyncProcThread α) : AsyncAction α → Prop
  | .consumer false => s.consumer = .wait → s.msgQueue.empty = false → s.producer.pushing = true
  | _ => True

/-! ### The invariant -/

/-- The threads that are between `lock` and `unlock` and not inside a wait. -/
def holdsAt (s : AsyncProcThread α) : AsyncParty → Bool
  | .producer => s.producer.holds
  | .consumer => s.consumer.holds
  | .terminator => s.terminator.holds

end AsyncProcThread

/-- What `push_back` has counted in its period. -/
def AsyncPushPc.Counted (notify_ : Int) : AsyncPushPc α → Prop
  | .notify _ => notify_ = 0
  | .signal _ => notify_ = 1
  | _ => True

/-- What a thread is inside `pthread_cond_wait` with. -/
def AsyncRunPc.parks : AsyncRunPc α → List AsyncParty
  | .blocked => [.consumer]
  | _ => []

namespace AsyncProcThread

/-- The threads agree on who holds the mutex, only the consumer waits, and a push has its
one notification counted. -/
structure Sound (s : AsyncProcThread α) : Prop where
  holds : Excludes id s.monitor.holder s.holdsAt
  parked : s.monitor.parked.Perm s.consumer.parks
  counted : s.producer.Counted s.monitor.notify_
  keeps : s.NotStranded

theorem sound_start (queue : LoopQueue α) : Sound { msgQueue := queue } := by
  refine ⟨excludes_none ?_, List.Perm.refl _, trivial, fun hwaiting => ?_⟩
  · intro party
    cases party <;> rfl
  · exact absurd hwaiting List.not_mem_nil

section Steps

variable {s : AsyncProcThread α}

/-- At most the consumer waits. -/
theorem Sound.waiting_length (h : s.Sound) : s.monitor.waiting.length ≤ 1 := by
  have hlength := h.parked.length_eq
  rw [Monitor.parked, List.length_append] at hlength
  have hparks : s.consumer.parks.length ≤ 1 := by
    cases s.consumer <;> simp [AsyncRunPc.parks]
  omega

/-- A thread that changes what is counted holds the mutex or takes it, so a push has
nothing counted then. -/
theorem counted_of_not_holds {pc : AsyncPushPc α} (hout : pc.holds = false) (notify_ : Int) :
    pc.Counted notify_ := by
  cases pc with
  | notify flag => contradiction
  | signal flag => contradiction
  | _ => trivial

theorem Sound.producer_out (h : s.Sound) {party : AsyncParty} (hother : party ≠ .producer)
    (hbefore : s.monitor.holder = none ∨ s.monitor.holder = some party) (notify_ : Int) :
    s.producer.Counted notify_ := by
  refine counted_of_not_holds ?_ notify_
  by_contra hin
  have hheld := (h.holds .producer).mpr (Bool.not_eq_false _ ▸ hin)
  rcases hbefore with hnone | hsome
  · rw [hnone] at hheld
    contradiction
  · exact hother (Option.some.inj (hsome.symm.trans hheld))

/-! #### The network thread -/

theorem holdsAt_producer (pc : AsyncPushPc α) (queue : LoopQueue α)
    (monitor : Monitor AsyncParty) :
    ({ s with msgQueue := queue, monitor := monitor, producer := pc } :
      AsyncProcThread α).holdsAt = Function.update s.holdsAt .producer pc.holds := by
  funext party
  cases party <;> rfl

/-- A step of the network thread. -/
theorem Sound.producer_next (h : s.Sound) (pc : AsyncPushPc α) (queue : LoopQueue α)
    (monitor : Monitor AsyncParty)
    (hholds : Excludes id monitor.holder (Function.update s.holdsAt .producer pc.holds))
    (hparked : monitor.parked.Perm s.monitor.parked)
    (hcounted : pc.Counted monitor.notify_)
    (hkeeps : .consumer ∈ monitor.waiting → queue.empty = false → pc.pushing = true) :
    Sound { s with msgQueue := queue, monitor := monitor, producer := pc } := by
  refine ⟨?_, hparked.trans h.parked, hcounted, hkeeps⟩
  rw [holdsAt_producer]
  exact hholds

/-- A step of `push_back` without the monitor. -/
theorem Sound.producer_quiet (h : s.Sound) (hout : s.producer.holds = false)
    (pc : AsyncPushPc α) (queue : LoopQueue α) (hholds : pc.holds = false)
    (hkeeps : .consumer ∈ s.monitor.waiting → queue.empty = false → pc.pushing = true) :
    Sound { s with msgQueue := queue, producer := pc } := by
  have hsame : pc.holds = s.holdsAt .producer := hholds.trans hout.symm
  exact h.producer_next pc queue s.monitor (h.holds.move pc.holds hsame) (List.Perm.refl _)
    (counted_of_not_holds hholds _) hkeeps

/-- A full queue stays as it is. -/
theorem pushBackElement_of_full {queue : LoopQueue α} {msg : α}
    (hfull : (queue.pushBackElement msg).1 = false) : (queue.pushBackElement msg).2 = queue := by
  simp only [LoopQueue.pushBackElement, LoopQueue.pushBack] at hfull ⊢
  split at hfull
  · rename_i hno
    rw [if_pos hno]
  · contradiction

theorem Sound.producer (h : s.Sound) : ∃ next, s.producerStep = .ok next ∧ next.Sound := by
  have hheld : s.producer.holds = true → s.monitor.holder = some .producer :=
    (h.holds .producer).mpr
  have hcounted := h.counted
  have hkeeps := h.keeps
  cases hpc : s.producer with
  | out => exact ⟨s, by simp only [producerStep, hpc], h⟩
  | insert msg =>
      refine ⟨_, by simp only [producerStep, hpc], h.producer_quiet (by rw [hpc]; rfl)
        (.lock (s.msgQueue.pushBackElement msg).1) (s.msgQueue.pushBackElement msg).2 rfl ?_⟩
      intro hwaiting hsome
      cases hstored : (s.msgQueue.pushBackElement msg).1 with
      | true => rfl
      | false =>
          rw [pushBackElement_of_full hstored] at hsome
          have hpushing := hkeeps hwaiting hsome
          rw [hpc] at hpushing
          contradiction
  | lock flag =>
      cases hlock : s.monitor.lock .producer with
      | none => exact ⟨s, by simp only [producerStep, hpc, hlock], h⟩
      | some locked =>
          obtain ⟨hfree, rfl⟩ := Monitor.lock_eq_some hlock
          refine ⟨_, by simp only [producerStep, hpc, hlock], h.producer_next (.notify flag)
            s.msgQueue { s.monitor with holder := some .producer, notify_ := 0 }
            (h.holds.update (Or.inl hfree) _ rfl) (List.Perm.refl _) rfl ?_⟩
          intro hwaiting hsome
          rw [NotStranded, hpc] at hkeeps
          exact hkeeps hwaiting hsome
  | notify flag =>
      have hholder := hheld (by rw [hpc]; rfl)
      rw [hpc] at hcounted
      have hzero : s.monitor.notify_ = 0 := hcounted
      have hnotify := Monitor.notify_of_lt (m := s.monitor) (by omega) (by omega)
      refine ⟨_, by simp only [producerStep, hpc, hnotify], h.producer_next (.signal flag)
        s.msgQueue { s.monitor with notify_ := s.monitor.notify_ + 1 }
        (h.holds.update (Or.inr hholder) _ hholder) (List.Perm.refl _) ?_ ?_⟩
      · change s.monitor.notify_ + 1 = 1
        omega
      · intro hwaiting hsome
        rw [NotStranded, hpc] at hkeeps
        exact hkeeps hwaiting hsome
  | signal flag =>
      have hholder := hheld (by rw [hpc]; rfl)
      rw [hpc] at hcounted
      have hwoken := Monitor.notifyImpl_wakes hcounted [] h.waiting_length
      refine ⟨_, by simp only [producerStep, hpc], h.producer_next (.release flag)
        s.msgQueue (s.monitor.notifyImpl [])
        (h.holds.update (Or.inr hholder) _ ((Monitor.notifyImpl_holder []).trans hholder))
        (Monitor.notifyImpl_parked []) trivial ?_⟩
      intro hwaiting
      rw [hwoken] at hwaiting
      exact absurd hwaiting List.not_mem_nil
  | release flag =>
      have hholder := hheld (by rw [hpc]; rfl)
      have hout : AsyncPushPc.holds (if flag then (.out : AsyncPushPc α) else .delete) = false := by
        cases flag <;> rfl
      refine ⟨_, by simp only [producerStep, hpc], h.producer_next
        (if flag then .out else .delete) s.msgQueue s.monitor.release
        (h.holds.update (Or.inr hholder) _ (by rw [hout]; rfl)) (List.Perm.refl _)
        (counted_of_not_holds hout _) ?_⟩
      intro hwaiting hsome
      have hpushing := hkeeps hwaiting hsome
      rw [hpc] at hpushing
      contradiction
  | delete =>
      refine ⟨_, by simp only [producerStep, hpc], h.producer_quiet (by rw [hpc]; rfl) .out
        s.msgQueue rfl ?_⟩
      intro hwaiting hsome
      have hpushing := hkeeps hwaiting hsome
      rw [hpc] at hpushing
      contradiction

/-! #### The terminator -/

theorem terminator_ne : AsyncParty.terminator ≠ .producer := by decide

theorem holdsAt_terminator (pc : AsyncTerminatePc) (terminate_ : Bool)
    (monitor : Monitor AsyncParty) :
    ({ s with monitor := monitor, terminate_ := terminate_, terminator := pc } :
      AsyncProcThread α).holdsAt = Function.update s.holdsAt .terminator pc.holds := by
  funext party
  cases party <;> rfl

/-- A step of `terminate`, which only wakes. -/
theorem Sound.terminator_next (h : s.Sound) (pc : AsyncTerminatePc) (terminate_ : Bool)
    (monitor : Monitor AsyncParty)
    (hholds : Excludes id monitor.holder (Function.update s.holdsAt .terminator pc.holds))
    (hparked : monitor.parked.Perm s.monitor.parked)
    (hcounted : s.producer.Counted monitor.notify_)
    (hwaiting : monitor.waiting.Sublist s.monitor.waiting) :
    Sound { s with monitor := monitor, terminate_ := terminate_, terminator := pc } := by
  refine ⟨?_, hparked.trans h.parked, hcounted, fun hin => h.keeps (hwaiting.subset hin)⟩
  rw [holdsAt_terminator]
  exact hholds

theorem Sound.terminator (h : s.Sound) : s.terminatorStep.Sound := by
  have hheld : s.terminator.holds = true → s.monitor.holder = some .terminator :=
    (h.holds .terminator).mpr
  cases hpc : s.terminator with
  | out => simpa only [terminatorStep, hpc] using h
  | lock =>
      simp only [terminatorStep, hpc]
      cases hlock : s.monitor.lock .terminator with
      | none => exact h
      | some locked =>
          obtain ⟨hfree, rfl⟩ := Monitor.lock_eq_some hlock
          exact h.terminator_next .terminate s.terminate_ _ (h.holds.update (Or.inl hfree) _ rfl)
            (List.Perm.refl _) (h.producer_out terminator_ne (Or.inl hfree) _)
            (List.Sublist.refl _)
  | terminate =>
      have hholder := hheld (by rw [hpc]; rfl)
      simp only [terminatorStep, hpc]
      exact h.terminator_next .notifyAll true s.monitor
        (h.holds.update (Or.inr hholder) _ hholder) (List.Perm.refl _) h.counted
        (List.Sublist.refl _)
  | notifyAll =>
      have hholder := hheld (by rw [hpc]; rfl)
      simp only [terminatorStep, hpc]
      exact h.terminator_next .signal s.terminate_ s.monitor.notifyAll
        (h.holds.update (Or.inr hholder) _ hholder) (List.Perm.refl _)
        (h.producer_out terminator_ne (Or.inr hholder) _) (List.Sublist.refl _)
  | signal =>
      have hholder := hheld (by rw [hpc]; rfl)
      simp only [terminatorStep, hpc]
      exact h.terminator_next .release s.terminate_ (s.monitor.notifyImpl [])
        (h.holds.update (Or.inr hholder) _ ((Monitor.notifyImpl_holder []).trans hholder))
        (Monitor.notifyImpl_parked []) (by simpa using h.counted)
        (Monitor.notifyImpl_waiting [])
  | release =>
      have hholder := hheld (by rw [hpc]; rfl)
      simp only [terminatorStep, hpc]
      exact h.terminator_next .out s.terminate_ s.monitor.release
        (h.holds.update (Or.inr hholder) _ rfl) (List.Perm.refl _) h.counted
        (List.Sublist.refl _)

/-! #### The consumer -/

theorem consumer_ne : AsyncParty.consumer ≠ .producer := by decide

theorem holdsAt_consumer (pc : AsyncRunPc α) (queue : LoopQueue α)
    (monitor : Monitor AsyncParty) :
    ({ s with msgQueue := queue, monitor := monitor, consumer := pc } :
      AsyncProcThread α).holdsAt = Function.update s.holdsAt .consumer pc.holds := by
  funext party
  cases party <;> rfl

/-- A step of `run`. -/
theorem sound_consumer (pc : AsyncRunPc α) (queue : LoopQueue α)
    (monitor : Monitor AsyncParty)
    (hholds : Excludes id monitor.holder (Function.update s.holdsAt .consumer pc.holds))
    (hparked : monitor.parked.Perm pc.parks)
    (hcounted : s.producer.Counted monitor.notify_)
    (hkeeps : pc = .blocked → .consumer ∈ monitor.waiting → queue.empty = false →
      s.producer.pushing = true) :
    Sound { s with msgQueue := queue, monitor := monitor, consumer := pc } := by
  refine ⟨?_, hparked, hcounted, fun hwaiting => hkeeps ?_ hwaiting⟩
  · rw [holdsAt_consumer]
    exact hholds
  · have hin := hparked.subset (List.mem_append_left _ hwaiting)
    cases pc with
    | blocked => rfl
    | _ => exact absurd hin List.not_mem_nil

/-- A step of `run` without the monitor. -/
theorem Sound.consumer_quiet (h : s.Sound) {before : AsyncRunPc α} (hpc : s.consumer = before)
    (hbefore : before.holds = false ∧ before.parks = []) (pc : AsyncRunPc α)
    (queue : LoopQueue α) (hnext : pc.holds = false ∧ pc.parks = []) :
    Sound { s with msgQueue := queue, consumer := pc } := by
  have hsame : pc.holds = s.holdsAt .consumer := by rw [holdsAt, hpc, hbefore.1, hnext.1]
  have hparked := h.parked
  rw [hpc, hbefore.2, ← hnext.2] at hparked
  refine sound_consumer pc queue s.monitor (h.holds.move pc.holds hsame) hparked h.counted ?_
  rintro rfl
  exact absurd hnext.2 (List.cons_ne_nil _ _)

theorem Sound.consumer (h : s.Sound) {refused : Bool}
    (htime : s.WaitsInTime (.consumer refused)) : (s.consumerStep refused).Sound := by
  have hheld : s.consumer.holds = true → s.monitor.holder = some .consumer :=
    (h.holds .consumer).mpr
  have hparked := h.parked
  cases hpc : s.consumer with
  | loop =>
      simp only [consumerStep, hpc]
      split
      · exact h.consumer_quiet hpc ⟨rfl, rfl⟩ .done _ ⟨rfl, rfl⟩
      · exact h.consumer_quiet hpc ⟨rfl, rfl⟩ .empty _ ⟨rfl, rfl⟩
  | empty =>
      simp only [consumerStep, hpc]
      split
      · exact h.consumer_quiet hpc ⟨rfl, rfl⟩ .lock _ ⟨rfl, rfl⟩
      · exact h.consumer_quiet hpc ⟨rfl, rfl⟩ .pop _ ⟨rfl, rfl⟩
  | lock =>
      simp only [consumerStep, hpc]
      cases hlock : s.monitor.lock .consumer with
      | none => exact h
      | some locked =>
          obtain ⟨hfree, rfl⟩ := Monitor.lock_eq_some hlock
          rw [hpc] at hparked
          exact sound_consumer .wait s.msgQueue _ (h.holds.update (Or.inl hfree) _ rfl) hparked
            (h.producer_out consumer_ne (Or.inl hfree) _) fun hblocked => by contradiction
  | wait =>
      have hholder := hheld (by rw [hpc]; rfl)
      rw [hpc] at hparked
      simp only [consumerStep, hpc]
      cases refused with
      | true =>
          exact sound_consumer .signal s.msgQueue _
            (h.holds.update (Or.inr hholder) _ ((Monitor.notifyImpl_holder []).trans hholder))
            ((Monitor.notifyImpl_parked []).trans hparked)
            (h.producer_out consumer_ne (Or.inr hholder) _) fun hblocked => by contradiction
      | false =>
          exact sound_consumer .blocked s.msgQueue _
            (h.holds.update (Or.inr hholder) _ rfl)
            ((Monitor.wait_parked []).trans (hparked.cons .consumer))
            (h.producer_out consumer_ne (Or.inr hholder) _) fun _ _ => htime hpc
  | blocked =>
      simp only [consumerStep, hpc]
      cases hresume : s.monitor.resume .consumer with
      | none => exact h
      | some resumed =>
          have hleft := Monitor.resume_parked hresume
          obtain ⟨hfree, rfl⟩ := Monitor.resume_eq_some hresume
          rw [hpc] at hparked
          exact sound_consumer .signal s.msgQueue _ (h.holds.update (Or.inl hfree) _ rfl)
            (hleft.symm.trans hparked).cons_inv
            (h.producer_out consumer_ne (Or.inl hfree) _) fun hblocked => by contradiction
  | signal =>
      have hholder := hheld (by rw [hpc]; rfl)
      rw [hpc] at hparked
      simp only [consumerStep, hpc]
      exact sound_consumer .release s.msgQueue _
        (h.holds.update (Or.inr hholder) _ ((Monitor.notifyImpl_holder []).trans hholder))
        ((Monitor.notifyImpl_parked []).trans hparked) (by simpa using h.counted)
        fun hblocked => by contradiction
  | release =>
      have hholder := hheld (by rw [hpc]; rfl)
      rw [hpc] at hparked
      simp only [consumerStep, hpc]
      exact sound_consumer .pop s.msgQueue _ (h.holds.update (Or.inr hholder) _ rfl) hparked
        h.counted fun hblocked => by contradiction
  | pop =>
      simp only [consumerStep, hpc]
      rcases s.msgQueue.popFront with ⟨_ | msg, queue⟩
      · exact h.consumer_quiet hpc ⟨rfl, rfl⟩ .loop queue ⟨rfl, rfl⟩
      · exact h.consumer_quiet hpc ⟨rfl, rfl⟩ (.callback msg) queue ⟨rfl, rfl⟩
  | callback msg =>
      simp only [consumerStep, hpc]
      exact h.consumer_quiet hpc ⟨rfl, rfl⟩ .loop _ ⟨rfl, rfl⟩
  | done => simpa only [consumerStep, hpc] using h

/-! #### Runs -/

theorem Sound.step (h : s.Sound) {action : AsyncAction α} (htime : s.WaitsInTime action) :
    ∃ next, s.step action = .ok next ∧ next.Sound := by
  cases action with
  | pushBack msg =>
      cases hpc : s.producer with
      | out =>
          have hkeeps := h.keeps
          refine ⟨_, by simp only [AsyncProcThread.step, hpc], h.producer_quiet
            (by rw [hpc]; rfl) (.insert msg) s.msgQueue rfl ?_⟩
          intro hwaiting hsome
          have hpushing := hkeeps hwaiting hsome
          rw [hpc] at hpushing
          contradiction
      | _ => exact ⟨s, by simp only [AsyncProcThread.step, hpc], h⟩
  | producer => exact h.producer
  | consumer refused => exact ⟨_, rfl, h.consumer htime⟩
  | terminate =>
      refine ⟨_, rfl, ?_⟩
      split
      · rename_i hout
        exact h.terminator_next .lock s.terminate_ s.monitor
          (h.holds.move _ (show _ = s.holdsAt .terminator by rw [holdsAt, hout]; rfl))
          (List.Perm.refl _) h.counted (List.Sublist.refl _)
      · exact h
  | terminator => exact ⟨_, rfl, h.terminator⟩
  | wake =>
      refine ⟨_, rfl, sound_consumer s.consumer s.msgQueue (s.monitor.spuriousWake .consumer) ?_
        (Monitor.spuriousWake_parked.trans h.parked) (by simpa using h.counted) ?_⟩
      · rw [Monitor.spuriousWake_holder]
        exact h.holds.move s.consumer.holds rfl
      · intro _ hwaiting
        rw [Monitor.spuriousWake_waiting] at hwaiting
        exact h.keeps (List.mem_of_mem_erase hwaiting)

/-- A consumer that begins to wait too late is stranded. -/
theorem stranded_of_late {action : AsyncAction α} (hlate : ¬ s.WaitsInTime action)
    {next : AsyncProcThread α} (hstep : s.step action = .ok next) : ¬ next.NotStranded := by
  match action with
  | .consumer false =>
      simp only [WaitsInTime, not_forall] at hlate
      obtain ⟨hpc, hsome, hpushing⟩ := hlate
      obtain rfl := Except.ok.inj hstep
      intro hkeeps
      simp only [consumerStep, hpc] at hkeeps
      refine hpushing (hkeeps ?_ hsome)
      exact List.mem_append_right _ (List.mem_singleton_self _)
  | .consumer true => exact absurd trivial hlate
  | .pushBack _ => exact absurd trivial hlate
  | .producer => exact absurd trivial hlate
  | .terminate => exact absurd trivial hlate
  | .terminator => exact absurd trivial hlate
  | .wake => exact absurd trivial hlate

end Steps

/-- However the steps of the three threads are interleaved: no step faults and the consumer
never waits unwoken beside a queue that is not empty, unless a push has its notification
still to send, exactly when it begins no wait that way. -/
theorem notStranded_iff (queue : LoopQueue α) (actions : List (AsyncAction α)) :
    Stays step NotStranded { msgQueue := queue } actions ↔
      Along step WaitsInTime { msgQueue := queue } actions :=
  stays_iff_along (fun _ h => h.keeps) (fun _ _ h htime => h.step htime)
    (fun _ _ _ _ hlate hstep => stranded_of_late hlate hstep) (sound_start queue)

/-- The consumer tests the empty queue, a whole `push_back` follows, and then the consumer
takes the monitor and waits. -/
theorem consumer_stranded :
    ∃ queue, LoopQueue.create 1000 = .ok queue ∧
      ∃ s, run step { msgQueue := queue }
        [.consumer false, .consumer false, .pushBack 7, .producer, .producer, .producer,
          .producer, .producer, .consumer false, .consumer false] = .ok s ∧
        s.producer = .out ∧ s.msgQueue.elements = [7] ∧ s.monitor.waiting = [.consumer] ∧
        ¬ s.NotStranded := by
  refine ⟨_, rfl, _, rfl, rfl, rfl, rfl, fun hkeeps => ?_⟩
  exact Bool.false_ne_true (hkeeps (List.mem_singleton_self _) rfl)

end AsyncProcThread

end Tarsx
