/-
What a blocking `pop_front` or `swap` of a `ThreadDeque` comes back with.  Behind the wait
neither looks at the deque again, so a waiter that is woken for an element returns without
it.
-/
import Tarsx.ThreadDeque

namespace Tarsx

open Foundation

universe u

variable {Thread T : Type u}

/-- Unless the wait timed out, `pop_front` takes the first element, if there is one, and
`swap` all of them. -/
def Resumed.Delivers (r : Resumed T) : Prop :=
  r.timedOut = false →
    match r.contents, r.op with
    | [], _ => True
    | front :: rest, .popFront _ => r.result = .element front ∧ r.left = rest
    | front :: rest, .swap deque _ =>
        r.result = .swapped true (front :: rest) ∧ r.left = deque

namespace DequeRun

/-- Every wait that came back has done what its operation is for. -/
def Delivers (s : DequeRun Thread T) : Prop := ∀ r ∈ s.resumed, r.Delivers

/-- A waiter whose wait did not time out gets the lock back while the deque is empty. -/
def FindsNothing [DecidableEq Thread] (s : DequeRun Thread T) : DequeAction Thread T → Prop
  | .proceed thread _ _ => ∀ op, s.pc thread = .blocked op false →
      (s.queue.monitor.resume thread).isSome = true → s.queue.deque = []
  | _ => True

end DequeRun

/-! ### The operations -/

namespace ThreadDeque

section

variable {d next : ThreadDeque Thread T}

/-- An operation leaves the mutex with its holder and counts the elements. -/
structure Keeps (d next : ThreadDeque Thread T) : Prop where
  holder : next.monitor.holder = d.monitor.holder
  size : d.size = d.deque.length → next.size = next.deque.length

theorem Keeps.refl : Keeps d d := ⟨rfl, fun hsize => hsize⟩

theorem Keeps.trans {other : ThreadDeque Thread T} (h : Keeps d next) (h' : Keeps next other) :
    Keeps d other :=
  ⟨h'.holder.trans h.holder, fun hsize => h'.size (h.size hsize)⟩

/-- Where an element is put, the container has one more. -/
def Grows (place : List T → T → List T) : Prop :=
  ∀ deque element, (place deque element).length = deque.length + 1

theorem grows_atBack : Grows (atBack : List T → T → List T) := by
  intro deque element
  simp [atBack]

theorem grows_atFront : Grows (atFront : List T → T → List T) := fun _ _ => rfl

section

variable {place : List T → T → List T}

theorem put_ok (hplace : Grows place) {element : T} (hput : d.put place element = .ok next) :
    Keeps d next := by
  obtain ⟨monitor, hnotify, hdone⟩ := ok_of_bind_ok hput
  obtain rfl := Except.ok.inj hdone
  exact ⟨Monitor.holder_of_notify hnotify, fun hsize => by rw [hplace, hsize]⟩

theorem putAll_ok (hplace : Grows place) (deque : List T) :
    ∀ {d : ThreadDeque Thread T}, putAll place d deque = .ok next → Keeps d next := by
  induction deque with
  | nil =>
      intro d hput
      exact Except.ok.inj hput ▸ Keeps.refl
  | cons element rest ih =>
      intro d hput
      obtain ⟨middle, hone, hrest⟩ := ok_of_bind_ok hput
      exact (put_ok hplace hone).trans (ih hrest)

/-- An operation that puts elements faults where `notify_` overflows only. -/
theorem overflow_of_put {element : T} {fault : Fault}
    (hput : d.put place element = .error fault) : fault = .overflow := by
  cases hnotify : d.monitor.notify with
  | ok monitor => simp [put, hnotify, bind, Except.bind] at hput
  | error other =>
      simp only [put, hnotify, bind, Except.bind, Except.error.injEq] at hput
      exact hput ▸ Monitor.overflow_of_notify hnotify

theorem overflow_of_putAll (deque : List T) {fault : Fault} :
    ∀ {d : ThreadDeque Thread T}, putAll place d deque = .error fault → fault = .overflow := by
  induction deque with
  | nil =>
      intro d hput
      contradiction
  | cons element rest ih =>
      intro d hput
      cases hone : d.put place element with
      | error other =>
          simp only [putAll, hone, bind, Except.bind, Except.error.injEq] at hput
          exact hput ▸ overflow_of_put hone
      | ok middle =>
          simp only [putAll, hone, bind, Except.bind] at hput
          exact ih hput

end

/-- What an operation does before it waits: it only waits for an empty deque. -/
theorem body_ok {nullptr : T} {op : DequeOp T} {outcome : Outcome T}
    (hbody : d.body nullptr op = .ok (next, outcome)) :
    Keeps d next ∧ ∀ take, outcome = .waits take → next.deque = [] := by
  cases op with
  | take op =>
      cases op with
      | popFront millsecond =>
          simp only [body, popFront] at hbody
          cases hdeque : d.deque with
          | nil =>
              simp only [hdeque, Except.ok.injEq, Prod.mk.injEq] at hbody
              exact ⟨hbody.1 ▸ Keeps.refl, fun _ _ => hbody.1 ▸ hdeque⟩
          | cons front rest =>
              simp only [hdeque] at hbody
              split at hbody
              · simp only [Except.ok.injEq, Prod.mk.injEq] at hbody
                obtain ⟨rfl, rfl⟩ := hbody
                exact ⟨⟨rfl, fun hsize => by simp [hsize, hdeque]⟩, fun _ hwaits => by
                  contradiction⟩
              · contradiction
      | swap deque millsecond =>
          simp only [body, swap] at hbody
          cases hdeque : d.deque with
          | nil =>
              simp only [hdeque, Except.ok.injEq, Prod.mk.injEq] at hbody
              exact ⟨hbody.1 ▸ Keeps.refl, fun _ _ => hbody.1 ▸ hdeque⟩
          | cons front rest =>
              simp only [hdeque, Except.ok.injEq, Prod.mk.injEq] at hbody
              obtain ⟨rfl, rfl⟩ := hbody
              exact ⟨⟨rfl, fun _ => rfl⟩, fun _ hwaits => by contradiction⟩
  | notifyT =>
      obtain ⟨rfl, rfl⟩ := Prod.mk.inj (Except.ok.inj hbody)
      exact ⟨⟨rfl, fun hsize => hsize⟩, fun _ hwaits => by contradiction⟩
  | pushBack element =>
      obtain ⟨pushed, hput, hlast⟩ := ok_of_bind_ok hbody
      obtain ⟨rfl, rfl⟩ := Prod.mk.inj (Except.ok.inj hlast)
      exact ⟨put_ok grows_atBack hput, fun _ hwaits => by contradiction⟩
  | pushBackDeque deque =>
      obtain ⟨pushed, hput, hlast⟩ := ok_of_bind_ok hbody
      obtain ⟨rfl, rfl⟩ := Prod.mk.inj (Except.ok.inj hlast)
      exact ⟨putAll_ok grows_atBack deque hput, fun _ hwaits => by contradiction⟩
  | pushFront element =>
      obtain ⟨pushed, hput, hlast⟩ := ok_of_bind_ok hbody
      obtain ⟨rfl, rfl⟩ := Prod.mk.inj (Except.ok.inj hlast)
      exact ⟨put_ok grows_atFront hput, fun _ hwaits => by contradiction⟩
  | pushFrontDeque deque =>
      obtain ⟨pushed, hput, hlast⟩ := ok_of_bind_ok hbody
      obtain ⟨rfl, rfl⟩ := Prod.mk.inj (Except.ok.inj hlast)
      exact ⟨putAll_ok grows_atFront deque hput, fun _ hwaits => by contradiction⟩
  | size =>
      obtain ⟨rfl, rfl⟩ := Prod.mk.inj (Except.ok.inj hbody)
      exact ⟨Keeps.refl, fun _ hwaits => by contradiction⟩
  | clear =>
      obtain ⟨rfl, rfl⟩ := Prod.mk.inj (Except.ok.inj hbody)
      exact ⟨⟨rfl, fun _ => rfl⟩, fun _ hwaits => by contradiction⟩
  | empty =>
      obtain ⟨rfl, rfl⟩ := Prod.mk.inj (Except.ok.inj hbody)
      exact ⟨Keeps.refl, fun _ hwaits => by contradiction⟩

/-- Where the count is right, `pop_front` passes its assertion, and only a push faults. -/
theorem overflow_of_body (hsize : d.size = d.deque.length) {nullptr : T} {op : DequeOp T}
    {fault : Fault} (hbody : d.body nullptr op = .error fault) : fault = .overflow := by
  cases op with
  | take op =>
      cases op with
      | popFront millsecond =>
          simp only [body, popFront] at hbody
          cases hdeque : d.deque with
          | nil => simp [hdeque] at hbody
          | cons front rest => simp [hdeque, hsize] at hbody
      | swap deque millsecond =>
          simp only [body, swap] at hbody
          cases hdeque : d.deque with
          | nil => simp [hdeque] at hbody
          | cons front rest => simp [hdeque] at hbody
  | pushBack element =>
      cases hput : d.pushBack element with
      | ok pushed => simp [body, hput, bind, Except.bind] at hbody
      | error other =>
          simp only [body, hput, bind, Except.bind, Except.error.injEq] at hbody
          exact hbody ▸ overflow_of_put hput
  | pushBackDeque deque =>
      cases hput : d.pushBackDeque deque with
      | ok pushed => simp [body, hput, bind, Except.bind] at hbody
      | error other =>
          simp only [body, hput, bind, Except.bind, Except.error.injEq] at hbody
          exact hbody ▸ overflow_of_putAll deque hput
  | pushFront element =>
      cases hput : d.pushFront element with
      | ok pushed => simp [body, hput, bind, Except.bind] at hbody
      | error other =>
          simp only [body, hput, bind, Except.bind, Except.error.injEq] at hbody
          exact hbody ▸ overflow_of_put hput
  | pushFrontDeque deque =>
      cases hput : d.pushFrontDeque deque with
      | ok pushed => simp [body, hput, bind, Except.bind] at hbody
      | error other =>
          simp only [body, hput, bind, Except.bind, Except.error.injEq] at hbody
          exact hbody ▸ overflow_of_putAll deque hput
  | notifyT => contradiction
  | size => contradiction
  | clear => contradiction
  | empty => contradiction

end

end ThreadDeque

namespace DequeRun

/-! ### The invariant -/

variable [DecidableEq Thread]

/-- The threads agree on who holds the mutex, the elements are counted, and a thread that
is about to wait has found nothing. -/
structure Sound (s : DequeRun Thread T) : Prop where
  holds : Excludes DequePc.holds s.queue.monitor.holder s.pc
  size : s.queue.size = s.queue.deque.length
  waits : ∀ thread op, s.pc thread = .wait op → s.queue.deque = []
  delivers : s.Delivers

section Steps

variable {s : DequeRun Thread T} {thread : Thread}

/-- A thread moves while no other one holds the mutex. -/
theorem Sound.advance (h : s.Sound)
    (hbefore : s.queue.monitor.holder = none ∨ s.queue.monitor.holder = some thread)
    {pc : DequePc T} {queue : ThreadDeque Thread T}
    (hafter : queue.monitor.holder = if pc.holds then some thread else none)
    (hsize : queue.size = queue.deque.length)
    (hwaits : ∀ op, pc = .wait op → queue.deque = []) :
    (s.advance thread pc queue).Sound := by
  have hholds : Excludes DequePc.holds queue.monitor.holder (Function.update s.pc thread pc) :=
    h.holds.update hbefore pc hafter
  refine ⟨hholds, hsize, ?_, h.delivers⟩
  intro other op hother
  by_cases heq : other = thread
  · subst heq
    simp only [DequeRun.advance, Function.update_self] at hother
    exact hwaits op hother
  · simp only [DequeRun.advance, Function.update_of_ne heq] at hother
    have hheld := h.holds.holder_eq (show (s.pc other).holds = true by rw [hother]; rfl)
    rcases hbefore with hnone | hsome
    · rw [hnone] at hheld
      contradiction
    · exact absurd (Option.some.inj (hheld.symm.trans hsome)) heq

/-- A thread that does not hold the mutex moves and leaves the deque as it is. -/
theorem Sound.move (h : s.Sound) (hout : (s.pc thread).holds = false) {pc : DequePc T}
    {monitor : Monitor Thread} (hpc : pc.holds = false)
    (hholder : monitor.holder = s.queue.monitor.holder) :
    (s.advance thread pc { s.queue with monitor := monitor }).Sound := by
  refine ⟨?_, h.size, ?_, h.delivers⟩
  · simp only [DequeRun.advance, hholder]
    exact h.holds.move pc (hpc.trans hout.symm)
  · intro other op hother
    by_cases heq : other = thread
    · subst heq
      simp only [DequeRun.advance, Function.update_self] at hother
      rw [hother] at hpc
      contradiction
    · simp only [DequeRun.advance, Function.update_of_ne heq] at hother
      exact h.waits other op hother

/-- A record of a wait that came back to an empty deque. -/
theorem delivers_nil {r : Resumed T} (hcontents : r.contents = []) : r.Delivers := by
  intro _
  rw [hcontents]
  trivial

/-- A wait comes back, timed out or to an empty deque. -/
theorem Sound.resume (h : s.Sound) {nullptr : T} {op : DequeTake T} {timedOut : Bool}
    {monitor : Monitor Thread}
    (hbefore : s.queue.monitor.holder = none ∨ s.queue.monitor.holder = some thread)
    (hafter : monitor.holder = some thread) (hempty : timedOut = false → s.queue.deque = []) :
    (s.resume nullptr thread op timedOut monitor).Sound := by
  have hadvanced : (s.advance thread (.signal (ThreadDeque.afterWait nullptr op))
      { s.queue with monitor := monitor }).Sound :=
    h.advance hbefore hafter h.size fun _ hpc => by contradiction
  refine ⟨hadvanced.holds, hadvanced.size, hadvanced.waits, ?_⟩
  intro r hr
  rcases List.mem_append.mp hr with hold | hnew
  · exact h.delivers r hold
  · rw [List.mem_singleton] at hnew
    subst hnew
    cases timedOut with
    | true => exact fun hfalse => by contradiction
    | false => exact delivers_nil (hempty rfl)

/-- A wait that did not time out and comes back to an element leaves it there. -/
theorem not_delivers_resume {nullptr : T} {op : DequeTake T} {monitor : Monitor Thread}
    (hsome : s.queue.deque ≠ []) : ¬ (s.resume nullptr thread op false monitor).Delivers := by
  intro hdelivers
  have hlast := hdelivers _ (List.mem_append_right _ (List.mem_singleton_self _)) rfl
  cases hdeque : s.queue.deque with
  | nil => exact hsome hdeque
  | cons front rest =>
      rw [hdeque] at hlast
      cases op with
      | popFront millsecond => exact absurd (congrArg List.length hlast.2) (by simp)
      | swap deque millsecond => exact absurd hlast.1 (by simp [ThreadDeque.afterWait])

/-- The next step of an operation keeps the invariant. -/
theorem Sound.proceed (h : s.Sound) {nullptr : T} {choices : List Nat} {refused : Bool}
    (hempty : s.FindsNothing (.proceed thread choices refused)) {next : DequeRun Thread T}
    (hstep : s.proceed nullptr thread choices refused = .ok next) : next.Sound := by
  have hheld : (s.pc thread).holds = true → s.queue.monitor.holder = some thread :=
    h.holds.holder_eq
  cases hpc : s.pc thread with
  | out returned =>
      simp only [DequeRun.proceed, hpc, Except.ok.injEq] at hstep
      exact hstep ▸ h
  | lock op =>
      simp only [DequeRun.proceed, hpc] at hstep
      cases hlock : s.queue.monitor.lock thread with
      | none =>
          simp only [hlock, Except.ok.injEq] at hstep
          exact hstep ▸ h
      | some locked =>
          simp only [hlock, Except.ok.injEq] at hstep
          obtain ⟨hfree, hafter⟩ := Monitor.holder_of_lock hlock
          exact hstep ▸ h.advance (Or.inl hfree) hafter h.size fun _ hwait => by contradiction
  | body op =>
      have hholder := hheld (by rw [hpc]; rfl)
      simp only [DequeRun.proceed, hpc] at hstep
      obtain ⟨⟨queue, outcome⟩, hbody, hlast⟩ := ok_of_bind_ok hstep
      obtain ⟨hkeeps, hwaits⟩ := ThreadDeque.body_ok hbody
      have hafter : queue.monitor.holder = some thread := hkeeps.holder.trans hholder
      cases outcome with
      | returns result =>
          obtain rfl := Except.ok.inj hlast
          exact h.advance (Or.inr hholder) hafter (hkeeps.size h.size)
            fun _ hwait => by contradiction
      | waits take =>
          obtain rfl := Except.ok.inj hlast
          exact h.advance (Or.inr hholder) hafter (hkeeps.size h.size)
            fun _ _ => hwaits take rfl
  | wait op =>
      have hholder := hheld (by rw [hpc]; rfl)
      simp only [DequeRun.proceed, hpc] at hstep
      split at hstep
      · rw [Except.ok.injEq] at hstep
        exact hstep ▸ h.resume (Or.inr hholder) (by simpa using hholder)
          fun _ => h.waits thread op hpc
      · rw [Except.ok.injEq] at hstep
        exact hstep ▸ h.advance (Or.inr hholder) rfl h.size fun _ hwait => by contradiction
  | blocked op timedOut =>
      simp only [DequeRun.proceed, hpc] at hstep
      cases hresume : s.queue.monitor.resume thread with
      | none =>
          simp only [hresume, Except.ok.injEq] at hstep
          exact hstep ▸ h
      | some resumed =>
          simp only [hresume, Except.ok.injEq] at hstep
          obtain ⟨hfree, hafter⟩ := Monitor.holder_of_resume hresume
          refine hstep ▸ h.resume (Or.inl hfree) hafter fun htimely => ?_
          exact hempty op (by rw [hpc, htimely]) (by simp [hresume])
  | signal result =>
      have hholder := hheld (by rw [hpc]; rfl)
      simp only [DequeRun.proceed, hpc, Except.ok.injEq] at hstep
      exact hstep ▸ h.advance (Or.inr hholder) (by simpa [DequePc.holds] using hholder) h.size
        fun _ hwait => by contradiction
  | release result =>
      have hholder := hheld (by rw [hpc]; rfl)
      simp only [DequeRun.proceed, hpc, Except.ok.injEq] at hstep
      exact hstep ▸ h.advance (Or.inr hholder) rfl h.size fun _ hwait => by contradiction

theorem Sound.timeout (h : s.Sound) : (s.timeout thread).Sound := by
  cases hpc : s.pc thread with
  | blocked op timedOut =>
      simp only [DequeRun.timeout, hpc]
      split
      · exact h.move (by rw [hpc]; rfl) rfl (by simp)
      · exact h
  | _ => simpa only [DequeRun.timeout, hpc] using h

theorem Sound.step (h : s.Sound) {nullptr : T} {action : DequeAction Thread T}
    (hempty : s.FindsNothing action) {next : DequeRun Thread T}
    (hstep : dequeStep nullptr s action = .ok next) : next.Sound := by
  cases action with
  | call thread op =>
      cases hpc : s.pc thread with
      | out returned =>
          simp only [dequeStep, hpc, Except.ok.injEq] at hstep
          exact hstep ▸ h.move (by rw [hpc]; rfl) rfl rfl
      | _ =>
          simp only [dequeStep, hpc, Except.ok.injEq] at hstep
          exact hstep ▸ h
  | proceed thread choices refused => exact h.proceed hempty hstep
  | timeout thread =>
      obtain rfl := Except.ok.inj hstep
      exact h.timeout
  | spuriousWake thread =>
      obtain rfl := Except.ok.inj hstep
      exact ⟨by simpa [Excludes] using h.holds, h.size, h.waits, h.delivers⟩

/-- The only fault is the overflow of `notify_` by a push. -/
theorem Sound.overflow (h : s.Sound) {nullptr : T} {action : DequeAction Thread T}
    {fault : Fault} (hstep : dequeStep nullptr s action = .error fault) :
    fault = .overflow ∧ s.FindsNothing action := by
  cases action with
  | call thread op =>
      cases hpc : s.pc thread <;> simp [dequeStep, hpc] at hstep
  | timeout thread => contradiction
  | spuriousWake thread => contradiction
  | proceed thread choices refused =>
      simp only [dequeStep] at hstep
      cases hpc : s.pc thread with
      | body op =>
          refine ⟨?_, fun op' hblocked => by rw [hpc] at hblocked; contradiction⟩
          simp only [DequeRun.proceed, hpc] at hstep
          cases hbody : s.queue.body nullptr op with
          | error other =>
              simp only [hbody, bind, Except.bind, Except.error.injEq] at hstep
              exact hstep ▸ ThreadDeque.overflow_of_body h.size hbody
          | ok result =>
              rcases result with ⟨queue, _ | _⟩ <;> simp [hbody, bind, Except.bind] at hstep
      | lock op =>
          simp only [DequeRun.proceed, hpc] at hstep
          split at hstep <;> contradiction
      | wait op =>
          simp only [DequeRun.proceed, hpc] at hstep
          split at hstep <;> contradiction
      | blocked op timedOut =>
          simp only [DequeRun.proceed, hpc] at hstep
          split at hstep <;> contradiction
      | _ => simp [DequeRun.proceed, hpc] at hstep

/-- A waiter that is woken for an element comes back without it. -/
theorem not_delivers_of_found {nullptr : T} {action : DequeAction Thread T}
    (hfound : ¬ s.FindsNothing action) {next : DequeRun Thread T}
    (hstep : dequeStep nullptr s action = .ok next) : ¬ next.Delivers := by
  cases action with
  | proceed thread choices refused =>
      simp only [FindsNothing, not_forall] at hfound
      obtain ⟨op, hpc, hresume, hsome⟩ := hfound
      obtain ⟨resumed, hresumed⟩ := Option.isSome_iff_exists.mp hresume
      simp only [dequeStep, DequeRun.proceed, hpc, hresumed, Except.ok.injEq] at hstep
      exact hstep ▸ not_delivers_resume hsome
  | _ => exact absurd trivial hfound

end Steps

omit [DecidableEq Thread] in
theorem sound_start : ({} : DequeRun Thread T).Sound :=
  ⟨excludes_none fun _ => rfl, rfl, fun _ _ hwait => by contradiction,
    fun _ hr => by contradiction⟩

/-- However the operations of the threads are interleaved: every wait that came back, but
for those that timed out, has taken what the deque held, exactly when it held nothing each
time. -/
theorem delivers_iff (nullptr : T) (actions : List (DequeAction Thread T)) :
    StaysUpTo (· = .overflow) (dequeStep nullptr) Delivers {} actions ↔
      Along (dequeStep nullptr) FindsNothing {} actions :=
  staysUpTo_iff_along (fun _ h => h.delivers)
    (fun _ _ _ h _ hempty hstep => h.step hempty hstep)
    (fun _ _ _ h _ hstep => iff_of_true (h.overflow hstep).1 (h.overflow hstep).2)
    (fun _ _ _ _ _ hfound hstep => not_delivers_of_found hfound hstep) sound_start along_true

/-- The thread 0 waits in an operation while the thread 1 puts an element; the thread 0 is
woken, and leaves the element where it is. -/
def woken (op : DequeTake (Option Nat)) : List (DequeAction Nat (Option Nat)) :=
  [.call 0 (.take op), .proceed 0 [] false, .proceed 0 [] false, .proceed 0 [] false,
    .call 1 (.pushBack (some 7)), .proceed 1 [] false, .proceed 1 [] false,
    .proceed 1 [] false, .proceed 1 [] false, .proceed 0 [] false]

theorem woken_for_nothing :
    ¬ StaysUpTo (· = .overflow) (dequeStep none) Delivers {} (woken (.popFront 1000)) ∧
      ¬ StaysUpTo (· = .overflow) (dequeStep none) Delivers {} (woken (.swap [] 1000)) := by
  constructor
  · intro hstays
    have hlast := hstays.last rfl _ (List.mem_singleton_self _) rfl
    exact absurd hlast.1 (by decide)
  · intro hstays
    have hlast := hstays.last rfl _ (List.mem_singleton_self _) rfl
    exact absurd hlast.1 (by decide)

end DequeRun

end Tarsx
