/-
`wakeupbytimeout`: which coroutines it wakes, in what order, and what it leaves alone, in
any state in which every entry of `timeoutCoroId_` is one of a coroutine on `timeout_`.
-/
import Tarsx.Foundation.DueOrder
import Tarsx.SleepEntries

namespace Tarsx

open Foundation

namespace CoroutineScheduler

open CoroutineInfo

/-! ### The order of the entries -/

/-- `timeoutCoroId_` after insertions, the first of them first. -/
def filled (inserted : List (Int × Nat)) : List (Int × Nat) :=
  inserted.foldl (fun entries entry => insertTimeout entry entries) []

/-- By deadline, and among equal deadlines by insertion. -/
def Before (inserted : List (Int × Nat)) (a b : Int × Nat) : Prop :=
  a.1 < b.1 ∨ a.1 = b.1 ∧ [a, b].Sublist inserted

theorem insertTimeout_eq (entry : Int × Nat) (entries : List (Int × Nat)) :
    insertTimeout entry entries = entries.takeWhile (fun other => other.1 ≤ entry.1) ++
      entry :: entries.dropWhile (fun other => other.1 ≤ entry.1) := by
  induction entries with
  | nil => rfl
  | cons first rest ih =>
      rw [insertTimeout, List.takeWhile_cons, List.dropWhile_cons]
      by_cases hlt : entry.1 < first.1
      · simp [hlt, Int.not_le.mpr hlt]
      · simp [hlt, Int.not_lt.mp hlt, ih]

/-- The entries are in the order in which they come due. -/
theorem filled_eq_dueOrder (inserted : List (Int × Nat)) :
    filled inserted = dueOrder Prod.fst inserted.reverse := by
  induction inserted using List.reverseRecOn with
  | nil => rfl
  | append_singleton rest entry ih =>
      rw [filled, List.foldl_append, ← filled, ih, List.foldl_cons, List.foldl_nil,
        insertTimeout_eq, List.reverse_append, List.reverse_singleton, List.singleton_append,
        dueOrder_cons]

theorem filled_pairwise (inserted : List (Int × Nat)) :
    (filled inserted).Pairwise (Before inserted) := by
  rw [filled_eq_dueOrder]
  refine (pairwise_added_dueOrder Prod.fst inserted.reverse).imp fun {a b} h => ?_
  refine h.imp_right (And.imp_right fun hadded => ?_)
  exact List.reverse_sublist.mp hadded

theorem filled_sorted (inserted : List (Int × Nat)) :
    (filled inserted).Pairwise fun a b => a.1 ≤ b.1 := by
  rw [filled_eq_dueOrder]
  exact pairwise_dueOrder Prod.fst _

theorem perm_filled (inserted : List (Int × Nat)) : (filled inserted).Perm inserted := by
  rw [filled_eq_dueOrder]
  exact (perm_dueOrder Prod.fst _).trans inserted.reverse_perm

/-! ### The loop -/

/-- The coroutines of some ids went from `timeout_` to the tail of `active_`, and of the
lists, the statuses and the other fields nothing else changed. -/
structure Awoken (s next : CoroutineScheduler) (queues queues' : CoroStatus → List Nat)
    (ids : List Nat) : Prop where
  rings : Rings next.links queues'
  active : queues' .active = queues .active ++ ids
  timeout : queues' .timeout = (queues .timeout).filter fun uid => uid ∉ ids
  others : ∀ list, list ≠ .active → list ≠ .timeout → queues' list = queues list
  status : ∀ coro, next.status coro =
    if coro ∈ ids.map CoroutineInfo.coroutine then .active else s.status coro
  frame : next = { s with
    timeoutCoroId := next.timeoutCoroId
    links := next.links
    status := next.status }

section

variable {s : CoroutineScheduler} {queues : CoroStatus → List Nat}

theorem Awoken.refl (h : Rings s.links queues) (entries : List (Int × Nat)) :
    Awoken s { s with timeoutCoroId := entries } queues queues [] :=
  ⟨h, by simp, by simp, fun _ _ _ => rfl, by simp, rfl⟩

/-- `moveToActive` of a coroutine that sleeps. -/
theorem moveToActive_awoken (h : Rings s.links queues) {uid : Nat} (huid : uid ∈ queues .timeout)
    (hstatus : s.status (.coroutine uid) = .timeout) :
    ∃ next queues', s.moveToActive (.coroutine uid) = .ok next ∧
      Awoken s next queues queues' [uid] ∧ next.timeoutCoroId = s.timeoutCoroId := by
  rcases h.move huid (by decide : CoroStatus.timeout ≠ .active) with
    ⟨middle, links, hdel, hadd, hrings⟩
  refine ⟨s.relinked links (.coroutine uid) .active, _, ?_, ⟨hrings, ?_, ?_, ?_, ?_, rfl⟩, rfl⟩
  · simp only [moveToActive, hstatus, reduceCtorEq, if_false, if_true, moveTo, hdel, hadd, bind,
      Except.bind]
    rfl
  · simp [moved]
  · rw [moved, Function.update_of_ne (by decide), Function.update_self,
      (h.nodup .timeout).erase_eq_filter]
    refine List.filter_congr fun other _ => ?_
    by_cases hother : other = uid <;> simp [hother]
  · exact fun list hactive htimeout => moved_of_ne htimeout hactive
  · intro coro
    change Function.update s.status (.coroutine uid) .active coro = _
    simp only [Function.update_apply, List.map_singleton, List.mem_singleton]

/-- Waking one coroutine and then others. -/
theorem Awoken.trans {middle next : CoroutineScheduler} {queues' queues'' : CoroStatus → List Nat}
    {first second : List Nat} (hfirst : Awoken s middle queues queues' first)
    (hsecond : Awoken middle next queues' queues'' second) :
    Awoken s next queues queues'' (first ++ second) := by
  refine ⟨hsecond.rings, ?_, ?_, ?_, ?_, ?_⟩
  · rw [hsecond.active, hfirst.active, List.append_assoc]
  · rw [hsecond.timeout, hfirst.timeout, List.filter_filter]
    refine List.filter_congr fun uid _ => ?_
    simp [not_or, Bool.and_comm]
  · intro list hactive htimeout
    rw [hsecond.others list hactive htimeout, hfirst.others list hactive htimeout]
  · intro coro
    rw [hsecond.status, hfirst.status, List.map_append]
    simp only [List.mem_append]
    split <;> split <;> simp_all
  · rw [hsecond.frame, hfirst.frame]

/-- Every entry is of a coroutine that sleeps, and no two are of the same one. -/
structure Asleep (s : CoroutineScheduler) (queues : CoroStatus → List Nat)
    (entries : List (Int × Nat)) : Prop where
  rings : Rings s.links queues
  named : ∀ entry ∈ entries, s.coroOf entry.2 = .ok (.coroutine entry.2) ∧
    entry.2 ∈ queues .timeout ∧ s.status (.coroutine entry.2) = .timeout
  distinct : (entries.map Prod.snd).Nodup

theorem Asleep.tail {middle : CoroutineScheduler} {queues' : CoroStatus → List Nat} {time : Int}
    {id : Nat} {rest : List (Int × Nat)} (h : s.Asleep queues ((time, id) :: rest))
    (hfirst : Awoken s middle queues queues' [id]) (hfresh : id ∉ rest.map Prod.snd)
    (hdistinct : (rest.map Prod.snd).Nodup) : middle.Asleep queues' rest := by
  refine ⟨hfirst.rings, ?_, hdistinct⟩
  intro entry hentry
  obtain ⟨hcoro, hmem, hstatus⟩ := h.named entry (List.mem_cons_of_mem _ hentry)
  have hne : entry.2 ≠ id := by
    rintro rfl
    exact hfresh (List.mem_map_of_mem hentry)
  refine ⟨?_, ?_, ?_⟩
  · rw [hfirst.frame]
    exact hcoro
  · rw [hfirst.timeout]
    simp [hmem, hne]
  · rw [hfirst.status]
    simp [hne, hstatus]

theorem timeoutLoop_awoken (now : Int) {entries : List (Int × Nat)}
    (h : s.Asleep queues entries) :
    ∃ next queues', timeoutLoop now s entries = .ok next ∧
      next.timeoutCoroId = entries.dropWhile (fun entry => entry.1 ≤ now) ∧
      Awoken s next queues queues'
        ((entries.takeWhile fun entry => entry.1 ≤ now).map Prod.snd) := by
  induction entries generalizing s queues with
  | nil => exact ⟨_, queues, rfl, rfl, .refl h.rings []⟩
  | cons entry rest ih =>
      obtain ⟨time, id⟩ := entry
      by_cases hlate : time > now
      · refine ⟨{ s with timeoutCoroId := (time, id) :: rest }, queues, ?_, ?_, ?_⟩
        · rw [timeoutLoop, if_pos hlate]
        · simp [hlate]
        · simpa [hlate] using Awoken.refl h.rings ((time, id) :: rest)
      · have hdue : time ≤ now := Int.not_lt.mp hlate
        obtain ⟨hcoro, hmem, hstatus⟩ := h.named (time, id) List.mem_cons_self
        obtain ⟨hfresh, hdistinct⟩ := List.nodup_cons.mp h.distinct
        obtain ⟨middle, queues', hmove, hfirst, -⟩ := moveToActive_awoken h.rings hmem hstatus
        obtain ⟨next, queues'', hloop, hentries, hrest⟩ := ih (h.tail hfirst hfresh hdistinct)
        refine ⟨next, queues'', ?_, ?_, ?_⟩
        · simp only [timeoutLoop, hlate, if_false, hcoro, hmove, bind, Except.bind]
          exact hloop
        · simpa [hdue] using hentries
        · simpa [hdue] using hfirst.trans hrest

theorem Asleep.perm {entries others : List (Int × Nat)} (h : s.Asleep queues entries)
    (hperm : others.Perm entries) : s.Asleep queues others :=
  ⟨h.rings, fun entry hentry => h.named entry (hperm.mem_iff.mp hentry),
    ((hperm.map Prod.snd).nodup_iff).mpr h.distinct⟩

/-- In a run where no `wakeup` finds a sleeping coroutine every entry is of a coroutine
that sleeps. -/
theorem SleepInv.asleep {s : Sleepers} (h : SleepInv s queues) :
    s.scheduler.Asleep queues s.scheduler.timeoutCoroId := by
  refine ⟨h.inv.lists.rings, ?_, ?_⟩
  · intro entry hentry
    have hmem : entry.2 ∈ queues .timeout :=
      h.entries.mem_iff.mp (List.mem_map_of_mem hentry)
    exact ⟨h.inv.lists.coroOf (made_of_mem h.inv.lists hmem), hmem,
      status_of_mem h.inv.lists hmem⟩
  · exact h.entries.nodup_iff.mpr (h.inv.lists.rings.nodup .timeout)

end

/-- The steps of a run in which the entries stay exact. -/
def Careful (s : Sleepers) (action : SchedulerAction) : Prop :=
  Legal s action ∧ WakesNoSleeper s action

theorem tracked_of_run {start last : Sleepers} {actions : List SchedulerAction}
    (hstart : Tracked start) (hcareful : Along sleepersStep Careful start actions)
    (hrun : run sleepersStep start actions = .ok last) : Tracked last := by
  refine run_invariant_of_along ?_ hstart hcareful hrun
  rintro state action next ⟨queues, h⟩ hcareful hstep
  exact h.step hcareful.1 hcareful.2 hstep

/-! ### `wakeupbytimeout` -/

/-- The coroutines of the entries that are due, and no others, went to the tail of
`active_` in their order, and the other entries are left. -/
structure WakesDue (s next : CoroutineScheduler) (queues queues' : CoroStatus → List Nat)
    (inserted woken : List (Int × Nat)) (now : Int) : Prop where
  due : woken.Perm (inserted.filter fun entry => entry.1 ≤ now)
  order : woken.Pairwise (Before inserted)
  left : next.timeoutCoroId = s.timeoutCoroId.filter fun entry => now < entry.1
  awoken : Awoken s next queues queues' (woken.map Prod.snd)

/-- Whatever the time, and whatever was inserted for the coroutines on `timeout_`: a
scheduler that is not terminated wakes those that are due, and a terminated one is left as
it is. -/
theorem wakeupbytimeout_wakes_due {s : CoroutineScheduler} {queues : CoroStatus → List Nat}
    {inserted : List (Int × Nat)} (h : s.Asleep queues inserted)
    (hentries : s.timeoutCoroId = filled inserted) (now : Int) :
    (s.terminal = true → s.wakeupbytimeout now = .ok s) ∧
      (s.terminal = false → ∃ next queues' woken, s.wakeupbytimeout now = .ok next ∧
        WakesDue s next queues queues' inserted woken now) := by
  have hsorted := filled_sorted inserted
  rw [wakeupbytimeout]
  refine ⟨fun hterminal => if_pos hterminal, fun hrunning => ?_⟩
  obtain ⟨next, queues', hloop, hleft, hawoken⟩ :=
    timeoutLoop_awoken now (h.perm (perm_filled inserted))
  rw [takeWhile_eq_filter hsorted] at hawoken
  rw [dropWhile_eq_filter hsorted, ← hentries] at hleft
  refine ⟨next, queues', _, ?_, (perm_filled inserted).filter _,
    (filled_pairwise inserted).sublist List.filter_sublist, hleft, hawoken⟩
  rw [if_neg (by simp [hrunning]), hentries]
  exact hloop

/-- Three coroutines that sleep, the first until 300, the others until 105. -/
def threeSleepers : List SchedulerAction :=
  [.createCoroutine fun _ => true, .createCoroutine fun _ => true,
    .createCoroutine fun _ => true, .switchToAvail, .sleep 300 0, .switchToAvail, .sleep 5 100,
    .switchToAvail, .sleep 5 100]

theorem threeSleepers_tracked : ∃ last : Sleepers, Tracked last ∧
    last.scheduler.timeoutCoroId = filled [(300, 1), (105, 2), (105, 3)] ∧
    last.scheduler.terminal = false := by
  refine ⟨_, tracked_of_run (tracked_init (by decide) (by decide)
    (rfl : construct.init 3 (fun _ => true) = .ok _)) ?_
    (rfl : run sleepersStep _ threeSleepers = .ok _), ?_, ?_⟩
  · refine Along.cons_of_ok (p := Careful) ⟨trivial, trivial⟩ rfl ?_
    refine Along.cons_of_ok (p := Careful) ⟨trivial, trivial⟩ rfl ?_
    refine Along.cons_of_ok (p := Careful) ⟨trivial, trivial⟩ rfl ?_
    refine Along.cons_of_ok (p := Careful) ⟨rfl, trivial⟩ rfl ?_
    refine Along.cons_of_ok (p := Careful) ⟨⟨1, rfl⟩, trivial⟩ rfl ?_
    refine Along.cons_of_ok (p := Careful) ⟨rfl, trivial⟩ rfl ?_
    refine Along.cons_of_ok (p := Careful) ⟨⟨2, rfl⟩, trivial⟩ rfl ?_
    refine Along.cons_of_ok (p := Careful) ⟨rfl, trivial⟩ rfl ?_
    exact Along.cons_of_ok (p := Careful) ⟨⟨3, rfl⟩, trivial⟩ rfl trivial
  · rfl
  · rfl

theorem threeSleepers_asleep : ∃ (s : CoroutineScheduler) (queues : CoroStatus → List Nat),
    s.Asleep queues [(300, 1), (105, 2), (105, 3)] ∧
    s.timeoutCoroId = filled [(300, 1), (105, 2), (105, 3)] ∧ s.terminal = false := by
  obtain ⟨last, ⟨queues, h⟩, hentries, hrunning⟩ := threeSleepers_tracked
  refine ⟨last.scheduler, queues, h.asleep.perm ?_, hentries, hrunning⟩
  rw [hentries]
  exact (perm_filled _).symm

/-- The two that are due. -/
theorem wakeupbytimeout_wakes_due_three :
    ∃ s next queues queues' woken, s.wakeupbytimeout 105 = .ok next ∧
      WakesDue s next queues queues' [(300, 1), (105, 2), (105, 3)] woken 105 := by
  obtain ⟨s, queues, hasleep, hentries, hrunning⟩ := threeSleepers_asleep
  obtain ⟨next, queues', woken, hnext, hdue⟩ :=
    (wakeupbytimeout_wakes_due hasleep hentries 105).2 hrunning
  exact ⟨s, next, queues, queues', woken, hnext, hdue⟩

/-- After `terminate` they are not woken. -/
theorem wakeupbytimeout_terminated :
    ∃ (s : CoroutineScheduler) (queues : CoroStatus → List Nat),
      s.Asleep queues [(300, 1), (105, 2), (105, 3)] ∧
      s.timeoutCoroId = filled [(300, 1), (105, 2), (105, 3)] ∧
      ¬ ∃ next queues' woken, s.wakeupbytimeout 105 = .ok next ∧
        WakesDue s next queues queues' [(300, 1), (105, 2), (105, 3)] woken 105 := by
  obtain ⟨s, queues, hasleep, hentries, -⟩ := threeSleepers_asleep
  refine ⟨{ s with terminal := true }, queues,
    ⟨hasleep.rings, hasleep.named, hasleep.distinct⟩, hentries, ?_⟩
  rintro ⟨next, queues', woken, hnext, hdue⟩
  obtain rfl := Except.ok.inj hnext
  have hleft : s.timeoutCoroId = s.timeoutCoroId.filter fun entry => 105 < entry.1 := hdue.left
  rw [hentries] at hleft
  exact absurd hleft (by decide)

end CoroutineScheduler

end Tarsx
