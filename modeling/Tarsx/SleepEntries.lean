/-
The entries of `timeoutCoroId_` in every state that the runs of a scheduler reach.
`wakeup` takes a coroutine that sleeps off `timeout_` and leaves its entry, and this
module says that it is the only function that does.
-/
import Tarsx.SchedulerRuns

namespace Tarsx

open Foundation

namespace CoroutineScheduler

open CoroutineInfo

/-- A scheduler, with the time until which each coroutine sleeps or slept last. -/
structure Sleepers where
  scheduler : CoroutineScheduler
  due : Nat → Int := fun _ => 0

/-- The times after a step. -/
def dueAfter (s : Sleepers) : SchedulerAction → Nat → Int
  | .sleep sleeptime now =>
      match s.scheduler.currentCoro with
      | none => s.due
      | some coro => Function.update s.due coro.uid (deadline sleeptime now)
  | _ => s.due

def sleepersStep (s : Sleepers) (action : SchedulerAction) : Except Fault Sleepers := do
  let scheduler ← schedulerStep s.scheduler action
  .ok { scheduler := scheduler, due := dueAfter s action }

/-- A coroutine that yields, sleeps or ends is running, and `run` and `tars_run` switch
from the main coroutine.  Stacks may fail to be allocated, and any id may be put. -/
def Legal (s : Sleepers) : SchedulerAction → Prop
  | .yield _ => ∃ uid, s.scheduler.currentCoro = some (.coroutine uid)
  | .sleep _ _ => ∃ uid, s.scheduler.currentCoro = some (.coroutine uid)
  | .finish => ∃ uid, s.scheduler.currentCoro = some (.coroutine uid)
  | .switchToActive => s.scheduler.currentCoro = some .main
  | .switchToAvail => s.scheduler.currentCoro = some .main
  | _ => True

/-- Each coroutine on `timeout_` has one entry and no other id has any, the entry is of
its last sleep, and so `wakeupbytimeout` makes only coroutines active that sleep and
whose sleep is over. -/
structure ExactEntries (s : Sleepers) : Prop where
  entries : ∃ sleeping, s.scheduler.links.Ring (.head .timeout) (sleeping.map .coroutine) ∧
    (s.scheduler.timeoutCoroId.map Prod.snd).Perm sleeping
  due : ∀ entry ∈ s.scheduler.timeoutCoroId, entry.1 = s.due entry.2
  wakes : ∀ now next, s.scheduler.wakeupbytimeout now = .ok next → ∀ uid,
    s.scheduler.status (.coroutine uid) ≠ .active → next.status (.coroutine uid) = .active →
      s.scheduler.status (.coroutine uid) = .timeout ∧ s.due uid ≤ now

/-- A `wakeup` that comes to its end finds no id of a coroutine that sleeps.  (With the
id of no coroutine it does not come to its end.) -/
def WakesNoSleeper (s : Sleepers) : SchedulerAction → Prop
  | .wakeup => s.scheduler.terminal = false →
      (∀ id ∈ s.scheduler.activeCoroQueue, id ∈ s.scheduler.createdIds) →
        ∀ id ∈ s.scheduler.activeCoroQueue, s.scheduler.status (.coroutine id) ≠ .timeout
  | _ => True

/-- The invariant: the ids of the entries are those on `timeout_`. -/
structure SleepInv (s : Sleepers) (queues : CoroStatus → List Nat) : Prop where
  inv : s.scheduler.Inv queues
  entries : (s.scheduler.timeoutCoroId.map Prod.snd).Perm (queues .timeout)
  due : ∀ entry ∈ s.scheduler.timeoutCoroId, entry.1 = s.due entry.2

section

variable {s : Sleepers} {queues : CoroStatus → List Nat}

/-- A coroutine that a wake-up makes active is one of its ids. -/
theorem mem_of_woken {status : CoroutineInfo → CoroStatus} {waiting : List CoroStatus}
    {target : CoroStatus} {ids : List Nat} {uid : Nat}
    (hbefore : status (.coroutine uid) ≠ target)
    (hafter : wokenStatus status waiting target ids uid = target) : uid ∈ ids := by
  by_contra hnot
  rw [wokenStatus, if_neg fun hboth => hnot hboth.1] at hafter
  exact hbefore hafter

theorem SleepInv.exact (h : SleepInv s queues) : ExactEntries s := by
  refine ⟨⟨queues .timeout, h.inv.lists.rings.ring .timeout, h.entries⟩, h.due, ?_⟩
  intro now next hwakes uid hbefore hafter
  rcases wakeupbytimeout_ok h.inv now with ⟨other, queues', due, hok, hwoken, hsplit, hdue⟩
  obtain rfl := Except.ok.inj (hok.symm.trans hwakes)
  have huid : uid ∈ due.map Prod.snd :=
    mem_of_woken hbefore ((hwoken.status uid).symm.trans hafter)
  rcases List.mem_map.mp huid with ⟨entry, hentry, rfl⟩
  have hold : entry ∈ s.scheduler.timeoutCoroId := by
    rw [hsplit]
    exact List.mem_append_left _ hentry
  have hsleeps : entry.2 ∈ queues .timeout := h.entries.mem_iff.mp (List.mem_map_of_mem hold)
  exact ⟨status_of_mem h.inv.lists hsleeps, h.due entry hold ▸ hdue entry hentry⟩

/-- Ids that are those of the coroutines that sleep are the queue of `timeout_`, up to
order. -/
theorem perm_timeout {scheduler : CoroutineScheduler} (h : scheduler.Inv queues)
    {ids : List Nat} (hnodup : ids.Nodup)
    (hids : ∀ uid, uid ∈ ids ↔
      scheduler.Made uid ∧ scheduler.status (.coroutine uid) = .timeout) :
    ids.Perm (queues .timeout) := by
  apply (List.perm_ext_iff_of_nodup hnodup (h.lists.rings.nodup .timeout)).mpr
  intro uid
  rw [hids, h.lists.named]

/-- A step that leaves the queue of `timeout_` and the entries. -/
theorem SleepInv.frame (h : SleepInv s queues) {next : CoroutineScheduler}
    {queues' : CoroStatus → List Nat} (hnext : next.Inv queues')
    (hentries : next.timeoutCoroId = s.scheduler.timeoutCoroId)
    (hqueue : queues' .timeout = queues .timeout) :
    SleepInv { scheduler := next, due := s.due } queues' :=
  ⟨hnext, by rw [hentries, hqueue]; exact h.entries, hentries ▸ h.due⟩

/-- Waking coroutines of which none sleeps. -/
theorem SleepInv.woken (h : SleepInv s queues) {active need : List Nat}
    {entries : List (Int × Nat)} {next : CoroutineScheduler} {waiting : List CoroStatus}
    {target : CoroStatus} {ids : List Nat} {queues' : CoroStatus → List Nat}
    (hwoken : Woken { s.scheduler with
        activeCoroQueue := active
        needActiveCoroId := need
        timeoutCoroId := entries } next waiting target ids queues')
    (hentries : next.timeoutCoroId = s.scheduler.timeoutCoroId) (htarget : target ≠ .timeout)
    (hnone : ∀ uid ∈ ids, s.scheduler.status (.coroutine uid) ∈ waiting →
      s.scheduler.status (.coroutine uid) ≠ .timeout) :
    SleepInv { scheduler := next, due := s.due } queues' := by
  refine ⟨hwoken.inv, ?_, hentries ▸ h.due⟩
  rw [hentries]
  apply perm_timeout hwoken.inv (h.entries.nodup_iff.mpr (h.inv.lists.rings.nodup .timeout))
  intro uid
  rw [h.entries.mem_iff, h.inv.lists.named, hwoken.made, hwoken.status, wokenStatus]
  split
  · rename_i hboth
    simp [hnone uid hboth.1 hboth.2, htarget]
  · rfl

theorem perm_insertTimeout (entry : Int × Nat) (entries : List (Int × Nat)) :
    (insertTimeout entry entries).Perm (entry :: entries) := by
  induction entries with
  | nil => rfl
  | cons first rest ih =>
      by_cases hlt : entry.1 < first.1
      · simp [insertTimeout, hlt]
      · simp only [insertTimeout, hlt, if_false]
        exact (ih.cons first).trans (List.Perm.swap entry first rest)

/-- A coroutine that goes to sleep gets its entry. -/
theorem SleepInv.sleep (h : SleepInv s queues) (sleeptime : SleepTime) (now : Int) {uid : Nat}
    (hcurrent : s.scheduler.currentCoro = some (.coroutine uid)) :
    ∃ next queues', s.scheduler.sleep sleeptime now = .ok next ∧
      SleepInv { scheduler := next
                 due := Function.update s.due uid (deadline sleeptime now) } queues' := by
  rcases h.inv.running_mem hcurrent with ⟨source, huid, hsource⟩
  rcases sleep_ok h.inv sleeptime now hcurrent huid hsource with ⟨links, hstep, hnext⟩
  have hawake : uid ∉ queues .timeout := by
    intro hmem
    have hsame := h.inv.lists.rings.disjoint source .timeout uid huid hmem
    rcases hsource with rfl | rfl <;> contradiction
  refine ⟨_, _, hstep, hnext, ?_, ?_⟩
  · have hqueue : moved queues source .timeout uid .timeout = queues .timeout ++ [uid] := by
      simp [moved]
    rw [hqueue]
    exact ((perm_insertTimeout (deadline sleeptime now, uid) _).map Prod.snd).trans
      ((h.entries.cons uid).trans (List.perm_append_singleton uid _).symm)
  · intro entry hentry
    rcases mem_insertTimeout.mp hentry with rfl | hold
    · exact (Function.update_self uid _ s.due).symm
    · have hne : entry.2 ≠ uid := by
        rintro rfl
        exact hawake (h.entries.mem_iff.mp (List.mem_map_of_mem hold))
      exact (h.due entry hold).trans (Function.update_of_ne hne _ _).symm

/-- `wakeupbytimeout` wakes the coroutines whose entries it removes. -/
theorem SleepInv.wakeupbytimeout (h : SleepInv s queues) (now : Int) :
    ∃ next queues', s.scheduler.wakeupbytimeout now = .ok next ∧
      SleepInv { scheduler := next, due := s.due } queues' := by
  rcases wakeupbytimeout_ok h.inv now with ⟨next, queues', due, hok, hwoken, hsplit, _⟩
  have hids : s.scheduler.timeoutCoroId.map Prod.snd =
      due.map Prod.snd ++ next.timeoutCoroId.map Prod.snd := by
    rw [hsplit, List.map_append]
  have hnodup : (s.scheduler.timeoutCoroId.map Prod.snd).Nodup :=
    h.entries.nodup_iff.mpr (h.inv.lists.rings.nodup .timeout)
  rw [hids] at hnodup
  rcases List.nodup_append.mp hnodup with ⟨_, hlate, hapart⟩
  refine ⟨next, queues', hok, hwoken.inv, ?_, ?_⟩
  · apply perm_timeout hwoken.inv hlate
    intro uid
    have hmem : uid ∈ due.map Prod.snd ∨ uid ∈ next.timeoutCoroId.map Prod.snd ↔
        s.scheduler.Made uid ∧ s.scheduler.status (.coroutine uid) = .timeout := by
      rw [← List.mem_append, ← hids, h.entries.mem_iff, h.inv.lists.named]
    rw [hwoken.made, hwoken.status, wokenStatus]
    change _ ↔ s.scheduler.Made uid ∧ _
    by_cases hdue : uid ∈ due.map Prod.snd
    · have hsleeps := (hmem.mp (Or.inl hdue)).2
      have hnot : uid ∉ next.timeoutCoroId.map Prod.snd :=
        fun hlater => hapart uid hdue uid hlater rfl
      simp [hdue, hsleeps, hnot]
    · simpa only [hdue, false_and, if_false, false_or] using hmem
  · intro entry hentry
    apply h.due entry
    rw [hsplit]
    exact List.mem_append_right _ hentry

/-- A step of a run that does not wake a sleeping coroutine early keeps the
invariant. -/
theorem SleepInv.step (h : SleepInv s queues) {action : SchedulerAction}
    (hlegal : Legal s action) (hcond : WakesNoSleeper s action) {next : Sleepers}
    (hstep : sleepersStep s action = .ok next) : ∃ queues', SleepInv next queues' := by
  rcases ok_of_bind_ok hstep with ⟨scheduler, hok, hnext⟩
  obtain rfl := Except.ok.inj hnext
  cases action with
  | createCoroutine allocs =>
      rcases ok_of_bind_ok hok with ⟨⟨id, made⟩, hcreate, hmade⟩
      obtain rfl := Except.ok.inj hmade
      rcases createCoroutine_spec h.inv hcreate with ⟨queues', hcreates, _⟩
      refine ⟨queues', h.frame hcreates.inv ?_ ?_⟩
      · rw [hcreates.frame]
      · exact hcreates.others .timeout (by decide) (by decide)
  | yield flag =>
      rcases hlegal with ⟨uid, hcurrent⟩
      rcases h.inv.running_mem hcurrent with ⟨source, huid, hsource⟩
      rcases yield_ok h.inv flag hcurrent huid hsource with ⟨links, hyield, hinv⟩
      obtain rfl := Except.ok.inj (hyield.symm.trans hok)
      refine ⟨_, h.frame hinv ?_ ?_⟩
      · change (s.scheduler.putIf flag uid).timeoutCoroId = _
        simp only [putIf, putbyself]
        split
        · split <;> rfl
        · rfl
      · apply moved_of_ne
        · rcases hsource with rfl | rfl <;> decide
        · decide
  | sleep sleeptime now =>
      rcases hlegal with ⟨uid, hcurrent⟩
      rcases h.sleep sleeptime now hcurrent with ⟨next, queues', hsleep, hinv⟩
      obtain rfl := Except.ok.inj (hsleep.symm.trans hok)
      refine ⟨queues', ?_⟩
      rw [dueAfter, hcurrent]
      exact hinv
  | finish =>
      rcases hlegal with ⟨uid, hcurrent⟩
      rcases h.inv.running_mem hcurrent with ⟨source, huid, hsource⟩
      rcases finish_ok h.inv hcurrent huid hsource with ⟨links, hfinish, hinv⟩
      obtain rfl := Except.ok.inj (hfinish.symm.trans hok)
      refine ⟨_, h.frame hinv rfl ?_⟩
      apply moved_of_ne
      · rcases hsource with rfl | rfl <;> decide
      · decide
  | put coroId =>
      obtain rfl := Except.ok.inj hok
      refine ⟨queues, h.frame (put_ok h.inv coroId) ?_ rfl⟩
      rw [put]
      split <;> rfl
  | wakeup =>
      have hmade := made_of_wakeup h.inv hok
      rcases wakeup_ok h.inv hmade with ⟨other, queues', hwake, hwoken, _⟩
      obtain rfl := Except.ok.inj (hwake.symm.trans hok)
      refine ⟨queues', h.woken hwoken (by rw [hwoken.frame]) (by decide) ?_⟩
      intro uid huid _
      by_cases hterminal : s.scheduler.terminal = true
      · simp [unlessTerminal_terminal hterminal] at huid
      · rw [unlessTerminal_running hterminal] at huid hmade
        exact hcond (by simpa using hterminal)
          (fun id hid => (mem_createdIds h.inv.lists id).mpr (hmade id hid)) uid huid
  | wakeupbyself =>
      rcases wakeupbyself_ok h.inv with ⟨other, queues', hwake, hwoken⟩
      obtain rfl := Except.ok.inj (hwake.symm.trans hok)
      refine ⟨queues', h.woken hwoken (by rw [hwoken.frame]) (by decide) ?_⟩
      intro uid _ hwaits
      rw [List.mem_singleton.mp hwaits]
      decide
  | wakeupbytimeout now =>
      rcases h.wakeupbytimeout now with ⟨other, queues', hwake, hinv⟩
      obtain rfl := Except.ok.inj (hwake.symm.trans hok)
      exact ⟨queues', hinv⟩
  | switchToActive =>
      rcases switchToFirst_switches h.inv (Or.inl rfl) with ⟨other, hswitch, hinv, hframe⟩
      obtain rfl := Except.ok.inj (hswitch.symm.trans hok)
      exact ⟨queues, h.frame hinv (by rw [hframe]) rfl⟩
  | switchToAvail =>
      rcases switchToFirst_switches h.inv (Or.inr rfl) with ⟨other, hswitch, hinv, hframe⟩
      obtain rfl := Except.ok.inj (hswitch.symm.trans hok)
      exact ⟨queues, h.frame hinv (by rw [hframe]) rfl⟩
  | terminate =>
      obtain rfl := Except.ok.inj hok
      exact ⟨queues, h.frame h.inv.terminate rfl rfl⟩

/-- A `wakeup` that finds a sleeping coroutine leaves its entry behind. -/
theorem SleepInv.not_exact (h : SleepInv s queues) {action : SchedulerAction}
    (hcond : ¬ WakesNoSleeper s action) {next : Sleepers}
    (hstep : sleepersStep s action = .ok next) : ¬ ExactEntries next := by
  rcases ok_of_bind_ok hstep with ⟨scheduler, hok, hnext⟩
  obtain rfl := Except.ok.inj hnext
  cases action with
  | wakeup =>
      simp only [WakesNoSleeper, Classical.not_imp, not_forall, not_not] at hcond
      rcases hcond with ⟨hterminal, hcreated, id, hid, hsleeps⟩
      have hmade := fun uid huid => (mem_createdIds h.inv.lists uid).mp (hcreated uid huid)
      have hids := unlessTerminal_running (Bool.eq_false_iff.mp hterminal)
        s.scheduler.activeCoroQueue
      rcases wakeup_ok h.inv (hids.symm ▸ hmade) with ⟨other, queues', hwake, hwoken, _⟩
      obtain rfl := Except.ok.inj (hwake.symm.trans hok)
      intro hexact
      rcases hexact.entries with ⟨sleeping, hring, hentries⟩
      have hsame : sleeping = queues' .timeout :=
        List.map_injective_iff.mpr (fun _ _ heq => CoroutineInfo.coroutine.inj heq)
          (hring.unique (hwoken.inv.lists.rings.ring .timeout))
      have hentry : id ∈ other.timeoutCoroId.map Prod.snd := by
        rw [hwoken.frame]
        exact h.entries.mem_iff.mpr
          ((h.inv.lists.named .timeout id).mpr ⟨hmade id hid, hsleeps⟩)
      have hstatus := status_of_mem hwoken.inv.lists (hsame ▸ hentries.mem_iff.mp hentry)
      rw [hwoken.status, wokenStatus, hids, if_pos ⟨hid, by simp [hsleeps]⟩] at hstatus
      contradiction
  | _ => exact absurd trivial hcond

/-- A step that faults is a `wakeup` with the id of no coroutine, or no `wakeup`. -/
theorem SleepInv.wakesNoSleeper_of_fault (h : SleepInv s queues) {action : SchedulerAction}
    {fault : Fault} (hstep : sleepersStep s action = .error fault) :
    WakesNoSleeper s action := by
  cases action with
  | wakeup =>
      intro hterminal hcreated
      have hmade := fun uid huid => (mem_createdIds h.inv.lists uid).mp (hcreated uid huid)
      have hids := unlessTerminal_running (Bool.eq_false_iff.mp hterminal)
        s.scheduler.activeCoroQueue
      rcases wakeup_ok h.inv (hids.symm ▸ hmade) with ⟨next, _, hwake, _⟩
      simp [sleepersStep, schedulerStep, hwake, bind, Except.bind] at hstep
  | _ => trivial

end

/-- The invariant, for some queues. -/
def Tracked (s : Sleepers) : Prop := ∃ queues, SleepInv s queues

theorem tracked_init {poolSize : Nat} (hpos : 0 < poolSize) (hsmall : poolSize < 2 ^ 32)
    {allocs : Nat → Bool} {start : CoroutineScheduler}
    (hinit : construct.init poolSize allocs = .ok start) : Tracked { scheduler := start } := by
  rcases init_started hpos hsmall hinit with ⟨queues, hstarted⟩
  have hnone : start.timeoutCoroId = [] := by
    rw [hstarted.frame]
    rfl
  refine ⟨queues, hstarted.inv, ?_, by simp [hnone]⟩
  rw [hnone, hstarted.queues .timeout (by decide), List.map_nil]

/-- From `init`, in every run, the entries are exact in every state if and only if no
`wakeup` finds a coroutine that sleeps. -/
theorem entries_exact_iff (poolSize : Nat) (hpos : 0 < poolSize) (hsmall : poolSize < 2 ^ 32)
    (allocs : Nat → Bool) (start : CoroutineScheduler)
    (hinit : construct.init poolSize allocs = .ok start) (actions : List SchedulerAction)
    (hlegal : Along sleepersStep Legal { scheduler := start } actions) :
    StaysUpTo (fun _ => True) sleepersStep ExactEntries { scheduler := start } actions ↔
      Along sleepersStep WakesNoSleeper { scheduler := start } actions := by
  apply staysUpTo_iff_along ?_ ?_ ?_ ?_ (tracked_init hpos hsmall hinit) hlegal
  · rintro state ⟨_, h⟩
    exact h.exact
  · rintro state action next ⟨_, h⟩ hlegal hcond hstep
    exact h.step hlegal hcond hstep
  · rintro state action fault ⟨_, h⟩ _ hstep
    exact iff_of_true trivial (h.wakesNoSleeper_of_fault hstep)
  · rintro state action next ⟨_, h⟩ _ hcond hstep
    exact h.not_exact hcond hstep

/-- A coroutine waits and is woken by its id, sleeps until it is due, and ends. -/
theorem entries_exact_due :
    ∃ start, construct.init 2 (fun _ => true) = .ok start ∧
      StaysUpTo (fun _ => True) sleepersStep ExactEntries { scheduler := start }
        [.createCoroutine fun _ => true, .switchToAvail, .yield false, .put 1, .wakeup,
          .switchToActive, .sleep 5 100, .wakeupbytimeout 200, .switchToActive, .finish] := by
  refine ⟨_, rfl, (entries_exact_iff 2 (by decide) (by decide) (fun _ => true) _ rfl _
    ?_).mpr ?_⟩
  · refine Along.cons_of_ok (p := Legal) trivial rfl ?_
    refine Along.cons_of_ok (p := Legal) rfl rfl ?_
    refine Along.cons_of_ok (p := Legal) ⟨1, rfl⟩ rfl ?_
    refine Along.cons_of_ok (p := Legal) trivial rfl ?_
    refine Along.cons_of_ok (p := Legal) trivial rfl ?_
    refine Along.cons_of_ok (p := Legal) rfl rfl ?_
    refine Along.cons_of_ok (p := Legal) ⟨1, rfl⟩ rfl ?_
    refine Along.cons_of_ok (p := Legal) trivial rfl ?_
    refine Along.cons_of_ok (p := Legal) rfl rfl ?_
    exact Along.cons_of_ok (p := Legal) ⟨1, rfl⟩ rfl trivial
  · refine Along.cons_of_ok (p := WakesNoSleeper) trivial rfl ?_
    refine Along.cons_of_ok (p := WakesNoSleeper) trivial rfl ?_
    refine Along.cons_of_ok (p := WakesNoSleeper) trivial rfl ?_
    refine Along.cons_of_ok (p := WakesNoSleeper) trivial rfl ?_
    refine Along.cons_of_ok (p := WakesNoSleeper) (fun _ _ => by decide) rfl ?_
    refine Along.cons_of_ok (p := WakesNoSleeper) trivial rfl ?_
    refine Along.cons_of_ok (p := WakesNoSleeper) trivial rfl ?_
    refine Along.cons_of_ok (p := WakesNoSleeper) trivial rfl ?_
    refine Along.cons_of_ok (p := WakesNoSleeper) trivial rfl ?_
    exact Along.cons_of_ok (p := WakesNoSleeper) trivial rfl trivial

/-- A coroutine that sleeps until 1000 is woken by its id, runs, and waits without a
deadline: its entry is still there, and at 1000 makes it active. -/
theorem stale_entry_wakes :
    ∃ start, construct.init 2 (fun _ => true) = .ok start ∧
      Along sleepersStep Legal { scheduler := start }
        [.createCoroutine fun _ => true, .switchToAvail, .sleep 1000 0, .put 1, .wakeup,
          .switchToActive, .yield false] ∧
      ¬ StaysUpTo (fun _ => True) sleepersStep ExactEntries { scheduler := start }
        [.createCoroutine fun _ => true, .switchToAvail, .sleep 1000 0, .put 1, .wakeup,
          .switchToActive, .yield false] := by
  refine ⟨_, rfl, ?_, ?_⟩
  · refine Along.cons_of_ok (p := Legal) trivial rfl ?_
    refine Along.cons_of_ok (p := Legal) rfl rfl ?_
    refine Along.cons_of_ok (p := Legal) ⟨1, rfl⟩ rfl ?_
    refine Along.cons_of_ok (p := Legal) trivial rfl ?_
    refine Along.cons_of_ok (p := Legal) trivial rfl ?_
    refine Along.cons_of_ok (p := Legal) rfl rfl ?_
    exact Along.cons_of_ok (p := Legal) ⟨1, rfl⟩ rfl trivial
  · intro hstays
    have hwoken := (hstays.last rfl).wakes 1000 _ rfl 1 (by decide) rfl
    have hwaits := hwoken.1
    contradiction

end CoroutineScheduler

end Tarsx
