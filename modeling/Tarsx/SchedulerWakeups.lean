/-
The ids that are put into `activeCoroQueue_` and the idle wait of `run`: no put is missed
by a `run` that goes to sleep, and no id is lost or taken twice.
-/
import Tarsx.SchedulerThreads

namespace Tarsx

open Foundation

universe u

/-! ### What leaves `activeCoroQueue_` alone -/

namespace CoroutineScheduler

section

variable {s next : CoroutineScheduler}

theorem queue_moveTo {coro : CoroutineInfo} {list : CoroStatus}
    (hmove : s.moveTo coro list = .ok next) : next.activeCoroQueue = s.activeCoroQueue := by
  obtain ⟨links, _, hlater⟩ := ok_of_bind_ok hmove
  obtain ⟨links', _, hlast⟩ := ok_of_bind_ok hlater
  exact Except.ok.inj hlast ▸ rfl

theorem queue_ok (hsame : Except.ok s = (.ok next : Except Fault CoroutineScheduler)) :
    next.activeCoroQueue = s.activeCoroQueue :=
  Except.ok.inj hsame ▸ rfl

theorem MovesFrom.queue
    {move : CoroutineScheduler → CoroutineInfo → Except Fault CoroutineScheduler}
    {waiting : List CoroStatus} {target : CoroStatus} (hmoves : MovesFrom move waiting target)
    {s next : CoroutineScheduler} {coro : CoroutineInfo} (hmove : move s coro = .ok next) :
    next.activeCoroQueue = s.activeCoroQueue := by
  rw [hmoves] at hmove
  split at hmove
  · exact queue_moveTo hmove
  · exact queue_ok hmove

theorem queue_moveToFreeList {coro : CoroutineInfo} (hmove : s.moveToFreeList coro = .ok next) :
    next.activeCoroQueue = s.activeCoroQueue := by
  rw [moveToFreeList] at hmove
  split at hmove
  case h_5 => exact queue_ok hmove
  all_goals exact queue_moveTo hmove

/-- The loops of `wakeup` and `wakeupbyself`. -/
theorem queue_wakeLoop
    {move : CoroutineScheduler → CoroutineInfo → Except Fault CoroutineScheduler}
    (hmove : ∀ {s next : CoroutineScheduler} {coro : CoroutineInfo}, move s coro = .ok next →
      next.activeCoroQueue = s.activeCoroQueue) (ids : List Nat) :
    ∀ {s : CoroutineScheduler}, wakeLoop move s ids = .ok next →
      next.activeCoroQueue = s.activeCoroQueue := by
  induction ids with
  | nil => exact queue_ok
  | cons id rest ih =>
      intro s hloop
      obtain ⟨coro, _, hlater⟩ := ok_of_bind_ok hloop
      obtain ⟨middle, hone, hrest⟩ := ok_of_bind_ok hlater
      exact (ih hrest).trans (hmove hone)

theorem queue_wakeupbyself (hwake : s.wakeupbyself = .ok next) :
    next.activeCoroQueue = s.activeCoroQueue := by
  rw [wakeupbyself] at hwake
  split at hwake
  · exact queue_ok hwake
  · obtain ⟨middle, hloop, hlast⟩ := ok_of_bind_ok hwake
    have hkept := queue_wakeLoop moveToAvail_moves.queue _ hloop
    exact Except.ok.inj hlast ▸ hkept

theorem queue_timeoutLoop (now : Int) (entries : List (Int × Nat)) :
    ∀ {s : CoroutineScheduler}, timeoutLoop now s entries = .ok next →
      next.activeCoroQueue = s.activeCoroQueue := by
  induction entries with
  | nil =>
      intro s hloop
      exact Except.ok.inj hloop ▸ rfl
  | cons entry rest ih =>
      intro s hloop
      rw [timeoutLoop] at hloop
      split at hloop
      · exact Except.ok.inj hloop ▸ rfl
      · obtain ⟨coro, _, hlater⟩ := ok_of_bind_ok hloop
        obtain ⟨middle, hone, hrest⟩ := ok_of_bind_ok hlater
        exact (ih hrest).trans (moveToActive_moves.queue hone)

theorem queue_wakeupbytimeout {now : Int} (hwake : s.wakeupbytimeout now = .ok next) :
    next.activeCoroQueue = s.activeCoroQueue := by
  rw [wakeupbytimeout] at hwake
  split at hwake
  · exact queue_ok hwake
  · exact queue_timeoutLoop now _ hwake

theorem queue_switchToFirst {list : CoroStatus} (hswitch : s.switchToFirst list = .ok next) :
    next.activeCoroQueue = s.activeCoroQueue := by
  rw [switchToFirst] at hswitch
  split at hswitch
  · exact queue_ok hswitch
  · split at hswitch
    · contradiction
    · exact Except.ok.inj hswitch ▸ rfl

theorem queue_generateId {id : Nat} (hid : s.generateId = .ok (id, next)) :
    next.activeCoroQueue = s.activeCoroQueue := by
  simp only [generateId] at hid
  split at hid <;> split at hid
  case isTrue.isTrue => exact (Prod.mk.inj (Except.ok.inj hid)).2 ▸ rfl
  case isFalse.isTrue => exact (Prod.mk.inj (Except.ok.inj hid)).2 ▸ rfl
  all_goals contradiction

theorem queue_addCoroutine {id : Nat} (hadd : s.addCoroutine id = .ok next) :
    next.activeCoroQueue = s.activeCoroQueue := by
  rw [addCoroutine] at hadd
  split at hadd
  · obtain ⟨links, _, hlast⟩ := ok_of_bind_ok hadd
    exact Except.ok.inj hlast ▸ rfl
  · contradiction

theorem queue_increaseLoop {allocs : Nat → Bool} (turns : Nat) :
    ∀ {turn succ : Nat} {s : CoroutineScheduler},
      increaseLoop allocs turn turns s = .ok (succ, next) →
        next.activeCoroQueue = s.activeCoroQueue := by
  induction turns with
  | zero =>
      intro turn succ s hloop
      exact (Prod.mk.inj (Except.ok.inj hloop)).2 ▸ rfl
  | succ turns ih =>
      intro turn succ s hloop
      obtain ⟨⟨id, counted⟩, hid, hturn⟩ := ok_of_bind_ok hloop
      have hcounted := queue_generateId hid
      dsimp only at hturn
      split at hturn
      · obtain ⟨middle, hadd, hlater⟩ := ok_of_bind_ok hturn
        obtain ⟨⟨made, last⟩, hrest, hlast⟩ := ok_of_bind_ok hlater
        obtain ⟨_, rfl⟩ := Prod.mk.inj (Except.ok.inj hlast)
        exact (ih hrest).trans ((queue_addCoroutine hadd).trans hcounted)
      · obtain ⟨_, rfl⟩ := Prod.mk.inj (Except.ok.inj hturn)
        exact hcounted

theorem queue_increaseCoroPoolSize {allocs : Nat → Bool} {ret : Int}
    (hgrow : s.increaseCoroPoolSize allocs = .ok (ret, next)) :
    next.activeCoroQueue = s.activeCoroQueue := by
  simp only [increaseCoroPoolSize] at hgrow
  generalize (if word32Sub s.poolSize s.currentSize > 100 then 100
    else word32Sub s.poolSize s.currentSize) = inc at hgrow
  split at hgrow
  · exact (Prod.mk.inj (Except.ok.inj hgrow)).2 ▸ rfl
  · obtain ⟨⟨succ, last⟩, hloop, hlast⟩ := ok_of_bind_ok hgrow
    have hkept := queue_increaseLoop _ hloop
    dsimp only at hlast
    split at hlast
    · exact (Prod.mk.inj (Except.ok.inj hlast)).2 ▸ hkept
    · exact (Prod.mk.inj (Except.ok.inj hlast)).2 ▸ hkept

theorem queue_createCoroutine {allocs : Nat → Bool} {id : Nat}
    (hcreate : s.createCoroutine allocs = .ok (id, next)) :
    next.activeCoroQueue = s.activeCoroQueue := by
  obtain ⟨⟨room, grown⟩, hgrow, htake⟩ := ok_of_bind_ok hcreate
  have hgrown : grown.activeCoroQueue = s.activeCoroQueue := by
    rw [growIfNeeded] at hgrow
    split at hgrow
    · obtain ⟨⟨ret, other⟩, hincrease, hlast⟩ := ok_of_bind_ok hgrow
      have hkept := queue_increaseCoroPoolSize hincrease
      exact (Prod.mk.inj (Except.ok.inj hlast)).2 ▸ hkept
    · exact (Prod.mk.inj (Except.ok.inj hgrow)).2 ▸ rfl
  refine Eq.trans ?_ hgrown
  dsimp only at htake
  split at htake
  · rw [takeFree] at htake
    split at htake
    · contradiction
    · obtain ⟨links, _, hlater⟩ := ok_of_bind_ok htake
      obtain ⟨links', _, hlast⟩ := ok_of_bind_ok hlater
      exact (Prod.mk.inj (Except.ok.inj hlast)).2 ▸ rfl
  · exact (Prod.mk.inj (Except.ok.inj htake)).2 ▸ rfl

theorem queue_putbyself (coroId : Nat) :
    (s.putbyself coroId).activeCoroQueue = s.activeCoroQueue := by
  rw [putbyself]
  split <;> rfl

theorem queue_yield {flag : Bool} (hyield : s.yield flag = .ok next) :
    next.activeCoroQueue = s.activeCoroQueue := by
  rw [yield] at hyield
  split at hyield
  · contradiction
  · rename_i coro _
    obtain ⟨moved, hmove, hlast⟩ := ok_of_bind_ok hyield
    have hmoved := moveToInactive_moves.queue hmove
    obtain rfl := Except.ok.inj hlast
    refine hmoved.trans ?_
    cases flag with
    | true => exact queue_putbyself coro.uid
    | false => rfl

theorem queue_sleep {sleeptime : SleepTime} {now : Int}
    (hsleep : s.sleep sleeptime now = .ok next) :
    next.activeCoroQueue = s.activeCoroQueue := by
  rw [sleep] at hsleep
  split at hsleep
  · contradiction
  · obtain ⟨moved, hmove, hlast⟩ := ok_of_bind_ok hsleep
    have hmoved := moveToTimeout_moves.queue hmove
    exact Except.ok.inj hlast ▸ hmoved

theorem queue_finish (hfinish : s.finish = .ok next) :
    next.activeCoroQueue = s.activeCoroQueue := by
  rw [finish] at hfinish
  split at hfinish
  · contradiction
  · obtain ⟨moved, hmove, hlast⟩ := ok_of_bind_ok hfinish
    have hmoved := queue_moveToFreeList hmove
    exact Except.ok.inj hlast ▸ hmoved

end

end CoroutineScheduler

namespace SchedulerThreads

variable {Thread : Type u}

open CoroutineScheduler

/-- No call of a coroutine that runs touches the queue. -/
theorem queue_callOf {s next : CoroutineScheduler} {call : CoroutineCall}
    (hcall : (callOf s call).2 = .ok next) : next.activeCoroQueue = s.activeCoroQueue := by
  cases call with
  | createCoroutine allocs =>
      cases hcreate : s.createCoroutine allocs with
      | error fault => simp [callOf, hcreate, Except.map] at hcall
      | ok result =>
          simp only [callOf, hcreate, Except.map, Except.ok.injEq] at hcall
          exact hcall ▸ queue_createCoroutine hcreate
  | yield flag => exact queue_yield hcall
  | sleep sleeptime now => exact queue_sleep hcall
  | finish => exact queue_finish hcall

/-! ### `put` and `wakeup` as one step -/

section Alone

variable [DecidableEq Thread] {s : SchedulerThreads Thread}

/-- With nobody in between, the test and the `push_back` of `put` have the effect of its one
step. -/
theorem run_put {thread : Thread} {coroId : Nat} (hpc : s.pc thread = .put coroId)
    (hfree : s.queueHolder = none) :
    (run step s (List.replicate 3 (.proceed thread))).map (fun last => last.scheduler) =
      .ok (s.scheduler.put coroId) := by
  by_cases hterminal : s.scheduler.terminal = true
  · simp [List.replicate, run, step, proceed, hpc, hterminal, put, Except.map]
  · simp [List.replicate, run, step, proceed, hpc, hterminal, hfree, put, Except.map]

/-- With nobody in between, the statements of `wakeup` have the effect of its one step, or
its fault. -/
theorem run_wakeup (hpc : s.runner = .wakeup) (hfree : s.queueHolder = none) :
    ∃ n, (run step s (List.replicate n (.runner false 0))).map
        (fun last => (last.runner, last.scheduler)) =
      s.scheduler.wakeup.map fun next => (.active 100, next) := by
  by_cases hterminal : s.scheduler.terminal = true
  · refine ⟨1, ?_⟩
    simp [List.replicate, run, step, runnerStep, hpc, hterminal, wakeup, Except.map]
  · cases hqueue : s.scheduler.activeCoroQueue with
    | nil =>
        have hsame : { s.scheduler with activeCoroQueue := [] } = s.scheduler := by rw [← hqueue]
        have hwakeup : s.scheduler.wakeup = .ok s.scheduler := by
          rw [wakeup, if_neg hterminal, hqueue, hsame]
          rfl
        refine ⟨4, ?_⟩
        rw [hwakeup]
        simp [List.replicate, run, step, runnerStep, queueStep, queueSize, hpc, hterminal,
          hfree, hqueue, Except.map]
    | cons coroId rest =>
        refine ⟨8, ?_⟩
        simp only [List.replicate, run, step, runnerStep, queueStep, queueSize, queueSwap,
          advance, wakeup, hpc, hfree, hterminal, hqueue, Bool.false_eq_true, if_false, if_true,
          Option.isNone_none, List.length_cons, gt_iff_lt, Nat.zero_lt_succ]
        generalize wakeLoop moveToActive _ (coroId :: rest) = woken
        cases woken <;> rfl

end Alone

/-! ### What holds in every state -/

/-- While `run` waits and was not woken, the queue is empty, or a `put` is between its
`push_back` and the release of the monitor. -/
def NotStranded (s : SchedulerThreads Thread) : Prop :=
  .runner ∈ s.monitor.waiting → s.scheduler.activeCoroQueue ≠ [] →
    ∃ thread, (s.pc thread).pushing = true

/-- The ids that were pushed are, in this order, those that the calls of `wakeup` took, one
after the other, and those in the queue. -/
def KeepsIds (s : SchedulerThreads Thread) : Prop :=
  s.taken.flatten ++ s.scheduler.activeCoroQueue = s.pushed

structure Awake (s : SchedulerThreads Thread) : Prop where
  notStranded : s.NotStranded
  keepsIds : s.KeepsIds

/-- The threads that hold the monitor and are not inside its wait. -/
def holdsAt (s : SchedulerThreads Thread) : SchedulerParty Thread → Bool
  | .runner => s.runner.holds
  | .other thread => (s.pc thread).holds

/-- `run` sleeps, or will sleep without a further look at the queue. -/
def Sleeps (s : SchedulerThreads Thread) : Prop :=
  s.runner.commits = true ∨ .runner ∈ s.monitor.waiting

/-- The threads agree on who holds the monitor, only `run` waits, `put` and `terminate` wake
it before they release the monitor, and a `run` that goes to sleep beside an id has a `put`
that will wake it. -/
structure Sound (s : SchedulerThreads Thread) : Prop where
  holds : Excludes id s.monitor.holder s.holdsAt
  parked : s.monitor.parked.Perm s.runner.parks
  broadcasts : ∀ thread pushed, s.pc thread = .signal pushed → s.monitor.notify_ = -1
  woken : ∀ thread pushed, s.pc thread = .release pushed → .runner ∉ s.monitor.waiting
  pushing : s.Sleeps → s.scheduler.activeCoroQueue ≠ [] → ∃ thread, (s.pc thread).pushing = true
  keepsIds : s.KeepsIds

theorem Sound.awake {s : SchedulerThreads Thread} (h : s.Sound) : s.Awake :=
  ⟨fun hwaiting => h.pushing (Or.inr hwaiting), h.keepsIds⟩

theorem sound_start (scheduler : CoroutineScheduler) :
    (start scheduler : SchedulerThreads Thread).Sound := by
  refine ⟨excludes_none ?_, List.Perm.refl _, fun _ _ hpc => by contradiction,
    fun _ _ hpc => by contradiction, ?_, rfl⟩
  · intro party
    cases party <;> rfl
  · rintro (hcommits | hwaiting)
    · contradiction
    · exact absurd hwaiting List.not_mem_nil

section Steps

variable [DecidableEq Thread] {s : SchedulerThreads Thread} {thread : Thread}

theorem commits_holds {pc : RunPc} (hcommits : pc.commits = true) : pc.holds = true := by
  cases pc <;> simp_all [RunPc.commits, RunPc.holds]

omit [DecidableEq Thread] in
/-- A thread that holds the monitor finds `run` without it. -/
theorem Sound.not_commits (h : s.Sound)
    (hbefore : s.monitor.holder = none ∨ s.monitor.holder = some (.other thread)) :
    ¬ s.runner.commits = true := by
  intro hcommits
  have hheld := (h.holds .runner).mpr (commits_holds hcommits)
  rcases hbefore with hnone | hsome
  · rw [hnone] at hheld
    contradiction
  · simp [hsome] at hheld

/-! #### `put` and `terminate` -/

theorem holdsAt_other (pc : PutPc) (scheduler : CoroutineScheduler)
    (monitor : Monitor (SchedulerParty Thread)) (queueHolder : Option (SchedulerParty Thread))
    (pushed : List Nat) :
    ({ s with
      scheduler := scheduler, monitor := monitor, queueHolder := queueHolder
      pc := Function.update s.pc thread pc, pushed := pushed } :
      SchedulerThreads Thread).holdsAt = Function.update s.holdsAt (.other thread) pc.holds := by
  funext party
  cases party with
  | runner => rfl
  | other other =>
      by_cases hother : other = thread
      · subst hother
        simp [holdsAt]
      · have hparty : SchedulerParty.other other ≠ .other thread := by simpa using hother
        rw [Function.update_of_ne hparty]
        simp only [holdsAt, Function.update_of_ne hother]

/-- What a step of `put` or `terminate` must keep. -/
theorem Sound.other_next (h : s.Sound) (pc : PutPc) (scheduler : CoroutineScheduler)
    (monitor : Monitor (SchedulerParty Thread)) (queueHolder : Option (SchedulerParty Thread))
    (pushed : List Nat)
    (hholds : Excludes id monitor.holder
      (Function.update s.holdsAt (.other thread) pc.holds))
    (hparked : monitor.parked.Perm s.monitor.parked)
    (hwaiting : monitor.waiting.Sublist s.monitor.waiting)
    (hcount : monitor.notify_ = s.monitor.notify_ ∨ s.monitor.holder = none ∨
      s.monitor.holder = some (.other thread))
    (hbroadcasts : ∀ flag, pc = .signal flag → monitor.notify_ = -1)
    (hwoken : ∀ flag, pc = .release flag → .runner ∉ monitor.waiting)
    (hqueue : scheduler.activeCoroQueue = s.scheduler.activeCoroQueue ∨ pc.pushing = true)
    (hpushing : (s.pc thread).pushing = true → pc.pushing = true ∨
      ¬ s.runner.commits = true ∧ .runner ∉ monitor.waiting)
    (hids : s.taken.flatten ++ scheduler.activeCoroQueue = pushed) :
    Sound { s with
      scheduler := scheduler, monitor := monitor, queueHolder := queueHolder
      pc := Function.update s.pc thread pc, pushed := pushed } := by
  refine ⟨?_, hparked.trans h.parked, ?_, ?_, ?_, hids⟩
  · rw [holdsAt_other]
    exact hholds
  · intro other flag hsignal
    by_cases hother : other = thread
    · subst hother
      simp only [Function.update_self] at hsignal
      exact hbroadcasts flag hsignal
    · simp only [Function.update_of_ne hother] at hsignal
      have hheld : s.monitor.holder = some (.other other) :=
        (h.holds (.other other)).mpr (by simp [holdsAt, hsignal, PutPc.holds])
      rcases hcount with hsame | hnone | hsome
      · exact hsame.trans (h.broadcasts other flag hsignal)
      · rw [hnone] at hheld
        contradiction
      · rw [hsome, Option.some.injEq, SchedulerParty.other.injEq] at hheld
        exact absurd hheld.symm hother
  · intro other flag hrelease
    by_cases hother : other = thread
    · subst hother
      simp only [Function.update_self] at hrelease
      exact hwoken flag hrelease
    · simp only [Function.update_of_ne hother] at hrelease
      exact fun hin => h.woken other flag hrelease (hwaiting.subset hin)
  · intro hsleeps hsome
    have hbefore : s.Sleeps := hsleeps.imp_right fun hin => hwaiting.subset hin
    have hme : pc.pushing = true → ∃ other,
        (Function.update s.pc thread pc other).pushing = true :=
      fun hpc => ⟨thread, by rwa [Function.update_self]⟩
    rcases hqueue with hsame | hpc
    · dsimp only at hsome
      rw [hsame] at hsome
      obtain ⟨other, hother⟩ := h.pushing hbefore hsome
      by_cases heq : other = thread
      · subst heq
        rcases hpushing hother with hpc | ⟨hcommits, hout⟩
        · exact hme hpc
        · exact absurd hsleeps (not_or.mpr ⟨hcommits, hout⟩)
      · exact ⟨other, by simpa only [Function.update_of_ne heq] using hother⟩
    · exact hme hpc

/-- A step of `put` or `terminate` without the monitor. -/
theorem Sound.other_quiet (h : s.Sound) (hout : (s.pc thread).holds = false) (pc : PutPc)
    (scheduler : CoroutineScheduler) (queueHolder : Option (SchedulerParty Thread))
    (pushed : List Nat) (hholds : pc.holds = false)
    (hqueue : scheduler.activeCoroQueue = s.scheduler.activeCoroQueue ∨ pc.pushing = true)
    (hpushing : (s.pc thread).pushing = true → pc.pushing = true)
    (hids : s.taken.flatten ++ scheduler.activeCoroQueue = pushed) :
    Sound { s with
      scheduler := scheduler, queueHolder := queueHolder
      pc := Function.update s.pc thread pc, pushed := pushed } := by
  have hsame : pc.holds = s.holdsAt (.other thread) := hholds.trans hout.symm
  refine h.other_next pc scheduler s.monitor queueHolder pushed (h.holds.move pc.holds hsame)
    (List.Perm.refl _) (List.Sublist.refl _) (Or.inl rfl) ?_ ?_ hqueue
    (fun hpc => Or.inl (hpushing hpc)) hids
  · rintro flag rfl
    contradiction
  · rintro flag rfl
    contradiction

/-- A step of `put` or `terminate` that takes the monitor or holds it. -/
theorem Sound.other_holds (h : s.Sound)
    (hbefore : s.monitor.holder = none ∨ s.monitor.holder = some (.other thread)) (pc : PutPc)
    (monitor : Monitor (SchedulerParty Thread))
    (hafter : monitor.holder = if pc.holds then some (.other thread) else none)
    (hparked : monitor.parked.Perm s.monitor.parked)
    (hwaiting : monitor.waiting.Sublist s.monitor.waiting)
    (hbroadcasts : ∀ flag, pc = .signal flag → monitor.notify_ = -1)
    (hwoken : ∀ flag, pc = .release flag → .runner ∉ monitor.waiting)
    (hpushing : (s.pc thread).pushing = true → pc.pushing = true ∨
      .runner ∉ monitor.waiting) :
    Sound { s with monitor := monitor, pc := Function.update s.pc thread pc } :=
  h.other_next pc s.scheduler monitor s.queueHolder s.pushed
    (h.holds.update hbefore pc.holds hafter) hparked hwaiting (Or.inr hbefore) hbroadcasts hwoken
    (Or.inl rfl)
    (fun hpc => (hpushing hpc).imp_right fun hout => ⟨h.not_commits hbefore, hout⟩) h.keepsIds

theorem Sound.proceed (h : s.Sound) : (s.proceed thread).Sound := by
  have hheld : (s.pc thread).holds = true → s.monitor.holder = some (.other thread) :=
    (h.holds (.other thread)).mpr
  have hids := h.keepsIds
  cases hpc : s.pc thread with
  | out => simpa only [SchedulerThreads.proceed, hpc] using h
  | put coroId =>
      simp only [SchedulerThreads.proceed, hpc]
      split
      · exact h.other_quiet (by rw [hpc]; rfl) .out s.scheduler s.queueHolder s.pushed rfl
          (Or.inl rfl) (by simp [hpc, PutPc.pushing]) hids
      · exact h.other_quiet (by rw [hpc]; rfl) (.pushBack coroId .lock) s.scheduler
          s.queueHolder s.pushed rfl (Or.inl rfl) (by simp [hpc, PutPc.pushing]) hids
  | pushBack coroId queue =>
      cases queue with
      | lock =>
          simp only [SchedulerThreads.proceed, hpc]
          split
          · exact h.other_quiet (by rw [hpc]; rfl) (.pushBack coroId .body) s.scheduler _
              s.pushed rfl (Or.inl rfl) (by simp [hpc, PutPc.pushing]) hids
          · exact h
      | body =>
          simp only [SchedulerThreads.proceed, hpc]
          refine h.other_quiet (by rw [hpc]; rfl) (.pushBack coroId (.release ())) _
            s.queueHolder _ rfl (Or.inr rfl) (fun _ => rfl) ?_
          rw [← hids, List.append_assoc]
      | release result =>
          simp only [SchedulerThreads.proceed, hpc]
          exact h.other_quiet (by rw [hpc]; rfl) (.lock true) s.scheduler none s.pushed rfl
            (Or.inl rfl) (fun _ => rfl) hids
  | terminate =>
      simp only [SchedulerThreads.proceed, hpc]
      exact h.other_quiet (by rw [hpc]; rfl) (.lock false) _ s.queueHolder s.pushed rfl
        (Or.inl rfl) (by simp [hpc, PutPc.pushing]) hids
  | lock pushed =>
      simp only [SchedulerThreads.proceed, hpc]
      cases hlock : s.monitor.lock (.other thread) with
      | none => exact h
      | some locked =>
          obtain ⟨hfree, rfl⟩ := Monitor.lock_eq_some hlock
          refine h.other_holds (Or.inl hfree) (.notifyAll pushed) _ rfl (List.Perm.refl _)
            (List.Sublist.refl _) (fun _ hsignal => by contradiction)
            (fun _ hrelease => by contradiction) fun hpushing => ?_
          rw [hpc] at hpushing
          exact Or.inl hpushing
  | notifyAll pushed =>
      have hholder := hheld (by rw [hpc]; rfl)
      simp only [SchedulerThreads.proceed, hpc]
      refine h.other_holds (Or.inr hholder) (.signal pushed) s.monitor.notifyAll hholder
        (List.Perm.refl _) (List.Sublist.refl _) (fun _ _ => rfl)
        (fun _ hrelease => by contradiction) fun hpushing => ?_
      rw [hpc] at hpushing
      exact Or.inl hpushing
  | signal pushed =>
      have hholder := hheld (by rw [hpc]; rfl)
      have hnone := Monitor.notifyImpl_wakesAll (h.broadcasts thread pushed hpc) []
      simp only [SchedulerThreads.proceed, hpc]
      refine h.other_holds (Or.inr hholder) (.release pushed) (s.monitor.notifyImpl [])
        ((Monitor.notifyImpl_holder []).trans hholder) (Monitor.notifyImpl_parked [])
        (Monitor.notifyImpl_waiting []) (fun _ hsignal => by contradiction)
        (fun _ _ => by simp [hnone]) fun hpushing => ?_
      rw [hpc] at hpushing
      exact Or.inl hpushing
  | release pushed =>
      have hholder := hheld (by rw [hpc]; rfl)
      simp only [SchedulerThreads.proceed, hpc]
      exact h.other_holds (Or.inr hholder) .out s.monitor.release rfl (List.Perm.refl _)
        (List.Sublist.refl _) (fun _ hsignal => by contradiction)
        (fun _ hrelease => by contradiction) fun _ => Or.inr (h.woken thread pushed hpc)

/-! #### `run` -/

theorem holdsAt_runner (pc : RunPc) (scheduler : CoroutineScheduler)
    (monitor : Monitor (SchedulerParty Thread)) (queueHolder : Option (SchedulerParty Thread))
    (taken : List (List Nat)) :
    ({ s with
      scheduler := scheduler, monitor := monitor, queueHolder := queueHolder
      runner := pc, taken := taken } : SchedulerThreads Thread).holdsAt =
        Function.update s.holdsAt .runner pc.holds := by
  funext party
  cases party <;> rfl

/-- What a step of `run` must keep. -/
theorem Sound.runner_next (h : s.Sound) (pc : RunPc) (scheduler : CoroutineScheduler)
    (monitor : Monitor (SchedulerParty Thread)) (queueHolder : Option (SchedulerParty Thread))
    (taken : List (List Nat))
    (hholds : Excludes id monitor.holder (Function.update s.holdsAt .runner pc.holds))
    (hparked : monitor.parked.Perm (pc.parks : List (SchedulerParty Thread)))
    (hmonitor : monitor.notify_ = s.monitor.notify_ ∧
        monitor.waiting.Sublist s.monitor.waiting ∨
      s.monitor.holder = none ∨ s.monitor.holder = some .runner)
    (hpushing : pc.commits = true ∨ pc = .blocked ∧ .runner ∈ monitor.waiting →
      scheduler.activeCoroQueue ≠ [] → ∃ thread, (s.pc thread).pushing = true)
    (hids : taken.flatten ++ scheduler.activeCoroQueue = s.pushed) :
    Sound { s with
      scheduler := scheduler, monitor := monitor, queueHolder := queueHolder
      runner := pc, taken := taken } := by
  have hout : ∀ other, (s.pc other).holds = true →
      monitor.notify_ = s.monitor.notify_ ∧ monitor.waiting.Sublist s.monitor.waiting := by
    intro other hin
    have hheld : s.monitor.holder = some (.other other) := (h.holds (.other other)).mpr hin
    rcases hmonitor with hsame | hnone | hsome
    · exact hsame
    · rw [hnone] at hheld
      contradiction
    · simp [hsome] at hheld
  refine ⟨?_, hparked, ?_, ?_, ?_, hids⟩
  · rw [holdsAt_runner]
    exact hholds
  · intro other flag hsignal
    obtain ⟨hcount, _⟩ := hout other (by rw [show s.pc other = .signal flag from hsignal]; rfl)
    exact hcount.trans (h.broadcasts other flag hsignal)
  · intro other flag hrelease
    obtain ⟨_, hwaiting⟩ := hout other (by rw [show s.pc other = .release flag from hrelease]; rfl)
    exact fun hin => h.woken other flag hrelease (hwaiting.subset hin)
  · intro hsleeps
    refine hpushing (hsleeps.imp_right fun hwaiting => ⟨?_, hwaiting⟩)
    have hin := hparked.subset (List.mem_append_left _ hwaiting)
    cases pc with
    | blocked => rfl
    | _ => exact absurd hin List.not_mem_nil

/-- `run` is there without the monitor and does not wait for it to be signalled. -/
def Away (pc : RunPc) : Prop := pc.holds = false ∧ pc ≠ .blocked

omit [DecidableEq Thread] in
theorem Away.parks {pc : RunPc} (haway : Away pc) :
    (pc.parks : List (SchedulerParty Thread)) = [] := by
  cases pc with
  | blocked => exact absurd rfl haway.2
  | _ => rfl

/-- A step of `run` without the monitor, which is not about to wait. -/
theorem Sound.runner_quiet (h : s.Sound) {before : RunPc} (hpc : s.runner = before)
    (hbefore : Away before) (pc : RunPc) (scheduler : CoroutineScheduler)
    (queueHolder : Option (SchedulerParty Thread)) (taken : List (List Nat)) (hnext : Away pc)
    (hids : taken.flatten ++ scheduler.activeCoroQueue = s.pushed) :
    Sound { s with
      scheduler := scheduler, queueHolder := queueHolder, runner := pc, taken := taken } := by
  have hsame : pc.holds = s.holdsAt .runner := by
    rw [holdsAt, hpc, hbefore.1, hnext.1]
  have hparked := h.parked
  rw [hpc, hbefore.parks, ← hnext.parks] at hparked
  refine h.runner_next pc scheduler s.monitor queueHolder taken (h.holds.move pc.holds hsame)
    hparked (Or.inl ⟨rfl, List.Sublist.refl _⟩) ?_ hids
  rintro (hcommits | ⟨hblocked, _⟩)
  · have hholds := hnext.1
    rw [commits_holds hcommits] at hholds
    contradiction
  · exact absurd hblocked hnext.2

/-- A step of `run` that takes the monitor or holds it. -/
theorem Sound.runner_holds (h : s.Sound)
    (hbefore : s.monitor.holder = none ∨ s.monitor.holder = some .runner) (pc : RunPc)
    (monitor : Monitor (SchedulerParty Thread)) (queueHolder : Option (SchedulerParty Thread))
    (hafter : monitor.holder = if pc.holds then some .runner else none)
    (hparked : monitor.parked.Perm (pc.parks : List (SchedulerParty Thread)))
    (hpushing : pc.commits = true ∨ pc = .blocked ∧ .runner ∈ monitor.waiting →
      s.scheduler.activeCoroQueue ≠ [] → ∃ thread, (s.pc thread).pushing = true) :
    Sound { s with monitor := monitor, queueHolder := queueHolder, runner := pc } :=
  h.runner_next pc s.scheduler monitor queueHolder s.taken
    (h.holds.update hbefore pc.holds hafter) hparked (Or.inr hbefore) hpushing h.keepsIds

/-- As `runner_holds`, where `run` does not go to sleep. -/
theorem Sound.runner_stays (h : s.Sound)
    (hbefore : s.monitor.holder = none ∨ s.monitor.holder = some .runner) (pc : RunPc)
    (monitor : Monitor (SchedulerParty Thread)) (queueHolder : Option (SchedulerParty Thread))
    (hafter : monitor.holder = if pc.holds then some .runner else none)
    (hparked : monitor.parked.Perm (pc.parks : List (SchedulerParty Thread)))
    (hstays : pc.commits = false ∧ pc ≠ .blocked) :
    Sound { s with monitor := monitor, queueHolder := queueHolder, runner := pc } := by
  refine h.runner_holds hbefore pc monitor queueHolder hafter hparked ?_
  rintro (hcommits | ⟨hblocked, _⟩)
  · rw [hstays.1] at hcommits
    contradiction
  · exact absurd hblocked hstays.2

/-- The size of the queue is tested with the monitor held. -/
theorem Sound.size (h : s.Sound) {queue : QueuePc Nat} (hpc : s.runner = .size queue) :
    (s.queueStep .size queueSize (fun n => if n ≤ 0 then .wait else .signal) queue).Sound := by
  have hholder : s.monitor.holder = some .runner :=
    (h.holds .runner).mpr (by rw [holdsAt, hpc]; rfl)
  have hparked := h.parked
  rw [hpc] at hparked
  cases queue with
  | lock =>
      simp only [queueStep]
      split
      · exact h.runner_stays (Or.inr hholder) (.size .body) s.monitor _ hholder hparked
          ⟨rfl, nofun⟩
      · exact h
  | body =>
      simp only [queueStep, queueSize]
      refine h.runner_holds (Or.inr hholder) (.size (.release _)) s.monitor s.queueHolder hholder
        hparked ?_
      intro hcommits hsome
      have hlength : s.scheduler.activeCoroQueue.length = 0 := by
        simpa [RunPc.commits] using hcommits
      exact absurd (List.length_eq_zero_iff.mp hlength) hsome
  | release n =>
      simp only [queueStep]
      split
      · rename_i hnone
        refine h.runner_holds (Or.inr hholder) .wait s.monitor none hholder hparked ?_
        exact fun _ => h.pushing (Or.inl (by rw [hpc]; exact decide_eq_true hnone))
      · exact h.runner_stays (Or.inr hholder) .signal s.monitor none hholder hparked
          ⟨rfl, nofun⟩

/-- A scheduler function that leaves the queue alone. -/
theorem Sound.advance (h : s.Sound) {before : RunPc} (hpc : s.runner = before)
    (hbefore : Away before) {step : Except Fault CoroutineScheduler}
    (hqueue : ∀ {scheduler}, step = .ok scheduler →
      scheduler.activeCoroQueue = s.scheduler.activeCoroQueue)
    {pc : RunPc} {next : SchedulerThreads Thread} (hstep : s.advance step pc = .ok next)
    (hnext : Away pc) : next.Sound := by
  cases step with
  | error fault => contradiction
  | ok scheduler =>
      obtain rfl := Except.ok.inj hstep
      refine h.runner_quiet hpc hbefore pc scheduler s.queueHolder s.taken hnext ?_
      rw [hqueue rfl]
      exact h.keepsIds

/-- A step of `run` that goes on without the monitor. -/
theorem Sound.goes (h : s.Sound) {before : RunPc} (hpc : s.runner = before)
    (hbefore : Away before) (pc : RunPc) (queueHolder : Option (SchedulerParty Thread))
    (hnext : Away pc) : Sound { s with queueHolder := queueHolder, runner := pc } :=
  h.runner_quiet hpc hbefore pc s.scheduler queueHolder s.taken hnext h.keepsIds

theorem Sound.wakeupSize (h : s.Sound) {queue : QueuePc Nat}
    (hpc : s.runner = .wakeupSize queue) :
    (s.queueStep .wakeupSize queueSize
      (fun n => if n > 0 then .wakeupSwap .lock else .active 100) queue).Sound := by
  cases queue with
  | lock =>
      simp only [queueStep]
      split
      · exact h.goes hpc ⟨rfl, nofun⟩ (.wakeupSize .body) _ ⟨rfl, nofun⟩
      · exact h
  | body => exact h.goes hpc ⟨rfl, nofun⟩ (.wakeupSize (.release _)) s.queueHolder ⟨rfl, nofun⟩
  | release n =>
      simp only [queueStep]
      split
      · exact h.goes hpc ⟨rfl, nofun⟩ (.wakeupSwap .lock) none ⟨rfl, nofun⟩
      · exact h.goes hpc ⟨rfl, nofun⟩ (.active 100) none ⟨rfl, nofun⟩

/-- `wakeup` takes all ids of the queue. -/
theorem Sound.wakeupSwap (h : s.Sound) {queue : QueuePc (List Nat)}
    (hpc : s.runner = .wakeupSwap queue) :
    (s.queueStep .wakeupSwap queueSwap .wakeupMove queue).Sound := by
  cases queue with
  | lock =>
      simp only [queueStep]
      split
      · exact h.goes hpc ⟨rfl, nofun⟩ (.wakeupSwap .body) _ ⟨rfl, nofun⟩
      · exact h
  | body =>
      simp only [queueStep, queueSwap]
      refine h.runner_quiet hpc ⟨rfl, nofun⟩ (.wakeupSwap (.release _)) _ s.queueHolder _
        ⟨rfl, nofun⟩ ?_
      have hids := h.keepsIds
      rw [KeepsIds] at hids
      simpa using hids
  | release coroIds => exact h.goes hpc ⟨rfl, nofun⟩ (.wakeupMove coroIds) none ⟨rfl, nofun⟩

theorem Sound.runner_lock (h : s.Sound) (hpc : s.runner = .lock) {refused : Bool} {now : Int}
    {next : SchedulerThreads Thread} (hstep : s.runnerStep refused now = .ok next) :
    next.Sound := by
  have hparked := h.parked
  rw [hpc] at hparked
  simp only [runnerStep, hpc] at hstep
  cases hlock : s.monitor.lock .runner with
  | none =>
      simp only [hlock, Except.ok.injEq] at hstep
      exact hstep ▸ h
  | some locked =>
      simp only [hlock, Except.ok.injEq] at hstep
      obtain ⟨hfree, rfl⟩ := Monitor.lock_eq_some hlock
      exact hstep ▸ h.runner_stays (Or.inl hfree) (.size .lock) _ s.queueHolder rfl hparked
        ⟨rfl, nofun⟩

/-- Whoever pushed since the queue was found empty has not released the monitor. -/
theorem Sound.runner_wait (h : s.Sound) (hpc : s.runner = .wait) {refused : Bool} {now : Int}
    {next : SchedulerThreads Thread} (hstep : s.runnerStep refused now = .ok next) :
    next.Sound := by
  have hholder : s.monitor.holder = some .runner :=
    (h.holds .runner).mpr (by rw [holdsAt, hpc]; rfl)
  have hcommits : s.runner.commits = true := by rw [hpc]; rfl
  have hparked := h.parked
  rw [hpc] at hparked
  simp only [runnerStep, hpc] at hstep
  split at hstep
  · rw [Except.ok.injEq] at hstep
    exact hstep ▸ h.runner_stays (Or.inr hholder) .signal _ s.queueHolder
      ((Monitor.notifyImpl_holder []).trans hholder)
      ((Monitor.notifyImpl_parked []).trans hparked) ⟨rfl, nofun⟩
  · rw [Except.ok.injEq] at hstep
    exact hstep ▸ h.runner_holds (Or.inr hholder) .blocked _ s.queueHolder rfl
      ((Monitor.wait_parked []).trans (hparked.cons .runner))
      fun _ => h.pushing (Or.inl hcommits)

theorem Sound.runner_blocked (h : s.Sound) (hpc : s.runner = .blocked) {refused : Bool}
    {now : Int} {next : SchedulerThreads Thread}
    (hstep : s.runnerStep refused now = .ok next) : next.Sound := by
  have hparked := h.parked
  rw [hpc] at hparked
  simp only [runnerStep, hpc] at hstep
  cases hresume : s.monitor.resume .runner with
  | none =>
      simp only [hresume, Except.ok.injEq] at hstep
      exact hstep ▸ h
  | some resumed =>
      simp only [hresume, Except.ok.injEq] at hstep
      have hleft := Monitor.resume_parked hresume
      obtain ⟨hfree, rfl⟩ := Monitor.resume_eq_some hresume
      exact hstep ▸ h.runner_stays (Or.inl hfree) .signal _ s.queueHolder rfl
        (hleft.symm.trans hparked).cons_inv ⟨rfl, nofun⟩

theorem Sound.runner (h : s.Sound) {refused : Bool} {now : Int}
    {next : SchedulerThreads Thread} (hstep : s.runnerStep refused now = .ok next) :
    next.Sound := by
  have hheld : s.runner.holds = true → s.monitor.holder = some .runner := (h.holds .runner).mpr
  have hparked := h.parked
  cases hpc : s.runner with
  | loop =>
      simp only [runnerStep, hpc, Except.ok.injEq] at hstep
      subst hstep
      split
      · exact h.goes hpc ⟨rfl, nofun⟩ .done _ ⟨rfl, nofun⟩
      · exact h.goes hpc ⟨rfl, nofun⟩ .lists _ ⟨rfl, nofun⟩
  | lists =>
      simp only [runnerStep, hpc, Except.ok.injEq] at hstep
      subst hstep
      split
      · exact h.goes hpc ⟨rfl, nofun⟩ .lock _ ⟨rfl, nofun⟩
      · exact h.goes hpc ⟨rfl, nofun⟩ .wakeupbytimeout _ ⟨rfl, nofun⟩
  | lock => exact h.runner_lock hpc hstep
  | size queue =>
      simp only [runnerStep, hpc, Except.ok.injEq] at hstep
      exact hstep ▸ h.size hpc
  | wait => exact h.runner_wait hpc hstep
  | blocked => exact h.runner_blocked hpc hstep
  | signal =>
      have hholder := hheld (by rw [hpc]; rfl)
      rw [hpc] at hparked
      simp only [runnerStep, hpc, Except.ok.injEq] at hstep
      exact hstep ▸ h.runner_stays (Or.inr hholder) .release _ s.queueHolder
        ((Monitor.notifyImpl_holder []).trans hholder)
        ((Monitor.notifyImpl_parked []).trans hparked) ⟨rfl, nofun⟩
  | release =>
      have hholder := hheld (by rw [hpc]; rfl)
      rw [hpc] at hparked
      simp only [runnerStep, hpc, Except.ok.injEq] at hstep
      exact hstep ▸ h.runner_stays (Or.inr hholder) .wakeupbytimeout _ s.queueHolder rfl hparked
        ⟨rfl, nofun⟩
  | wakeupbytimeout =>
      simp only [runnerStep, hpc] at hstep
      exact h.advance hpc ⟨rfl, nofun⟩ queue_wakeupbytimeout hstep ⟨rfl, nofun⟩
  | wakeupbyself =>
      simp only [runnerStep, hpc] at hstep
      exact h.advance hpc ⟨rfl, nofun⟩ queue_wakeupbyself hstep ⟨rfl, nofun⟩
  | wakeup =>
      simp only [runnerStep, hpc, Except.ok.injEq] at hstep
      subst hstep
      split
      · exact h.goes hpc ⟨rfl, nofun⟩ (.active 100) _ ⟨rfl, nofun⟩
      · exact h.goes hpc ⟨rfl, nofun⟩ (.wakeupSize .lock) _ ⟨rfl, nofun⟩
  | wakeupSize queue =>
      simp only [runnerStep, hpc, Except.ok.injEq] at hstep
      exact hstep ▸ h.wakeupSize hpc
  | wakeupSwap queue =>
      simp only [runnerStep, hpc, Except.ok.injEq] at hstep
      exact hstep ▸ h.wakeupSwap hpc
  | wakeupMove coroIds =>
      simp only [runnerStep, hpc] at hstep
      exact h.advance hpc ⟨rfl, nofun⟩
        (queue_wakeLoop moveToActive_moves.queue coroIds) hstep ⟨rfl, nofun⟩
  | active loop =>
      simp only [runnerStep, hpc] at hstep
      split at hstep
      · exact h.advance hpc ⟨rfl, nofun⟩ queue_switchToFirst hstep ⟨rfl, nofun⟩
      · rw [Except.ok.injEq] at hstep
        exact hstep ▸ h.goes hpc ⟨rfl, nofun⟩ .avail _ ⟨rfl, nofun⟩
  | activeRuns loop =>
      simp only [runnerStep, hpc, Except.ok.injEq] at hstep
      exact hstep ▸ h
  | avail =>
      simp only [runnerStep, hpc] at hstep
      split at hstep
      · exact h.advance hpc ⟨rfl, nofun⟩ queue_switchToFirst hstep ⟨rfl, nofun⟩
      · rw [Except.ok.injEq] at hstep
        exact hstep ▸ h.goes hpc ⟨rfl, nofun⟩ .used _ ⟨rfl, nofun⟩
  | availRuns =>
      simp only [runnerStep, hpc, Except.ok.injEq] at hstep
      exact hstep ▸ h
  | used =>
      simp only [runnerStep, hpc, Except.ok.injEq] at hstep
      subst hstep
      split
      · exact h.goes hpc ⟨rfl, nofun⟩ .done _ ⟨rfl, nofun⟩
      · exact h.goes hpc ⟨rfl, nofun⟩ .loop _ ⟨rfl, nofun⟩
  | done =>
      simp only [runnerStep, hpc, Except.ok.injEq] at hstep
      exact hstep ▸ h

/-- A call of the coroutine that runs. -/
theorem Sound.coroutine (h : s.Sound) {call : CoroutineCall} {next : SchedulerThreads Thread}
    (hstep : s.coroutineStep call = .ok next) : next.Sound := by
  rw [coroutineStep] at hstep
  split at hstep
  · rename_i loop hpc
    refine h.advance hpc ⟨rfl, nofun⟩ queue_callOf hstep ?_
    split <;> exact ⟨rfl, nofun⟩
  · rename_i hpc
    refine h.advance hpc ⟨rfl, nofun⟩ queue_callOf hstep ?_
    split <;> exact ⟨rfl, nofun⟩
  · exact Except.ok.inj hstep ▸ h

theorem Sound.step (h : s.Sound) {action : ThreadsAction Thread}
    {next : SchedulerThreads Thread} (hstep : s.step action = .ok next) : next.Sound := by
  cases action with
  | put thread coroId =>
      obtain rfl := Except.ok.inj hstep
      split
      · rename_i hout
        exact h.other_quiet (by rw [hout]; rfl) (.put coroId) s.scheduler s.queueHolder s.pushed
          rfl (Or.inl rfl) (by simp [hout, PutPc.pushing]) h.keepsIds
      · exact h
  | terminate thread =>
      obtain rfl := Except.ok.inj hstep
      split
      · rename_i hout
        exact h.other_quiet (by rw [hout]; rfl) .terminate s.scheduler s.queueHolder s.pushed rfl
          (Or.inl rfl) (by simp [hout, PutPc.pushing]) h.keepsIds
      · exact h
  | proceed thread =>
      obtain rfl := Except.ok.inj hstep
      exact h.proceed
  | runner refused now => exact h.runner hstep
  | coroutine call => exact h.coroutine hstep
  | wake =>
      obtain rfl := Except.ok.inj hstep
      refine h.runner_next s.runner s.scheduler (s.monitor.spuriousWake .runner) s.queueHolder
        s.taken ?_ (Monitor.spuriousWake_parked.trans h.parked) (Or.inl ⟨by simp, ?_⟩) ?_
        h.keepsIds
      · rw [Monitor.spuriousWake_holder]
        exact h.holds.move s.runner.holds rfl
      · rw [Monitor.spuriousWake_waiting]
        exact List.erase_sublist
      · rintro (hcommits | ⟨_, hwaiting⟩)
        · exact h.pushing (Or.inl hcommits)
        · rw [Monitor.spuriousWake_waiting] at hwaiting
          exact h.pushing (Or.inr (List.mem_of_mem_erase hwaiting))

end Steps

/-- From any scheduler, however the steps of `run`, of its coroutines and of the threads in
`put` and `terminate` are interleaved: `run` never waits unwoken beside a queue that is not
empty, unless some `put` has pushed and not yet released the monitor; and every id that was
pushed is in the queue until one `wakeup` takes it, and only one does.  A fault of the
scheduler ends the run. -/
theorem run_awake [DecidableEq Thread] (scheduler : CoroutineScheduler)
    (actions : List (ThreadsAction Thread)) :
    StaysUpTo (fun _ => True) step Awake (start scheduler) actions :=
  staysUpTo_of_along (fun _ h => h.awake) (fun _ _ _ h _ hstep => h.step hstep)
    (fun _ _ _ _ _ _ => trivial) (sound_start scheduler) along_true

end SchedulerThreads

end Tarsx
