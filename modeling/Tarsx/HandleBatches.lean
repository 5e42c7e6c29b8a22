/-
A thread whose handlers do not wait and for which no id is put: `handleRequest` takes a
batch, puts itself behind it, and is resumed when the batch is done, until `run` leaves
its loop.  The order of `avail_` carries this over the turns of `tars_run`, which end in
the middle of a batch.
-/
import Tarsx.HandleLoop
import Tarsx.SchedulerRuns

namespace Tarsx

open Foundation

namespace CoroutineScheduler

/-- A scheduler on which coroutines run and yield but none sleeps or waits for an id to
be put, and no id was lost. -/
structure Quiet (s : CoroutineScheduler) (queues : CoroStatus → List Nat) : Prop where
  inv : s.Inv queues
  uniq : s.uniqId = s.currentSize
  places : s.poolSize < s.allCoroSize
  terminal : s.terminal = false
  requests : s.activeCoroQueue = []
  deadlines : s.timeoutCoroId = []
  active : queues .active = []
  timeout : queues .timeout = []
  used : s.usedSize = (queues .avail).length + (queues .inactive).length

section

variable {s : CoroutineScheduler} {queues : CoroStatus → List Nat}

theorem Quiet.wakeupbytimeout (h : s.Quiet queues) (now : Int) :
    s.wakeupbytimeout now = .ok s := by
  have hsame : { s with timeoutCoroId := [] } = s := by rw [← h.deadlines]
  rw [CoroutineScheduler.wakeupbytimeout, if_neg (by simp [h.terminal]), h.deadlines]
  exact congrArg Except.ok hsame

theorem Quiet.wakeup (h : s.Quiet queues) : s.wakeup = .ok s := by
  have hsame : { s with activeCoroQueue := [] } = s := by rw [← h.requests]
  rw [CoroutineScheduler.wakeup, if_neg (by simp [h.terminal]), h.requests]
  exact congrArg Except.ok hsame

theorem Quiet.wakeupbyself_nil (h : s.Quiet queues) (hneed : s.needActiveCoroId = []) :
    s.wakeupbyself = .ok s := by
  have hsame : { s with needActiveCoroId := [] } = s := by rw [← hneed]
  rw [wakeupbyself, if_neg (by simp [h.terminal]), hneed]
  exact congrArg Except.ok hsame

/-- The one coroutine that put itself goes to the end of `avail_`. -/
theorem Quiet.wakeupbyself_one (h : s.Quiet queues) {uid : Nat}
    (hneed : s.needActiveCoroId = [uid]) (hinactive : queues .inactive = [uid]) :
    ∃ next, s.wakeupbyself = .ok next ∧ next.Quiet (moved queues .inactive .avail uid) ∧
      next.needActiveCoroId = [] ∧ next.currentCoro = s.currentCoro ∧
      next.poolSize = s.poolSize := by
  have hmem : uid ∈ queues .inactive := by simp [hinactive]
  rcases h.inv.wake hmem (Or.inl rfl) (Or.inr rfl) with ⟨links, hmove, hinv⟩
  have hcoro := h.inv.lists.coroOf (made_of_mem h.inv.lists hmem)
  have hstatus := status_of_mem h.inv.lists hmem
  refine ⟨{ s.relinked links (.coroutine uid) .avail with needActiveCoroId := [] }, ?_,
    ⟨⟨hinv.lists.congr rfl (fun _ => rfl) rfl rfl rfl rfl, hinv.current, hinv.used, by simp,
      hinv.timeout_made, hinv.running⟩, h.uniq, h.places, h.terminal, h.requests, h.deadlines,
      ?_, ?_, ?_⟩, rfl, rfl, rfl⟩
  · simp [wakeupbyself, h.terminal, hneed, wakeLoop, hcoro, moveToAvail, hstatus, hmove, bind,
      Except.bind]
  · rw [moved_of_ne (by decide) (by decide)]
    exact h.active
  · rw [moved_of_ne (by decide) (by decide)]
    exact h.timeout
  · have hused := h.used
    rw [hinactive] at hused
    change s.usedSize = _
    simp [moved, hinactive, hused]

theorem Quiet.switchToFirst (h : s.Quiet queues) {uid : Nat} {rest : List Nat}
    (havail : queues .avail = uid :: rest) :
    s.switchToFirst .avail = .ok (s.switchCoro (.coroutine uid)) ∧
      (s.switchCoro (.coroutine uid)).Quiet queues := by
  rcases switchToFirst_ok h.inv (Or.inr rfl) havail with ⟨hswitch, hinv⟩
  exact ⟨hswitch, hinv, h.uniq, h.places, h.terminal, h.requests, h.deadlines, h.active,
    h.timeout, h.used⟩

/-- The first coroutine of `avail_` runs and yields. -/
theorem Quiet.yield (h : s.Quiet queues) {uid : Nat} {rest : List Nat}
    (hcurrent : s.currentCoro = some (.coroutine uid)) (havail : queues .avail = uid :: rest) :
    ∃ next, s.yield true = .ok next ∧ next.Quiet (moved queues .avail .inactive uid) ∧
      next.needActiveCoroId = s.needActiveCoroId ++ [uid] ∧ next.currentCoro = some .main ∧
      next.poolSize = s.poolSize := by
  have hmem : uid ∈ queues .avail := by simp [havail]
  have hput : s.putIf true uid =
      { s with needActiveCoroId := s.needActiveCoroId ++ [uid] } := by
    simp [putIf, putbyself, h.terminal]
  rcases yield_ok h.inv true hcurrent hmem (Or.inr rfl) with ⟨links, hyield, hinv⟩
  rw [hput] at hyield hinv
  refine ⟨_, hyield, ⟨hinv, h.uniq, h.places, h.terminal, h.requests, h.deadlines, ?_, ?_, ?_⟩,
    rfl, rfl, rfl⟩
  · rw [moved_of_ne (by decide) (by decide)]
    exact h.active
  · rw [moved_of_ne (by decide) (by decide)]
    exact h.timeout
  · have hused := h.used
    rw [havail, List.length_cons] at hused
    change s.usedSize = _
    simp only [moved, havail, hused, List.erase_cons_head, ne_eq, reduceCtorEq,
      not_false_eq_true, Function.update_of_ne, Function.update_self, List.length_append,
      List.length_singleton]
    omega

/-- The first coroutine of `avail_` runs and ends. -/
theorem Quiet.finish (h : s.Quiet queues) {uid : Nat} {rest : List Nat}
    (hcurrent : s.currentCoro = some (.coroutine uid)) (havail : queues .avail = uid :: rest) :
    ∃ next, s.finish = .ok next ∧ next.Quiet (moved queues .avail .free uid) ∧
      next.needActiveCoroId = s.needActiveCoroId ∧ next.currentCoro = some .main ∧
      next.poolSize = s.poolSize := by
  have hmem : uid ∈ queues .avail := by simp [havail]
  rcases finish_ok h.inv hcurrent hmem (Or.inr rfl) with ⟨links, hfinish, hinv⟩
  refine ⟨_, hfinish, ⟨hinv, h.uniq, h.places, h.terminal, h.requests, h.deadlines, ?_, ?_, ?_⟩,
    rfl, rfl, rfl⟩
  · rw [moved_of_ne (by decide) (by decide)]
    exact h.active
  · rw [moved_of_ne (by decide) (by decide)]
    exact h.timeout
  · have hused := h.used
    rw [havail, List.length_cons] at hused
    change s.usedSize - 1 = _
    simp only [moved, havail, hused, List.erase_cons_head, ne_eq, reduceCtorEq,
      not_false_eq_true, Function.update_of_ne, Function.update_self]
    omega

/-- While fewer coroutines are used than the pool may hold, `createCoroutine` returns the
id of a coroutine that it puts at the end of `avail_`. -/
theorem Quiet.createCoroutine (h : s.Quiet queues) {allocs : Nat → Bool}
    (hallocs : ∀ turn, allocs turn = true) (hless : s.usedSize < s.poolSize) :
    ∃ id next queues', s.createCoroutine allocs = .ok (id, next) ∧ id ≠ 0 ∧
      next.Quiet queues' ∧ queues' .avail = queues .avail ++ [id] ∧
      queues' .inactive = queues .inactive ∧
      next.needActiveCoroId = s.needActiveCoroId ∧ next.currentCoro = s.currentCoro ∧
      next.poolSize = s.poolSize := by
  have hroom : s.HasRoom allocs := by
    by_cases hneed : s.usedSize ≥ s.currentSize ∨
        CoroutineInfo.coroutineHeadEmpty s.links (.head .free) = true
    · have hused := h.inv.used
      have hfull : s.currentSize ≤ s.usedSize := by
        rcases hneed with hfull | hempty
        · exact hfull
        · rw [(headEmpty_iff h.inv.lists.rings .free).mp hempty, List.length_nil] at hused
          exact hused.ge
      exact Or.inr ⟨lt_of_le_of_lt hfull hless, fun _ => hallocs 0⟩
    · exact Or.inl hneed
  rcases createCoroutine_ok h.inv h.uniq h.places hallocs with ⟨id, next, hcreate, huniq⟩
  rcases createCoroutine_spec h.inv hcreate with ⟨queues', hcreates, hid⟩
  have hne : id ≠ 0 := hid.mpr hroom
  have havail := hcreates.avail
  have hused := hcreates.used
  rw [if_neg hne] at havail hused
  have hframe := hcreates.frame
  have hinactive := hcreates.others .inactive (by decide) (by decide)
  refine ⟨id, next, queues', hcreate, hne, ⟨hcreates.inv, huniq, ?_, ?_, ?_, ?_, ?_, ?_, ?_⟩,
    havail, hinactive, ?_, ?_, ?_⟩
  · rw [hframe]
    exact h.places
  · rw [hframe]
    exact h.terminal
  · rw [hframe]
    exact h.requests
  · rw [hframe]
    exact h.deadlines
  · rw [hcreates.others .active (by decide) (by decide)]
    exact h.active
  · rw [hcreates.others .timeout (by decide) (by decide)]
    exact h.timeout
  · rw [hused, havail, hinactive, h.used, List.length_append, List.length_singleton]
    omega
  · rw [hframe]
  · rw [hframe]
  · rw [hframe]

end

end CoroutineScheduler

namespace ServantHandle

open CoroutineScheduler CoroutineInfo

/-- `handleRequest`, the coroutine `uid`, waits behind the requests of its batch: it has
put itself and is on `inactive_`, or it is the last on `avail_`. -/
def AtRest (need : List Nat) (queues : CoroStatus → List Nat) (uid limit : Nat) : Prop :=
  (queues .inactive = [uid] ∧ need = [uid] ∧ (queues .avail).length ≤ limit) ∨
    (queues .inactive = [] ∧ need = [] ∧
      ∃ batch, queues .avail = batch ++ [uid] ∧ batch.length ≤ limit)

/-- The main coroutine runs or the first on `avail_`, and `handleRequest` is at the top
of its loop. -/
structure Waiting (scheduler : CoroutineScheduler) (request : RequestPlace) (limit : Nat)
    (queues : CoroStatus → List Nat) (uid : Nat) : Prop where
  rest : AtRest scheduler.needActiveCoroId queues uid limit
  top : request = .top
  current : scheduler.currentCoro = some .main ∨
    ∃ first others, scheduler.currentCoro = some (.coroutine first) ∧
      queues .avail = first :: others

/-- How many requests the loops of `handleRequest` can take before it yields. -/
def budget : RequestPlace → Nat
  | .top => 0
  | .adapters rest _ => 100 * rest.length
  | .queue _ rest loop _ _ => loop + 100 * rest.length

/-- At each exit of the loop over a queue, `yield` is false. -/
def YieldsAtEnd : RequestPlace → Prop
  | .top => False
  | .adapters _ yield => yield = false
  | .queue _ _ _ flag yield => flag = false → yield = false

/-- `handleRequest` runs: the coroutines that it made are behind it on `avail_`. -/
structure Taking (scheduler : CoroutineScheduler) (request : RequestPlace) (limit : Nat)
    (queues : CoroStatus → List Nat) (uid : Nat) : Prop where
  inactive : queues .inactive = []
  need : scheduler.needActiveCoroId = []
  current : scheduler.currentCoro = some (.coroutine uid)
  batch : ∃ batch, queues .avail = uid :: batch ∧ batch.length + budget request ≤ limit
  yields : YieldsAtEnd request

/-- The invariant between two steps; `uid` is the id of the coroutine of
`handleRequest`. -/
structure BatchInv (s : ServantHandle) (queues : CoroStatus → List Nat) (uid : Nat) :
    Prop where
  quiet : s.scheduler.Quiet queues
  pool : 1 + 100 * s.adapters.length ≤ s.scheduler.poolSize
  handler : s.callback uid = some .handleRequest
  handlers : ∀ other ∈ queues .avail, other ≠ uid →
    ∃ serial recv, s.callback other = some (.handle serial recv)
  returned : 0 ∉ s.returned
  phase : Waiting s.scheduler s.request (100 * s.adapters.length) queues uid ∨
    Taking s.scheduler s.request (100 * s.adapters.length) queues uid
  loops : s.main.Loops

/-- Behind the loop of `run` no coroutine runs any more. -/
structure Left (s : ServantHandle) : Prop where
  left : ¬ s.main.Loops
  current : s.scheduler.currentCoro = some .main
  used : s.scheduler.usedSize ≤ 1 + 100 * s.adapters.length
  places : s.scheduler.poolSize < s.scheduler.allCoroSize
  returned : 0 ∉ s.returned

/-- The invariant, for some queues and the id of `handleRequest`, until `run` leaves its
loop. -/
def InBatches (s : ServantHandle) : Prop := (∃ queues uid, BatchInv s queues uid) ∨ Left s

/-- When `handleRequest` is resumed it is the only coroutine that is not on `free_`, no
more coroutines are used than it and a batch, and `createCoroutine` has not
returned 0. -/
structure Batched (s : ServantHandle) : Prop where
  alone : ∀ uid, s.scheduler.currentCoro = some (.coroutine uid) →
    s.callback uid = some .handleRequest → s.request = .top →
      ∀ other ∈ s.scheduler.createdIds,
        s.scheduler.status (.coroutine other) ≠ .free ↔ other = uid
  used : s.scheduler.usedSize ≤ 1 + 100 * s.adapters.length
  created : 0 ∉ s.returned

/-- Messages come and are taken by other handles at any time, and the server may
terminate, but no id is put, stacks are allocated, and a handler does not wait. -/
def Steady (_ : ServantHandle) : Action → Prop
  | .put _ => False
  | .thread _ allocs handler => (∀ turn, allocs turn = true) ∧ handler = .finish
  | _ => True

section

variable {s : ServantHandle} {queues : CoroStatus → List Nat} {uid : Nat}

theorem AtRest.length_le {need : List Nat} {limit : Nat} (h : AtRest need queues uid limit) :
    (queues .avail).length + (queues .inactive).length ≤ 1 + limit := by
  rcases h with ⟨hinactive, _, hle⟩ | ⟨hinactive, _, batch, havail, hle⟩
  · rw [hinactive, List.length_singleton]
    omega
  · rw [hinactive, havail, List.length_append, List.length_singleton, List.length_nil]
    omega

/-- `handleRequest` is the first on `avail_` only when it is alone there. -/
theorem AtRest.alone {need : List Nat} {limit : Nat} (h : AtRest need queues uid limit)
    {links : Links CoroutineInfo} (hrings : Rings links queues) {others : List Nat}
    (havail : queues .avail = uid :: others) :
    queues .avail = [uid] ∧ queues .inactive = [] ∧ need = [] := by
  rcases h with ⟨hinactive, _, _⟩ | ⟨hinactive, hneed, batch, hbatch, _⟩
  · have hmem : uid ∈ queues .inactive := by simp [hinactive]
    have hfirst : uid ∈ queues .avail := by simp [havail]
    exact absurd (hrings.disjoint .inactive .avail uid hmem hfirst) (by decide)
  · cases batch with
    | nil => exact ⟨hbatch, hinactive, hneed⟩
    | cons first batch =>
        have hnodup := hrings.nodup .avail
        rw [hbatch] at havail hnodup
        have hsame : first = uid := (List.cons.inj havail).1
        simp [hsame] at hnodup

/-- The first of a batch ends. -/
theorem AtRest.finish {need : List Nat} {limit : Nat} (h : AtRest need queues uid limit)
    {first : Nat} {others : List Nat} (havail : queues .avail = first :: others)
    (hne : first ≠ uid) :
    AtRest need (moved queues .avail .free first) uid limit := by
  have hinactive : moved queues .avail .free first .inactive = queues .inactive :=
    moved_of_ne (by decide) (by decide)
  have hothers : moved queues .avail .free first .avail = others := by
    simp [moved, havail]
  rcases h with ⟨hone, hneed, hle⟩ | ⟨hnone, hneed, batch, hbatch, hle⟩
  · rw [havail, List.length_cons] at hle
    refine Or.inl ⟨hinactive.trans hone, hneed, ?_⟩
    rw [hothers]
    exact Nat.le_of_succ_le hle
  · rw [hbatch] at havail
    cases batch with
    | nil => exact absurd (List.cons.inj havail).1.symm hne
    | cons head batch =>
        have htail := (List.cons.inj havail).2
        refine Or.inr ⟨hinactive.trans hnone, hneed, batch, hothers.trans htail.symm, ?_⟩
        exact Nat.le_of_succ_le hle

theorem BatchInv.batched (h : BatchInv s queues uid) : Batched s := by
  refine ⟨?_, ?_, h.returned⟩
  · intro current hcurrent hcallback htop other hother
    rcases h.phase with hwaiting | htaking
    · rcases hwaiting.current with hmain | ⟨first, others, hfirst, havail⟩
      · simp [hcurrent] at hmain
      · rw [hcurrent, Option.some.injEq, CoroutineInfo.coroutine.injEq] at hfirst
        subst hfirst
        have hsame : current = uid := by
          by_contra hne
          rcases h.handlers current (by simp [havail]) hne with ⟨serial, recv, hhandle⟩
          simp [hcallback] at hhandle
        subst hsame
        rcases hwaiting.rest.alone h.quiet.inv.lists.rings havail with ⟨halone, hinactive, _⟩
        have hmade := (mem_createdIds h.quiet.inv.lists other).mp hother
        have hlist := h.quiet.inv.lists.mem_of_made hmade
        constructor
        · intro hused
          cases hstatus : s.scheduler.status (.coroutine other) with
          | free => exact absurd hstatus hused
          | active => simp [hstatus, h.quiet.active] at hlist
          | avail => simpa [hstatus, halone] using hlist
          | inactive => simp [hstatus, hinactive] at hlist
          | timeout => simp [hstatus, h.quiet.timeout] at hlist
        · rintro rfl
          have hmem : other ∈ queues .avail := by simp [halone]
          simp [status_of_mem h.quiet.inv.lists hmem]
    · have hplace := htaking.yields
      rw [htop] at hplace
      exact hplace.elim
  · rw [h.quiet.used]
    rcases h.phase with hwaiting | htaking
    · exact hwaiting.rest.length_le
    · rcases htaking.batch with ⟨batch, havail, hle⟩
      rw [havail, htaking.inactive, List.length_cons, List.length_nil]
      omega

theorem Left.batched (h : Left s) : Batched s := by
  refine ⟨?_, h.used, h.returned⟩
  intro uid hcurrent
  rw [h.current, Option.some.injEq] at hcurrent
  exact CoroutineInfo.noConfusion hcurrent

/-- Behind its loop `run` only returns. -/
theorem Left.thread (h : Left s) (now : Int) (allocs : Nat → Bool) (handler : HandlerStep) :
    ∃ next, s.thread now allocs handler = .ok next ∧ Left next := by
  have hdestroy : s.scheduler.destroy = .ok () := by
    rw [destroy, if_neg (Nat.ne_zero_of_lt h.places), if_pos h.places]
  have hleft := h.left
  simp only [ServantHandle.thread, h.current, ServantHandle.runMain]
  cases hplace : s.main with
  | terminated =>
      refine ⟨{ s with main := .ended }, ?_, ?_, h.current, h.used, h.places, h.returned⟩
      · simp only [hdestroy, bind, Except.bind]
      · exact fun hloops => hloops.2 rfl
  | ended => exact ⟨s, rfl, h⟩
  | _ => simp [RunPlace.Loops, hplace] at hleft

/-- The wake-ups of a turn of `tars_run`: if `handleRequest` has put itself, it goes
behind what is left of its batch. -/
theorem AtRest.wakeupbyself {scheduler : CoroutineScheduler} {limit : Nat}
    (h : AtRest scheduler.needActiveCoroId queues uid limit)
    (hquiet : scheduler.Quiet queues) :
    ∃ next queues', scheduler.wakeupbyself = .ok next ∧ next.Quiet queues' ∧
      AtRest next.needActiveCoroId queues' uid limit ∧
      next.currentCoro = scheduler.currentCoro ∧ next.poolSize = scheduler.poolSize ∧
      ∀ other ∈ queues' .avail, other ∈ queues .avail ∨ other = uid := by
  rcases h with ⟨hinactive, hneed, hle⟩ | ⟨hinactive, hneed, hbatch⟩
  · rcases hquiet.wakeupbyself_one hneed hinactive with
      ⟨next, hwake, hnext, hnone, hcurrent, hpool⟩
    have havail : moved queues .inactive .avail uid .avail = queues .avail ++ [uid] := by
      simp [moved]
    have hempty : moved queues .inactive .avail uid .inactive = [] := by
      simp [moved, hinactive]
    refine ⟨next, _, hwake, hnext, Or.inr ⟨hempty, hnone, queues .avail, havail, hle⟩, hcurrent,
      hpool, ?_⟩
    intro other hother
    rw [havail] at hother
    simpa using hother
  · exact ⟨scheduler, queues, hquiet.wakeupbyself_nil hneed, hquiet,
      Or.inr ⟨hinactive, hneed, hbatch⟩, rfl, rfl, fun _ hother => Or.inl hother⟩

/-- A step that changes the scheduler and the places. -/
theorem BatchInv.update (h : BatchInv s queues uid) {scheduler : CoroutineScheduler}
    {queues' : CoroStatus → List Nat} {request : RequestPlace} (main : RunPlace)
    (hquiet : scheduler.Quiet queues') (hpool : scheduler.poolSize = s.scheduler.poolSize)
    (hmem : ∀ other ∈ queues' .avail, other ∈ queues .avail ∨ other = uid)
    (hphase : Waiting scheduler request (100 * s.adapters.length) queues' uid ∨
      Taking scheduler request (100 * s.adapters.length) queues' uid) (hloops : main.Loops) :
    BatchInv { s with scheduler := scheduler, main := main, request := request }
      queues' uid := by
  refine ⟨hquiet, hpool ▸ h.pool, h.handler, ?_, h.returned, hphase, hloops⟩
  intro other hother hne
  rcases hmem other hother with hold | hsame
  · exact h.handlers other hold hne
  · exact absurd hsame hne

/-- `run` leaves its loop. -/
theorem BatchInv.terminated (h : BatchInv s queues uid)
    (hmain : s.scheduler.currentCoro = some .main) :
    Left { s with scheduler := s.scheduler.terminate, main := .terminated } :=
  ⟨fun hloops => hloops.1 rfl, hmain, h.batched.used, h.quiet.places, h.returned⟩

/-- The main coroutine goes on. -/
theorem BatchInv.runMain (h : BatchInv s queues uid)
    (hwaiting : Waiting s.scheduler s.request (100 * s.adapters.length) queues uid)
    (hmain : s.scheduler.currentCoro = some .main) (now : Int) :
    ∃ next, s.runMain now = .ok next ∧ InBatches next := by
  have hkept : ∀ other ∈ queues .avail, other ∈ queues .avail ∨ other = uid :=
    fun _ hother => Or.inl hother
  cases hplace : s.main with
  | turn =>
      by_cases hterminate : s.isTerminate = true
      · refine ⟨_, ?_, Or.inr (h.terminated hmain)⟩
        rw [ServantHandle.runMain, hplace]
        exact if_pos hterminate
      · rcases hwaiting.rest.wakeupbyself h.quiet with
          ⟨next, queues', hwake, hnext, hrest, hcurrent, hpool, hmem⟩
        have hterminal := h.quiet.terminal
        refine ⟨{ s with scheduler := next, main := .activeLoop 100 }, ?_,
          Or.inl ⟨queues', uid, h.update (.activeLoop 100) hnext hpool hmem
            (Or.inl ⟨hrest, hwaiting.top, Or.inl (hcurrent.trans hmain)⟩)
            (by simp [RunPlace.Loops])⟩⟩
        simp only [ServantHandle.runMain, hplace, hterminate, hterminal, Bool.false_eq_true,
          if_false, h.quiet.wakeupbytimeout, hwake, hnext.wakeup, bind, Except.bind]
  | activeLoop loop =>
      have hempty := (headEmpty_iff h.quiet.inv.lists.rings .active).mpr h.quiet.active
      refine ⟨{ s with main := .availLoop 100 }, ?_,
        Or.inl ⟨queues, uid, h.update (.availLoop 100) h.quiet rfl hkept (Or.inl hwaiting)
          (by simp [RunPlace.Loops])⟩⟩
      simp [ServantHandle.runMain, hplace, hempty]
  | availLoop loop =>
      by_cases hswitch : loop > 0 ∧
          coroutineHeadEmpty s.scheduler.links (.head .avail) = false
      · cases havail : queues .avail with
        | nil =>
            have hempty := (headEmpty_iff h.quiet.inv.lists.rings .avail).mpr havail
            simp [hempty] at hswitch
        | cons first others =>
            rcases h.quiet.switchToFirst havail with ⟨hfirst, hnext⟩
            refine ⟨{ s with
                scheduler := s.scheduler.switchCoro (.coroutine first)
                main := .availLoop (loop - 1) }, ?_,
              Or.inl ⟨queues, uid, h.update (.availLoop (loop - 1)) hnext rfl hkept
                (Or.inl ⟨hwaiting.rest, hwaiting.top, Or.inr ⟨first, others, rfl, havail⟩⟩)
                (by simp [RunPlace.Loops])⟩⟩
            simp only [ServantHandle.runMain, hplace, hswitch, and_self, if_true, hfirst, bind,
              Except.bind]
      · refine ⟨{ s with main := .turn }, ?_,
          Or.inl ⟨queues, uid, h.update .turn h.quiet rfl hkept (Or.inl hwaiting)
            (by simp [RunPlace.Loops])⟩⟩
        simp only [ServantHandle.runMain, hplace, hswitch, if_false]
  | terminated => exact absurd hplace h.loops.1
  | ended => exact absurd hplace h.loops.2

/-- The coroutine of a request goes on. -/
theorem BatchInv.runHandler (h : BatchInv s queues uid)
    (hwaiting : Waiting s.scheduler s.request (100 * s.adapters.length) queues uid)
    {first : Nat} {others : List Nat} (serial : Nat) (recv : TagRecvData)
    (hcurrent : s.scheduler.currentCoro = some (.coroutine first))
    (havail : queues .avail = first :: others) (hne : first ≠ uid) :
    ∃ next queues', s.runHandler first serial recv .finish = .ok next ∧
      BatchInv next queues' uid := by
  by_cases hbegun : s.begun first = true
  · rcases h.quiet.finish hcurrent havail with ⟨next, hfinish, hnext, hneed, hmain, hpool⟩
    have hrest : AtRest next.needActiveCoroId (moved queues .avail .free first) uid
        (100 * s.adapters.length) := by
      rw [hneed]
      exact hwaiting.rest.finish havail hne
    refine ⟨{ s with scheduler := next }, moved queues .avail .free first, ?_,
      h.update s.main hnext hpool ?_ (Or.inl ⟨hrest, hwaiting.top, Or.inl hmain⟩) h.loops⟩
    · simp [ServantHandle.runHandler, hbegun, handlerStep, hfinish, bind, Except.bind]
    · intro other hother
      simp only [moved, ne_eq, reduceCtorEq, not_false_eq_true, Function.update_of_ne,
        Function.update_self] at hother
      exact Or.inl (List.mem_of_mem_erase hother)
  · refine ⟨{ s with
        begun := Function.update s.begun first true
        handled := s.handled ++ [(serial, recv)] }, queues, ?_,
      ⟨h.quiet, h.pool, h.handler, h.handlers, h.returned, h.phase, h.loops⟩⟩
    simp [ServantHandle.runHandler, hbegun]

/-- `handleRequest` yields at the end of its batch. -/
theorem BatchInv.yieldRequest (h : BatchInv s queues uid)
    (htaking : Taking s.scheduler s.request (100 * s.adapters.length) queues uid) :
    ∃ next queues', s.yieldRequest = .ok next ∧ BatchInv next queues' uid := by
  rcases htaking.batch with ⟨batch, havail, hle⟩
  rcases h.quiet.yield htaking.current havail with ⟨next, hyield, hnext, hneed, hmain, hpool⟩
  have hbatch : moved queues .avail .inactive uid .avail = batch := by
    simp [moved, havail]
  have hinactive : moved queues .avail .inactive uid .inactive = [uid] := by
    simp [moved, htaking.inactive]
  rw [htaking.need, List.nil_append] at hneed
  have hrest : AtRest next.needActiveCoroId (moved queues .avail .inactive uid) uid
      (100 * s.adapters.length) := by
    refine Or.inl ⟨hinactive, hneed, ?_⟩
    rw [hbatch]
    exact Nat.le_of_add_right_le hle
  refine ⟨{ s with scheduler := next, request := .top }, _, ?_,
    h.update s.main hnext hpool ?_ (Or.inl ⟨hrest, rfl, Or.inl hmain⟩) h.loops⟩
  · simp [ServantHandle.yieldRequest, hyield, bind, Except.bind]
  · intro other hother
    rw [hbatch] at hother
    exact Or.inl (havail ▸ List.mem_cons_of_mem uid hother)

/-- A request that was taken has its coroutine at the end of `avail_`. -/
theorem BatchInv.afterTake (h : BatchInv s queues uid) {adapter loop : Nat} {rest : List Nat}
    {batch : List Nat} (havail : queues .avail = uid :: batch)
    (hbudget : batch.length + (loop + 1 + 100 * rest.length) ≤ 100 * s.adapters.length)
    (htaking : Taking s.scheduler s.request (100 * s.adapters.length) queues uid)
    {allocs : Nat → Bool} (hallocs : ∀ turn, allocs turn = true) (recv : TagRecvData)
    (others : List TagRecvData) :
    ∃ id next queues', s.scheduler.createCoroutine allocs = .ok (id, next) ∧
      BatchInv (s.afterTake adapter rest loop recv others id next) queues' uid := by
  have hless : s.scheduler.usedSize < s.scheduler.poolSize := by
    have hpool := h.pool
    rw [h.quiet.used, havail, htaking.inactive, List.length_cons, List.length_nil]
    omega
  rcases h.quiet.createCoroutine hallocs hless with
    ⟨id, next, queues', hcreate, hne, hnext, havail', hinactive, hneed, hcurrent, hpool⟩
  have hnew : id ≠ uid := by
    rintro rfl
    have hnodup := hnext.inv.lists.rings.nodup .avail
    rw [havail', havail] at hnodup
    simp at hnodup
  have htaking' : Taking next (.queue adapter rest loop true true)
      (100 * s.adapters.length) queues' uid := by
    refine ⟨hinactive.trans htaking.inactive, hneed.trans htaking.need,
      hcurrent.trans htaking.current, ⟨batch ++ [id], ?_, ?_⟩, by simp [YieldsAtEnd]⟩
    · rw [havail', havail, List.cons_append]
    · simp only [budget, List.length_append, List.length_singleton]
      omega
  refine ⟨id, next, queues', hcreate, ?_⟩
  rw [ServantHandle.afterTake, registered, if_neg hne]
  refine ⟨hnext, hpool ▸ h.pool, ?_, ?_, ?_, Or.inr htaking', h.loops⟩
  · exact (Function.update_of_ne hnew.symm _ _).trans h.handler
  · intro other hother hother'
    by_cases hsame : other = id
    · subst hsame
      exact ⟨_, _, Function.update_self other _ _⟩
    · rw [havail'] at hother
      have hold : other ∈ queues .avail := by simpa [hsame] using hother
      rcases h.handlers other hold hother' with ⟨serial, old, hcallback⟩
      exact ⟨serial, old, (Function.update_of_ne hsame _ _).trans hcallback⟩
  · simpa [hne.symm] using h.returned

/-- `handleRequest` takes a message. -/
theorem BatchInv.takeRequest (h : BatchInv s queues uid) {adapter loop : Nat}
    {rest : List Nat} {yield : Bool}
    (hplace : s.request = .queue adapter rest (loop + 1) true yield)
    (htaking : Taking s.scheduler s.request (100 * s.adapters.length) queues uid)
    {allocs : Nat → Bool} (hallocs : ∀ turn, allocs turn = true) :
    ∃ next queues', s.takeRequest allocs adapter rest loop true = .ok next ∧
      BatchInv next queues' uid := by
  rcases htaking.batch with ⟨batch, havail, hle⟩
  rw [hplace] at hle
  simp only [budget] at hle
  have hkept : ∀ {flag yield : Bool}, (flag = false → yield = false) →
      Taking s.scheduler (.queue adapter rest loop flag yield) (100 * s.adapters.length)
        queues uid := by
    intro flag yield hyields
    refine ⟨htaking.inactive, htaking.need, htaking.current, ⟨batch, havail, ?_⟩, hyields⟩
    simp only [budget]
    omega
  cases hqueue : s.receiveBuffers adapter with
  | nil =>
      rw [ServantHandle.takeRequest, hqueue]
      exact ⟨_, queues, rfl, h.quiet, h.pool, h.handler, h.handlers, h.returned,
        Or.inr (hkept fun _ => rfl), h.loops⟩
  | cons recv others =>
      by_cases hclosed : recv.closed = true
      · rw [ServantHandle.takeRequest, hqueue]
        exact ⟨_, queues, if_pos hclosed, h.quiet, h.pool, h.handler, h.handlers, h.returned,
          Or.inr (hkept (by simp)), h.loops⟩
      · rcases h.afterTake havail hle htaking hallocs recv others with
          ⟨id, next, queues', hcreate, hnext⟩
        refine ⟨_, queues', ?_, hnext⟩
        rw [takeRequest_request hqueue (by simpa using hclosed), hcreate]
        rfl

/-- `handleRequest` goes on while it runs. -/
theorem BatchInv.runRequest (h : BatchInv s queues uid)
    (htaking : Taking s.scheduler s.request (100 * s.adapters.length) queues uid)
    {allocs : Nat → Bool} (hallocs : ∀ turn, allocs turn = true) :
    ∃ next queues', s.runRequest allocs = .ok next ∧ BatchInv next queues' uid := by
  rcases htaking.batch with ⟨batch, havail, hle⟩
  have hmoves : ∀ {request : RequestPlace}, budget request ≤ budget s.request →
      YieldsAtEnd request → BatchInv { s with request := request } queues uid := by
    intro request hbudget hyields
    exact h.update s.main h.quiet rfl (fun _ hother => Or.inl hother)
      (Or.inr ⟨htaking.inactive, htaking.need, htaking.current,
        ⟨batch, havail, (Nat.add_le_add_left hbudget _).trans hle⟩, hyields⟩) h.loops
  have hyields := htaking.yields
  cases hplace : s.request with
  | top =>
      rw [hplace] at hyields
      exact hyields.elim
  | adapters rest yield =>
      rw [hplace] at hyields
      obtain rfl : yield = false := hyields
      cases rest with
      | nil =>
          rcases h.yieldRequest htaking with ⟨next, queues', hyield, hnext⟩
          exact ⟨next, queues', by simp [ServantHandle.runRequest, hplace, hyield], hnext⟩
      | cons adapter rest =>
          refine ⟨_, queues, by rw [ServantHandle.runRequest, hplace], hmoves ?_ (by
            simp [YieldsAtEnd])⟩
          simp only [hplace, budget, List.length_cons]
          omega
  | queue adapter rest loop flag yield =>
      rw [hplace] at hyields
      by_cases hgoes : flag = true ∧ loop > 0
      · rcases hgoes with ⟨rfl, hloop⟩
        obtain ⟨left, rfl⟩ := Nat.exists_eq_add_of_lt hloop
        rw [Nat.zero_add] at hplace
        rcases h.takeRequest hplace htaking hallocs with ⟨next, queues', htake, hnext⟩
        exact ⟨next, queues', by simp [ServantHandle.runRequest, hplace, htake], hnext⟩
      · have hends : (if loop = 0 then false else yield) = false := by
          by_cases hzero : loop = 0
          · rw [if_pos hzero]
          · rw [if_neg hzero]
            apply hyields
            simpa [Nat.pos_of_ne_zero hzero] using hgoes
        refine ⟨{ s with request := .adapters rest (if loop = 0 then false else yield) },
          queues, ?_, hmoves ?_ hends⟩
        · rw [ServantHandle.runRequest, hplace]
          exact if_neg hgoes
        · simp only [hplace, budget]
          omega

/-- The thread goes on. -/
theorem BatchInv.thread (h : BatchInv s queues uid) (now : Int) {allocs : Nat → Bool}
    (hallocs : ∀ turn, allocs turn = true) :
    ∃ next, s.thread now allocs .finish = .ok next ∧ InBatches next := by
  rcases h.phase with hwaiting | htaking
  · rcases hwaiting.current with hmain | ⟨first, others, hfirst, havail⟩
    · rcases h.runMain hwaiting hmain now with ⟨next, hstep, hnext⟩
      exact ⟨next, by simp only [ServantHandle.thread, hmain, hstep], hnext⟩
    · by_cases hsame : first = uid
      · subst hsame
        rcases hwaiting.rest.alone h.quiet.inv.lists.rings havail with
          ⟨halone, hinactive, hneed⟩
        have htaking : Taking s.scheduler (.adapters s.adapters false)
            (100 * s.adapters.length) queues first :=
          ⟨hinactive, hneed, hfirst, ⟨[], halone, by simp [budget]⟩, rfl⟩
        refine ⟨{ s with request := .adapters s.adapters false }, ?_,
          Or.inl ⟨queues, first, h.update s.main h.quiet rfl (fun _ hother => Or.inl hother)
            (Or.inr htaking) h.loops⟩⟩
        simp [ServantHandle.thread, hfirst, h.handler, ServantHandle.runRequest, hwaiting.top,
          h.quiet.requests]
      · rcases h.handlers first (by simp [havail]) hsame with ⟨serial, recv, hcallback⟩
        rcases h.runHandler hwaiting serial recv hfirst havail hsame with
          ⟨next, queues', hstep, hnext⟩
        exact ⟨next, by simp only [ServantHandle.thread, hfirst, hcallback, hstep],
          Or.inl ⟨queues', uid, hnext⟩⟩
  · rcases h.runRequest htaking hallocs with ⟨next, queues', hstep, hnext⟩
    exact ⟨next, by simp only [ServantHandle.thread, htaking.current, h.handler, hstep],
      Or.inl ⟨queues', uid, hnext⟩⟩

/-- Every step succeeds and keeps the invariant. -/
theorem BatchInv.step (h : BatchInv s queues uid) {action : Action}
    (hsteady : Steady s action) : ∃ next, step s action = .ok next ∧ InBatches next := by
  cases action with
  | arrive adapter recv =>
      exact ⟨_, rfl, Or.inl ⟨queues, uid, h.quiet, h.pool, h.handler, h.handlers, h.returned,
        h.phase, h.loops⟩⟩
  | takenByOther adapter =>
      exact ⟨_, rfl, Or.inl ⟨queues, uid, h.quiet, h.pool, h.handler, h.handlers, h.returned,
        h.phase, h.loops⟩⟩
  | put coroId => exact hsteady.elim
  | terminate =>
      exact ⟨_, rfl, Or.inl ⟨queues, uid, h.quiet, h.pool, h.handler, h.handlers, h.returned,
        h.phase, h.loops⟩⟩
  | thread now allocs handler =>
      rcases hsteady with ⟨hallocs, rfl⟩
      exact h.thread now hallocs

theorem Left.step (h : Left s) {action : Action} (hsteady : Steady s action) :
    ∃ next, step s action = .ok next ∧ Left next := by
  cases action with
  | arrive adapter recv =>
      exact ⟨_, rfl, h.left, h.current, h.used, h.places, h.returned⟩
  | takenByOther adapter =>
      exact ⟨_, rfl, h.left, h.current, h.used, h.places, h.returned⟩
  | put coroId => exact hsteady.elim
  | terminate => exact ⟨_, rfl, h.left, h.current, h.used, h.places, h.returned⟩
  | thread now allocs handler => exact h.thread now allocs handler

end

/-- What `init` leaves is quiet. -/
theorem quiet_of_started {scheduler : CoroutineScheduler} {poolSize : Nat}
    {queues : CoroStatus → List Nat} (h : Started scheduler poolSize queues)
    (hsize : poolSize + 1 < 2 ^ 32) : scheduler.Quiet queues := by
  have hframe := h.frame
  refine ⟨h.inv, h.uniq, ?_, ?_, ?_, ?_, h.queues .active (by decide),
    h.queues .timeout (by decide), ?_⟩
  · rw [hframe]
    change poolSize < word32Add poolSize 1
    rw [word32Add_of_lt hsize]
    exact Nat.lt_succ_self poolSize
  · rw [hframe]
    rfl
  · rw [hframe]
    rfl
  · rw [hframe]
    rfl
  · rw [hframe, h.queues .avail (by decide), h.queues .inactive (by decide)]
    rfl

/-- `run` starts with `handleRequest` alone on `avail_`. -/
theorem start_batchInv {poolSize : Nat} {adapters : List Nat}
    (receiveBuffers : Nat → List TagRecvData) {initAllocs allocs : Nat → Bool}
    (hpool : 1 + 100 * adapters.length ≤ poolSize) (hsize : poolSize + 1 < 2 ^ 32)
    (hallocs : ∀ turn, allocs turn = true) {scheduler : CoroutineScheduler}
    (hinit : construct.init poolSize initAllocs = .ok scheduler) :
    ∃ s queues uid, start poolSize adapters receiveBuffers initAllocs allocs = .ok s ∧
      BatchInv s queues uid := by
  have hpos : 0 < poolSize := by omega
  rcases init_started hpos (Nat.lt_of_succ_lt hsize) hinit with ⟨queues, hstarted⟩
  have hquiet := quiet_of_started hstarted hsize
  have hframe := hstarted.frame
  have hfields : scheduler.usedSize = 0 ∧ scheduler.poolSize = poolSize ∧
      scheduler.needActiveCoroId = [] ∧ scheduler.currentCoro = some .main := by
    rw [hframe]
    exact ⟨rfl, rfl, rfl, rfl⟩
  rcases hfields with ⟨hused, hpoolSize, hneed, hmain⟩
  have hless : scheduler.usedSize < scheduler.poolSize := by omega
  rcases hquiet.createCoroutine hallocs hless with
    ⟨id, next, queues', hcreate, hne, hnext, havail, hinactive, hneed', hcurrent, hkept⟩
  rw [hstarted.queues .avail (by decide), List.nil_append] at havail
  rw [hstarted.queues .inactive (by decide)] at hinactive
  refine ⟨{ adapters := adapters
            receiveBuffers := receiveBuffers
            scheduler := next
            returned := [id]
            callback := Function.update (fun _ => none) id (some .handleRequest)
            begun := Function.update (fun _ => false) id false }, queues', id, ?_, hnext, ?_,
    by simp, ?_, by simpa using hne.symm, Or.inl ⟨Or.inr ⟨hinactive,
      hneed'.trans hneed, [], havail, Nat.zero_le _⟩, rfl, Or.inl (hcurrent.trans hmain)⟩,
    by simp [RunPlace.Loops]⟩
  · simp only [start, hinit, hcreate, registered, hne, if_false, List.nil_append, bind,
      Except.bind]
  · rw [hkept, hpoolSize]
    exact hpool
  · intro other hother hother'
    rw [havail] at hother
    exact absurd (List.mem_singleton.mp hother) hother'

/-- With a pool for `handleRequest` and a batch of 100 from each adapter, whatever
arrives and for however many turns, `handleRequest` is resumed alone, no more coroutines
are used, and `createCoroutine` never returns 0. -/
theorem handleRequest_resumes_alone (poolSize : Nat) (adapters : List Nat)
    (receiveBuffers : Nat → List TagRecvData) (initAllocs allocs : Nat → Bool)
    (hpool : 1 + 100 * adapters.length ≤ poolSize) (hsmall : poolSize < 2 ^ 32)
    (hinit : ∀ turn, initAllocs turn = true) (hallocs : ∀ turn, allocs turn = true) :
    (poolSize + 1 < 2 ^ 32 →
      ∃ s, start poolSize adapters receiveBuffers initAllocs allocs = .ok s) ∧
    ∀ s actions, start poolSize adapters receiveBuffers initAllocs allocs = .ok s →
      Along step Steady s actions → Stays step Batched s actions := by
  have hpos : 0 < poolSize := by omega
  constructor
  · intro hsize
    rcases init_ok hpos hsize initAllocs with ⟨scheduler, hscheduler⟩
    rcases start_batchInv receiveBuffers hpool hsize hallocs hscheduler with
      ⟨s, _, _, hstart, _⟩
    exact ⟨s, hstart⟩
  · intro s actions hstart hsteady
    rcases ok_of_bind_ok hstart with ⟨scheduler, hscheduler, _⟩
    by_cases hsize : poolSize + 1 < 2 ^ 32
    · rcases start_batchInv receiveBuffers hpool hsize hallocs hscheduler with
        ⟨other, queues, uid, hother, hinv⟩
      obtain rfl := Except.ok.inj (hother.symm.trans hstart)
      have hbatches : InBatches other := Or.inl ⟨queues, uid, hinv⟩
      apply stays_of_along ?_ ?_ hbatches hsteady
      · rintro state (⟨_, _, h⟩ | h)
        · exact h.batched
        · exact h.batched
      · rintro state action (⟨_, _, h⟩ | h) hsteady
        · exact h.step hsteady
        · rcases h.step hsteady with ⟨next, hstep, hnext⟩
          exact ⟨next, hstep, Or.inr hnext⟩
    · have hmax : poolSize = 2 ^ 32 - 1 := by omega
      exact absurd (hmax ▸ hscheduler) (init_max (hinit 0) scheduler)

/-- One adapter and the smallest pool for it: a request arrives, and the thread goes on
until it is handled and `handleRequest` is resumed. -/
theorem handleRequest_resumes_alone_one :
    ∃ s, start 101 [0] (fun _ => []) (fun _ => true) (fun _ => true) = .ok s ∧
      Stays step Batched s
        (.arrive 0 { uid := 7, buffer := [1], ip := "", port := 0, recvTimestamp := 0,
                     overload := false, closed := false, fd := 3, adapter := none,
                     closeType := .clientClose } ::
          List.replicate 16 (.thread 0 (fun _ => true) .finish)) := by
  have halone := handleRequest_resumes_alone 101 [0] (fun _ => []) (fun _ => true)
    (fun _ => true) (by decide) (by decide) (fun _ => rfl) fun _ => rfl
  rcases halone.1 (by decide) with ⟨s, hstart⟩
  refine ⟨s, hstart, halone.2 s _ hstart (along_of_forall ?_)⟩
  intro state action haction
  rcases List.mem_cons.mp haction with rfl | hthread
  · trivial
  · rw [(List.mem_replicate.mp hthread).2]
    exact ⟨fun _ => rfl, rfl⟩

end ServantHandle

end Tarsx
