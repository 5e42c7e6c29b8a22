/-
How far the pool of coroutines grows when stacks cannot be allocated: an id is taken
before its stack, so a growth that stops loses one, and the ids run out before the pool
has its size.  A scheduler that `init` never prepared has one place too few.
-/
import Tarsx.SchedulerRuns

namespace Tarsx

open Foundation

namespace CoroutineScheduler

/-- A scheduler, and whether a stack that was asked for was not allocated. -/
structure PoolState where
  scheduler : CoroutineScheduler
  failed : Bool

/-- What happens to the pool: a coroutine is created, or one runs to its end. -/
inductive PoolAction where
  | create (allocs : Nat → Bool)
  | complete (uid : Nat)

/-- In one of the turns the stack is not allocated. -/
def failsWithin (allocs : Nat → Bool) (turns : Nat) : Bool :=
  (List.range turns).any fun turn => !allocs turn

/-- A growth of the pool in which a stack is not allocated. -/
def growthFails (s : CoroutineScheduler) (allocs : Nat → Bool) : Bool :=
  decide s.NeedsMore && failsWithin allocs s.increment

def poolStep (state : PoolState) : PoolAction → Except Fault PoolState
  | .create allocs => do
      let (_, s) ← state.scheduler.createCoroutine allocs
      .ok { scheduler := s, failed := state.failed || state.scheduler.growthFails allocs }
  | .complete uid => do
      let s ← (state.scheduler.switchCoro (.coroutine uid)).finish
      .ok { state with scheduler := s }

/-- A coroutine that ends was created and runs. -/
def PoolLegal (state : PoolState) : PoolAction → Prop
  | .create _ => True
  | .complete uid => state.scheduler.Made uid ∧
      (state.scheduler.status (.coroutine uid) = .active ∨
        state.scheduler.status (.coroutine uid) = .avail)

/-- With stacks from now on, some calls of `createCoroutine` bring the pool to its size. -/
def CanFill (s : CoroutineScheduler) : Prop :=
  ∃ calls last, run schedulerStep s
      (List.replicate calls (.createCoroutine fun _ => true)) = .ok last ∧
    last.currentSize = s.poolSize

/-- The last id given out, which is the largest, is a place of `allCoro_`, and failed
allocations do not keep the pool from its size. -/
structure PoolGood (state : PoolState) : Prop where
  ids : state.scheduler.uniqId = 0 ∨ state.scheduler.uniqId < state.scheduler.allCoroSize
  grows : state.failed = true → state.scheduler.CanFill

/-- A scheduler for which `init` was called with a size, or was not called. -/
def prepared : Option (Nat × (Nat → Bool)) → Except Fault PoolState
  | none => .ok { scheduler := construct, failed := false }
  | some (poolSize, allocs) => do
      let s ← construct.init poolSize allocs
      .ok { scheduler := s, failed := failsWithin allocs (initialSize poolSize) }

/-- A growth gets all its stacks, and its ids are places of `allCoro_`. -/
def Grows (state : PoolState) : PoolAction → Prop
  | .create allocs => state.scheduler.GrowsWhole allocs
  | .complete _ => True

theorem failsWithin_eq_false {allocs : Nat → Bool} {turns : Nat} :
    failsWithin allocs turns = false ↔ ∀ turn < turns, allocs turn = true := by
  simp [failsWithin]

/-! ### What one call counts -/

section Counting

variable {s : CoroutineScheduler} {queues : CoroStatus → List Nat}

/-- A growth comes to its end, or stops where a stack is not allocated and loses an id. -/
theorem increaseLoop_counts {allocs : Nat → Bool} (turns : Nat) :
    ∀ {turn : Nat} {s : CoroutineScheduler} {queues : CoroStatus → List Nat} {succ : Nat}
      {next : CoroutineScheduler},
      s.Lists queues → 0 < s.allCoroSize →
      increaseLoop allocs turn turns s = .ok (succ, next) →
      (succ = turns ∧ next.uniqId = s.uniqId + turns ∧
        (0 < turns → s.uniqId + turns < s.allCoroSize) ∧
        ∀ later < turns, allocs (turn + later) = true) ∨
      (succ < turns ∧ next.uniqId = s.uniqId + succ + 1 ∧ allocs (turn + succ) = false) := by
  induction turns with
  | zero =>
      intro turn s queues succ next _ _ hloop
      obtain ⟨rfl, rfl⟩ := Prod.mk.inj (Except.ok.inj hloop)
      exact Or.inl ⟨rfl, rfl, fun hpos => absurd hpos (Nat.lt_irrefl 0), by simp⟩
  | succ turns ih =>
      intro turn s queues succ next h htable hloop
      rcases ok_of_bind_ok hloop with ⟨⟨id, counted⟩, hcounted, hturn⟩
      rcases generateId_spec h hcounted with ⟨rfl, hroom, hid⟩
      have hnext : id = s.uniqId + 1 := hid.resolve_right (by omega)
      subst hnext
      cases halloc : allocs turn with
      | false =>
          simp only [halloc, Bool.false_eq_true, if_false] at hturn
          obtain ⟨rfl, rfl⟩ := Prod.mk.inj (Except.ok.inj hturn)
          exact Or.inr ⟨Nat.succ_pos turns, rfl, halloc⟩
      | true =>
          simp only [halloc, if_true] at hturn
          rcases ok_of_bind_ok hturn with ⟨middle, hadd, hloop'⟩
          rcases ok_of_bind_ok hloop' with ⟨⟨made, last⟩, hrest, hlast⟩
          obtain ⟨rfl, rfl⟩ := Prod.mk.inj (Except.ok.inj hlast)
          have hfits : s.uniqId + 1 < s.allCoroSize := by
            by_contra hfull
            simp [addCoroutine, hfull] at hadd
          rcases addCoroutine_ok h hroom hfits with ⟨other, hother, huniq, hone⟩
          obtain rfl := Except.ok.inj (hother.symm.trans hadd)
          have hsize : other.allCoroSize = s.allCoroSize := by rw [hone.frame]
          dsimp only
          rcases ih hone.lists (by omega) hrest with
            ⟨hsucc, hcount, hplaces, hallocs⟩ | ⟨hless, hcount, hstopped⟩
          · refine Or.inl ⟨by omega, by omega, by omega, ?_⟩
            intro later hlater
            cases later with
            | zero => exact halloc
            | succ later =>
                have hother := hallocs later (by omega)
                rwa [Nat.add_right_comm, Nat.add_assoc] at hother
          · refine Or.inr ⟨by omega, by omega, ?_⟩
            rwa [Nat.add_right_comm, Nat.add_assoc] at hstopped

/-- What a call of `createCoroutine` adds to the ids and to the coroutines. -/
inductive Counts (s next : CoroutineScheduler) (allocs : Nat → Bool) : Prop where
  | same (none : ¬ s.NeedsMore ∨ s.increment = 0) (uniq : next.uniqId = s.uniqId)
      (size : next.currentSize = s.currentSize)
  | whole (allocated : ∀ turn < s.increment, allocs turn = true)
      (places : s.uniqId + s.increment < s.allCoroSize)
      (uniq : next.uniqId = s.uniqId + s.increment)
      (size : next.currentSize = s.currentSize + s.increment)
  | lost (succ : Nat) (more : s.NeedsMore) (stopped : succ < s.increment)
      (unallocated : allocs succ = false) (uniq : next.uniqId = s.uniqId + succ + 1)
      (size : next.currentSize = s.currentSize + succ)

theorem takeFree_counts {id : Nat} {next : CoroutineScheduler}
    (htake : s.takeFree = .ok (id, next)) :
    next.uniqId = s.uniqId ∧ next.currentSize = s.currentSize := by
  rw [takeFree] at htake
  cases hfirst : s.links.next (.head .free) with
  | none => simp [hfirst] at htake
  | some coro =>
      rw [hfirst] at htake
      rcases ok_of_bind_ok htake with ⟨links, _, hlater⟩
      rcases ok_of_bind_ok hlater with ⟨links', _, hlast⟩
      obtain ⟨_, rfl⟩ := Prod.mk.inj (Except.ok.inj hlast)
      exact ⟨rfl, rfl⟩

theorem increaseCoroPoolSize_counts (h : s.Inv queues) (htable : 0 < s.allCoroSize)
    {allocs : Nat → Bool} {ret : Int} {next : CoroutineScheduler} (hmore : s.NeedsMore)
    (hgrow : s.increaseCoroPoolSize allocs = .ok (ret, next)) : Counts s next allocs := by
  rw [increaseCoroPoolSize_eq h] at hgrow
  by_cases hzero : s.increment = 0
  · rw [if_pos hzero] at hgrow
    obtain ⟨_, rfl⟩ := Prod.mk.inj (Except.ok.inj hgrow)
    exact .same (Or.inr hzero) rfl rfl
  · rw [if_neg hzero] at hgrow
    rcases ok_of_bind_ok hgrow with ⟨⟨succ, last⟩, hloop, hmade⟩
    rcases increaseLoop_grown _ h.lists hloop with ⟨⟨queues', hgrown⟩, _⟩
    have hsize : last.currentSize = s.currentSize := by rw [hgrown.frame]
    have hextended := h.grown hgrown
    have hle := hextended.inv.currentSize_le
    have hroom := hextended.inv.lists.room
    have hsmall := hextended.inv.lists.small
    dsimp only at hle hroom hsmall hmade
    obtain ⟨huniq, hcount⟩ :
        next.uniqId = last.uniqId ∧ next.currentSize = s.currentSize + succ := by
      by_cases hnone : succ = 0
      · rw [if_pos hnone] at hmade
        obtain ⟨_, rfl⟩ := Prod.mk.inj (Except.ok.inj hmade)
        exact ⟨rfl, by omega⟩
      · rw [if_neg hnone] at hmade
        obtain ⟨_, rfl⟩ := Prod.mk.inj (Except.ok.inj hmade)
        refine ⟨rfl, ?_⟩
        dsimp only
        rw [hsize]
        exact word32Add_of_lt (by omega)
    rcases increaseLoop_counts _ h.lists htable hloop with
      ⟨rfl, hlast, hplaces, hallocs⟩ | ⟨hless, hlast, hstopped⟩
    · exact .whole (by simpa using hallocs) (hplaces (Nat.pos_of_ne_zero hzero))
        (huniq.trans hlast) hcount
    · exact .lost succ hmore hless (by simpa using hstopped) (huniq.trans hlast) hcount

theorem createCoroutine_counts (h : s.Inv queues) (htable : 0 < s.allCoroSize)
    {allocs : Nat → Bool} {id : Nat} {next : CoroutineScheduler}
    (hcreate : s.createCoroutine allocs = .ok (id, next)) : Counts s next allocs := by
  rcases ok_of_bind_ok hcreate with ⟨⟨room, grown⟩, hgrow, htake⟩
  have hgrown : Counts s grown allocs := by
    by_cases hmore : s.NeedsMore
    · cases hincrease : s.increaseCoroPoolSize allocs with
      | error fault =>
          rw [NeedsMore] at hmore
          simp [growIfNeeded, if_pos hmore, hincrease, bind, Except.bind] at hgrow
      | ok result =>
          rcases result with ⟨ret, other⟩
          rw [growIfNeeded_of_needsMore hmore hincrease] at hgrow
          obtain ⟨_, rfl⟩ := Prod.mk.inj (Except.ok.inj hgrow)
          exact increaseCoroPoolSize_counts h htable hmore hincrease
    · rw [growIfNeeded_of_enough hmore] at hgrow
      obtain ⟨_, rfl⟩ := Prod.mk.inj (Except.ok.inj hgrow)
      exact .same (Or.inl hmore) rfl rfl
  have hkept : next.uniqId = grown.uniqId ∧ next.currentSize = grown.currentSize := by
    cases room with
    | false =>
        obtain ⟨_, rfl⟩ := Prod.mk.inj (Except.ok.inj htake)
        exact ⟨rfl, rfl⟩
    | true => exact takeFree_counts htake
  cases hgrown with
  | same hnone huniq hsize => exact .same hnone (hkept.1.trans huniq) (hkept.2.trans hsize)
  | whole hallocs hplaces huniq hsize =>
      exact .whole hallocs hplaces (hkept.1.trans huniq) (hkept.2.trans hsize)
  | lost succ hmore hless hstopped huniq hsize =>
      exact .lost succ hmore hless hstopped (hkept.1.trans huniq) (hkept.2.trans hsize)

/-! ### Filling the pool -/

/-- With fewer coroutines in use than the pool has, and stacks, there is room. -/
theorem hasRoom_of_used_lt (h : s.Inv queues) (hused : s.usedSize < s.poolSize)
    {allocs : Nat → Bool} (hallocs : ∀ turn, allocs turn = true) : s.HasRoom allocs := by
  by_cases hmore : s.NeedsMore
  · refine Or.inr ⟨?_, fun _ => hallocs 0⟩
    have hcount := h.used
    rcases hmore with hfull | hempty
    · omega
    · rw [(headEmpty_iff h.lists.rings .free).mp hempty, List.length_nil] at hcount
      omega
  · exact Or.inl hmore

/-- No id is lost and every id has a place: each call creates a coroutine until all are in
use. -/
theorem canFill_of_places (n : Nat) :
    ∀ {s : CoroutineScheduler} {queues : CoroStatus → List Nat}, s.Inv queues →
      s.uniqId = s.currentSize → s.poolSize < s.allCoroSize → s.poolSize - s.usedSize = n →
      s.CanFill := by
  induction n with
  | zero =>
      intro s queues h huniq hplaces hleft
      have hroom := h.lists.room
      have hused := h.used
      exact ⟨0, s, rfl, by omega⟩
  | succ n ih =>
      intro s queues h huniq hplaces hleft
      have hcreated : ∃ id next, s.createCoroutine (fun _ => true) = .ok (id, next) ∧
          next.uniqId = next.currentSize := createCoroutine_ok h huniq hplaces fun _ => rfl
      rcases hcreated with ⟨id, next, hcreate, hsame⟩
      rcases createCoroutine_spec h hcreate with ⟨queues', hcreates, hid⟩
      have hroom := hid.mpr (hasRoom_of_used_lt h (by omega) fun _ => rfl)
      have hused := hcreates.used
      rw [if_neg hroom] at hused
      have hkept : next.poolSize = s.poolSize ∧ next.allCoroSize = s.allCoroSize := by
        rw [hcreates.frame]
        exact ⟨rfl, rfl⟩
      rcases ih hcreates.inv hsame (by omega) (by omega) with ⟨calls, last, hrun, hfull⟩
      refine ⟨calls + 1, last, ?_, hfull.trans hkept.1⟩
      have hstep : schedulerStep s (.createCoroutine fun _ => true) = .ok next := by
        simp [schedulerStep, hcreate, bind, Except.bind]
      rw [List.replicate_succ, run_cons_of_ok hstep]
      exact hrun

/-- An id was lost: there are fewer coroutines than ids given out. -/
structure Short (s : CoroutineScheduler) (poolSize : Nat) : Prop where
  inv : ∃ queues, s.Inv queues
  table : 0 < s.allCoroSize
  lost : s.currentSize < s.uniqId
  pool : s.poolSize = poolSize

theorem Short.step {poolSize : Nat} (h : s.Short poolSize) {allocs : Nat → Bool}
    {next : CoroutineScheduler}
    (hstep : schedulerStep s (.createCoroutine allocs) = .ok next) : next.Short poolSize := by
  rcases h.inv with ⟨queues, hinv⟩
  have hlost := h.lost
  rcases ok_of_bind_ok hstep with ⟨⟨id, created⟩, hcreate, hlast⟩
  obtain rfl := Except.ok.inj hlast
  rcases createCoroutine_spec hinv hcreate with ⟨queues', hcreates, _⟩
  refine ⟨⟨queues', hcreates.inv⟩, ?_, ?_, ?_⟩
  · rw [hcreates.frame]
    exact h.table
  · cases createCoroutine_counts hinv h.table hcreate with
    | same _ huniq hsize => omega
    | whole _ _ huniq hsize => omega
    | lost succ _ _ _ huniq hsize => omega
  · rw [hcreates.frame]
    exact h.pool

/-- The ids run out before the pool has its size. -/
theorem not_canFill_of_lost (h : s.Inv queues) (htable : 0 < s.allCoroSize)
    (hlost : s.currentSize < s.uniqId) : ¬ s.CanFill := by
  rintro ⟨calls, last, hrun, hfull⟩
  have hshort : last.Short s.poolSize := by
    have hkeep : ∀ (state : CoroutineScheduler) (action : SchedulerAction)
        (next : CoroutineScheduler), state.Short s.poolSize →
        (∃ allocs, action = .createCoroutine allocs) →
        schedulerStep state action = .ok next → next.Short s.poolSize := by
      rintro state _ next hstate ⟨allocs, rfl⟩ hstep
      exact hstate.step hstep
    refine run_invariant_of_along hkeep ⟨⟨queues, h⟩, htable, hlost, rfl⟩ ?_ hrun
    apply along_of_forall
    intro _ action hmem
    exact ⟨_, List.eq_of_mem_replicate hmem⟩
  rcases hshort.inv with ⟨queues', hinv⟩
  have hroom := hinv.lists.room
  have hless := hshort.lost
  have hpool := hshort.pool
  omega

end Counting

/-! ### Runs -/

/-- The invariant of a run in which every growth gets its stacks and places. -/
structure PoolInv (state : PoolState) : Prop where
  inv : ∃ queues, state.scheduler.Inv queues
  uniq : state.scheduler.uniqId = state.scheduler.currentSize
  place : state.scheduler.uniqId < state.scheduler.allCoroSize
  whole : state.failed = true → state.scheduler.poolSize < state.scheduler.allCoroSize

theorem PoolInv.good {state : PoolState} (h : PoolInv state) : PoolGood state := by
  rcases h.inv with ⟨queues, hinv⟩
  exact ⟨Or.inr h.place, fun hfailed => canFill_of_places _ hinv h.uniq (h.whole hfailed) rfl⟩

/-- A growth that gets its stacks does not fail. -/
theorem growthFails_of_growsWhole {s : CoroutineScheduler} {allocs : Nat → Bool}
    (hgrows : s.GrowsWhole allocs) : s.growthFails allocs = false := by
  rw [growthFails, Bool.and_eq_false_iff]
  by_cases hmore : s.NeedsMore
  · right
    rw [failsWithin_eq_false]
    by_cases hzero : s.increment = 0
    · simp [hzero]
    · exact (hgrows hmore hzero).1
  · left
    simpa using hmore

theorem PoolInv.step {state : PoolState} (h : PoolInv state) {action : PoolAction}
    (hlegal : PoolLegal state action) (hgrows : Grows state action) :
    ∃ next, poolStep state action = .ok next ∧ PoolInv next := by
  rcases h.inv with ⟨queues, hinv⟩
  cases action with
  | create allocs =>
      rcases createCoroutine_of_growsWhole hinv h.uniq hgrows with
        ⟨id, next, hcreate, huniq, hplace⟩
      rcases createCoroutine_spec hinv hcreate with ⟨queues', hcreates, _⟩
      have hkept : next.poolSize = state.scheduler.poolSize ∧
          next.allCoroSize = state.scheduler.allCoroSize := by
        rw [hcreates.frame]
        exact ⟨rfl, rfl⟩
      have hold := h.place
      refine ⟨{ scheduler := next, failed := state.failed }, ?_, ⟨queues', hcreates.inv⟩, huniq,
        ?_, ?_⟩
      · simp only [poolStep, hcreate, bind, Except.bind, growthFails_of_growsWhole hgrows,
          Bool.or_false]
      · dsimp only
        omega
      · intro hfailed
        have hplaces := h.whole hfailed
        dsimp only
        omega
  | complete uid =>
      rcases hlegal with ⟨hmade, hstatus⟩
      have hmem := hinv.lists.mem_of_made hmade
      obtain ⟨source, huid, hsource⟩ : ∃ source, uid ∈ queues source ∧
          (source = .active ∨ source = .avail) := ⟨_, hmem, hstatus⟩
      have hruns : uid ∈ queues .active ∨ uid ∈ queues .avail := by
        rcases hsource with rfl | rfl
        · exact Or.inl huid
        · exact Or.inr huid
      obtain ⟨ended, hfinish, hkept⟩ : ∃ ended,
          (state.scheduler.switchCoro (.coroutine uid)).finish = .ok ended ∧
          PoolInv { state with scheduler := ended } := by
        rcases finish_ok (hinv.switchCoro hruns) rfl huid hsource with ⟨links, hfinish, hnext⟩
        exact ⟨_, hfinish, ⟨_, hnext⟩, h.uniq, h.place, h.whole⟩
      exact ⟨_, by simp only [poolStep, hfinish, bind, Except.bind], hkept⟩

/-- A growth that does not get its stacks and places faults or loses an id. -/
theorem PoolInv.breaks {state next : PoolState} (h : PoolInv state) {action : PoolAction}
    (hnot : ¬ Grows state action) (hstep : poolStep state action = .ok next) :
    ¬ PoolGood next := by
  rcases h.inv with ⟨queues, hinv⟩
  cases action with
  | complete uid => exact absurd trivial hnot
  | create allocs =>
      have htable : 0 < state.scheduler.allCoroSize := Nat.zero_lt_of_lt h.place
      rcases ok_of_bind_ok hstep with ⟨⟨id, created⟩, hcreate, hlast⟩
      obtain rfl := Except.ok.inj hlast
      rcases createCoroutine_spec hinv hcreate with ⟨queues', hcreates, _⟩
      cases createCoroutine_counts hinv htable hcreate with
      | same hnone _ _ =>
          refine absurd (fun hmore hpos => ?_) hnot
          rcases hnone with hno | hzero
          · exact absurd hmore hno
          · exact absurd hzero hpos
      | whole hallocs hplaces _ _ => exact absurd (fun _ _ => ⟨hallocs, hplaces⟩) hnot
      | lost succ hmore hless hstopped huniq hsize =>
          have hfails : state.scheduler.growthFails allocs = true := by
            rw [growthFails, Bool.and_eq_true]
            refine ⟨by simpa using hmore, ?_⟩
            by_contra hno
            have hall := failsWithin_eq_false.mp (Bool.not_eq_true _ ▸ hno) succ hless
            rw [hstopped] at hall
            contradiction
          have hsame := h.uniq
          have hkept : created.allCoroSize = state.scheduler.allCoroSize := by
            rw [hcreates.frame]
          intro hgood
          exact not_canFill_of_lost hcreates.inv (by omega) (by omega)
            (hgood.grows (by simp [hfails]))

/-! ### The start -/

theorem construct_inv : construct.Inv fun _ => [] := by
  have hmade : ∀ uid, ¬ construct.Made uid := by simp [Made, construct]
  refine ⟨⟨construct_rings, ?_, fun _ _ => rfl, ?_, by simp [construct], Nat.zero_le _,
    by simp [construct]⟩, ?_, rfl, by simp [construct], by simp [construct], ?_⟩
  · simp [hmade]
  · exact fun uid h => absurd h (hmade uid)
  · simp [construct, createdIds]
  · intro uid huid
    simp [construct] at huid

theorem poolInv_construct : PoolInv { scheduler := construct, failed := false } :=
  ⟨⟨_, construct_inv⟩, rfl, by simp [construct], by simp⟩

/-- Where `init` takes its size, the scheduler is whole, unless it is the largest. -/
theorem poolInv_init {poolSize : Nat} (hpos : 0 < poolSize) (hsize : poolSize + 1 < 2 ^ 32)
    {start : CoroutineScheduler} {allocs : Nat → Bool} (failed : Bool)
    (hinit : construct.init poolSize allocs = .ok start) :
    PoolInv { scheduler := start, failed := failed } := by
  rcases init_started hpos (Nat.lt_of_succ_lt hsize) hinit with ⟨queues, hstarted⟩
  have hroom := hstarted.inv.lists.room
  have hplaces : start.poolSize < start.allCoroSize := by
    rw [hstarted.frame]
    change poolSize < word32Add poolSize 1
    rw [word32Add_of_lt hsize]
    exact Nat.lt_succ_self poolSize
  exact ⟨⟨queues, hstarted.inv⟩, hstarted.uniq, by dsimp only; omega, fun _ => hplaces⟩

/-- A scheduler whose table has no place makes no coroutine. -/
theorem createCoroutine_no_table {s : CoroutineScheduler} (hsize : s.allCoroSize = 0)
    (hnone : s.currentSize = 0) (hpool : 0 < s.poolSize) (hsmall : s.poolSize < 2 ^ 32)
    {allocs : Nat → Bool} (halloc : allocs 0 = true) (result : Nat × CoroutineScheduler) :
    s.createCoroutine allocs ≠ .ok result := by
  have hroom : word32Sub s.poolSize s.currentSize = s.poolSize := by
    rw [hnone]
    exact word32Sub_of_le (Nat.zero_le _) hsmall
  have hmore : s.NeedsMore := Or.inl (by omega)
  obtain ⟨turns, hturns⟩ : ∃ turns, (if s.poolSize > 100 then 100 else s.poolSize) = turns + 1 :=
    Nat.exists_eq_succ_of_ne_zero (by split <;> omega)
  obtain ⟨fault, hfault⟩ : ∃ fault, increaseLoop allocs 0 (turns + 1) s = .error fault := by
    cases hid : s.generateId with
    | error fault => exact ⟨fault, by simp [increaseLoop, hid, bind, Except.bind]⟩
    | ok made =>
        rcases made with ⟨id, next⟩
        have hnext : next.allCoroSize = 0 := (allCoroSize_generateId hid).trans hsize
        exact ⟨.outOfBounds,
          by simp [increaseLoop, halloc, hid, addCoroutine, hnext, bind, Except.bind]⟩
  have hincrease : s.increaseCoroPoolSize allocs = .error fault := by
    simp only [increaseCoroPoolSize, hroom, hturns, Nat.add_eq_zero_iff, one_ne_zero, and_false,
      if_false, hfault, bind, Except.bind]
  have hgrow : s.growIfNeeded allocs = .error fault := by
    rw [NeedsMore] at hmore
    simp only [growIfNeeded, if_pos hmore, hincrease, bind, Except.bind]
  simp [createCoroutine, hgrow, bind, Except.bind]

/-- The largest pool, whose table size wraps to 0: `init` faults, or, without its first
stack, leaves a pool that cannot grow. -/
theorem largest_not_good {allocs : Nat → Bool} {start : PoolState}
    (hstart : prepared (some (2 ^ 32 - 1, allocs)) = .ok start) : ¬ PoolGood start := by
  rcases ok_of_bind_ok hstart with ⟨s, hinit, hlast⟩
  obtain rfl := Except.ok.inj hlast
  have hstopped : allocs 0 = false := by
    by_contra halloc
    exact init_max (Bool.not_eq_false _ ▸ halloc) s hinit
  have hfails : failsWithin allocs (initialSize (2 ^ 32 - 1)) = true := by
    by_contra hno
    have hall := failsWithin_eq_false.mp (Bool.not_eq_true _ ▸ hno) 0 (by decide)
    rw [hstopped] at hall
    contradiction
  rcases init_started (by decide) (by decide) hinit with ⟨queues, hstarted⟩
  have hsize : s.allCoroSize = 0 := by
    rw [hstarted.frame]
    rfl
  have hpool : s.poolSize = 2 ^ 32 - 1 := by
    rw [hstarted.frame]
    rfl
  have hnone : s.currentSize = 0 := by
    rw [hstarted.inv.current]
    simp [createdIds, hsize]
  intro hgood
  rcases hgood.grows hfails with ⟨calls, last, hrun, hfull⟩
  cases calls with
  | zero =>
      obtain rfl := Except.ok.inj hrun
      dsimp only at hfull
      omega
  | succ calls =>
      rw [List.replicate_succ] at hrun
      cases hcreate : s.createCoroutine fun _ => true with
      | error fault => simp [run, schedulerStep, hcreate, bind, Except.bind] at hrun
      | ok result =>
          exact createCoroutine_no_table hsize hnone (by omega) (by omega) rfl result hcreate

/-- Whether `init` took a size, refused 0 or was not called, and whatever is created, ends
or is not allocated: no step faults, every id is a place of `allCoro_` and failed
allocations do not keep the pool from its size, exactly when the size is not the largest
and every growth gets all its stacks and has places for its ids. -/
theorem pool_good_iff (size : Option (Nat × (Nat → Bool)))
    (hword : ∀ poolSize allocs, size = some (poolSize, allocs) → poolSize < 2 ^ 32)
    (actions : List PoolAction)
    (hlegal : ∀ start, prepared size = .ok start → Along poolStep PoolLegal start actions) :
    (∃ start, prepared size = .ok start ∧ Stays poolStep PoolGood start actions) ↔
      (∀ allocs, size ≠ some (2 ^ 32 - 1, allocs)) ∧
        ∀ start, prepared size = .ok start → Along poolStep Grows start actions := by
  have hruns : ∀ start, prepared size = .ok start → PoolInv start →
      (Stays poolStep PoolGood start actions ↔ Along poolStep Grows start actions) :=
    fun start hstart hinv => stays_iff_along_of_legal (fun _ h => h.good)
      (fun _ _ h hlegal hgrows => h.step hlegal hgrows)
      (fun _ _ _ h _ hnot hstep => h.breaks hnot hstep) hinv (hlegal start hstart)
  have hprepared : (∀ allocs, size ≠ some (2 ^ 32 - 1, allocs)) →
      ∃ start, prepared size = .ok start ∧ PoolInv start := by
    intro hnot
    cases size with
    | none => exact ⟨_, rfl, poolInv_construct⟩
    | some called =>
        rcases called with ⟨poolSize, allocs⟩
        have hsmall := hword poolSize allocs rfl
        rcases Nat.eq_zero_or_pos poolSize with rfl | hpos
        · exact ⟨_, rfl, poolInv_construct⟩
        · have hsize : poolSize + 1 < 2 ^ 32 := by
            have hother : poolSize ≠ 2 ^ 32 - 1 := by
              rintro rfl
              exact hnot allocs rfl
            omega
          rcases init_ok hpos hsize allocs with ⟨start, hinit⟩
          exact ⟨⟨start, failsWithin allocs (initialSize poolSize)⟩,
            by simp only [prepared, hinit, bind, Except.bind], poolInv_init hpos hsize _ hinit⟩
  constructor
  · rintro ⟨start, hstart, hstays⟩
    have hnot : ∀ allocs, size ≠ some (2 ^ 32 - 1, allocs) := by
      rintro allocs rfl
      exact largest_not_good hstart (stays_iff_staysUpTo.mp hstays).head
    rcases hprepared hnot with ⟨other, hother, hinv⟩
    obtain rfl := Except.ok.inj (hstart.symm.trans hother)
    refine ⟨hnot, fun another hanother => ?_⟩
    obtain rfl := Except.ok.inj (hstart.symm.trans hanother)
    exact (hruns start hstart hinv).mp hstays
  · rintro ⟨hnot, hgrows⟩
    rcases hprepared hnot with ⟨start, hstart, hinv⟩
    exact ⟨start, hstart, (hruns start hstart hinv).mpr (hgrows start hstart)⟩

/-- A pool of two gets its stacks: a coroutine is made, ends, and is made again. -/
theorem pool_good_two :
    ∃ start, prepared (some (2, fun _ => true)) = .ok start ∧
      Stays poolStep PoolGood start
        [.create fun _ => true, .complete 1, .create fun _ => true] := by
  have hgrows : ∀ {s : CoroutineScheduler}, s.increment = 0 ∨ ¬ s.NeedsMore →
      s.GrowsWhole fun _ => true := by
    rintro s (hzero | hno) hmore hpos
    · exact absurd hzero hpos
    · exact absurd hmore hno
  apply (pool_good_iff (some (2, fun _ => true)) ?_ _ ?_).mpr ⟨by simp, ?_⟩
  · rintro poolSize allocs hcalled
    obtain ⟨rfl, _⟩ := Prod.mk.inj (Option.some.inj hcalled)
    decide
  · intro start hstart
    obtain rfl := Except.ok.inj hstart
    refine Along.cons_of_ok (p := PoolLegal) trivial rfl ?_
    refine Along.cons_of_ok (p := PoolLegal) ⟨rfl, Or.inr rfl⟩ rfl ?_
    exact Along.cons_of_ok (p := PoolLegal) trivial rfl trivial
  · intro start hstart
    obtain rfl := Except.ok.inj hstart
    refine Along.cons_of_ok (p := Grows) (hgrows (Or.inl rfl)) rfl ?_
    refine Along.cons_of_ok (p := Grows) trivial rfl ?_
    exact Along.cons_of_ok (p := Grows) (hgrows (Or.inl rfl)) rfl trivial

/-- A pool of two: `init` gets one of its stacks, and the first growth does not get its
own.  The second growth has a stack, and no id. -/
theorem id_lost :
    ∃ start, prepared (some (2, fun turn => decide (turn = 0))) = .ok start ∧
      run poolStep start
        [.create fun _ => true, .create fun _ => false, .create fun _ => true] =
          .error .assertion ∧
      ¬ Stays poolStep PoolGood start
        [.create fun _ => true, .create fun _ => false, .create fun _ => true] := by
  refine ⟨_, rfl, rfl, ?_⟩
  intro hstays
  rcases hstays.run_ok with ⟨last, hrun, _⟩
  cases hrun

end CoroutineScheduler

end Tarsx
