/-
The passes of `tars_run` and `run` over `active_` and `avail_`: a pass resumes no more
coroutines than it may, and no coroutine that is ready is passed over.
-/
import Tarsx.Foundation.Tally
import Tarsx.SchedulerOrder

namespace Tarsx

open Foundation

namespace SchedulerTurns

open CoroutineScheduler CoroutineInfo

/-- How many coroutines a pass over a list may resume. -/
def quota (s : SchedulerTurns) : ReadyList → Nat
  | .active => 100
  | .avail => if s.run then 1 else 100

/-- How many coroutines the pass that goes on has resumed. -/
def inPass (list : ReadyList) (s : SchedulerTurns) : Nat :=
  match s.pc with
  | .switches other loop => if other = list then s.quota list - loop else 0
  | .runs other loop => if other = list then s.quota list - loop + 1 else 0
  | _ => 0

/-- What a step adds to the resumes that the passes behind it may have made: the quota of the
pass that it ends. -/
def allowance (list : ReadyList) (s : SchedulerTurns) : TurnAction → Nat
  | .proceed _ =>
      match s.pc with
      | .switches other loop =>
          if other = list ∧ ¬ (loop > 0 ∧
              coroutineHeadEmpty s.scheduler.links (.head other.status) = false) then
            s.quota list
          else 0
      | _ => 0
  | _ => 0

/-- The main party is not in a pass. -/
def outside : TurnPc → Bool
  | .switches _ _ => false
  | .runs _ _ => false
  | _ => true

/-- The loop counter of a pass. -/
def Counts (s : SchedulerTurns) : Prop :=
  match s.pc with
  | .switches list loop => loop ≤ s.quota list
  | .runs list loop => 0 < loop ∧ loop ≤ s.quota list
  | _ => True

section

variable {s next : SchedulerTurns} {list other : ReadyList} {loop : Nat} {now : Int}

theorem inPass_outside (h : outside s.pc = true) : inPass list s = 0 := by
  cases hpc : s.pc with
  | switches other loop =>
      rw [hpc] at h
      contradiction
  | runs other loop =>
      rw [hpc] at h
      contradiction
  | _ => simp only [inPass, hpc]

theorem counts_outside (h : outside s.pc = true) : s.Counts := by
  cases hpc : s.pc with
  | switches other loop =>
      rw [hpc] at h
      contradiction
  | runs other loop =>
      rw [hpc] at h
      contradiction
  | _ => simp only [Counts, hpc]

theorem allowance_outside (h : outside s.pc = true) : allowance list s (.proceed now) = 0 := by
  cases hpc : s.pc with
  | switches other loop =>
      rw [hpc] at h
      contradiction
  | _ => simp only [allowance, hpc]

theorem inPass_switches (hpc : s.pc = .switches other loop) :
    inPass list s = if other = list then s.quota list - loop else 0 := by
  rw [inPass, hpc]

theorem inPass_runs (hpc : s.pc = .runs other loop) :
    inPass list s = if other = list then s.quota list - loop + 1 else 0 := by
  rw [inPass, hpc]

/-- A pass that begins has resumed nothing. -/
theorem inPass_begins (hpc : s.pc = .switches other (s.quota other)) : inPass list s = 0 := by
  rw [inPass_switches hpc]
  split
  · rename_i hsame
    rw [hsame, Nat.sub_self]
  · rfl

/-- What a step does to the resumes from a list. -/
structure Counted (list : ReadyList) (s next : SchedulerTurns) (paid : Nat) : Prop where
  appended : (s.appended list).length ≤ (next.appended list).length
  mono : (s.resumed list).length ≤ (next.resumed list).length
  upper : (next.resumed list).length + inPass list s ≤
    (s.resumed list).length + inPass list next + paid
  lower : (next.resumed list).length = (next.appended list).length ∨
    (s.resumed list).length + inPass list next + paid ≤
      (next.resumed list).length + inPass list s

/-- Nothing is resumed, and the resumes of the pass stay as many. -/
theorem Counted.quiet (happended : (s.appended list).length ≤ (next.appended list).length)
    (hresumed : next.resumed list = s.resumed list)
    (hpass : inPass list next = inPass list s) :
    Counted list s next 0 := by
  refine ⟨happended, ?_, ?_, .inr ?_⟩ <;> rw [hresumed]
  all_goals omega

theorem appended_note (coro : CoroutineInfo) (scheduler : CoroutineScheduler) (pc : TurnPc) :
    (s.appended list).length ≤ ((s.note coro scheduler pc).appended list).length := by
  simp only [note]
  split
  · simp
  · exact Nat.le_refl _

/-- A step ahead of the passes: nothing is resumed. -/
structure Ahead (s next : SchedulerTurns) : Prop where
  outside : outside s.pc = true
  pc : SchedulerTurns.outside next.pc = true ∨ next.pc = .switches .active 100
  resumed : next.resumed = s.resumed
  appended : ∀ list, (s.appended list).length ≤ (next.appended list).length

theorem Ahead.go (hpc : SchedulerTurns.outside s.pc = true) {pc : TurnPc}
    (hnext : SchedulerTurns.outside pc = true ∨ pc = .switches .active 100) :
    Ahead s (s.go pc) :=
  ⟨hpc, hnext, rfl, fun _ => Nat.le_refl _⟩

theorem Ahead.wake {move : CoroutineScheduler → CoroutineInfo → Except Fault CoroutineScheduler}
    {id : Nat} {pc : TurnPc} (hpc : SchedulerTurns.outside s.pc = true)
    (hnext : SchedulerTurns.outside pc = true) (hwake : s.wake move id pc = .ok next) :
    Ahead s next := by
  obtain ⟨coro, -, hwake⟩ := ok_of_bind_ok hwake
  obtain ⟨scheduler, -, hdone⟩ := ok_of_bind_ok hwake
  obtain rfl := Except.ok.inj hdone
  exact ⟨hpc, .inl hnext, rfl, fun _ => appended_note coro scheduler pc⟩

theorem Ahead.timeoutTurn {clock : Int} (hpc : SchedulerTurns.outside s.pc = true)
    (hturn : s.timeoutTurn clock = .ok next) : Ahead s next := by
  rw [SchedulerTurns.timeoutTurn] at hturn
  split at hturn
  · obtain rfl := Except.ok.inj hturn
    exact .go hpc (.inl rfl)
  · split at hturn
    · obtain rfl := Except.ok.inj hturn
      exact .go hpc (.inl rfl)
    · obtain ⟨woken, hwake, hdone⟩ := ok_of_bind_ok hturn
      obtain rfl := Except.ok.inj hdone
      have hahead := Ahead.wake hpc rfl hwake
      exact ⟨hpc, hahead.pc, hahead.resumed, hahead.appended⟩

theorem Ahead.counted (h : Ahead s next) : Counted list s next 0 := by
  refine .quiet (h.appended list) (congrFun h.resumed list) ?_
  rw [inPass_outside h.outside]
  obtain hpc | hpc := h.pc
  · exact inPass_outside hpc
  · exact inPass_begins hpc

theorem Ahead.counts (h : Ahead s next) : next.Counts := by
  obtain hpc | hpc := h.pc
  · exact counts_outside hpc
  · rw [Counts, hpc]
    exact Nat.le_refl _

/-- Where `tars_run` and `run` go: a coroutine runs, one is resumed, a pass ends, or the step is
ahead of the passes. -/
theorem proceed_passes (hproceed : s.proceed now = .ok next) :
    (∃ list loop, s.pc = .runs list loop ∧ next = s) ∨
    (∃ list loop, s.pc = .switches list loop ∧
      (loop > 0 ∧ coroutineHeadEmpty s.scheduler.links (.head list.status) = false) ∧
      s.resume list loop = .ok next) ∨
    (∃ list loop, s.pc = .switches list loop ∧
      ¬ (loop > 0 ∧ coroutineHeadEmpty s.scheduler.links (.head list.status) = false) ∧
      next = s.go (s.behind list)) ∨
    Ahead s next := by
  rw [SchedulerTurns.proceed] at hproceed
  split at hproceed <;> rename_i hpc
  case h_12 => exact .inl ⟨_, _, hpc, (Except.ok.inj hproceed).symm⟩
  case h_11 =>
      split at hproceed
      · rename_i hready
        exact .inr (.inl ⟨_, _, hpc, hready, hproceed⟩)
      · rename_i hready
        exact .inr (.inr (.inl ⟨_, _, hpc, hready, (Except.ok.inj hproceed).symm⟩))
  all_goals
    have hhere : outside s.pc = true := by rw [hpc]; rfl
    refine .inr (.inr (.inr ?_))
  case h_4 => exact .timeoutTurn hhere hproceed
  case h_7 => exact .wake hhere rfl hproceed
  case h_10 => exact .wake hhere rfl hproceed
  all_goals obtain rfl := Except.ok.inj hproceed
  case h_1 => exact .go hhere (.inl (hpc ▸ rfl))
  case h_14 => exact .go hhere (.inl (hpc ▸ rfl))
  case h_6 => exact ⟨hhere, .inl rfl, rfl, fun _ => Nat.le_refl _⟩
  case h_9 => exact .go hhere (.inr rfl)
  case h_8 =>
      split
      · exact .go hhere (.inr rfl)
      · exact ⟨hhere, .inl rfl, rfl, fun _ => Nat.le_refl _⟩
  all_goals
    split <;> exact .go hhere (.inl rfl)

/-- What each step of a run does to the resumes from a list. -/
structure Steps (list : ReadyList) (s next : SchedulerTurns) (action : TurnAction) : Prop where
  counted : Counted list s next (allowance list s action)
  counts : next.Counts

/-- A step that stays where it was. -/
theorem Steps.stay {action : TurnAction} (hcounts : s.Counts) (hpc : next.pc = s.pc)
    (hrun : next.run = s.run) (hresumed : next.resumed = s.resumed)
    (happended : (s.appended list).length ≤ (next.appended list).length)
    (hfree : allowance list s action = 0) : Steps list s next action := by
  have hquota : next.quota = s.quota := by
    funext other
    rw [quota.eq_def, quota.eq_def, hrun]
  refine ⟨?_, ?_⟩
  · rw [hfree]
    refine .quiet happended (congrFun hresumed list) ?_
    rw [inPass, inPass, hpc, hquota]
  · rw [Counts, hpc, hquota]
    exact hcounts

variable {queues : CoroStatus → List Nat}

/-- A resume is one of the pass. -/
theorem Steps.resume (hcounts : s.Counts) (hpc : s.pc = .switches other loop)
    (hready : loop > 0 ∧ coroutineHeadEmpty s.scheduler.links (.head other.status) = false)
    (hresume : s.resume other loop = .ok next) : Steps list s next (.proceed now) := by
  have hloop : loop ≤ s.quota other := by
    rw [Counts, hpc] at hcounts
    exact hcounts
  cases hfirst : s.scheduler.links.next (.head other.status) with
  | none =>
      rw [SchedulerTurns.resume, hfirst] at hresume
      contradiction
  | some coro =>
      rw [SchedulerTurns.resume, hfirst] at hresume
      obtain rfl := Except.ok.inj hresume
      refine ⟨?_, hready.1, hloop⟩
      have hfree : allowance list s (.proceed now) = 0 := by
        rw [allowance, hpc]
        exact if_neg fun hends => hends.2 hready
      rw [hfree]
      have hpass : inPass list { s with
          scheduler := s.scheduler.switchCoro coro
          pc := .runs other loop
          resumed := Function.update s.resumed other (s.resumed other ++
            [latest (s.appended other) coro]) } =
          if other = list then s.quota list - loop + 1 else 0 := rfl
      by_cases hsame : other = list
      · subst hsame
        rw [if_pos rfl] at hpass
        refine ⟨Nat.le_refl _, ?_, ?_, .inr ?_⟩ <;>
          simp only [hpass, inPass_switches hpc, Function.update_self, List.length_append,
            List.length_singleton, if_pos] <;> omega
      · rw [if_neg hsame] at hpass
        refine .quiet (Nat.le_refl _) (Function.update_of_ne (Ne.symm hsame) _ _) ?_
        rw [hpass, inPass_switches hpc, if_neg hsame]

/-- The pass ends with its quota or with an empty list. -/
theorem Steps.behind (h : s.Ordered queues) (hcounts : s.Counts)
    (hpc : s.pc = .switches other loop)
    (hready : ¬ (loop > 0 ∧ coroutineHeadEmpty s.scheduler.links (.head other.status) = false)) :
    Steps list s (s.go (s.behind other)) (.proceed now) := by
  have hloop : loop ≤ s.quota other := by
    rw [Counts, hpc] at hcounts
    exact hcounts
  have hbehind : inPass list (s.go (s.behind other)) = 0 ∧ (s.go (s.behind other)).Counts := by
    cases other with
    | active => exact ⟨inPass_begins rfl, Nat.le_refl _⟩
    | avail =>
        have hout : outside (s.go (s.behind .avail)).pc = true := by
          change outside (if s.run then TurnPc.used else .out) = true
          split <;> rfl
        exact ⟨inPass_outside hout, counts_outside hout⟩
  refine ⟨?_, hbehind.2⟩
  by_cases hsame : other = list
  · subst hsame
    have hquota : allowance other s (.proceed now) = s.quota other := by
      rw [allowance, hpc]
      exact if_pos ⟨rfl, hready⟩
    have hpass : inPass other s = s.quota other - loop := by
      rw [inPass_switches hpc, if_pos rfl]
    rw [hquota]
    refine ⟨Nat.le_refl _, Nat.le_refl _, ?_, ?_⟩
    · rw [hbehind.1, hpass]
      exact Nat.add_le_add_left (Nat.sub_le _ _) _
    · by_cases hzero : loop = 0
      · right
        rw [hbehind.1, hpass, hzero]
        exact Nat.le_refl _
      · left
        have hempty : coroutineHeadEmpty s.scheduler.links (.head other.status) = true := by
          by_contra hne
          exact hready ⟨Nat.pos_of_ne_zero hzero, by simpa using hne⟩
        obtain ⟨gone, hjoined, hserved⟩ := (h.served other).records
        rw [(headEmpty_iff h.inv.lists.rings other.status).mp hempty] at hjoined
        have hquiet : serves s.pc other = false := by
          rw [hpc]
          rfl
        change (s.resumed other).length = (s.appended other).length
        rw [hserved, hjoined, hquiet]
        simp
  · have hnone : allowance list s (.proceed now) = 0 := by
      rw [allowance, hpc]
      exact if_neg fun hends => hsame hends.1
    rw [hnone]
    refine .quiet (Nat.le_refl _) rfl ?_
    rw [hbehind.1, inPass_switches hpc, if_neg hsame]

theorem Steps.proceed (h : s.Ordered queues) (hcounts : s.Counts)
    (hproceed : s.proceed now = .ok next) : Steps list s next (.proceed now) := by
  rcases proceed_passes hproceed with ⟨other, loop, hpc, rfl⟩ |
    ⟨other, loop, hpc, hready, hresume⟩ | ⟨other, loop, hpc, hready, rfl⟩ | hahead
  · refine .stay hcounts rfl rfl rfl (Nat.le_refl _) ?_
    rw [allowance, hpc]
  · exact .resume hcounts hpc hready hresume
  · exact .behind h hcounts hpc hready
  · refine ⟨?_, hahead.counts⟩
    rw [allowance_outside hahead.outside]
    exact hahead.counted

/-- A coroutine that stops leaves the pass as it was. -/
theorem Steps.call (hcounts : s.Counts) {call : CoroutineCall}
    (hcall : s.call call = .ok next) : Steps list s next (.coroutine call) := by
  rw [SchedulerTurns.call.eq_def] at hcall
  split at hcall
  · obtain ⟨⟨id, scheduler⟩, -, hdone⟩ := ok_of_bind_ok hcall
    obtain rfl := Except.ok.inj hdone
    exact .stay hcounts rfl rfl rfl (appended_note _ _ _) rfl
  · rename_i call other loop coro hpc hcurrent hother
    obtain ⟨scheduler, -, hdone⟩ := ok_of_bind_ok hcall
    obtain rfl := Except.ok.inj hdone
    rw [Counts, hpc] at hcounts
    refine ⟨.quiet (appended_note _ _ _) rfl ?_, (Nat.sub_le _ _).trans hcounts.2⟩
    change (if other = list then s.quota list - (loop - 1) else 0) = _
    rw [inPass_runs hpc]
    split
    · rename_i hsame
      subst hsame
      omega
    · rfl
  · obtain rfl := Except.ok.inj hcall
    exact .stay hcounts rfl rfl rfl (Nat.le_refl _) rfl

theorem Steps.step (h : s.Ordered queues) (hcounts : s.Counts) {action : TurnAction}
    (hstep : s.step action = .ok next) : Steps list s next action := by
  cases action with
  | tarsRun =>
      obtain rfl := Except.ok.inj hstep
      split
      · rename_i hout
        have hhere : outside s.pc = true := hout.1 ▸ rfl
        refine ⟨.quiet (Nat.le_refl _) rfl ?_, counts_outside rfl⟩
        rw [inPass_outside hhere]
        exact inPass_outside rfl
      · exact .stay hcounts rfl rfl rfl (Nat.le_refl _) rfl
  | run =>
      obtain rfl := Except.ok.inj hstep
      split
      · rename_i hout
        have hhere : outside s.pc = true := hout ▸ rfl
        refine ⟨.quiet (Nat.le_refl _) rfl ?_, counts_outside rfl⟩
        rw [inPass_outside hhere]
        exact inPass_outside rfl
      · exact .stay hcounts rfl rfl rfl (Nat.le_refl _) rfl
  | createCoroutine allocs =>
      rw [SchedulerTurns.step] at hstep
      split at hstep
      · obtain ⟨⟨id, scheduler⟩, -, hdone⟩ := ok_of_bind_ok hstep
        obtain rfl := Except.ok.inj hdone
        exact .stay hcounts rfl rfl rfl (appended_note _ _ _) rfl
      · obtain rfl := Except.ok.inj hstep
        exact .stay hcounts rfl rfl rfl (Nat.le_refl _) rfl
  | proceed now => exact .proceed h hcounts hstep
  | coroutine call => exact .call hcounts hstep
  | put coroId =>
      obtain rfl := Except.ok.inj hstep
      exact .stay hcounts rfl rfl rfl (Nat.le_refl _) rfl
  | terminate =>
      obtain rfl := Except.ok.inj hstep
      exact .stay hcounts rfl rfl rfl (Nat.le_refl _) rfl

end

/-- A state of a run, in which at least so many coroutines were appended to the list. -/
def Passing (list : ReadyList) (appended : Nat) (s : SchedulerTurns) : Prop :=
  (∃ queues, s.Ordered queues) ∧ s.Counts ∧ appended ≤ (s.appended list).length

section

variable {s next : SchedulerTurns} {list : ReadyList} {appended : Nat} {action : TurnAction}

theorem Passing.step (h : Passing list appended s) (hstep : s.step action = .ok next) :
    Passing list appended next := by
  obtain ⟨⟨queues, hordered⟩, hcounts, happended⟩ := h
  have hsteps : Steps list s next action := .step hordered hcounts hstep
  exact ⟨hordered.step hstep, hsteps.counts, happended.trans hsteps.counted.appended⟩

theorem Passing.counted (h : Passing list appended s) (hstep : s.step action = .ok next) :
    Counted list s next (allowance list s action) := by
  obtain ⟨⟨queues, hordered⟩, hcounts, -⟩ := h
  exact (Steps.step hordered hcounts hstep).counted

end

theorem start_out {size : Option (UInt32 × (Nat → Bool))} {s : SchedulerTurns}
    (hstart : start size = .ok s) : s.pc = .out := by
  cases size with
  | none =>
      obtain rfl := Except.ok.inj hstart
      rfl
  | some given =>
      obtain ⟨scheduler, -, hdone⟩ := ok_of_bind_ok hstart
      obtain rfl := Except.ok.inj hdone
      rfl

theorem passing_of_run {size : Option (UInt32 × (Nat → Bool))} {turns s : SchedulerTurns}
    (hstart : start size = .ok turns) {before : List TurnAction}
    (hbefore : Foundation.run step turns before = .ok s) (list : ReadyList) :
    Passing list (s.appended list).length s := by
  have hpassing : Passing list 0 turns :=
    ⟨ordered_start hstart, counts_outside (start_out hstart ▸ rfl), Nat.zero_le _⟩
  have hlast : Passing list 0 s := run_invariant_of_along
    (fun _ _ _ h _ hstep => Passing.step h hstep) hpassing along_true hbefore
  exact ⟨hlast.1, hlast.2.1, Nat.le_refl _⟩

/-- Between two points of a run that are in no pass, `tars_run` and `run` resume no more
coroutines from a list than the quotas of the passes over it; and they resume as many, unless
they have come to every coroutine that was appended before. -/
theorem passes_serve (size : Option (UInt32 × (Nat → Bool))) {turns s last : SchedulerTurns}
    (hstart : start size = .ok turns) {before actions : List TurnAction}
    (hbefore : Foundation.run step turns before = .ok s)
    (hrun : Foundation.run step s actions = .ok last) (list : ReadyList)
    (hout : outside s.pc = true) (hlast : outside last.pc = true) :
    (last.resumed list).length ≤
        (s.resumed list).length + tally step (allowance list) s actions ∧
      ((s.appended list).length ≤ (last.resumed list).length ∨
        (last.resumed list).length =
          (s.resumed list).length + tally step (allowance list) s actions) := by
  have hpassing := passing_of_run hstart hbefore list
  have hkeep : ∀ state action next, Passing list (s.appended list).length state →
      step state action = .ok next → Passing list (s.appended list).length next :=
    fun _ _ _ h hstep => h.step hstep
  have hupper : (last.resumed list).length + inPass list s ≤ (s.resumed list).length +
      inPass list last + tally step (allowance list) s actions :=
    level_le hkeep (fun _ _ _ h hstep => (h.counted hstep).upper) hpassing hrun
  have hrises : ∀ state action next, Passing list (s.appended list).length state →
      step state action = .ok next → (state.resumed list).length ≤ (next.resumed list).length ∧
        ((s.appended list).length ≤ (next.resumed list).length ∨
          (state.resumed list).length + inPass list next + allowance list state action ≤
            (next.resumed list).length + inPass list state) := by
    intro state action next h hstep
    have hcounted := h.counted hstep
    refine ⟨hcounted.mono, hcounted.lower.imp_left fun hall => ?_⟩
    exact hall ▸ (h.step hstep).2.2
  have hbase : (s.resumed list).length + inPass list s ≤ (s.resumed list).length := by
    rw [inPass_outside hout]
    exact Nat.le_refl _
  have hlower := le_level hkeep hrises hpassing hrun (.inr hbase)
  rw [inPass_outside hout, inPass_outside hlast] at hupper
  rw [inPass_outside hlast] at hlower
  refine ⟨hupper, hlower.imp_right fun hfull => Nat.le_antisymm hupper hfull⟩

/-- Two calls of `tars_run` come to all of four coroutines that were put on `avail_`. -/
theorem passes_serve_three :
    ∃ turns last, start (some (3, fun _ => true)) = .ok turns ∧
      Foundation.run step turns (yieldAndSleep ++ [.coroutine .finish, .proceed 5]) = .ok last ∧
      (last.resumed .avail).length ≤ (turns.resumed .avail).length +
        tally step (allowance .avail) turns (yieldAndSleep ++ [.coroutine .finish, .proceed 5]) ∧
      (last.resumed .avail).length = 4 := by
  refine ⟨_, _, rfl, rfl, ?_, rfl⟩
  exact (passes_serve (some (3, fun _ => true)) rfl (run_nil _) rfl .avail rfl rfl).1

end SchedulerTurns

end Tarsx
