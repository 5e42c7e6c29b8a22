/-
How long `tars_run` and `run` go on: each turn ends after so many steps of the main party and
stops of coroutines, and `run` ends after `terminate`.
-/
import Tarsx.SchedulerPasses

namespace Tarsx

open Foundation

namespace CoroutineScheduler

theorem MovesFrom.frame
    {move : CoroutineScheduler → CoroutineInfo → Except Fault CoroutineScheduler}
    {waiting : List CoroStatus} {target : CoroStatus} (hmove : MovesFrom move waiting target)
    {s next : CoroutineScheduler} {coro : CoroutineInfo} (hok : move s coro = .ok next) :
    next = { s with links := next.links, status := next.status } := by
  rw [hmove] at hok
  split at hok
  · obtain ⟨deleted, -, hok⟩ := ok_of_bind_ok hok
    obtain ⟨links, -, hok⟩ := ok_of_bind_ok hok
    obtain rfl := Except.ok.inj hok
    rfl
  · obtain rfl := Except.ok.inj hok
    rfl

theorem putIf_terminal (s : CoroutineScheduler) (flag : Bool) (uid : Nat) :
    (s.putIf flag uid).terminal = s.terminal := by
  rw [putIf]
  split
  · rw [putbyself]
    split <;> rfl
  · rfl

/-- A call of the coroutine that runs is none of `terminate`. -/
theorem callOf_terminal {s next : CoroutineScheduler} {queues : CoroStatus → List Nat}
    {uid : Nat} (h : s.Inv queues) (hcurrent : s.currentCoro = some (.coroutine uid))
    {source : CoroStatus} (huid : uid ∈ queues source)
    (hsource : source = .active ∨ source = .avail) {call : CoroutineCall}
    (hcall : ∀ allocs, call ≠ .createCoroutine allocs)
    (hok : (SchedulerThreads.callOf s call).2 = .ok next) : next.terminal = s.terminal := by
  cases call with
  | createCoroutine allocs => exact absurd rfl (hcall allocs)
  | yield flag =>
      obtain ⟨links, hyield, -⟩ := yield_ok h flag hcurrent huid hsource
      obtain rfl := Except.ok.inj (hyield.symm.trans hok)
      exact s.putIf_terminal flag uid
  | sleep sleeptime now =>
      obtain ⟨links, hsleep, -⟩ := sleep_ok h sleeptime now hcurrent huid hsource
      obtain rfl := Except.ok.inj (hsleep.symm.trans hok)
      rfl
  | finish =>
      obtain ⟨links, hfinish, -⟩ := finish_ok h hcurrent huid hsource
      obtain rfl := Except.ok.inj (hfinish.symm.trans hok)
      rfl

end CoroutineScheduler

namespace SchedulerTurns

open CoroutineScheduler CoroutineInfo

/-- The main party makes a step of `tars_run` or `run`, or a coroutine stops. -/
def moves (s : SchedulerTurns) : TurnAction → Nat
  | .proceed _ =>
      match s.pc with
      | .out => 0
      | .done => 0
      | .runs _ _ => 0
      | _ => 1
  | .coroutine (.createCoroutine _) => 0
  | .coroutine _ =>
      match s.pc with
      | .runs _ _ => 1
      | _ => 0
  | _ => 0

def puts (_ : SchedulerTurns) : TurnAction → Nat
  | .put _ => 1
  | _ => 0

/-- The wake-ups do nothing behind `terminate`. -/
def pending (s : SchedulerTurns) (count : Nat) : Nat :=
  if s.scheduler.terminal then 0 else count

section

variable (behind : Nat) (s : SchedulerTurns)

/-- The main party is in a turn, and behind it only the end of `run` is counted. -/
def InTurn : Prop :=
  s.pc ≠ .out ∧ s.pc ≠ .done ∧ (s.pc = .used → s.scheduler.terminal = true ∧ 2 ≤ behind)

/-- The moves that are left in a pass and behind it. -/
def leftInPass : ReadyList → Nat → Nat
  | .active, loop => 2 * loop + 2 * s.quota .avail + 2 + behind
  | .avail, loop => 2 * loop + 1 + behind

def leftAtWakeup : Nat :=
  s.pending s.scheduler.activeCoroQueue.length + 2 + s.leftInPass behind .active 100

def leftAtWakeupbyself : Nat :=
  s.pending s.scheduler.needActiveCoroId.length + 2 + s.leftAtWakeup behind

/-- The moves that are left in a turn from a place on, if no other thread calls `put`, with
those `behind` the turn. -/
def leftAt : TurnPc → Nat
  | .out => 0
  | .loop =>
      if s.scheduler.terminal then 1
      else s.scheduler.timeoutCoroId.length + 3 + s.leftAtWakeupbyself behind
  | .wakeupbytimeout =>
      s.pending s.scheduler.timeoutCoroId.length + 2 + s.leftAtWakeupbyself behind
  | .timeoutTurn _ => s.scheduler.timeoutCoroId.length + 1 + s.leftAtWakeupbyself behind
  | .wakeupbyself => s.leftAtWakeupbyself behind
  | .selfTurn coroIds => coroIds.length + 1 + s.leftAtWakeup behind
  | .wakeup => s.leftAtWakeup behind
  | .wakeupTurn coroIds => coroIds.length + 1 + s.leftInPass behind .active 100
  | .switches list loop => s.leftInPass behind list loop
  | .runs list loop => s.leftInPass behind list loop - 1
  | .used => behind
  | .done => 0

def left : Nat := s.leftAt behind s.pc

end

section

variable {behind : Nat} {s next : SchedulerTurns} {now : Int}

/-- A turn of a wake-up changes the lists and their records only. -/
theorem wake_frame {move : CoroutineScheduler → CoroutineInfo → Except Fault CoroutineScheduler}
    {waiting : List CoroStatus} {target : CoroStatus} (hmove : MovesFrom move waiting target)
    {id : Nat} {pc : TurnPc} (hwake : s.wake move id pc = .ok next) :
    ∃ links status appended, next = { s with
      scheduler := { s.scheduler with links := links, status := status }
      pc := pc
      appended := appended } := by
  obtain ⟨coro, -, hwake⟩ := ok_of_bind_ok hwake
  obtain ⟨scheduler, hmoved, hdone⟩ := ok_of_bind_ok hwake
  obtain rfl := Except.ok.inj hdone
  rw [hmove.frame hmoved]
  exact ⟨scheduler.links, scheduler.status, _, rfl⟩

theorem moves_proceed (hturn : s.InTurn behind) (hruns : ∀ list loop, s.pc ≠ .runs list loop) :
    s.moves (.proceed now) = 1 := by
  rw [moves]
  split
  · rename_i hpc
    exact absurd hpc hturn.1
  · rename_i hpc
    exact absurd hpc hturn.2.1
  · rename_i list loop hpc
    exact absurd hpc (hruns list loop)
  · rfl

theorem left_eq {pc : TurnPc} (hpc : s.pc = pc) : s.left behind = s.leftAt behind pc := by
  rw [left, hpc]

theorem left_timeoutTurn {clock : Int} (hpc : s.pc = .timeoutTurn clock)
    (hturn : s.timeoutTurn clock = .ok next) : 1 + next.left behind ≤ s.left behind := by
  rw [left_eq hpc]
  change _ ≤ s.scheduler.timeoutCoroId.length + 1 + s.leftAtWakeupbyself behind
  rw [SchedulerTurns.timeoutTurn] at hturn
  split at hturn
  · obtain rfl := Except.ok.inj hturn
    change 1 + s.leftAtWakeupbyself behind ≤ _
    omega
  · rename_i time id rest hentries
    rw [hentries, List.length_cons]
    split at hturn
    · obtain rfl := Except.ok.inj hturn
      change 1 + s.leftAtWakeupbyself behind ≤ _
      omega
    · obtain ⟨woken, hwake, hdone⟩ := ok_of_bind_ok hturn
      obtain rfl := Except.ok.inj hdone
      obtain ⟨links, status, appended, rfl⟩ := wake_frame moveToActive_moves hwake
      change 1 + (rest.length + 1 + s.leftAtWakeupbyself behind) ≤ _
      omega

/-- A pass goes on or ends. -/
theorem left_switches {list : ReadyList} {loop : Nat} (hpc : s.pc = .switches list loop)
    (hproceed : s.proceed now = .ok next) : 1 + next.left behind ≤ s.left behind := by
  rw [left_eq hpc]
  rw [proceed, hpc] at hproceed
  simp only at hproceed
  split at hproceed
  · rename_i hready
    have hloop : 0 < loop := hready.1
    cases hfirst : s.scheduler.links.next (.head list.status) with
    | none =>
        rw [resume, hfirst] at hproceed
        contradiction
    | some coro =>
        rw [resume, hfirst] at hproceed
        obtain rfl := Except.ok.inj hproceed
        change 1 + (s.leftInPass behind list loop - 1) ≤ s.leftInPass behind list loop
        cases list <;> rw [leftInPass] <;> omega
  · obtain rfl := Except.ok.inj hproceed
    change 1 + s.leftAt behind (s.behind list) ≤ s.leftInPass behind list loop
    cases list with
    | active =>
        change 1 + (2 * s.quota .avail + 1 + behind) ≤
          2 * loop + 2 * s.quota .avail + 2 + behind
        omega
    | avail =>
        have hbehind : s.leftAt behind (s.behind .avail) ≤ behind := by
          rw [SchedulerTurns.behind]
          split
          · exact Nat.le_refl _
          · exact Nat.zero_le _
        rw [leftInPass]
        omega

/-- A step of the main party is one of those that were left. -/
theorem left_proceed (hturn : s.InTurn behind) (hproceed : s.proceed now = .ok next) :
    s.moves (.proceed now) + next.left behind ≤ s.left behind := by
  by_cases hruns : ∃ list loop, s.pc = .runs list loop
  · obtain ⟨list, loop, hpc⟩ := hruns
    rw [proceed, hpc] at hproceed
    obtain rfl := Except.ok.inj hproceed
    rw [moves, hpc, Nat.zero_add]
  rw [moves_proceed hturn fun list loop hpc => hruns ⟨list, loop, hpc⟩]
  have hsplit := hproceed
  rw [SchedulerTurns.proceed] at hproceed
  split at hproceed <;> rename_i hpc
  case h_1 => exact absurd hpc hturn.1
  case h_12 => exact absurd ⟨_, _, hpc⟩ hruns
  case h_14 => exact absurd hpc hturn.2.1
  case h_4 => exact left_timeoutTurn hpc hproceed
  case h_11 => exact left_switches hpc hsplit
  all_goals rw [left_eq hpc]
  case h_7 id rest =>
      obtain ⟨links, status, appended, rfl⟩ := wake_frame moveToAvail_moves hproceed
      change 1 + (rest.length + 1 + s.leftAtWakeup behind) ≤
        (rest.length + 1) + 1 + s.leftAtWakeup behind
      omega
  case h_10 id rest =>
      obtain ⟨links, status, appended, rfl⟩ := wake_frame moveToActive_moves hproceed
      change 1 + (rest.length + 1 + s.leftInPass behind .active 100) ≤
        (rest.length + 1) + 1 + s.leftInPass behind .active 100
      omega
  all_goals obtain rfl := Except.ok.inj hproceed
  case h_6 =>
      change 1 + s.leftAtWakeup behind ≤ 0 + 1 + s.leftAtWakeup behind
      omega
  case h_9 =>
      change 1 + s.leftInPass behind .active 100 ≤ 0 + 1 + s.leftInPass behind .active 100
      omega
  -- the places that look at `terminal_`
  case h_2 =>
      change 1 + s.leftAt behind (if s.scheduler.terminal then .done else .wakeupbytimeout) ≤
        s.leftAt behind .loop
      split
      · rename_i hterminal
        rw [leftAt, leftAt, if_pos hterminal]
      · rename_i hterminal
        rw [leftAt, leftAt, if_neg hterminal, pending, if_neg hterminal]
        omega
  case h_3 =>
      change 1 + s.leftAt behind
          (if s.scheduler.terminal then .wakeupbyself else .timeoutTurn now) ≤
        s.pending s.scheduler.timeoutCoroId.length + 2 + s.leftAtWakeupbyself behind
      split
      · change 1 + s.leftAtWakeupbyself behind ≤ _
        omega
      · rename_i hterminal
        rw [leftAt, pending, if_neg hterminal]
        omega
  case h_5 =>
      change 1 + s.leftAt behind (if s.scheduler.terminal then .wakeup else
        .selfTurn s.scheduler.needActiveCoroId) ≤
          s.pending s.scheduler.needActiveCoroId.length + 2 + s.leftAtWakeup behind
      split
      · change 1 + s.leftAtWakeup behind ≤ _
        omega
      · rename_i hterminal
        rw [leftAt, pending, if_neg hterminal]
        omega
  case h_8 =>
      change _ ≤ s.pending s.scheduler.activeCoroQueue.length + 2 + s.leftInPass behind .active 100
      split
      · change 1 + s.leftInPass behind .active 100 ≤ _
        omega
      · rename_i hterminal
        rw [pending, if_neg hterminal]
        change 1 + (s.scheduler.activeCoroQueue.length + 1 + s.leftInPass behind .active 100) ≤ _
        omega
  case h_13 =>
      obtain ⟨hterminal, hbehind⟩ := hturn.2.2 hpc
      change 1 + s.leftAt behind (if s.scheduler.usedSize = 0 then .done else .loop) ≤ behind
      split
      · rw [leftAt]
        omega
      · rw [leftAt, if_pos hterminal]
        omega

variable {queues : CoroStatus → List Nat}

/-- A coroutine that stops is one of the moves. -/
theorem left_call (h : s.Ordered queues) (hcounts : s.Counts) {call : CoroutineCall}
    (hcall : s.call call = .ok next) :
    s.moves (.coroutine call) + next.left behind ≤ s.left behind := by
  by_cases hruns : ∃ list loop, s.pc = .runs list loop
  · obtain ⟨list, loop, hpc⟩ := hruns
    have hserves : serves s.pc list = true := by
      rw [hpc]
      exact decide_eq_true rfl
    obtain ⟨uid, rest, hcurrent, hqueue⟩ := h.running list hserves
    rw [left_eq hpc]
    by_cases hcreate : ∃ allocs, call = .createCoroutine allocs
    · obtain ⟨allocs, rfl⟩ := hcreate
      obtain ⟨⟨id, scheduler⟩, hok, hdone⟩ := ok_of_bind_ok ((call_create hpc).symm.trans hcall)
      obtain rfl := Except.ok.inj hdone
      have hnext : (s.note (.coroutine id) scheduler s.pc).pc = .runs list loop := hpc
      rw [left_eq hnext]
      exact Nat.le_of_eq (Nat.zero_add _)
    · have hother : ∀ allocs, call ≠ .createCoroutine allocs := not_exists.mp hcreate
      obtain ⟨scheduler, hok, rfl⟩ := call_stop hpc hcurrent hother hcall
      have hmoves : s.moves (.coroutine call) = 1 := by
        cases call with
        | createCoroutine allocs => exact absurd rfl (hother allocs)
        | _ => simp only [moves, hpc]
      rw [Counts, hpc] at hcounts
      rw [hmoves]
      change 1 + s.leftInPass behind list (loop - 1) ≤ s.leftInPass behind list loop - 1
      cases list <;> simp only [leftInPass] <;> omega
  · have hidle : s.call call = .ok s ∧ s.moves (.coroutine call) = 0 := by
      cases hpc : s.pc with
      | runs list loop => exact absurd ⟨list, loop, hpc⟩ hruns
      | _ => cases call <;> simp only [SchedulerTurns.call, moves, hpc, and_self]
    obtain rfl := Except.ok.inj (hidle.1.symm.trans hcall)
    rw [hidle.2, Nat.zero_add]

/-- What another thread does adds to the moves that are left no more than to each part. -/
theorem leftAt_le {extra : Nat} {pc : TurnPc}
    (hterminal : s.scheduler.terminal = true → next.scheduler.terminal = true)
    (htimeouts : next.scheduler.timeoutCoroId = s.scheduler.timeoutCoroId)
    (hpass : next.leftInPass behind = s.leftInPass behind)
    (hwakeup : next.leftAtWakeup behind ≤ s.leftAtWakeup behind + extra)
    (hself : next.leftAtWakeupbyself behind ≤ s.leftAtWakeupbyself behind + extra) :
    next.leftAt behind pc ≤ s.leftAt behind pc + extra := by
  have hpending (count : Nat) : next.pending count ≤ s.pending count := by
    rw [pending, pending]
    split
    · exact Nat.zero_le _
    · rename_i hnext
      rw [if_neg fun hs => hnext (hterminal hs)]
  cases pc with
  | out => exact Nat.zero_le _
  | done => exact Nat.zero_le _
  | used => exact Nat.le_add_right _ _
  | wakeup => exact hwakeup
  | wakeupbyself => exact hself
  | switches list loop =>
      rw [leftAt, leftAt, hpass]
      exact Nat.le_add_right _ _
  | runs list loop =>
      rw [leftAt, leftAt, hpass]
      exact Nat.le_add_right _ _
  | loop =>
      rw [leftAt, leftAt, htimeouts]
      split
      · split <;> omega
      · rename_i hnext
        rw [if_neg fun hs => hnext (hterminal hs)]
        omega
  | wakeupbytimeout =>
      have hless := hpending s.scheduler.timeoutCoroId.length
      rw [leftAt, leftAt, htimeouts]
      omega
  | timeoutTurn clock =>
      rw [leftAt, leftAt, htimeouts]
      omega
  | selfTurn coroIds =>
      rw [leftAt, leftAt]
      omega
  | wakeupTurn coroIds =>
      rw [leftAt, leftAt, hpass]
      omega

/-- A `put` of another thread adds a turn of `wakeup`. -/
theorem left_put (coroId : Nat) :
    left behind { s with scheduler := s.scheduler.put coroId } ≤ s.left behind + 1 := by
  rw [put]
  split
  · exact Nat.le_succ _
  · have hwakeup : s.pending (s.scheduler.activeCoroQueue ++ [coroId]).length + 2 +
        s.leftInPass behind .active 100 ≤ s.leftAtWakeup behind + 1 := by
      rw [leftAtWakeup, List.length_append, List.length_singleton, pending, pending]
      split <;> omega
    rw [left, left]
    refine leftAt_le id rfl rfl hwakeup ?_
    exact (Nat.add_le_add_left hwakeup _).trans (Nat.le_of_eq (Nat.add_assoc _ _ _).symm)

/-- Behind `terminate` the wake-ups do less. -/
theorem left_terminate :
    left behind { s with scheduler := { s.scheduler with terminal := true } } ≤ s.left behind := by
  have hwakeup : 0 + 2 + s.leftInPass behind .active 100 ≤ s.leftAtWakeup behind + 0 := by
    rw [leftAtWakeup]
    omega
  have hself : 0 + 2 + (0 + 2 + s.leftInPass behind .active 100) ≤
      s.leftAtWakeupbyself behind + 0 := by
    rw [leftAtWakeupbyself]
    omega
  have hless : leftAt behind { s with scheduler := { s.scheduler with terminal := true } } s.pc ≤
      s.leftAt behind s.pc + 0 := leftAt_le (fun _ => rfl) rfl rfl hwakeup hself
  exact hless

/-- What a step and the moves behind it come to. -/
theorem left_step (h : s.Ordered queues) (hcounts : s.Counts) (hturn : s.InTurn behind)
    {action : TurnAction} (hstep : s.step action = .ok next) :
    s.moves action + next.left behind ≤ s.left behind + s.puts action := by
  cases action with
  | tarsRun =>
      obtain rfl := Except.ok.inj hstep
      rw [if_neg fun hout => hturn.1 hout.1]
      exact Nat.le_of_eq (Nat.zero_add _)
  | run =>
      obtain rfl := Except.ok.inj hstep
      rw [if_neg hturn.1]
      exact Nat.le_of_eq (Nat.zero_add _)
  | createCoroutine allocs =>
      rw [SchedulerTurns.step, if_neg hturn.1] at hstep
      obtain rfl := Except.ok.inj hstep
      exact Nat.le_of_eq (Nat.zero_add _)
  | proceed now => exact left_proceed hturn hstep
  | coroutine call => exact left_call h hcounts hstep
  | put coroId =>
      obtain rfl := Except.ok.inj hstep
      exact (Nat.le_of_eq (Nat.zero_add _)).trans (left_put coroId)
  | terminate =>
      obtain rfl := Except.ok.inj hstep
      exact (Nat.le_of_eq (Nat.zero_add _)).trans left_terminate

end

/-- A reachable state, with the loop counter of its pass. -/
def Going (s : SchedulerTurns) : Prop := (∃ queues, s.Ordered queues) ∧ s.Counts

theorem Going.step {s next : SchedulerTurns} (h : s.Going) {action : TurnAction}
    (hstep : s.step action = .ok next) : next.Going := by
  obtain ⟨⟨queues, hordered⟩, hcounts⟩ := h
  have hsteps : Steps .active s next action := .step hordered hcounts hstep
  exact ⟨hordered.step hstep, hsteps.counts⟩

theorem going_of_run {size : Option (UInt32 × (Nat → Bool))} {turns s : SchedulerTurns}
    (hstart : start size = .ok turns) {before : List TurnAction}
    (hbefore : Foundation.run step turns before = .ok s) : s.Going :=
  have hpassing := passing_of_run hstart hbefore .active
  ⟨hpassing.1, hpassing.2.1⟩

/-- `tars_run`, and each turn of `run`, ends: the main party makes so many steps in it, and so
many coroutines stop, as coroutines are waiting to be woken when the turn begins or are `put`
while it goes on, and no more than 409 others. -/
theorem turn_ends (size : Option (UInt32 × (Nat → Bool))) {turns s : SchedulerTurns}
    (hstart : start size = .ok turns) {before actions : List TurnAction}
    (hbefore : Foundation.run step turns before = .ok s)
    (hpc : s.pc = .wakeupbytimeout ∨ s.pc = .loop)
    (hturn : Along step (fun s _ => s.pc ≠ .out ∧ s.pc ≠ .used ∧ s.pc ≠ .done) s actions) :
    tally step moves s actions ≤ s.scheduler.timeoutCoroId.length +
      s.scheduler.needActiveCoroId.length + s.scheduler.activeCoroQueue.length +
        tally step puts s actions + 409 := by
  have hmoves : tally step moves s actions ≤ s.left 0 + tally step puts s actions := by
    refine tally_le (fun _ _ _ h hstep => Going.step h hstep) ?_ (going_of_run hstart hbefore) hturn
    rintro state action next ⟨⟨queues, hordered⟩, hcounts⟩ ⟨hout, hused, hdone⟩ hstep
    exact left_step hordered hcounts ⟨hout, hdone, fun hpc => absurd hpc hused⟩ hstep
  have hquota : s.quota .avail ≤ 100 := by
    rw [quota]
    split <;> omega
  have hpending (count : Nat) : s.pending count ≤ count := by
    rw [pending]
    split <;> omega
  have htimeouts := hpending s.scheduler.timeoutCoroId.length
  have hself := hpending s.scheduler.needActiveCoroId.length
  have hqueue := hpending s.scheduler.activeCoroQueue.length
  have hleft : s.left 0 ≤ s.scheduler.timeoutCoroId.length +
      s.scheduler.needActiveCoroId.length + s.scheduler.activeCoroQueue.length + 409 := by
    obtain hpc | hpc := hpc <;>
      simp only [left_eq hpc, leftAt, leftAtWakeupbyself, leftAtWakeup, leftInPass]
    · omega
    · split <;> omega
  omega

/-- A coroutine is resumed in its turn and ends. -/
def oneTurn : List TurnAction := List.replicate 8 (.proceed 0) ++ [.coroutine .finish]

theorem turn_ends_one :
    ∃ turns s, start (some (1, fun _ => true)) = .ok turns ∧
      Foundation.run step turns [.createCoroutine fun _ => true, .tarsRun] = .ok s ∧
      tally step moves s oneTurn ≤ s.scheduler.timeoutCoroId.length +
        s.scheduler.needActiveCoroId.length + s.scheduler.activeCoroQueue.length +
          tally step puts s oneTurn + 409 ∧ tally step moves s oneTurn = 9 := by
  refine ⟨_, _, rfl, rfl, ?_, rfl⟩
  exact @turn_ends (some (1, fun _ => true)) _ _ rfl [.createCoroutine fun _ => true, .tarsRun]
    oneTurn rfl (.inl rfl) (by decide)

section

variable {s next : SchedulerTurns}

theorem proceed_terminal {now : Int} (hproceed : s.proceed now = .ok next) :
    next.scheduler.terminal = s.scheduler.terminal := by
  rw [SchedulerTurns.proceed] at hproceed
  split at hproceed
  case h_4 =>
      rw [timeoutTurn] at hproceed
      split at hproceed
      · obtain rfl := Except.ok.inj hproceed
        rfl
      · split at hproceed
        · obtain rfl := Except.ok.inj hproceed
          rfl
        · obtain ⟨woken, hwake, hdone⟩ := ok_of_bind_ok hproceed
          obtain rfl := Except.ok.inj hdone
          obtain ⟨links, status, appended, rfl⟩ := wake_frame moveToActive_moves hwake
          rfl
  case h_7 =>
      obtain ⟨links, status, appended, rfl⟩ := wake_frame moveToAvail_moves hproceed
      rfl
  case h_10 =>
      obtain ⟨links, status, appended, rfl⟩ := wake_frame moveToActive_moves hproceed
      rfl
  case h_11 =>
      split at hproceed
      · rw [resume] at hproceed
        split at hproceed
        · contradiction
        · obtain rfl := Except.ok.inj hproceed
          rfl
      · obtain rfl := Except.ok.inj hproceed
        rfl
  all_goals
    obtain rfl := Except.ok.inj hproceed
  all_goals first | rfl | (split <;> rfl)

/-- Nothing takes `terminate` back. -/
theorem step_terminal {queues : CoroStatus → List Nat} (h : s.Ordered queues)
    {action : TurnAction} (hstep : s.step action = .ok next)
    (hterminal : s.scheduler.terminal = true) : next.scheduler.terminal = true := by
  have hcreated {allocs : Nat → Bool} (hcreate : s.create allocs = .ok next) :
      next.scheduler.terminal = true := by
    obtain ⟨⟨id, scheduler⟩, hok, hdone⟩ := ok_of_bind_ok hcreate
    obtain rfl := Except.ok.inj hdone
    obtain ⟨queues', hcreates, -⟩ := createCoroutine_spec h.inv hok
    rw [note, hcreates.frame]
    exact hterminal
  cases action with
  | tarsRun =>
      obtain rfl := Except.ok.inj hstep
      split <;> exact hterminal
  | run =>
      obtain rfl := Except.ok.inj hstep
      split <;> exact hterminal
  | createCoroutine allocs =>
      rw [SchedulerTurns.step] at hstep
      split at hstep
      · exact hcreated hstep
      · obtain rfl := Except.ok.inj hstep
        exact hterminal
  | proceed now => exact (proceed_terminal hstep).trans hterminal
  | coroutine call =>
      have hcall : s.call call = .ok next := hstep
      have hsplit := hcall
      rw [SchedulerTurns.call.eq_def] at hsplit
      split at hsplit
      · exact hcreated hsplit
      · rename_i call list loop coro hpc hcurrent hother
        have hserves : serves s.pc list = true := by
          rw [hpc]
          exact decide_eq_true rfl
        obtain ⟨uid, rest, hrunning, hqueue⟩ := h.running list hserves
        obtain ⟨scheduler, hok, rfl⟩ := call_stop hpc hrunning hother hcall
        exact (callOf_terminal h.inv hrunning (hqueue ▸ List.mem_cons_self) list.status_cases
          hother hok).trans hterminal
      · obtain rfl := Except.ok.inj hsplit
        exact hterminal
  | put coroId =>
      obtain rfl := Except.ok.inj hstep
      rw [put, if_pos hterminal]
      exact hterminal
  | terminate =>
      obtain rfl := Except.ok.inj hstep
      rfl

end

/-- The turns that a wake-up has left when `terminate` is called in it. -/
def wakeups (s : SchedulerTurns) : Nat :=
  match s.pc with
  | .timeoutTurn _ => s.scheduler.timeoutCoroId.length
  | .selfTurn coroIds => coroIds.length
  | .wakeupTurn coroIds => coroIds.length
  | _ => 0

/-- `run` ends when `terminate` was called: the main party makes no more than 410 steps, and so
many coroutines stop, besides the turns of a wake-up that goes on. -/
theorem terminate_ends (size : Option (UInt32 × (Nat → Bool))) {turns s : SchedulerTurns}
    (hstart : start size = .ok turns) {before actions : List TurnAction}
    (hbefore : Foundation.run step turns before = .ok s)
    (hterminal : s.scheduler.terminal = true)
    (hrun : Along step (fun s _ => s.pc ≠ .out ∧ s.pc ≠ .done) s actions) :
    tally step moves s actions ≤ s.wakeups + 410 := by
  have hkeep : ∀ state action next, (Going state ∧ state.scheduler.terminal = true) →
      step state action = .ok next → Going next ∧ next.scheduler.terminal = true := by
    rintro state action next ⟨hgoing, hterminal⟩ hstep
    obtain ⟨queues, hordered⟩ := hgoing.1
    exact ⟨hgoing.step hstep, step_terminal hordered hstep hterminal⟩
  have hgoing := going_of_run hstart hbefore
  have hmoves : tally step moves s actions ≤ s.left 2 + tally step (fun _ _ => 0) s actions := by
    refine tally_le hkeep ?_ ⟨hgoing, hterminal⟩ hrun
    rintro state action next ⟨⟨⟨queues, hordered⟩, hcounts⟩, hterminal⟩ ⟨hout, hdone⟩ hstep
    have hleft := left_step hordered hcounts
      ⟨hout, hdone, fun _ => ⟨hterminal, Nat.le_refl 2⟩⟩ hstep
    cases action with
    | put coroId =>
        -- a `put` behind `terminate` leaves the state as it is
        obtain rfl := Except.ok.inj hstep
        rw [put, if_pos hterminal]
        exact Nat.le_of_eq (Nat.zero_add _)
    | _ => exact hleft
  rw [tally_zero] at hmoves
  have hquota : ∀ list, s.quota list ≤ 100 := by
    intro list
    cases list with
    | active => exact Nat.le_refl _
    | avail =>
        rw [quota]
        split <;> omega
  have hleft : s.left 2 ≤ s.wakeups + 410 := by
    have hcounts := hgoing.2
    have havail := hquota .avail
    rw [Counts] at hcounts
    rw [left, wakeups]
    cases hpc : s.pc with
    | switches list loop =>
        rw [hpc] at hcounts
        have hloop := hquota list
        cases list <;> simp only [leftAt, leftInPass] <;> omega
    | runs list loop =>
        rw [hpc] at hcounts
        have hloop := hquota list
        cases list <;> simp only [leftAt, leftInPass] <;> omega
    | _ =>
        simp only [leftAt, leftAtWakeupbyself, leftAtWakeup, leftInPass, pending, if_pos hterminal]
        omega
  omega

def runOne : List TurnAction :=
  [.createCoroutine fun _ => true, .run] ++ List.replicate 9 (.proceed 0) ++ [.terminate]

/-- `terminate` is called when a coroutine runs: it ends, and `run` is done. -/
theorem terminate_ends_one :
    ∃ turns s last, start (some (1, fun _ => true)) = .ok turns ∧
      Foundation.run step turns runOne = .ok s ∧
      tally step moves s (.coroutine .finish :: List.replicate 2 (.proceed 0)) ≤
        s.wakeups + 410 ∧
      Foundation.run step s (.coroutine .finish :: List.replicate 2 (.proceed 0)) = .ok last ∧
      last.pc = .done := by
  refine ⟨_, _, _, rfl, rfl, ?_, rfl, rfl⟩
  exact @terminate_ends (some (1, fun _ => true)) _ _ rfl runOne
    (.coroutine .finish :: List.replicate 2 (.proceed 0)) rfl rfl (by decide)

end SchedulerTurns

end Tarsx
