/-
In which order `tars_run` and `run` resume coroutines: each resume from `active_` or
`avail_` answers the next append to this list.
-/
import Tarsx.SchedulerGrowth
import Tarsx.SchedulerTurns

namespace Tarsx

open Foundation

theorem ReadyList.status_inj {list other : ReadyList} (h : list.status = other.status) :
    list = other := by
  cases list <;> cases other <;> first | rfl | contradiction

theorem ReadyList.status_cases (list : ReadyList) :
    list.status = .active ∨ list.status = .avail := by
  cases list with
  | active => exact Or.inl rfl
  | avail => exact Or.inr rfl

namespace CoroutineScheduler

open CoroutineInfo

section

variable {s next : CoroutineScheduler} {queues queues' : CoroStatus → List Nat} {uid : Nat}

/-! ### The lists -/

theorem Lists.length_le (h : s.Lists queues) (list : CoroStatus) :
    (queues list).length ≤ s.allCoroSize := by
  have hsubset : queues list ⊆ List.range s.allCoroSize := by
    intro uid huid
    exact List.mem_range.mpr (h.bound uid (made_of_mem h huid)).2.2
  have hle := (List.subperm_of_subset (h.rings.nodup list) hsubset).length_le
  rwa [List.length_range] at hle

theorem Lists.listOf (h : s.Lists queues) (list : CoroStatus) :
    s.listOf list = (queues list).map .coroutine :=
  (h.rings.ring list).itemsFrom_head (by rw [List.length_map]; exact h.length_le list)

theorem Lists.mem_listOf (h : s.Lists queues) {list : CoroStatus} :
    CoroutineInfo.coroutine uid ∈ s.listOf list ↔ uid ∈ queues list := by
  simp [h.listOf]

/-- Of the lists that coroutines are resumed from, some got a coroutine at their tail that
was not there, and the others are as they were. -/
def Gains (queues queues' : CoroStatus → List Nat) (uid : Nat) : Prop :=
  ∀ list : ReadyList, queues' list.status = queues list.status ∨
    uid ∉ queues list.status ∧ queues' list.status = queues list.status ++ [uid]

theorem Gains.refl (queues : CoroStatus → List Nat) (uid : Nat) : Gains queues queues uid :=
  fun _ => Or.inl rfl

/-- A coroutine that waits goes to the tail of one of them. -/
theorem Rings.gains_moved (h : Rings s.links queues) {source : CoroStatus}
    (huid : uid ∈ queues source) (hsource : source = .inactive ∨ source = .timeout)
    (target : ReadyList) : Gains queues (moved queues source target.status uid) uid := by
  intro list
  have hne : list.status ≠ source := by
    rcases hsource with rfl | rfl <;> cases list <;> decide
  by_cases hlist : list = target
  · subst hlist
    refine Or.inr ⟨?_, Function.update_self _ _ _⟩
    exact fun hmem => hne (h.disjoint _ _ uid hmem huid)
  · exact Or.inl (moved_of_ne hne fun hsame => hlist (ReadyList.status_inj hsame))

/-- A move that makes a coroutine ready, if it waits. -/
def Readies (move : CoroutineScheduler → CoroutineInfo → Except Fault CoroutineScheduler) :
    Prop :=
  ∀ {s : CoroutineScheduler} {queues : CoroStatus → List Nat} {uid : Nat},
    s.Inv queues → s.Made uid →
      ∃ next queues', move s (.coroutine uid) = .ok next ∧ next.Inv queues' ∧
        Gains queues queues' uid ∧ next = { s with links := next.links, status := next.status }

theorem Inv.readies (h : s.Inv queues) {source : CoroStatus} (huid : uid ∈ queues source)
    (hsource : source = .inactive ∨ source = .timeout) (target : ReadyList) :
    ∃ next queues', s.moveTo (.coroutine uid) target.status = .ok next ∧ next.Inv queues' ∧
      Gains queues queues' uid ∧ next = { s with links := next.links, status := next.status } := by
  obtain ⟨links, hmove, hinv⟩ := h.wake huid hsource target.status_cases
  exact ⟨_, _, hmove, hinv, h.lists.rings.gains_moved huid hsource target, rfl⟩

theorem MovesFrom.readies
    {move : CoroutineScheduler → CoroutineInfo → Except Fault CoroutineScheduler}
    {waiting : List CoroStatus} (target : ReadyList)
    (hmove : MovesFrom move waiting target.status)
    (hwaiting : ∀ source ∈ waiting, source = .inactive ∨ source = .timeout) : Readies move := by
  intro s queues uid h hmade
  rw [hmove]
  split
  · rename_i hwaits
    exact h.readies (h.lists.mem_of_made hmade) (hwaiting _ hwaits) target
  · exact ⟨s, queues, rfl, h, .refl queues uid, rfl⟩

theorem moveToActive_readies : Readies moveToActive :=
  MovesFrom.readies .active moveToActive_moves (by simp)

theorem moveToAvail_readies : Readies moveToAvail :=
  MovesFrom.readies .avail moveToAvail_moves (by simp)

/-- A new coroutine is the last of `avail_`. -/
theorem Creates.gains (h : Creates s next uid queues queues') : Gains queues queues' uid := by
  intro list
  cases list with
  | active => exact Or.inl (h.others .active (by decide) (by decide))
  | avail =>
      have havail := h.avail
      have hnodup := h.inv.lists.rings.nodup .avail
      split at havail
      · exact Or.inl havail
      · rw [havail, List.nodup_append] at hnodup
        refine Or.inr ⟨fun hmem => ?_, havail⟩
        exact hnodup.2.2 uid hmem uid List.mem_cons_self rfl

/-- A coroutine that runs stops: it leaves its list for one where it waits. -/
theorem callOf_leaves (h : s.Inv queues) {source : CoroStatus}
    (hcurrent : s.currentCoro = some (.coroutine uid)) (huid : uid ∈ queues source)
    (hsource : source = .active ∨ source = .avail) {call : CoroutineCall}
    (hcall : ∀ allocs, call ≠ .createCoroutine allocs) :
    ∃ next target, (SchedulerThreads.callOf s call).2 = .ok next ∧
      next.Inv (moved queues source target uid) ∧ target ≠ .active ∧ target ≠ .avail := by
  cases call with
  | createCoroutine allocs => exact absurd rfl (hcall allocs)
  | yield flag =>
      obtain ⟨links, hok, hinv⟩ := yield_ok h flag hcurrent huid hsource
      exact ⟨_, .inactive, hok, hinv, by decide, by decide⟩
  | sleep sleeptime now =>
      obtain ⟨links, hok, hinv⟩ := sleep_ok h sleeptime now hcurrent huid hsource
      exact ⟨_, .timeout, hok, hinv, by decide, by decide⟩
  | finish =>
      obtain ⟨links, hok, hinv⟩ := finish_ok h hcurrent huid hsource
      exact ⟨_, .free, hok, hinv, by decide, by decide⟩

end

end CoroutineScheduler

namespace SchedulerTurns

open CoroutineScheduler CoroutineInfo

/-! ### The invariant -/

/-- A coroutine of the list runs. -/
def serves : TurnPc → ReadyList → Bool
  | .runs list _, other => decide (list = other)
  | _, _ => false

/-- The lists and their records, and which coroutine runs. -/
structure Ordered (s : SchedulerTurns) (queues : CoroStatus → List Nat) : Prop where
  inv : s.scheduler.Inv queues
  served : ∀ list, ServedInOrder (s.appended list) (s.resumed list)
    ((queues list.status).map .coroutine) (serves s.pc list)
  running : ∀ list, serves s.pc list = true → ∃ uid rest,
    s.scheduler.currentCoro = some (.coroutine uid) ∧ queues list.status = uid :: rest

/-- Every resume from a list answers the next append to it. -/
def InOrder (s : SchedulerTurns) : Prop :=
  ∀ list, ∃ n ≤ (s.appended list).length, s.resumed list = (List.range n).map some

section

variable {s : SchedulerTurns} {queues queues' : CoroStatus → List Nat}

theorem Ordered.inOrder (h : s.Ordered queues) : s.InOrder :=
  fun list => (h.served list).in_order

/-- A step that leaves the lists. -/
theorem Ordered.congr (h : s.Ordered queues) {scheduler : CoroutineScheduler} {run : Bool}
    {pc : TurnPc} (hinv : scheduler.Inv queues)
    (hcurrent : scheduler.currentCoro = s.scheduler.currentCoro)
    (hserves : serves pc = serves s.pc) :
    Ordered { s with scheduler := scheduler, run := run, pc := pc } queues := by
  refine ⟨hinv, ?_, ?_⟩
  · intro list
    change ServedInOrder _ _ _ (serves pc list)
    rw [hserves]
    exact h.served list
  · intro list hruns
    change serves pc list = true at hruns
    rw [hserves] at hruns
    obtain ⟨uid, rest, huid, hqueue⟩ := h.running list hruns
    exact ⟨uid, rest, hcurrent.trans huid, hqueue⟩

theorem Ordered.go (h : s.Ordered queues) {pc : TurnPc} (hserves : serves pc = serves s.pc) :
    (s.go pc).Ordered queues :=
  h.congr h.inv rfl hserves

theorem Ordered.branch (h : s.Ordered queues) {p : Prop} [Decidable p] {yes no : TurnPc}
    (hyes : serves yes = serves s.pc) (hno : serves no = serves s.pc) :
    (s.go (if p then yes else no)).Ordered queues := by
  split
  · exact h.go hyes
  · exact h.go hno

/-- A step in which a coroutine may become ready. -/
theorem Ordered.note (h : s.Ordered queues) {next : CoroutineScheduler} {uid : Nat}
    {pc : TurnPc} (hinv : next.Inv queues') (hgains : Gains queues queues' uid)
    (hcurrent : next.currentCoro = s.scheduler.currentCoro)
    (hserves : serves pc = serves s.pc) :
    (s.note (.coroutine uid) next pc).Ordered queues' := by
  refine ⟨hinv, ?_, ?_⟩
  · intro list
    have hserved := h.served list
    simp only [SchedulerTurns.note, h.inv.lists.mem_listOf, hinv.lists.mem_listOf, hserves]
    rcases hgains list with hsame | ⟨hnew, hqueue⟩
    · rw [hsame, if_neg fun hboth => hboth.1 hboth.2]
      exact hserved
    · rw [hqueue, if_pos ⟨hnew, by simp⟩, List.map_append]
      exact hserved.join (by simpa using hnew)
  · intro list hruns
    change serves pc list = true at hruns
    rw [hserves] at hruns
    obtain ⟨first, rest, hfirst, hqueue⟩ := h.running list hruns
    rcases hgains list with hsame | ⟨_, hlonger⟩
    · exact ⟨first, rest, hcurrent.trans hfirst, hsame.trans hqueue⟩
    · exact ⟨first, rest ++ [uid], hcurrent.trans hfirst, by rw [hlonger, hqueue]; rfl⟩

/-- A turn of a wake-up's loop. -/
theorem Ordered.wake (h : s.Ordered queues)
    {move : CoroutineScheduler → CoroutineInfo → Except Fault CoroutineScheduler}
    (hmove : Readies move) {id : Nat} {pc : TurnPc} {next : SchedulerTurns}
    (hwake : s.wake move id pc = .ok next) (hserves : serves pc = serves s.pc) :
    ∃ queues', next.Ordered queues' ∧ next.pc = pc ∧
      next.scheduler.timeoutCoroId = s.scheduler.timeoutCoroId := by
  obtain ⟨coro, hcoro, hwake⟩ := ok_of_bind_ok hwake
  obtain ⟨moved, hmoved, hdone⟩ := ok_of_bind_ok hwake
  obtain ⟨hmade, rfl⟩ := h.inv.lists.made_of_coroOf hcoro
  obtain ⟨other, queues', hok, hinv, hgains, hframe⟩ := hmove h.inv hmade
  obtain rfl := Except.ok.inj (hok.symm.trans hmoved)
  obtain rfl := Except.ok.inj hdone
  refine ⟨queues', h.note hinv hgains ?_ hserves, rfl, ?_⟩
  · rw [hframe]
  · change other.timeoutCoroId = _
    rw [hframe]

/-- The first coroutine of a list is resumed. -/
theorem Ordered.resume (h : s.Ordered queues) {list : ReadyList} {loop : Nat}
    {next : SchedulerTurns} (hnone : ∀ other, serves s.pc other = false)
    (hsome : coroutineHeadEmpty s.scheduler.links (.head list.status) = false)
    (hresume : s.resume list loop = .ok next) : next.Ordered queues := by
  have hne : queues list.status ≠ [] := by
    intro hnil
    rw [(headEmpty_iff h.inv.lists.rings list.status).mpr hnil] at hsome
    contradiction
  obtain ⟨uid, rest, hqueue⟩ := List.exists_cons_of_ne_nil hne
  have hfirst : s.scheduler.links.next (.head list.status) = some (.coroutine uid) := by
    rw [(h.inv.lists.rings.ring list.status).next_head, hqueue]
    rfl
  rw [SchedulerTurns.resume, hfirst] at hresume
  obtain rfl := Except.ok.inj hresume
  have hmem : uid ∈ queues list.status := hqueue ▸ List.mem_cons_self
  have hready : uid ∈ queues .active ∨ uid ∈ queues .avail := by
    rcases list.status_cases with hlist | hlist
    · exact Or.inl (hlist ▸ hmem)
    · exact Or.inr (hlist ▸ hmem)
  refine ⟨h.inv.switchCoro hready, ?_, ?_⟩
  · intro other
    have hserved := h.served other
    rw [hnone] at hserved
    change ServedInOrder _ (Function.update s.resumed list _ other) _ (decide (list = other))
    by_cases hother : other = list
    · subst hother
      rw [Function.update_self, decide_eq_true rfl, hqueue, List.map_cons]
      rw [hqueue, List.map_cons] at hserved
      exact hserved.serve
    · rw [Function.update_of_ne hother, decide_eq_false (Ne.symm hother)]
      exact hserved
  · intro other hruns
    obtain rfl : list = other := of_decide_eq_true hruns
    exact ⟨uid, rest, rfl, hqueue⟩

/-- A coroutine that runs stops: it was the first of its list. -/
theorem Ordered.leave (h : s.Ordered queues) {list : ReadyList} {loop : Nat}
    (hpc : s.pc = .runs list loop) {uid : Nat} {rest : List Nat}
    (hqueue : queues list.status = uid :: rest) {next : CoroutineScheduler} {target : CoroStatus}
    (hinv : next.Inv (moved queues list.status target uid)) (hactive : target ≠ .active)
    (havail : target ≠ .avail) {pc : TurnPc} (hquiet : ∀ other, serves pc other = false) :
    (s.note (.coroutine uid) next pc).Ordered (moved queues list.status target uid) := by
  have hmem : uid ∈ queues list.status := hqueue ▸ List.mem_cons_self
  have htarget (other : ReadyList) : other.status ≠ target := by
    rcases other.status_cases with hstatus | hstatus
    · exact hstatus ▸ hactive.symm
    · exact hstatus ▸ havail.symm
  have hout (other : ReadyList) : uid ∉ moved queues list.status target uid other.status := by
    rw [h.inv.lists.rings.mem_moved hmem, if_pos rfl]
    exact htarget other
  refine ⟨hinv, ?_, ?_⟩
  · intro other
    have hserved := h.served other
    simp only [SchedulerTurns.note, hinv.lists.mem_listOf, hquiet]
    rw [if_neg fun hboth => hout other hboth.2]
    rw [hpc] at hserved
    by_cases hother : other = list
    · subst hother
      have hleft : moved queues other.status target uid other.status = rest := by
        rw [moved, Function.update_of_ne (htarget other), Function.update_self, hqueue,
          List.erase_cons_head]
      rw [hqueue, List.map_cons, serves, decide_eq_true rfl] at hserved
      rw [hleft]
      exact hserved.leave
    · have hstatus : other.status ≠ list.status :=
        fun hsame => hother (ReadyList.status_inj hsame)
      rw [serves, decide_eq_false (Ne.symm hother)] at hserved
      rw [moved_of_ne hstatus (htarget other)]
      exact hserved
  · intro other hruns
    rw [SchedulerTurns.note, hquiet] at hruns
    contradiction

/-! ### Runs -/

/-- A turn of `wakeupbytimeout`, which also erases its entry. -/
theorem Ordered.timeoutTurn (h : s.Ordered queues) {now : Int} {next : SchedulerTurns}
    (hquiet : serves s.pc = fun _ => false) (hturn : s.timeoutTurn now = .ok next) :
    ∃ queues', next.Ordered queues' := by
  rw [SchedulerTurns.timeoutTurn] at hturn
  split at hturn
  · obtain rfl := Except.ok.inj hturn
    exact ⟨queues, h.go hquiet.symm⟩
  · rename_i time id rest hentries
    split at hturn
    · obtain rfl := Except.ok.inj hturn
      exact ⟨queues, h.go hquiet.symm⟩
    · obtain ⟨woken, hwake, hdone⟩ := ok_of_bind_ok hturn
      obtain rfl := Except.ok.inj hdone
      obtain ⟨queues', hwoken, -, hkept⟩ := h.wake moveToActive_readies hwake hquiet.symm
      refine ⟨queues', hwoken.congr (hwoken.inv.withTimeouts ?_) rfl rfl⟩
      intro entry hentry
      apply hwoken.inv.timeout_made
      rw [hkept, hentries]
      exact List.mem_cons_of_mem _ hentry

theorem Ordered.create (h : s.Ordered queues) {allocs : Nat → Bool} {next : SchedulerTurns}
    (hcreate : s.create allocs = .ok next) : ∃ queues', next.Ordered queues' := by
  obtain ⟨⟨id, scheduler⟩, hok, hdone⟩ := ok_of_bind_ok hcreate
  obtain rfl := Except.ok.inj hdone
  obtain ⟨queues', hcreates, -⟩ := createCoroutine_spec h.inv hok
  refine ⟨queues', h.note hcreates.inv hcreates.gains ?_ rfl⟩
  rw [hcreates.frame]

theorem Ordered.call (h : s.Ordered queues) {call : CoroutineCall} {next : SchedulerTurns}
    (hcall : s.call call = .ok next) : ∃ queues', next.Ordered queues' := by
  rw [SchedulerTurns.call.eq_def] at hcall
  split at hcall
  · exact h.create hcall
  · rename_i call list loop coro hpc hcurrent hother
    have hserves : serves s.pc list = true := by
      rw [hpc]
      exact decide_eq_true rfl
    obtain ⟨uid, rest, hrunning, hqueue⟩ := h.running list hserves
    obtain rfl := Option.some.inj (hcurrent.symm.trans hrunning)
    obtain ⟨scheduler, hok, hdone⟩ := ok_of_bind_ok hcall
    obtain rfl := Except.ok.inj hdone
    obtain ⟨stopped, target, hstops, hinv, hactive, havail⟩ := callOf_leaves h.inv hcurrent
      (hqueue ▸ List.mem_cons_self) list.status_cases hother
    obtain rfl := Except.ok.inj (hstops.symm.trans hok)
    exact ⟨_, h.leave hpc hqueue hinv hactive havail fun _ => rfl⟩
  · obtain rfl := Except.ok.inj hcall
    exact ⟨queues, h⟩

theorem serves_behind (s : SchedulerTurns) (list : ReadyList) :
    serves (s.behind list) = fun _ => false := by
  cases list with
  | active => rfl
  | avail =>
      rw [behind]
      split <;> rfl

theorem Ordered.proceed (h : s.Ordered queues) {now : Int} {next : SchedulerTurns}
    (hproceed : s.proceed now = .ok next) : ∃ queues', next.Ordered queues' := by
  rw [SchedulerTurns.proceed] at hproceed
  split at hproceed <;> rename_i hpc
  case h_4 => exact h.timeoutTurn (congrArg serves hpc) hproceed
  case h_7 =>
      obtain ⟨queues', hwoken, -⟩ := h.wake moveToAvail_readies hproceed (congrArg serves hpc).symm
      exact ⟨queues', hwoken⟩
  case h_10 =>
      obtain ⟨queues', hwoken, -⟩ :=
        h.wake moveToActive_readies hproceed (congrArg serves hpc).symm
      exact ⟨queues', hwoken⟩
  case h_11 =>
      have hquiet : serves s.pc = fun _ => false := congrArg serves hpc
      split at hproceed
      · rename_i hready
        exact ⟨queues, h.resume (congrFun hquiet) hready.2 hproceed⟩
      · obtain rfl := Except.ok.inj hproceed
        exact ⟨queues, h.go ((serves_behind s _).trans hquiet.symm)⟩
  all_goals
    have hserves := (congrArg serves hpc).symm
    obtain rfl := Except.ok.inj hproceed
    refine ⟨queues, ?_⟩
  -- `out`, and behind it the places of the main coroutine that touch no list
  case h_1 => exact h
  case h_2 => exact h.branch hserves hserves
  case h_3 => exact h.branch hserves hserves
  case h_5 => exact h.branch hserves hserves
  case h_6 => exact h.congr h.inv.cleared rfl hserves
  case h_8 =>
      split
      · exact h.go hserves
      · exact h.congr h.inv.swapped rfl hserves
  case h_9 => exact h.go hserves
  case h_12 => exact h
  case h_13 => exact h.branch hserves hserves
  case h_14 => exact h

theorem Ordered.step (h : s.Ordered queues) {action : TurnAction} {next : SchedulerTurns}
    (hstep : s.step action = .ok next) : ∃ queues', next.Ordered queues' := by
  cases action with
  | tarsRun =>
      obtain rfl := Except.ok.inj hstep
      refine ⟨queues, ?_⟩
      split
      · rename_i hout
        exact h.congr h.inv rfl (by rw [hout.1]; rfl)
      · exact h
  | run =>
      obtain rfl := Except.ok.inj hstep
      refine ⟨queues, ?_⟩
      split
      · rename_i hout
        exact h.congr h.inv rfl (by rw [hout]; rfl)
      · exact h
  | createCoroutine allocs =>
      rw [SchedulerTurns.step] at hstep
      split at hstep
      · exact h.create hstep
      · obtain rfl := Except.ok.inj hstep
        exact ⟨queues, h⟩
  | proceed now => exact h.proceed hstep
  | coroutine call => exact h.call hstep
  | put coroId =>
      obtain rfl := Except.ok.inj hstep
      refine ⟨queues, h.congr (put_ok h.inv coroId) ?_ rfl⟩
      rw [put]
      split <;> rfl
  | terminate =>
      obtain rfl := Except.ok.inj hstep
      exact ⟨queues, h.congr h.inv.terminate rfl rfl⟩

end

/-- A new scheduler has nothing to resume. -/
theorem ordered_start {size : Option (UInt32 × (Nat → Bool))} {s : SchedulerTurns}
    (hstart : start size = .ok s) : ∃ queues, s.Ordered queues := by
  have hnew {scheduler : CoroutineScheduler} {queues : CoroStatus → List Nat}
      (hinv : scheduler.Inv queues) (hnone : ∀ list : ReadyList, queues list.status = []) :
      Ordered { scheduler := scheduler } queues := by
    refine ⟨hinv, fun list => ?_, fun list hruns => Bool.noConfusion hruns⟩
    rw [hnone]
    exact ServedInOrder.start
  cases size with
  | none =>
      obtain rfl := Except.ok.inj hstart
      exact ⟨_, hnew construct_inv fun _ => rfl⟩
  | some given =>
      obtain ⟨poolSize, allocs⟩ := given
      obtain ⟨scheduler, hinit, hdone⟩ := ok_of_bind_ok hstart
      obtain rfl := Except.ok.inj hdone
      by_cases hzero : poolSize.toNat = 0
      · rw [hzero] at hinit
        obtain rfl := Except.ok.inj hinit
        exact ⟨_, hnew construct_inv fun _ => rfl⟩
      · obtain ⟨queues, hstarted⟩ :=
          init_started (Nat.pos_of_ne_zero hzero) poolSize.toNat_lt hinit
        refine ⟨queues, hnew hstarted.inv fun list => hstarted.queues _ ?_⟩
        cases list <;> decide

/-- The resumes from a list answer the appends to it one by one. -/
theorem resumed_in_order (size : Option (UInt32 × (Nat → Bool))) {s : SchedulerTurns}
    (hstart : start size = .ok s) (actions : List TurnAction) :
    StaysUpTo (fun _ => True) step InOrder s actions := by
  have hgood : ∀ s : SchedulerTurns, (∃ queues, s.Ordered queues) → s.InOrder := by
    rintro s ⟨queues, h⟩
    exact h.inOrder
  refine staysUpTo_of_along hgood ?_ (fun _ _ _ _ _ _ => trivial) (ordered_start hstart)
    along_true
  rintro s action next ⟨queues, h⟩ - hstep
  exact h.step hstep

/-- Two coroutines run from `avail_`: the first yields and the second sleeps.  The first is
put on `avail_` again, the second goes to `active_` when it is due, and there it creates a
third and ends. -/
def yieldAndSleep : List TurnAction :=
  List.flatten [
    [.createCoroutine fun _ => true, .createCoroutine fun _ => true, .tarsRun],
    List.replicate 10 (.proceed 0),
    [.coroutine (.yield true), .proceed 0, .coroutine (.sleep 5 0), .proceed 0, .tarsRun],
    List.replicate 10 (.proceed 5),
    [.coroutine (.createCoroutine fun _ => true), .coroutine .finish, .proceed 5, .proceed 5,
      .coroutine .finish, .proceed 5]]

/-- The third is resumed behind the first. -/
theorem resumed_in_order_three :
    ∃ s, start (some (3, fun _ => true)) = .ok s ∧
      StaysUpTo (fun _ => True) step InOrder s yieldAndSleep ∧
      (Foundation.run step s yieldAndSleep).map (fun last =>
        (last.appended .avail, last.resumed .avail)) =
        .ok ([.coroutine 1, .coroutine 2, .coroutine 1, .coroutine 3],
          [some 0, some 1, some 2, some 3]) := by
  refine ⟨_, rfl, resumed_in_order (some (3, fun _ => true)) rfl yieldAndSleep, ?_⟩
  rfl

end SchedulerTurns

end Tarsx
