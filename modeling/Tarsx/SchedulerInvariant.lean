/-
The invariant of the scheduler over every run: the lists are whole, the counters
count them, and the ids that wait to be woken are ids of coroutines.  Each function
of the scheduler keeps it, and what it does to the queues is said with it.
-/
import Tarsx.SchedulerPool

namespace Tarsx

open Foundation

namespace CoroutineScheduler

open CoroutineInfo

/-- A coroutine that runs, unless it is the main one, is on `active_` or `avail_`. -/
def Running (s : CoroutineScheduler) (queues : CoroStatus → List Nat) : Prop :=
  ∀ uid, s.currentCoro = some (.coroutine uid) → uid ∈ queues .active ∨ uid ∈ queues .avail

/-- The invariant between two steps. -/
structure Inv (s : CoroutineScheduler) (queues : CoroStatus → List Nat) : Prop where
  lists : s.Lists queues
  current : s.currentSize = s.createdIds.length
  used : s.usedSize + (queues .free).length = s.currentSize
  need_made : ∀ uid ∈ s.needActiveCoroId, s.Made uid
  timeout_made : ∀ entry ∈ s.timeoutCoroId, s.Made entry.2
  running : s.Running queues

/-! ### The pool grows -/

section

variable {s : CoroutineScheduler} {queues : CoroStatus → List Nat}

theorem Inv.currentSize_le (h : s.Inv queues) : s.currentSize ≤ s.uniqId :=
  h.current ▸ h.lists.length_createdIds_le

theorem Running.main (hmain : s.currentCoro = some .main) : s.Running queues := by
  intro uid huid
  simp [hmain] at huid

/-- What changes no queue but `free_` and not the running coroutine keeps it where it
was. -/
theorem Running.congr {next : CoroutineScheduler} {queues' : CoroStatus → List Nat}
    (h : s.Running queues) (hcurrent : next.currentCoro = s.currentCoro)
    (hactive : ∀ uid ∈ queues .active, uid ∈ queues' .active ∨ uid ∈ queues' .avail)
    (havail : ∀ uid ∈ queues .avail, uid ∈ queues' .active ∨ uid ∈ queues' .avail) :
    next.Running queues' := by
  intro uid huid
  rcases h uid (hcurrent ▸ huid) with hmem | hmem
  · exact hactive uid hmem
  · exact havail uid hmem

/-- A pool that may have grown: new coroutines are on `free_`, and all else is as it
was. -/
structure Extended (s next : CoroutineScheduler) (queues queues' : CoroStatus → List Nat) :
    Prop where
  inv : next.Inv queues'
  others : ∀ list, list ≠ .free → queues' list = queues list
  made : ∀ uid, s.Made uid → next.Made uid
  frame : next = { s with
    currentSize := next.currentSize
    uniqId := next.uniqId
    status := next.status
    allCoro := next.allCoro
    links := next.links }

theorem Extended.refl (h : s.Inv queues) : Extended s s queues queues :=
  ⟨h, fun _ _ => rfl, fun _ hmade => hmade, rfl⟩

theorem Inv.grown (h : s.Inv queues) {next : CoroutineScheduler} {succ : Nat}
    {queues' : CoroStatus → List Nat} (hgrown : Grown s next succ queues queues') :
    Extended s { next with currentSize := s.currentSize + succ } queues queues' := by
  rcases hgrown with ⟨hlists, hothers, hfree, hcreated, hmade, hframe⟩
  obtain ⟨uniqId, status, allCoro, links, rfl⟩ : ∃ uniqId status allCoro links, next = { s with
      uniqId := uniqId
      status := status
      allCoro := allCoro
      links := links } := ⟨_, _, _, _, hframe⟩
  refine ⟨⟨hlists.congr rfl (fun _ => rfl) rfl rfl rfl rfl, ?_, ?_, ?_, ?_, ?_⟩, hothers, hmade,
    rfl⟩
  · exact (congrArg (· + succ) h.current).trans hcreated.symm
  · have hused := h.used
    change s.usedSize + (queues' .free).length = s.currentSize + succ
    omega
  · exact fun uid huid => hmade uid (h.need_made uid huid)
  · exact fun entry hentry => hmade entry.2 (h.timeout_made entry hentry)
  · apply h.running.congr rfl
    · intro uid huid
      exact Or.inl (hothers .active (by decide) ▸ huid)
    · intro uid huid
      exact Or.inr (hothers .avail (by decide) ▸ huid)

/-- By how much `increaseCoroPoolSize` tries to grow. -/
def increment (s : CoroutineScheduler) : Nat :=
  if s.poolSize - s.currentSize > 100 then 100 else s.poolSize - s.currentSize

theorem increment_eq_zero : s.increment = 0 ↔ ¬ s.currentSize < s.poolSize := by
  rw [increment]
  split <;> omega

theorem increaseCoroPoolSize_eq (h : s.Inv queues) (allocs : Nat → Bool) :
    s.increaseCoroPoolSize allocs =
      if s.increment = 0 then .ok (-1, s)
      else (increaseLoop allocs 0 s.increment s).bind fun made =>
        if made.1 = 0 then .ok (-1, made.2)
        else .ok (0, { made.2 with currentSize := word32Add made.2.currentSize made.1 }) := by
  have hsmall := h.lists.small
  have hroom := h.lists.room
  have hcurrent := h.currentSize_le
  have hword : word32Sub s.poolSize s.currentSize = s.poolSize - s.currentSize :=
    word32Sub_of_le (by omega) (by omega)
  rw [increaseCoroPoolSize, hword]
  rfl

/-- The pool can grow: it is not at its size, and the first stack is allocated.  (Where
`generateId` does not return, no stack is asked for.) -/
def CanGrow (s : CoroutineScheduler) (allocs : Nat → Bool) : Prop :=
  s.currentSize < s.poolSize ∧ ((∃ counted, s.generateId = .ok counted) → allocs 0 = true)

theorem increaseCoroPoolSize_spec (h : s.Inv queues) {allocs : Nat → Bool} {ret : Int}
    {next : CoroutineScheduler} (hgrow : s.increaseCoroPoolSize allocs = .ok (ret, next)) :
    ∃ queues', Extended s next queues queues' ∧ (ret = 0 → queues' .free ≠ []) ∧
      (ret = 0 ↔ s.CanGrow allocs) := by
  rw [increaseCoroPoolSize_eq h] at hgrow
  by_cases hzero : s.increment = 0
  · rw [if_pos hzero] at hgrow
    obtain ⟨rfl, rfl⟩ := Prod.mk.inj (Except.ok.inj hgrow)
    exact ⟨queues, .refl h, by simp, by simp [CanGrow, increment_eq_zero.mp hzero]⟩
  · rw [if_neg hzero] at hgrow
    have hless := not_not.mp (mt increment_eq_zero.mpr hzero)
    rcases ok_of_bind_ok hgrow with ⟨⟨succ, last⟩, hloop, hmade⟩
    rcases increaseLoop_grown _ h.lists hloop with ⟨⟨queues', hgrown⟩, hsucc⟩
    have hcan : s.CanGrow allocs ↔ succ ≠ 0 := by
      rcases Nat.exists_eq_succ_of_ne_zero hzero with ⟨turns, hturns⟩
      rw [hturns] at hloop
      simp [CanGrow, hless, hsucc, hzero, increaseLoop_generates hloop]
    have hextended := h.grown hgrown
    have hsize : last.currentSize = s.currentSize := by rw [hgrown.frame]
    refine ⟨queues', ?_⟩
    by_cases hnone : succ = 0
    · rw [if_pos hnone] at hmade
      obtain ⟨rfl, rfl⟩ := Prod.mk.inj (Except.ok.inj hmade)
      subst hnone
      have hsame : { last with currentSize := s.currentSize + 0 } = last := by
        rw [Nat.add_zero, ← hsize]
      rw [hsame] at hextended
      exact ⟨hextended, by simp, by simp [hcan]⟩
    · rw [if_neg hnone] at hmade
      obtain ⟨rfl, rfl⟩ := Prod.mk.inj (Except.ok.inj hmade)
      have hle := hextended.inv.currentSize_le
      have hroom := hextended.inv.lists.room
      have hsmall := hextended.inv.lists.small
      have hword : word32Add last.currentSize succ = s.currentSize + succ := by
        rw [hsize]
        apply word32Add_of_lt
        dsimp only at hle hroom hsmall
        omega
      rw [hword]
      refine ⟨hextended, ?_, iff_of_true rfl (hcan.mpr hnone)⟩
      intro _ hempty
      have hlength := hgrown.free
      rw [hempty, List.length_nil] at hlength
      omega

/-- `createCoroutine` finds a coroutine on `free_`, or the pool can grow. -/
def HasRoom (s : CoroutineScheduler) (allocs : Nat → Bool) : Prop :=
  ¬ (s.usedSize ≥ s.currentSize ∨ coroutineHeadEmpty s.links (.head .free) = true) ∨
    s.CanGrow allocs

/-- When `createCoroutine` goes on, `free_` holds a coroutine. -/
theorem growIfNeeded_spec (h : s.Inv queues) {allocs : Nat → Bool} {room : Bool}
    {next : CoroutineScheduler} (hgrow : s.growIfNeeded allocs = .ok (room, next)) :
    ∃ queues', Extended s next queues queues' ∧ (room = true → queues' .free ≠ []) ∧
      (room = true ↔ s.HasRoom allocs) := by
  rw [growIfNeeded] at hgrow
  by_cases hneed : s.usedSize ≥ s.currentSize ∨
      coroutineHeadEmpty s.links (.head .free) = true
  · rw [if_pos hneed] at hgrow
    rcases ok_of_bind_ok hgrow with ⟨⟨ret, last⟩, hincrease, hroom⟩
    obtain ⟨rfl, rfl⟩ := Prod.mk.inj (Except.ok.inj hroom)
    rcases increaseCoroPoolSize_spec h hincrease with ⟨queues', hextended, hfree, hret⟩
    refine ⟨queues', hextended, ?_, ?_⟩
    · simpa using hfree
    · rw [decide_eq_true_eq, hret, HasRoom]
      simp [hneed]
  · rw [if_neg hneed] at hgrow
    obtain ⟨rfl, rfl⟩ := Prod.mk.inj (Except.ok.inj hgrow)
    refine ⟨queues, .refl h, ?_, iff_of_true rfl (Or.inl hneed)⟩
    intro _ hnil
    exact hneed (Or.inr ((headEmpty_iff h.lists.rings .free).mpr hnil))

/-- The first coroutine of `free_` goes to `avail_`. -/
theorem takeFree_ok (h : s.Inv queues) {uid : Nat} {rest : List Nat}
    (hfree : queues .free = uid :: rest) :
    ∃ links, s.takeFree = .ok (uid, { s.relinked links (.coroutine uid) .avail with
        usedSize := s.usedSize + 1 }) ∧
      Inv { s.relinked links (.coroutine uid) .avail with usedSize := s.usedSize + 1 }
        (moved queues .free .avail uid) := by
  have hmem : uid ∈ queues .free := by simp [hfree]
  have hnext : s.links.next (.head .free) = some (.coroutine uid) := by
    rw [(h.lists.rings.ring .free).next_head, hfree]
    rfl
  rcases h.lists.rings.move hmem (by decide : CoroStatus.free ≠ .avail) with
    ⟨middle, links, hdel, hadd, hrings⟩
  have hlists := h.lists.relinked hmem hrings
  have hused := h.used
  have hroom := h.lists.room
  have hsmall := h.lists.small
  have hcurrent := h.currentSize_le
  rw [hfree, List.length_cons] at hused
  have hword : word32Add s.usedSize 1 = s.usedSize + 1 := word32Add_of_lt (by omega)
  refine ⟨links, ?_,
    ⟨hlists.congr rfl (fun _ => rfl) rfl rfl rfl rfl, h.current, ?_, h.need_made,
      h.timeout_made, ?_⟩⟩
  · simp only [takeFree, hnext, hdel, hadd, hword, bind, Except.bind]
    rfl
  · have hlength : (moved queues .free .avail uid .free).length = rest.length := by
      simp [moved, hfree]
    rw [hlength]
    change s.usedSize + 1 + rest.length = s.currentSize
    omega
  · apply h.running.congr rfl
    · intro other hother
      exact Or.inl (by rwa [moved_of_ne (by decide) (by decide)])
    · intro other hother
      refine Or.inr ((h.lists.rings.mem_moved hmem .avail other).mpr ?_)
      split
      · rfl
      · exact hother

/-- What `createCoroutine` does: with an id other than 0 its coroutine, which was on no
list but `free_`, is the last of `avail_`, and no list but these two changes. -/
structure Creates (s next : CoroutineScheduler) (id : Nat)
    (queues queues' : CoroStatus → List Nat) : Prop where
  inv : next.Inv queues'
  avail : queues' .avail = if id = 0 then queues .avail else queues .avail ++ [id]
  others : ∀ list, list ≠ .free → list ≠ .avail → queues' list = queues list
  made : ∀ uid, s.Made uid → next.Made uid
  used : next.usedSize = if id = 0 then s.usedSize else s.usedSize + 1
  frame : next = { s with
    currentSize := next.currentSize
    usedSize := next.usedSize
    uniqId := next.uniqId
    status := next.status
    allCoro := next.allCoro
    links := next.links }

theorem createCoroutine_spec (h : s.Inv queues) {allocs : Nat → Bool} {id : Nat}
    {next : CoroutineScheduler} (hcreate : s.createCoroutine allocs = .ok (id, next)) :
    ∃ queues', Creates s next id queues queues' ∧ (id ≠ 0 ↔ s.HasRoom allocs) := by
  rcases ok_of_bind_ok hcreate with ⟨⟨room, grown⟩, hgrow, htake⟩
  rcases growIfNeeded_spec h hgrow with ⟨queues', hextended, hfree, hroom⟩
  cases room with
  | false =>
      obtain ⟨rfl, rfl⟩ := Prod.mk.inj (Except.ok.inj htake)
      refine ⟨queues', ⟨hextended.inv, hextended.others .avail (by decide), ?_, hextended.made,
        ?_, ?_⟩, ?_⟩
      · exact fun list hlist _ => hextended.others list hlist
      · rw [hextended.frame]
        rfl
      · rw [hextended.frame]
      · simpa using hroom
  | true =>
      cases hqueue : queues' .free with
      | nil => exact absurd hqueue (hfree rfl)
      | cons uid rest =>
          rcases takeFree_ok hextended.inv hqueue with ⟨links, hok, hinv⟩
          have hmem : uid ∈ queues' .free := by simp [hqueue]
          have hpos : uid ≠ 0 :=
            Nat.pos_iff_ne_zero.mp (hextended.inv.lists.bound uid
              (made_of_mem hextended.inv.lists hmem)).1
          obtain ⟨rfl, rfl⟩ := Prod.mk.inj (Except.ok.inj (hok.symm.trans htake))
          refine ⟨_, ⟨hinv, ?_, ?_, hextended.made, ?_, ?_⟩, by simpa [hpos] using hroom⟩
          · simp [moved, hpos, hextended.others]
          · intro list hlist havail
            rw [moved_of_ne hlist havail, hextended.others list hlist]
          · simp only [hpos, if_false]
            rw [hextended.frame]
          · rw [hextended.frame]
            rfl

/-- Where `createCoroutine` does not return, it had room. -/
theorem createCoroutine_fault (h : s.Inv queues) {allocs : Nat → Bool} {fault : Fault}
    (hfault : s.createCoroutine allocs = .error fault) : s.HasRoom allocs := by
  by_cases hneed : s.usedSize ≥ s.currentSize ∨
      coroutineHeadEmpty s.links (.head .free) = true
  · by_contra hroom
    have hrefused : ∃ next, s.increaseCoroPoolSize allocs = .ok (-1, next) := by
      rw [increaseCoroPoolSize_eq h]
      by_cases hzero : s.increment = 0
      · exact ⟨s, by rw [if_pos hzero]⟩
      · rw [if_neg hzero]
        have hless := not_not.mp (mt increment_eq_zero.mpr hzero)
        have hcannot : ¬ ((∃ counted, s.generateId = .ok counted) → allocs 0 = true) :=
          fun hallowed => hroom (Or.inr ⟨hless, hallowed⟩)
        rcases Nat.exists_eq_succ_of_ne_zero hzero with ⟨turns, hturns⟩
        rw [hturns]
        cases hloop : increaseLoop allocs 0 (turns + 1) s with
        | error other => exact absurd (increaseLoop_fault hloop) hcannot
        | ok result =>
            rcases result with ⟨succ, last⟩
            have halloc : allocs 0 = false := by
              cases halloc : allocs 0 with
              | false => rfl
              | true => exact absurd (fun _ => halloc) hcannot
            have hnone : succ = 0 := (increaseLoop_grown _ h.lists hloop).2.mpr (Or.inr halloc)
            exact ⟨last, by simp [Except.bind, hnone]⟩
    rcases hrefused with ⟨next, hincrease⟩
    simp [createCoroutine, growIfNeeded, hneed, hincrease, bind, Except.bind] at hfault
  · exact Or.inl hneed

/-- `createCoroutine` asks for more coroutines. -/
def NeedsMore (s : CoroutineScheduler) : Prop :=
  s.usedSize ≥ s.currentSize ∨ coroutineHeadEmpty s.links (.head .free) = true

instance (s : CoroutineScheduler) : Decidable s.NeedsMore := inferInstanceAs (Decidable (_ ∨ _))

theorem growIfNeeded_of_needsMore {allocs : Nat → Bool} (hneed : s.NeedsMore) {ret : Int}
    {grown : CoroutineScheduler} (hincrease : s.increaseCoroPoolSize allocs = .ok (ret, grown)) :
    s.growIfNeeded allocs = .ok (decide (ret = 0), grown) := by
  rw [NeedsMore] at hneed
  rw [growIfNeeded, if_pos hneed, hincrease]
  rfl

theorem growIfNeeded_of_enough {allocs : Nat → Bool} (hneed : ¬ s.NeedsMore) :
    s.growIfNeeded allocs = .ok (true, s) := by
  rw [NeedsMore] at hneed
  rw [growIfNeeded, if_neg hneed]

/-- Where it asks for more, every stack is allocated and there is a place for each of the
ids. -/
def GrowsWhole (s : CoroutineScheduler) (allocs : Nat → Bool) : Prop :=
  s.NeedsMore → s.increment ≠ 0 →
    (∀ turn < s.increment, allocs turn = true) ∧ s.uniqId + s.increment < s.allCoroSize

/-- With all stacks allocated and no id lost, the pool grows without a fault. -/
theorem increaseCoroPoolSize_ok (h : s.Inv queues) (huniq : s.uniqId = s.currentSize)
    {allocs : Nat → Bool} (hallocs : ∀ turn < s.increment, allocs turn = true)
    (hplaces : s.increment ≠ 0 → s.uniqId + s.increment < s.allCoroSize) :
    ∃ ret next, s.increaseCoroPoolSize allocs = .ok (ret, next) ∧
      next.uniqId = next.currentSize ∧ next.uniqId = s.uniqId + s.increment := by
  rw [increaseCoroPoolSize_eq h]
  by_cases hzero : s.increment = 0
  · exact ⟨-1, s, by rw [if_pos hzero], huniq, by omega⟩
  · have hroom : s.uniqId + s.increment ≤ s.poolSize := by
      have hle := h.lists.room
      rw [increment]
      split <;> omega
    rcases @increaseLoop_ok allocs s.increment 0 s queues h.lists hroom (hplaces hzero)
      (by simpa using hallocs) with ⟨next, hloop, hnext⟩
    rcases increaseLoop_grown _ h.lists hloop with ⟨⟨queues', hgrown⟩, _⟩
    have hsize : next.currentSize = s.currentSize := by rw [hgrown.frame]
    have hsmall := h.lists.small
    have hword : word32Add next.currentSize s.increment = next.uniqId := by
      rw [hsize, hnext, huniq]
      exact word32Add_of_lt (by omega)
    refine ⟨0, { next with currentSize := word32Add next.currentSize s.increment }, ?_,
      hword.symm, hnext⟩
    rw [if_neg hzero, hloop]
    simp [Except.bind, hzero]

/-- So `createCoroutine` returns, with at most the ids of one growth given out. -/
theorem createCoroutine_of_growsWhole (h : s.Inv queues) (huniq : s.uniqId = s.currentSize)
    {allocs : Nat → Bool} (hgrows : s.GrowsWhole allocs) :
    ∃ id next, s.createCoroutine allocs = .ok (id, next) ∧ next.uniqId = next.currentSize ∧
      (next.uniqId = s.uniqId ∨ next.uniqId < s.allCoroSize) := by
  obtain ⟨room, grown, hgrow, hsame, hplace⟩ : ∃ room grown,
      s.growIfNeeded allocs = .ok (room, grown) ∧ grown.uniqId = grown.currentSize ∧
      (grown.uniqId = s.uniqId ∨ grown.uniqId < s.allCoroSize) := by
    by_cases hneed : s.NeedsMore
    · by_cases hzero : s.increment = 0
      · rcases @increaseCoroPoolSize_ok s queues h huniq allocs (by simp [hzero])
          (absurd hzero) with ⟨ret, grown, hincrease, hsame, hkept⟩
        exact ⟨decide (ret = 0), grown, growIfNeeded_of_needsMore hneed hincrease, hsame,
          Or.inl (by omega)⟩
      · obtain ⟨hallocs, hplaces⟩ := hgrows hneed hzero
        rcases increaseCoroPoolSize_ok h huniq hallocs (fun _ => hplaces) with
          ⟨ret, grown, hincrease, hsame, hkept⟩
        exact ⟨decide (ret = 0), grown, growIfNeeded_of_needsMore hneed hincrease, hsame,
          Or.inr (by omega)⟩
    · exact ⟨true, s, growIfNeeded_of_enough hneed, huniq, Or.inl rfl⟩
  rcases growIfNeeded_spec h hgrow with ⟨queues', hextended, hfree, _⟩
  cases room with
  | false =>
      exact ⟨0, grown, by simp [createCoroutine, hgrow, bind, Except.bind], hsame, hplace⟩
  | true =>
      cases hqueue : queues' .free with
      | nil => exact absurd hqueue (hfree rfl)
      | cons uid rest =>
          obtain ⟨taken, htake, hkept, hplace'⟩ : ∃ taken, grown.takeFree = .ok (uid, taken) ∧
              taken.uniqId = taken.currentSize ∧
              (taken.uniqId = s.uniqId ∨ taken.uniqId < s.allCoroSize) := by
            rcases takeFree_ok hextended.inv hqueue with ⟨links, htake, _⟩
            exact ⟨_, htake, hsame, hplace⟩
          refine ⟨uid, taken, ?_, hkept, hplace'⟩
          simp [createCoroutine, hgrow, htake, bind, Except.bind]

/-- With a place for every id of the pool and all stacks allocated, it returns. -/
theorem createCoroutine_ok (h : s.Inv queues) (huniq : s.uniqId = s.currentSize)
    (hplaces : s.poolSize < s.allCoroSize) {allocs : Nat → Bool}
    (hallocs : ∀ turn, allocs turn = true) :
    ∃ id next, s.createCoroutine allocs = .ok (id, next) ∧ next.uniqId = next.currentSize := by
  have hgrows : s.GrowsWhole allocs := by
    intro _ _
    refine ⟨fun turn _ => hallocs turn, ?_⟩
    have hle := h.lists.room
    rw [increment]
    split <;> omega
  rcases createCoroutine_of_growsWhole h huniq hgrows with ⟨id, next, hcreate, hsame, _⟩
  exact ⟨id, next, hcreate, hsame⟩

/-! ### Wake-ups -/

/-- A coroutine that waits goes to `active_` or `avail_`. -/
theorem Inv.wake (h : s.Inv queues) {source target : CoroStatus} {uid : Nat}
    (huid : uid ∈ queues source) (hsource : source = .inactive ∨ source = .timeout)
    (htarget : target = .active ∨ target = .avail) :
    ∃ links, s.moveTo (.coroutine uid) target =
        .ok (s.relinked links (.coroutine uid) target) ∧
      (s.relinked links (.coroutine uid) target).Inv (moved queues source target uid) := by
  have hne : source ≠ target := by
    rcases hsource with rfl | rfl <;> rcases htarget with rfl | rfl <;> decide
  rcases h.lists.moveTo huid hne with ⟨links, hmove, hlists⟩
  have hkept : ∀ list other, list ≠ source → other ∈ queues list →
      other ∈ moved queues source target uid list := by
    intro list other hlist hother
    rw [h.lists.rings.mem_moved huid]
    have hsame : other ≠ uid := by
      rintro rfl
      exact hlist (h.lists.rings.disjoint list source other hother huid)
    simpa [hsame] using hother
  refine ⟨links, hmove, hlists, h.current, ?_, h.need_made, h.timeout_made, ?_⟩
  · have hfree : moved queues source target uid .free = queues .free := by
      apply moved_of_ne
      · rcases hsource with rfl | rfl <;> decide
      · rcases htarget with rfl | rfl <;> decide
    rw [hfree]
    exact h.used
  · apply h.running.congr rfl
    · intro other hother
      apply Or.inl
      apply hkept .active other _ hother
      rcases hsource with rfl | rfl <;> decide
    · intro other hother
      apply Or.inr
      apply hkept .avail other _ hother
      rcases hsource with rfl | rfl <;> decide

/-- The statuses after those of the ids whose coroutines wait in one of some ways got
the status of the list that they are moved to. -/
def wokenStatus (status : CoroutineInfo → CoroStatus) (waiting : List CoroStatus)
    (target : CoroStatus) (ids : List Nat) (uid : Nat) : CoroStatus :=
  if uid ∈ ids ∧ status (.coroutine uid) ∈ waiting then target
  else status (.coroutine uid)

/-- What waking the coroutines of some ids does: it changes pointers and the statuses of
those that waited, and keeps the invariant. -/
structure Woken (s next : CoroutineScheduler) (waiting : List CoroStatus)
    (target : CoroStatus) (ids : List Nat) (queues' : CoroStatus → List Nat) : Prop where
  inv : next.Inv queues'
  status : ∀ uid, next.status (.coroutine uid) = wokenStatus s.status waiting target ids uid
  frame : next = { s with links := next.links, status := next.status }

theorem Woken.made {next : CoroutineScheduler} {waiting : List CoroStatus}
    {target : CoroStatus} {ids : List Nat} {queues' : CoroStatus → List Nat}
    (h : Woken s next waiting target ids queues') (uid : Nat) : next.Made uid ↔ s.Made uid := by
  rw [h.frame]
  rfl

theorem Woken.refl (h : s.Inv queues) {waiting : List CoroStatus} (target : CoroStatus)
    {ids : List Nat} (hids : ∀ uid ∈ ids, s.status (.coroutine uid) ∉ waiting) :
    Woken s s waiting target ids queues := by
  refine ⟨h, ?_, rfl⟩
  intro uid
  rw [wokenStatus, if_neg]
  exact fun hboth => hids uid hboth.1 hboth.2

/-- Waking some ids and then others is waking them all, as a coroutine that was woken
waits no more. -/
theorem Woken.trans {middle next : CoroutineScheduler} {waiting : List CoroStatus}
    {target : CoroStatus} {first second : List Nat} {queues' queues'' : CoroStatus → List Nat}
    (hfirst : Woken s middle waiting target first queues')
    (hsecond : Woken middle next waiting target second queues'') (htarget : target ∉ waiting) :
    Woken s next waiting target (first ++ second) queues'' := by
  refine ⟨hsecond.inv, ?_, ?_⟩
  · intro uid
    rw [hsecond.status]
    simp only [wokenStatus, hfirst.status, List.mem_append]
    by_cases huid : uid ∈ first ∧ s.status (.coroutine uid) ∈ waiting
    · simp [huid, htarget]
    · by_cases hwaiting : s.status (.coroutine uid) ∈ waiting
      · simp [hwaiting, show uid ∉ first from fun hmem => huid ⟨hmem, hwaiting⟩]
      · simp [hwaiting]
  · rw [hsecond.frame, hfirst.frame]

/-- A move that wakes a coroutine up if it waits. -/
def Wakes (move : CoroutineScheduler → CoroutineInfo → Except Fault CoroutineScheduler)
    (waiting : List CoroStatus) (target : CoroStatus) : Prop :=
  ∀ {s : CoroutineScheduler} {queues : CoroStatus → List Nat} {uid : Nat},
    s.Inv queues → s.Made uid →
      ∃ next queues', move s (.coroutine uid) = .ok next ∧
        Woken s next waiting target [uid] queues'

theorem Inv.wakes (h : s.Inv queues) {waiting : List CoroStatus} {source target : CoroStatus}
    {uid : Nat} (huid : uid ∈ queues source) (hsource : source = .inactive ∨ source = .timeout)
    (htarget : target = .active ∨ target = .avail) (hwaiting : source ∈ waiting) :
    ∃ next queues', s.moveTo (.coroutine uid) target = .ok next ∧
      Woken s next waiting target [uid] queues' := by
  rcases h.wake huid hsource htarget with ⟨links, hmove, hinv⟩
  refine ⟨_, _, hmove, hinv, ?_, rfl⟩
  intro other
  have hstatus := status_of_mem h.lists huid
  by_cases hother : other = uid
  · subst hother
    simp [wokenStatus, relinked, hstatus, hwaiting]
  · simp [wokenStatus, relinked, hother]

theorem MovesFrom.wakes
    {move : CoroutineScheduler → CoroutineInfo → Except Fault CoroutineScheduler}
    {waiting : List CoroStatus} {target : CoroStatus} (hmove : MovesFrom move waiting target)
    (hwaiting : ∀ source ∈ waiting, source = .inactive ∨ source = .timeout)
    (htarget : target = .active ∨ target = .avail) : Wakes move waiting target := by
  intro s queues uid h hmade
  rw [hmove]
  split
  · rename_i hwaits
    exact h.wakes (h.lists.mem_of_made hmade) (hwaiting _ hwaits) htarget hwaits
  · rename_i hwaits
    exact ⟨s, queues, rfl, .refl h target (by simpa using hwaits)⟩

theorem moveToActive_wakes : Wakes moveToActive [.inactive, .timeout] .active :=
  moveToActive_moves.wakes (by simp) (Or.inl rfl)

theorem moveToAvail_wakes : Wakes moveToAvail [.inactive] .avail :=
  moveToAvail_moves.wakes (by simp) (Or.inr rfl)

/-- The loops over ids of coroutines. -/
theorem wakeLoop_ok
    {move : CoroutineScheduler → CoroutineInfo → Except Fault CoroutineScheduler}
    {waiting : List CoroStatus} {target : CoroStatus} (hmove : Wakes move waiting target)
    (htarget : target ∉ waiting) (ids : List Nat) :
    ∀ {s : CoroutineScheduler} {queues : CoroStatus → List Nat}, s.Inv queues →
      (∀ id ∈ ids, s.Made id) →
      ∃ next queues', wakeLoop move s ids = .ok next ∧
        Woken s next waiting target ids queues' := by
  induction ids with
  | nil => exact fun h _ => ⟨_, _, rfl, .refl h target (by simp)⟩
  | cons id rest ih =>
      intro s queues h hids
      have hmade := hids id List.mem_cons_self
      rcases hmove h hmade with ⟨middle, queues', hone, hfirst⟩
      have hrest : ∀ other ∈ rest, middle.Made other := fun other hother =>
        (hfirst.made other).mpr (hids other (List.mem_cons_of_mem id hother))
      rcases ih hfirst.inv hrest with ⟨next, queues'', hloop, hsecond⟩
      refine ⟨next, queues'', ?_, hfirst.trans hsecond htarget⟩
      simp only [wakeLoop, h.lists.coroOf hmade, hone, hloop, bind, Except.bind]

/-- A loop that comes to its end found a coroutine for every id. -/
theorem made_of_wakeLoop
    {move : CoroutineScheduler → CoroutineInfo → Except Fault CoroutineScheduler}
    {waiting : List CoroStatus} {target : CoroStatus} (hmove : Wakes move waiting target)
    (ids : List Nat) :
    ∀ {s : CoroutineScheduler} {queues : CoroStatus → List Nat} {next : CoroutineScheduler},
      s.Inv queues → wakeLoop move s ids = .ok next → ∀ id ∈ ids, s.Made id := by
  induction ids with
  | nil => exact fun _ _ _ hid => absurd hid List.not_mem_nil
  | cons id rest ih =>
      intro s queues next h hloop other hother
      rcases ok_of_bind_ok hloop with ⟨coro, hcoro, hrest⟩
      rcases ok_of_bind_ok hrest with ⟨middle, hone, hlast⟩
      rcases h.lists.made_of_coroOf hcoro with ⟨hmade, rfl⟩
      rcases List.mem_cons.mp hother with rfl | hmem
      · exact hmade
      · rcases hmove h hmade with ⟨moved, queues', hok, hwoken⟩
        obtain rfl := Except.ok.inj (hok.symm.trans hone)
        exact (hwoken.made other).mp (ih hwoken.inv hlast other hmem)

theorem Inv.withTimeouts (h : s.Inv queues) {entries : List (Int × Nat)}
    (hentries : ∀ entry ∈ entries, s.Made entry.2) :
    Inv { s with timeoutCoroId := entries } queues :=
  ⟨h.lists.congr rfl (fun _ => rfl) rfl rfl rfl rfl, h.current, h.used, h.need_made, hentries,
    h.running⟩

/-- The loop over the entries wakes the coroutines of those that are due, which are the
first ones, and leaves the others. -/
theorem timeoutLoop_ok (now : Int) (entries : List (Int × Nat)) :
    ∀ {s : CoroutineScheduler} {queues : CoroStatus → List Nat}, s.Inv queues →
      (∀ entry ∈ entries, s.Made entry.2) →
      ∃ next queues' due, timeoutLoop now s entries = .ok next ∧
        Woken { s with timeoutCoroId := next.timeoutCoroId } next [.inactive, .timeout] .active
          (due.map Prod.snd) queues' ∧
        entries = due ++ next.timeoutCoroId ∧ ∀ entry ∈ due, entry.1 ≤ now := by
  induction entries with
  | nil =>
      intro s queues h hentries
      exact ⟨_, queues, [], rfl, .refl (h.withTimeouts hentries) .active (by simp), rfl, by simp⟩
  | cons entry rest ih =>
      rcases entry with ⟨time, id⟩
      intro s queues h hentries
      by_cases hlate : time > now
      · refine ⟨{ s with timeoutCoroId := (time, id) :: rest }, queues, [], ?_,
          .refl (h.withTimeouts hentries) .active ?_, rfl, by simp⟩
        · rw [timeoutLoop, if_pos hlate]
        · simp
      · have hmade : s.Made id := hentries (time, id) List.mem_cons_self
        rcases moveToActive_wakes h hmade with ⟨middle, queues', hone, hfirst⟩
        have hrest : ∀ other ∈ rest, middle.Made other.2 := fun other hother =>
          (hfirst.made other.2).mpr (hentries other (List.mem_cons_of_mem _ hother))
        rcases ih hfirst.inv hrest with ⟨next, queues'', due, hloop, hsecond, rfl, hdue⟩
        have hlater : Woken { s with timeoutCoroId := next.timeoutCoroId }
            { middle with timeoutCoroId := next.timeoutCoroId } [.inactive, .timeout] .active
            [id] queues' := by
          refine ⟨hfirst.inv.withTimeouts ?_, hfirst.status, ?_⟩
          · exact fun other hother => hrest other (List.mem_append_right due hother)
          · rw [hfirst.frame]
        refine ⟨next, queues'', (time, id) :: due, ?_, hlater.trans hsecond (by decide), rfl, ?_⟩
        · simp only [timeoutLoop, hlate, if_false, h.lists.coroOf hmade, hone, hloop, bind,
            Except.bind]
        · exact List.forall_mem_cons.mpr ⟨le_of_not_gt hlate, hdue⟩

/-- The ids that a wake-up of a scheduler reads, which are none once it is
terminated. -/
def unlessTerminal (s : CoroutineScheduler) (ids : List Nat) : List Nat :=
  if s.terminal then [] else ids

theorem unlessTerminal_terminal (hterminal : s.terminal = true) (ids : List Nat) :
    s.unlessTerminal ids = [] := if_pos hterminal

theorem unlessTerminal_running (hterminal : ¬ s.terminal = true) (ids : List Nat) :
    s.unlessTerminal ids = ids := if_neg hterminal

theorem Inv.cleared (h : s.Inv queues) : Inv { s with needActiveCoroId := [] } queues :=
  ⟨h.lists.congr rfl (fun _ => rfl) rfl rfl rfl rfl, h.current, h.used, by simp,
    h.timeout_made, h.running⟩

theorem wakeupbyself_ok (h : s.Inv queues) :
    ∃ next queues', s.wakeupbyself = .ok next ∧
      Woken { s with needActiveCoroId := next.needActiveCoroId } next [.inactive] .avail
        (s.unlessTerminal s.needActiveCoroId) queues' := by
  by_cases hterminal : s.terminal = true
  · exact ⟨s, queues, by rw [wakeupbyself, if_pos hterminal], .refl h .avail (by
      simp [unlessTerminal_terminal hterminal])⟩
  · rcases wakeLoop_ok moveToAvail_wakes (by decide) s.needActiveCoroId h h.need_made with
      ⟨next, queues', hloop, hwoken⟩
    refine ⟨{ next with needActiveCoroId := [] }, queues', ?_, hwoken.inv.cleared, ?_, ?_⟩
    · simp [wakeupbyself, hterminal, hloop, bind, Except.bind]
    · simpa [unlessTerminal_running hterminal] using hwoken.status
    · rw [hwoken.frame]

theorem Inv.swapped (h : s.Inv queues) : Inv { s with activeCoroQueue := [] } queues :=
  ⟨h.lists.congr rfl (fun _ => rfl) rfl rfl rfl rfl, h.current, h.used, h.need_made,
    h.timeout_made, h.running⟩

theorem wakeup_ok (h : s.Inv queues)
    (hactive : ∀ uid ∈ s.unlessTerminal s.activeCoroQueue, s.Made uid) :
    ∃ next queues', s.wakeup = .ok next ∧
      Woken { s with activeCoroQueue := next.activeCoroQueue } next [.inactive, .timeout] .active
        (s.unlessTerminal s.activeCoroQueue) queues' ∧
      next.activeCoroQueue ⊆ s.activeCoroQueue := by
  by_cases hterminal : s.terminal = true
  · exact ⟨s, queues, by rw [wakeup, if_pos hterminal], .refl h .active (by
      simp [unlessTerminal_terminal hterminal]), fun _ huid => huid⟩
  · rw [unlessTerminal_running hterminal] at hactive ⊢
    rcases wakeLoop_ok moveToActive_wakes (by decide) s.activeCoroQueue h.swapped hactive with
      ⟨next, queues', hloop, hwoken⟩
    have hnone : next.activeCoroQueue = [] := by rw [hwoken.frame]
    refine ⟨next, queues', by rw [wakeup, if_neg hterminal]; exact hloop, ?_, by simp [hnone]⟩
    rw [hnone]
    exact hwoken

/-- A `wakeup` that returns found a coroutine for every id. -/
theorem made_of_wakeup (h : s.Inv queues) {next : CoroutineScheduler}
    (hwakeup : s.wakeup = .ok next) :
    ∀ uid ∈ s.unlessTerminal s.activeCoroQueue, s.Made uid := by
  by_cases hterminal : s.terminal = true
  · simp [unlessTerminal_terminal hterminal]
  · rw [wakeup, if_neg hterminal] at hwakeup
    rw [unlessTerminal_running hterminal]
    have hmade := made_of_wakeLoop moveToActive_wakes s.activeCoroQueue h.swapped hwakeup
    exact hmade

theorem wakeupbytimeout_ok (h : s.Inv queues) (now : Int) :
    ∃ next queues' due, s.wakeupbytimeout now = .ok next ∧
      Woken { s with timeoutCoroId := next.timeoutCoroId } next [.inactive, .timeout] .active
        (due.map Prod.snd) queues' ∧
      s.timeoutCoroId = due ++ next.timeoutCoroId ∧ ∀ entry ∈ due, entry.1 ≤ now := by
  by_cases hterminal : s.terminal = true
  · exact ⟨s, queues, [], by rw [wakeupbytimeout, if_pos hterminal], .refl h .active (by simp),
      rfl, by simp⟩
  · rw [wakeupbytimeout, if_neg hterminal]
    exact timeoutLoop_ok now s.timeoutCoroId h h.timeout_made

/-! ### The running coroutine stops -/

/-- A coroutine that ran goes to a list where it waits, and the main one runs. -/
theorem Inv.stop (h : s.Inv queues) {source target : CoroStatus} {uid : Nat}
    (huid : uid ∈ queues source) (hsource : source = .active ∨ source = .avail)
    (htarget : target = .inactive ∨ target = .timeout) :
    ∃ links, s.moveTo (.coroutine uid) target =
        .ok (s.relinked links (.coroutine uid) target) ∧
      ((s.relinked links (.coroutine uid) target).switchCoro .main).Inv
        (moved queues source target uid) := by
  have hfree : source ≠ .free ∧ target ≠ .free ∧ source ≠ target := by
    rcases hsource with rfl | rfl <;> rcases htarget with rfl | rfl <;> decide
  rcases h.lists.moveTo huid hfree.2.2 with ⟨links, hmove, hlists⟩
  refine ⟨links, hmove, hlists.congr rfl (fun _ => rfl) rfl rfl rfl rfl, h.current, ?_,
    h.need_made, h.timeout_made, .main rfl⟩
  rw [moved_of_ne hfree.1.symm hfree.2.1.symm]
  exact h.used

/-- A move of a coroutine that can run. -/
theorem MovesFrom.ready
    {move : CoroutineScheduler → CoroutineInfo → Except Fault CoroutineScheduler}
    {target : CoroStatus} (hmove : MovesFrom move [.active, .avail] target) (h : s.Lists queues)
    {source : CoroStatus} {uid : Nat} (huid : uid ∈ queues source)
    (hsource : source = .active ∨ source = .avail) :
    move s (.coroutine uid) = s.moveTo (.coroutine uid) target := by
  rw [hmove, status_of_mem h huid, if_pos (by simpa using hsource)]

/-- The list that the running coroutine is on. -/
theorem Inv.running_mem (h : s.Inv queues) {uid : Nat}
    (hcurrent : s.currentCoro = some (.coroutine uid)) :
    ∃ source, uid ∈ queues source ∧ (source = .active ∨ source = .avail) := by
  rcases h.running uid hcurrent with hactive | havail
  · exact ⟨.active, hactive, Or.inl rfl⟩
  · exact ⟨.avail, havail, Or.inr rfl⟩

/-- `putbyself` of a coroutine, if it is asked for. -/
def putIf (s : CoroutineScheduler) (flag : Bool) (uid : Nat) : CoroutineScheduler :=
  if flag then s.putbyself uid else s

theorem Inv.putIf (h : s.Inv queues) (flag : Bool) {uid : Nat} (hmade : s.Made uid) :
    (s.putIf flag uid).Inv queues := by
  by_cases hput : flag = true ∧ s.terminal = false
  · rcases hput with ⟨rfl, hterminal⟩
    simp only [CoroutineScheduler.putIf, if_true, putbyself, hterminal, Bool.false_eq_true,
      if_false]
    refine ⟨h.lists.congr rfl (fun _ => rfl) rfl rfl rfl rfl, h.current, h.used, ?_,
      h.timeout_made, h.running⟩
    intro other hother
    rcases List.mem_append.mp hother with hold | hnew
    · exact h.need_made other hold
    · exact List.mem_singleton.mp hnew ▸ hmade
  · have hsame : s.putIf flag uid = s := by
      cases flag <;> simp_all [CoroutineScheduler.putIf, putbyself]
    rw [hsame]
    exact h

theorem yield_ok (h : s.Inv queues) (flag : Bool) {source : CoroStatus} {uid : Nat}
    (hcurrent : s.currentCoro = some (.coroutine uid)) (huid : uid ∈ queues source)
    (hsource : source = .active ∨ source = .avail) :
    ∃ links, s.yield flag = .ok
        (((s.putIf flag uid).relinked links (.coroutine uid) .inactive).switchCoro .main) ∧
      (((s.putIf flag uid).relinked links (.coroutine uid) .inactive).switchCoro .main).Inv
        (moved queues source .inactive uid) := by
  have hput := h.putIf flag (made_of_mem h.lists huid)
  rcases hput.stop huid hsource (Or.inl rfl) with ⟨links, hmove, hnext⟩
  refine ⟨links, ?_, hnext⟩
  rw [← moveToInactive_moves.ready hput.lists huid hsource] at hmove
  rw [yield, hcurrent]
  change ((s.putIf flag uid).moveToInactive (.coroutine uid)).bind _ = _
  rw [hmove]
  rfl

theorem mem_insertTimeout {entry other : Int × Nat} {entries : List (Int × Nat)} :
    other ∈ insertTimeout entry entries ↔ other = entry ∨ other ∈ entries := by
  induction entries with
  | nil => simp [insertTimeout]
  | cons first rest ih =>
      by_cases hlt : entry.1 < first.1
      · simp only [insertTimeout, hlt, if_true, List.mem_cons]
      · simp only [insertTimeout, hlt, if_false, List.mem_cons, ih]
        exact or_left_comm

/-- The entry that `sleep` makes, and the scheduler with it. -/
def deadline (sleeptime : SleepTime) (now : Int) : Int :=
  now + (if sleeptime.value ≥ 0 then sleeptime.value else -sleeptime.value)

def withDeadline (s : CoroutineScheduler) (sleeptime : SleepTime) (now : Int) (uid : Nat) :
    CoroutineScheduler :=
  { s with timeoutCoroId := insertTimeout (deadline sleeptime now, uid) s.timeoutCoroId }

theorem sleep_ok (h : s.Inv queues) (sleeptime : SleepTime) (now : Int)
    {source : CoroStatus} {uid : Nat}
    (hcurrent : s.currentCoro = some (.coroutine uid)) (huid : uid ∈ queues source)
    (hsource : source = .active ∨ source = .avail) :
    ∃ links, s.sleep sleeptime now = .ok
        (((s.withDeadline sleeptime now uid).relinked links (.coroutine uid) .timeout).switchCoro
          .main) ∧
      (((s.withDeadline sleeptime now uid).relinked links (.coroutine uid) .timeout).switchCoro
        .main).Inv (moved queues source .timeout uid) := by
  have hentries : ∀ entry ∈ insertTimeout (deadline sleeptime now, uid) s.timeoutCoroId,
      s.Made entry.2 := by
    intro entry hentry
    rcases mem_insertTimeout.mp hentry with rfl | hold
    · exact made_of_mem h.lists huid
    · exact h.timeout_made entry hold
  have hput : (s.withDeadline sleeptime now uid).Inv queues := h.withTimeouts hentries
  rcases hput.stop huid hsource (Or.inr rfl) with ⟨links, hmove, hnext⟩
  refine ⟨links, ?_, hnext⟩
  rw [← moveToTimeout_moves.ready hput.lists huid hsource] at hmove
  simp only [sleep, hcurrent, CoroutineInfo.uid, bind, Except.bind]
  simp only [withDeadline, deadline, hcurrent] at hmove
  rw [hmove]
  rfl

theorem Lists.moveToFreeList (h : s.Lists queues) {source : CoroStatus} {uid : Nat}
    (huid : uid ∈ queues source) (hsource : source ≠ .free) :
    ∃ links, s.moveToFreeList (.coroutine uid) =
        .ok (s.relinked links (.coroutine uid) .free) ∧
      (s.relinked links (.coroutine uid) .free).Lists (moved queues source .free uid) := by
  rcases h.moveTo huid hsource with ⟨links, hmove, hlists⟩
  refine ⟨links, ?_, hlists⟩
  rw [← hmove, CoroutineScheduler.moveToFreeList, status_of_mem h huid]
  cases source <;> first | rfl | contradiction

theorem finish_ok (h : s.Inv queues) {source : CoroStatus} {uid : Nat}
    (hcurrent : s.currentCoro = some (.coroutine uid)) (huid : uid ∈ queues source)
    (hsource : source = .active ∨ source = .avail) :
    ∃ links, s.finish = .ok ((relinked { s with usedSize := s.usedSize - 1 } links
        (.coroutine uid) .free).switchCoro .main) ∧
      Inv ((relinked { s with usedSize := s.usedSize - 1 } links
        (.coroutine uid) .free).switchCoro .main) (moved queues source .free uid) := by
  have hfree : source ≠ .free := by rcases hsource with rfl | rfl <;> decide
  have hless := h.lists.length_free_lt huid hfree
  have hused := h.used
  have hroom := h.lists.room
  have hsmall := h.lists.small
  have hcount := h.current
  have hle := h.currentSize_le
  have hword : word32Sub s.usedSize 1 = s.usedSize - 1 :=
    word32Sub_of_le (by omega) (by omega)
  have hlists : Lists { s with usedSize := s.usedSize - 1 } queues :=
    h.lists.congr rfl (fun _ => rfl) rfl rfl rfl rfl
  rcases hlists.moveToFreeList huid hfree with ⟨links, hmove, hmoved⟩
  refine ⟨links, ?_, hmoved.congr rfl (fun _ => rfl) rfl rfl rfl rfl, h.current, ?_,
    h.need_made, h.timeout_made, .main rfl⟩
  · simp only [hcurrent] at hmove
    simp only [finish, hcurrent, hword, hmove, bind, Except.bind]
  · have hlength : (moved queues source .free uid .free).length =
        (queues .free).length + 1 := by simp [moved]
    rw [hlength]
    change s.usedSize - 1 + ((queues .free).length + 1) = s.currentSize
    omega

/-! ### Switches and requests -/

theorem put_ok (h : s.Inv queues) (id : Nat) : (s.put id).Inv queues := by
  by_cases hterminal : s.terminal
  · simpa [put, hterminal] using h
  · simp only [put, hterminal, Bool.false_eq_true, if_false]
    exact ⟨h.lists.congr rfl (fun _ => rfl) rfl rfl rfl rfl, h.current, h.used, h.need_made,
      h.timeout_made, h.running⟩

theorem switchToFirst_empty (h : s.Inv queues) {list : CoroStatus} (hqueue : queues list = []) :
    s.switchToFirst list = .ok s := by
  rw [switchToFirst, (headEmpty_iff h.lists.rings list).mpr hqueue, if_pos rfl]

/-- A coroutine of `active_` or `avail_` may run. -/
theorem Inv.switchCoro (h : s.Inv queues) {uid : Nat}
    (hmem : uid ∈ queues .active ∨ uid ∈ queues .avail) :
    (s.switchCoro (.coroutine uid)).Inv queues := by
  refine ⟨h.lists.congr rfl (fun _ => rfl) rfl rfl rfl rfl, h.current, h.used, h.need_made,
    h.timeout_made, ?_⟩
  intro other hother
  obtain rfl : uid = other := by simpa [CoroutineScheduler.switchCoro] using hother
  exact hmem

theorem switchToFirst_ok (h : s.Inv queues) {list : CoroStatus}
    (hlist : list = .active ∨ list = .avail) {uid : Nat} {rest : List Nat}
    (hqueue : queues list = uid :: rest) :
    s.switchToFirst list = .ok (s.switchCoro (.coroutine uid)) ∧
      (s.switchCoro (.coroutine uid)).Inv queues := by
  have hfull : coroutineHeadEmpty s.links (.head list) = false := by
    have hne : queues list ≠ [] := by simp [hqueue]
    simpa using mt (headEmpty_iff h.lists.rings list).mp hne
  have hnext : s.links.next (.head list) = some (.coroutine uid) := by
    rw [(h.lists.rings.ring list).next_head, hqueue]
    rfl
  have hmem : uid ∈ queues list := by simp [hqueue]
  refine ⟨by simp [switchToFirst, hfull, hnext], h.switchCoro ?_⟩
  rcases hlist with rfl | rfl
  · exact Or.inl hmem
  · exact Or.inr hmem

theorem switchToFirst_switches (h : s.Inv queues) {list : CoroStatus}
    (hlist : list = .active ∨ list = .avail) :
    ∃ next, s.switchToFirst list = .ok next ∧ next.Inv queues ∧
      next = { s with currentCoro := next.currentCoro } := by
  cases hqueue : queues list with
  | nil => exact ⟨s, switchToFirst_empty h hqueue, h, rfl⟩
  | cons uid rest =>
      rcases switchToFirst_ok h hlist hqueue with ⟨hswitch, hnext⟩
      exact ⟨_, hswitch, hnext, rfl⟩

theorem Inv.terminate (h : s.Inv queues) : Inv { s with terminal := true } queues :=
  ⟨h.lists.congr rfl (fun _ => rfl) rfl rfl rfl rfl, h.current, h.used, h.need_made,
    h.timeout_made, h.running⟩

end

/-! ### The start -/

/-- The constructor makes five empty lists. -/
theorem construct_rings : Rings construct.links fun _ => [] := by
  refine ⟨?_, by simp⟩
  intro list
  have hne : ∀ {first second : CoroStatus}, first ≠ second →
      CoroutineInfo.head second ∉ [CoroutineInfo.head first] := by
    intro first second hne
    simpa using hne.symm
  cases list with
  | free => exact Links.ring_selfLink _ _
  | timeout => exact (Links.ring_selfLink _ _).selfLink_frame (hne (by decide))
  | inactive =>
      exact ((Links.ring_selfLink _ _).selfLink_frame (hne (by decide))).selfLink_frame
        (hne (by decide))
  | avail =>
      exact (((Links.ring_selfLink _ _).selfLink_frame (hne (by decide))).selfLink_frame
        (hne (by decide))).selfLink_frame (hne (by decide))
  | active =>
      exact ((((Links.ring_selfLink _ _).selfLink_frame (hne (by decide))).selfLink_frame
        (hne (by decide))).selfLink_frame (hne (by decide))).selfLink_frame (hne (by decide))

/-- The fields that `init` sets before its loop. -/
def reset (poolSize turns : Nat) : CoroutineScheduler :=
  { construct with
    poolSize := poolSize
    currentSize := turns
    allCoroSize := word32Add poolSize 1 }

theorem reset_lists {poolSize turns : Nat} (hsmall : poolSize < 2 ^ 32) :
    (reset poolSize turns).Lists fun _ => [] := by
  have hmade : ∀ uid, ¬ (reset poolSize turns).Made uid := by simp [Made, reset, construct]
  refine ⟨construct_rings, ?_, fun _ _ => rfl, ?_, ?_, Nat.zero_le _, hsmall⟩
  · simp [hmade]
  · exact fun uid h => absurd h (hmade uid)
  · intro hmax
    have hlargest : poolSize = 2 ^ 32 - 1 := Nat.eq_sub_of_add_eq hmax
    subst hlargest
    rfl

/-- How many coroutines `init` tries to make. -/
def initialSize (poolSize : Nat) : Nat := if poolSize ≤ 100 then poolSize else 100

theorem init_eq {poolSize : Nat} (hpos : 0 < poolSize) (allocs : Nat → Bool) :
    construct.init poolSize allocs =
      (initLoop allocs 0 (initialSize poolSize) (reset poolSize (initialSize poolSize))).bind
        fun made => .ok { made.2 with
          currentSize := made.1
          status := Function.update made.2.status .main .free
          currentCoro := some .main } := by
  rw [init, if_neg hpos.ne']
  rfl

/-- What `init` starts with: coroutines on `free_` only, and nothing that waits. -/
structure Started (start : CoroutineScheduler) (poolSize : Nat)
    (queues : CoroStatus → List Nat) : Prop where
  inv : start.Inv queues
  uniq : start.uniqId = start.currentSize
  queues : ∀ list, list ≠ .free → queues list = []
  frame : start = { reset poolSize start.currentSize with
    uniqId := start.uniqId
    currentCoro := some .main
    allCoro := start.allCoro
    links := start.links
    status := start.status }

theorem init_started {poolSize : Nat} (hpos : 0 < poolSize) (hsmall : poolSize < 2 ^ 32)
    {allocs : Nat → Bool} {start : CoroutineScheduler}
    (hinit : construct.init poolSize allocs = .ok start) :
    ∃ queues, Started start poolSize queues := by
  rw [init_eq hpos] at hinit
  rcases ok_of_bind_ok hinit with ⟨⟨succ, next⟩, hloop, hstart⟩
  obtain rfl := Except.ok.inj hstart
  rcases initLoop_grown _ (reset_lists hsmall) hloop with ⟨⟨queues', hgrown⟩, huniq⟩
  obtain ⟨uniqId, status, allCoro, links, rfl⟩ : ∃ uniqId status allCoro links, next =
      { reset poolSize (initialSize poolSize) with
        uniqId := uniqId
        status := status
        allCoro := allCoro
        links := links } := ⟨_, _, _, _, hgrown.frame⟩
  have hcreated := hgrown.created
  have hnone : (reset poolSize (initialSize poolSize)).createdIds = [] := by
    simp [createdIds, reset, construct]
  rw [hnone, List.length_nil, Nat.zero_add] at hcreated
  have hfree := hgrown.free
  rw [List.length_nil, Nat.zero_add] at hfree
  refine ⟨queues', ⟨hgrown.lists.congr rfl (fun uid => by simp) rfl rfl rfl rfl, hcreated.symm,
    ?_, by simp [reset, construct], by simp [reset, construct], .main rfl⟩, ?_,
    hgrown.others, rfl⟩
  · exact (Nat.zero_add _).trans hfree
  · exact huniq.trans (Nat.zero_add succ)

/-- `init` succeeds unless the size of `allCoro_` wraps to 0. -/
theorem init_ok {poolSize : Nat} (hpos : 0 < poolSize) (hsize : poolSize + 1 < 2 ^ 32)
    (allocs : Nat → Bool) : ∃ start, construct.init poolSize allocs = .ok start := by
  have hword : word32Add poolSize 1 = poolSize + 1 := word32Add_of_lt hsize
  have hturns : initialSize poolSize ≤ poolSize := by
    rw [initialSize]
    split <;> omega
  rcases @initLoop_ok allocs (initialSize poolSize) 0
    (reset poolSize (initialSize poolSize)) _ (reset_lists (Nat.lt_of_succ_lt hsize))
    (by simpa [reset, construct] using hturns)
    (by simp only [reset, construct, hword, Nat.zero_add]; omega) with ⟨made, hloop⟩
  rw [init_eq hpos, hloop]
  exact ⟨_, rfl⟩

end CoroutineScheduler

end Tarsx
