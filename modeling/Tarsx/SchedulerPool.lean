/-
The loops that make coroutines: each turn takes the next id, and its coroutine goes to
the tail of `free_`.  A stack that is not allocated ends a loop, and in
`increaseCoroPoolSize` the id of that turn is lost.
-/
import Tarsx.SchedulerLists

namespace Tarsx

open Foundation

namespace CoroutineScheduler

open CoroutineInfo

/-- What making `succ` coroutines does. -/
structure Grown (s next : CoroutineScheduler) (succ : Nat)
    (queues queues' : CoroStatus → List Nat) : Prop where
  lists : next.Lists queues'
  others : ∀ list, list ≠ .free → queues' list = queues list
  free : (queues' .free).length = (queues .free).length + succ
  created : next.createdIds.length = s.createdIds.length + succ
  made : ∀ uid, s.Made uid → next.Made uid
  frame : next = { s with
    uniqId := next.uniqId
    status := next.status
    allCoro := next.allCoro
    links := next.links }

section

variable {s : CoroutineScheduler} {queues : CoroStatus → List Nat}

/-- `generateId` counts up to the size of the pool. -/
theorem generateId_ok (h : s.Lists queues) (hroom : s.uniqId < s.poolSize) :
    s.generateId = .ok (s.uniqId + 1, { s with uniqId := s.uniqId + 1 }) := by
  have hsmall := h.small
  have hword : word32Add s.uniqId 1 = s.uniqId + 1 := word32Add_of_lt (by omega)
  simp [generateId, hword, Nat.succ_le_of_lt hroom]

/-- The ids start again only in the largest pool, where `allCoro_` has no place. -/
theorem generateId_spec (h : s.Lists queues) {id : Nat} {next : CoroutineScheduler}
    (hid : s.generateId = .ok (id, next)) :
    next = { s with uniqId := id } ∧ id ≤ s.poolSize ∧
      (id = s.uniqId + 1 ∨ s.allCoroSize = 0) := by
  have hsmall := h.small
  have hroom := h.room
  have hsize := h.size
  by_cases hless : s.uniqId < s.poolSize
  · rw [generateId_ok h hless] at hid
    obtain ⟨rfl, rfl⟩ := Prod.mk.inj (Except.ok.inj hid)
    exact ⟨rfl, hless, Or.inl rfl⟩
  · have hfull : s.uniqId = s.poolSize := by omega
    rw [generateId, hfull] at hid
    by_cases hlargest : s.poolSize + 1 < 2 ^ 32
    · simp [word32Add_of_lt hlargest] at hid
    · have hword : word32Add s.poolSize 1 = 0 := by
        have hlast : s.poolSize = 2 ^ 32 - 1 := by omega
        rw [hlast]
        rfl
      simp only [hword, Nat.zero_add, Nat.zero_lt_one, if_true] at hid
      split at hid
      · rename_i hone
        obtain ⟨rfl, rfl⟩ := Prod.mk.inj (Except.ok.inj hid)
        exact ⟨rfl, hone, Or.inr (hsize (by omega))⟩
      · contradiction

/-- The scheduler with the next coroutine made. -/
def added (s : CoroutineScheduler) (links : Links CoroutineInfo) : CoroutineScheduler :=
  { s with
    uniqId := s.uniqId + 1
    status := Function.update s.status (.coroutine (s.uniqId + 1)) .free
    allCoro := Function.update s.allCoro (s.uniqId + 1) (some (.coroutine (s.uniqId + 1)))
    links := links }

theorem made_added {links : Links CoroutineInfo} {uid : Nat} :
    (s.added links).Made uid ↔ uid = s.uniqId + 1 ∨ s.Made uid := by
  by_cases huid : uid = s.uniqId + 1
  · subst huid
    simp [Made, added]
  · simp [Made, added, huid]

theorem Lists.not_made_next (h : s.Lists queues) : ¬ s.Made (s.uniqId + 1) := fun hmade =>
  Nat.not_succ_le_self s.uniqId (h.bound _ hmade).2.1

theorem Lists.added (h : s.Lists queues) (hroom : s.uniqId < s.poolSize)
    (hplace : s.uniqId + 1 < s.allCoroSize)
    {links : Links CoroutineInfo} (hnew : ∀ list, s.uniqId + 1 ∉ queues list)
    (hrings : Rings links (Function.update queues .free (queues .free ++ [s.uniqId + 1]))) :
    (s.added links).Lists (Function.update queues .free (queues .free ++ [s.uniqId + 1])) := by
  refine ⟨hrings, ?_, ?_, ?_, h.size, hroom, h.small⟩
  · intro list uid
    rw [made_added]
    by_cases huid : uid = s.uniqId + 1
    · subst huid
      by_cases hlist : list = .free
      · subst hlist
        simp [CoroutineScheduler.added]
      · simp [CoroutineScheduler.added, Function.update_of_ne hlist, hnew list, Ne.symm hlist]
    · have hne : CoroutineInfo.coroutine uid ≠ .coroutine (s.uniqId + 1) := by
        simpa using huid
      have hmem : uid ∈ Function.update queues .free (queues .free ++ [s.uniqId + 1]) list ↔
          uid ∈ queues list := by
        by_cases hlist : list = .free
        · subst hlist
          simp [huid]
        · simp [Function.update_of_ne hlist]
      rw [hmem, h.named]
      simp [CoroutineScheduler.added, huid]
  · intro uid hmade
    rw [made_added, not_or] at hmade
    simp [CoroutineScheduler.added, Function.update_of_ne hmade.1, h.absent uid hmade.2]
  · intro uid hmade
    rcases made_added.mp hmade with rfl | hold
    · exact ⟨Nat.le_add_left 1 _, Nat.le_refl _, hplace⟩
    · rcases h.bound uid hold with ⟨hpos, hle, hlt⟩
      exact ⟨hpos, Nat.le_succ_of_le hle, hlt⟩

theorem Lists.length_createdIds_added (h : s.Lists queues) {links : Links CoroutineInfo}
    {queues' : CoroStatus → List Nat} (hadded : (s.added links).Lists queues') :
    (s.added links).createdIds.length = s.createdIds.length + 1 := by
  have hnew : s.uniqId + 1 ∉ s.createdIds := mt (mem_createdIds h _).mp h.not_made_next
  have hperm : (s.added links).createdIds.Perm ((s.uniqId + 1) :: s.createdIds) := by
    apply (List.perm_ext_iff_of_nodup (nodup_createdIds _)
      (List.nodup_cons.mpr ⟨hnew, s.nodup_createdIds⟩)).mpr
    intro uid
    rw [mem_createdIds hadded, made_added, List.mem_cons, mem_createdIds h]
  rw [hperm.length_eq, List.length_cons]

/-- One turn of the loops: the coroutine of the next id at the tail of `free_`. -/
theorem addCoroutine_ok (h : s.Lists queues) (hroom : s.uniqId < s.poolSize)
    (hplace : s.uniqId + 1 < s.allCoroSize) :
    ∃ next, addCoroutine { s with uniqId := s.uniqId + 1 } (s.uniqId + 1) = .ok next ∧
      next.uniqId = s.uniqId + 1 ∧
      Grown s next 1 queues
        (Function.update queues .free (queues .free ++ [s.uniqId + 1])) := by
  have hnew : ∀ list, s.uniqId + 1 ∉ queues list := fun list hmem =>
    h.not_made_next (made_of_mem h hmem)
  rcases h.rings.addTail hnew .free with ⟨links, hadd, hrings⟩
  have hadded := h.added hroom hplace hnew hrings
  refine ⟨s.added links, ?_, rfl, hadded, ?_, ?_, h.length_createdIds_added hadded, ?_, rfl⟩
  · simp only [addCoroutine, hplace, if_true, hadd, bind, Except.bind]
    rfl
  · intro list hlist
    simp [hlist]
  · simp
  · exact fun uid hmade => made_added.mpr (Or.inr hmade)

/-- An id that no coroutine gets, because its stack is not allocated. -/
theorem Grown.skip (h : s.Lists queues) {id : Nat} (hroom : id ≤ s.poolSize)
    (hid : id = s.uniqId + 1 ∨ s.allCoroSize = 0) :
    Grown s { s with uniqId := id } 0 queues queues := by
  refine ⟨⟨h.rings, h.named, h.absent, ?_, h.size, hroom, h.small⟩, fun _ _ => rfl, rfl, rfl,
    fun _ hmade => hmade, rfl⟩
  intro uid hmade
  rcases h.bound uid hmade with ⟨hpos, hle, hlt⟩
  refine ⟨hpos, ?_, hlt⟩
  rcases hid with rfl | hnone
  · exact Nat.le_succ_of_le hle
  · omega

/-- A place that `allCoro_` has is that of the next id. -/
theorem addCoroutine_grown (h : s.Lists queues) {id : Nat} {next : CoroutineScheduler}
    (hroom : id ≤ s.poolSize) (hid : id = s.uniqId + 1 ∨ s.allCoroSize = 0)
    (hadd : addCoroutine { s with uniqId := id } id = .ok next) :
    (∃ queues', Grown s next 1 queues queues') ∧ next.uniqId = s.uniqId + 1 := by
  by_cases hplace : id < s.allCoroSize
  · rcases hid with rfl | hnone
    · rcases addCoroutine_ok h hroom hplace with ⟨other, hother, huniq, hgrown⟩
      obtain rfl := Except.ok.inj (hother.symm.trans hadd)
      exact ⟨⟨_, hgrown⟩, huniq⟩
    · omega
  · simp [addCoroutine, hplace] at hadd

theorem Grown.refl (h : s.Lists queues) : Grown s s 0 queues queues :=
  ⟨h, fun _ _ => rfl, rfl, rfl, fun _ hmade => hmade, rfl⟩

theorem Grown.trans {middle next : CoroutineScheduler} {first second : Nat}
    {queues' queues'' : CoroStatus → List Nat} (hfirst : Grown s middle first queues queues')
    (hsecond : Grown middle next second queues' queues'') :
    Grown s next (first + second) queues queues'' := by
  refine ⟨hsecond.lists, ?_, ?_, ?_, ?_, ?_⟩
  · intro list hlist
    rw [hsecond.others list hlist, hfirst.others list hlist]
  · rw [hsecond.free, hfirst.free, Nat.add_assoc]
  · rw [hsecond.created, hfirst.created, Nat.add_assoc]
  · exact fun uid hmade => hsecond.made uid (hfirst.made uid hmade)
  · rw [hsecond.frame, hfirst.frame]

/-- The loop of `increaseCoroPoolSize` makes coroutines until a stack is not allocated. -/
theorem increaseLoop_grown {allocs : Nat → Bool} (turns : Nat) :
    ∀ {turn : Nat} {s : CoroutineScheduler} {queues : CoroStatus → List Nat} {succ : Nat}
      {next : CoroutineScheduler},
      s.Lists queues → increaseLoop allocs turn turns s = .ok (succ, next) →
      (∃ queues', Grown s next succ queues queues') ∧
        (succ = 0 ↔ turns = 0 ∨ allocs turn = false) := by
  induction turns with
  | zero =>
      intro turn s queues succ next h hloop
      obtain ⟨rfl, rfl⟩ := Prod.mk.inj (Except.ok.inj hloop)
      exact ⟨⟨queues, .refl h⟩, by simp⟩
  | succ turns ih =>
      intro turn s queues succ next h hloop
      rcases ok_of_bind_ok hloop with ⟨⟨id, counted⟩, hcounted, hturn⟩
      rcases generateId_spec h hcounted with ⟨rfl, hroom, hid⟩
      cases halloc : allocs turn with
      | false =>
          simp only [halloc, Bool.false_eq_true, if_false] at hturn
          obtain ⟨rfl, rfl⟩ := Prod.mk.inj (Except.ok.inj hturn)
          exact ⟨⟨queues, .skip h hroom hid⟩, by simp⟩
      | true =>
          simp only [halloc, if_true] at hturn
          rcases ok_of_bind_ok hturn with ⟨middle, hadd, hloop'⟩
          rcases ok_of_bind_ok hloop' with ⟨⟨made, last⟩, hrest, hlast⟩
          obtain ⟨rfl, rfl⟩ := Prod.mk.inj (Except.ok.inj hlast)
          rcases addCoroutine_grown h hroom hid hadd with ⟨⟨queues', hone⟩, _⟩
          rcases (ih hone.lists hrest).1 with ⟨queues'', hgrown⟩
          exact ⟨⟨queues'', Nat.add_comm 1 made ▸ hone.trans hgrown⟩, by simp⟩

/-- The loop of `init` takes an id only for a stack that is allocated. -/
theorem initLoop_grown {allocs : Nat → Bool} (turns : Nat) :
    ∀ {turn : Nat} {s : CoroutineScheduler} {queues : CoroStatus → List Nat} {succ : Nat}
      {next : CoroutineScheduler},
      s.Lists queues → initLoop allocs turn turns s = .ok (succ, next) →
      (∃ queues', Grown s next succ queues queues') ∧ next.uniqId = s.uniqId + succ := by
  induction turns with
  | zero =>
      intro turn s queues succ next h hloop
      obtain ⟨rfl, rfl⟩ := Prod.mk.inj (Except.ok.inj hloop)
      exact ⟨⟨queues, .refl h⟩, rfl⟩
  | succ turns ih =>
      intro turn s queues succ next h hloop
      cases halloc : allocs turn with
      | false =>
          simp only [initLoop, halloc, Bool.false_eq_true, if_false] at hloop
          obtain ⟨rfl, rfl⟩ := Prod.mk.inj (Except.ok.inj hloop)
          exact ⟨⟨queues, .refl h⟩, rfl⟩
      | true =>
          simp only [initLoop, halloc, if_true] at hloop
          rcases ok_of_bind_ok hloop with ⟨⟨id, counted⟩, hcounted, hturn⟩
          rcases ok_of_bind_ok hturn with ⟨middle, hadd, hloop'⟩
          rcases ok_of_bind_ok hloop' with ⟨⟨made, last⟩, hrest, hlast⟩
          obtain ⟨rfl, rfl⟩ := Prod.mk.inj (Except.ok.inj hlast)
          rcases generateId_spec h hcounted with ⟨rfl, hroom, hid⟩
          rcases addCoroutine_grown h hroom hid hadd with ⟨⟨queues', hone⟩, huniq⟩
          rcases ih hone.lists hrest with ⟨⟨queues'', hgrown⟩, hlast⟩
          refine ⟨⟨queues'', Nat.add_comm 1 made ▸ hone.trans hgrown⟩, ?_⟩
          change last.uniqId = s.uniqId + (made + 1)
          omega

/-- With a stack in each turn, and an id and a place for each of them, the loop makes one
in each turn. -/
theorem increaseLoop_ok {allocs : Nat → Bool} (turns : Nat) :
    ∀ {turn : Nat} {s : CoroutineScheduler} {queues : CoroStatus → List Nat},
      s.Lists queues → s.uniqId + turns ≤ s.poolSize → s.uniqId + turns < s.allCoroSize →
      (∀ later < turns, allocs (turn + later) = true) →
      ∃ next, increaseLoop allocs turn turns s = .ok (turns, next) ∧
        next.uniqId = s.uniqId + turns := by
  induction turns with
  | zero => exact fun _ _ _ _ => ⟨_, rfl, rfl⟩
  | succ turns ih =>
      intro turn s queues h hroom hplaces hallocs
      have hlt : s.uniqId < s.poolSize := by omega
      rcases addCoroutine_ok h hlt (by omega) with ⟨middle, hadd, huniq, hone⟩
      have hkept : middle.poolSize = s.poolSize ∧ middle.allCoroSize = s.allCoroSize := by
        rw [hone.frame]
        exact ⟨rfl, rfl⟩
      have hfirst : allocs turn = true := hallocs 0 (Nat.succ_pos turns)
      have hrest : ∀ later < turns, allocs (turn + 1 + later) = true := by
        intro later hlater
        rw [Nat.add_right_comm, Nat.add_assoc]
        exact hallocs (later + 1) (by omega)
      rcases @ih (turn + 1) middle _ hone.lists (by omega) (by omega) hrest with
        ⟨next, hloop, hlast⟩
      refine ⟨next, ?_, by omega⟩
      simp only [increaseLoop, generateId_ok h hlt, hfirst, if_true, hadd, hloop, bind,
        Except.bind]

/-- With an id and a place for each turn, the loop of `init` returns, whichever stacks are
allocated. -/
theorem initLoop_ok {allocs : Nat → Bool} (turns : Nat) :
    ∀ {turn : Nat} {s : CoroutineScheduler} {queues : CoroStatus → List Nat},
      s.Lists queues → s.uniqId + turns ≤ s.poolSize → s.uniqId + turns < s.allCoroSize →
      ∃ made, initLoop allocs turn turns s = .ok made := by
  induction turns with
  | zero => exact fun _ _ _ => ⟨_, rfl⟩
  | succ turns ih =>
      intro turn s queues h hroom hplaces
      cases halloc : allocs turn with
      | false => exact ⟨(0, s), by simp only [initLoop, halloc, Bool.false_eq_true, if_false]⟩
      | true =>
          have hlt : s.uniqId < s.poolSize := by omega
          rcases addCoroutine_ok h hlt (by omega) with ⟨middle, hadd, huniq, hone⟩
          have hkept : middle.poolSize = s.poolSize ∧ middle.allCoroSize = s.allCoroSize := by
            rw [hone.frame]
            exact ⟨rfl, rfl⟩
          rcases @ih (turn + 1) middle _ hone.lists (by omega) (by omega) with ⟨made, hloop⟩
          refine ⟨(made.1 + 1, made.2), ?_⟩
          simp only [initLoop, halloc, if_true, generateId_ok h hlt, hadd, hloop, bind,
            Except.bind]

/-- A loop that returns got an id for its first turn. -/
theorem increaseLoop_generates {allocs : Nat → Bool} {turn turns : Nat}
    {made : Nat × CoroutineScheduler} (hloop : increaseLoop allocs turn (turns + 1) s = .ok made) :
    ∃ counted, s.generateId = .ok counted := by
  rcases ok_of_bind_ok hloop with ⟨counted, hcounted, _⟩
  exact ⟨counted, hcounted⟩

/-- It faults only where `generateId` does or after a stack was allocated. -/
theorem increaseLoop_fault {allocs : Nat → Bool} {turn turns : Nat} {fault : Fault}
    (hfault : increaseLoop allocs turn (turns + 1) s = .error fault)
    (hid : ∃ counted, s.generateId = .ok counted) : allocs turn = true := by
  rcases hid with ⟨counted, hcounted⟩
  by_contra halloc
  simp [increaseLoop, hcounted, halloc, bind, Except.bind] at hfault

end

end CoroutineScheduler

end Tarsx
