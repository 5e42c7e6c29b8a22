/-
The five lists of the scheduler.  `Rings` relates the pointers to a queue of ids for
each status; deleting a coroutine and adding it at the tail of a list is what the
moves are made of, and `Lists` adds that the queue of a coroutine is the one its
status names.
-/
import Mathlib.Data.List.Nodup
import Mathlib.Data.List.Perm.Basic
import Tarsx.CoroutineScheduler

namespace Tarsx

open Foundation

namespace CoroutineScheduler

open CoroutineInfo

/-- The list of each status is a ring of the coroutines of its queue, and no coroutine
is on two queues. -/
structure Rings (links : Links CoroutineInfo) (queues : CoroStatus → List Nat) : Prop where
  ring : ∀ list, links.Ring (.head list) ((queues list).map .coroutine)
  disjoint : ∀ list other uid, uid ∈ queues list → uid ∈ queues other → list = other

section

variable {links : Links CoroutineInfo} {queues : CoroStatus → List Nat}

theorem Rings.nodup (h : Rings links queues) (list : CoroStatus) : (queues list).Nodup :=
  List.Nodup.of_map _ (List.nodup_cons.mp (h.ring list).nodup).2

/-- The nodes of one list are not on another. -/
theorem Rings.not_mem (h : Rings links queues) {list other : CoroStatus}
    (hne : list ≠ other) {node : CoroutineInfo}
    (hnode : node ∈ CoroutineInfo.head list :: (queues list).map .coroutine) :
    node ∉ CoroutineInfo.head other :: (queues other).map .coroutine := by
  intro hother
  rcases List.mem_cons.mp hnode with rfl | hitem
  · simp [hne] at hother
  · rcases List.mem_map.mp hitem with ⟨uid, huid, rfl⟩
    simp only [List.mem_cons, reduceCtorEq, List.mem_map, CoroutineInfo.coroutine.injEq,
      exists_eq_right, false_or] at hother
    exact hne (h.disjoint list other uid huid hother)

theorem not_mem_nodes {list : CoroStatus} {uid : Nat} (huid : uid ∉ queues list) :
    CoroutineInfo.coroutine uid ∉
      CoroutineInfo.head list :: (queues list).map CoroutineInfo.coroutine := by
  simpa using huid

/-- `coroutineAddTail` of a coroutine that is on no list. -/
theorem Rings.addTail (h : Rings links queues) {uid : Nat} (hnew : ∀ list, uid ∉ queues list)
    (list : CoroStatus) :
    ∃ next, coroutineAddTail links (.coroutine uid) (.head list) = .ok next ∧
      Rings next (Function.update queues list (queues list ++ [uid])) := by
  rcases (h.ring list).link_tail (not_mem_nodes (hnew list)) with
    ⟨last, hlast, hprev, hring⟩
  refine ⟨links.link (.coroutine uid) last (.head list), ?_, ?_, ?_⟩
  · simp [coroutineAddTail, hprev]
  · intro other
    by_cases hsame : other = list
    · subst hsame
      simpa using hring
    · rw [Function.update_of_ne hsame]
      apply (h.ring other).link_frame (not_mem_nodes (hnew other))
      · exact h.not_mem (Ne.symm hsame) hlast
      · exact h.not_mem (Ne.symm hsame) List.mem_cons_self
  · intro first second other hfirst hsecond
    have hold : ∀ st, other ∈ Function.update queues list (queues list ++ [uid]) st →
        other ∈ queues st ∨ (st = list ∧ other = uid) := by
      intro st hst
      by_cases hsame : st = list
      · subst hsame
        simpa using hst
      · rw [Function.update_of_ne hsame] at hst
        exact Or.inl hst
    rcases hold first hfirst with holdFirst | ⟨hlist, huid⟩
    · rcases hold second hsecond with holdSecond | ⟨_, huid⟩
      · exact h.disjoint first second other holdFirst holdSecond
      · exact absurd (huid ▸ holdFirst) (hnew first)
    · rcases hold second hsecond with holdSecond | ⟨hlist', _⟩
      · exact absurd (huid ▸ holdSecond) (hnew second)
      · exact hlist.trans hlist'.symm

/-- `coroutineDel` of a coroutine that is on a list. -/
theorem Rings.del (h : Rings links queues) {list : CoroStatus} {uid : Nat}
    (huid : uid ∈ queues list) :
    ∃ next, coroutineDel links (.coroutine uid) = .ok next ∧
      Rings next (Function.update queues list ((queues list).erase uid)) := by
  rcases List.exists_erase_eq huid with ⟨before, after, _, hqueue, herase⟩
  have hring := h.ring list
  rw [hqueue, List.map_append, List.map_cons] at hring
  rcases hring.unlink_item with ⟨p, hp, q, hq, hprev, hnext, hkept⟩
  rw [← List.map_append, ← herase] at hp hq hkept
  have hnodes : ∀ node ∈ CoroutineInfo.head list :: ((queues list).erase uid).map .coroutine,
      node ∈ CoroutineInfo.head list :: (queues list).map CoroutineInfo.coroutine := by
    intro node hnode
    rcases List.mem_cons.mp hnode with rfl | hitem
    · exact List.mem_cons_self
    · rcases List.mem_map.mp hitem with ⟨other, hother, rfl⟩
      exact List.mem_cons_of_mem _ (List.mem_map_of_mem (List.mem_of_mem_erase hother))
  refine ⟨links.unlink (.coroutine uid) p q, ?_, ?_, ?_⟩
  · simp [coroutineDel, hprev, hnext]
  · intro other
    by_cases hsame : other = list
    · subst hsame
      simpa using hkept
    · rw [Function.update_of_ne hsame]
      have hnot : uid ∉ queues other := fun hmem =>
        hsame (h.disjoint other list uid hmem huid)
      apply (h.ring other).unlink_frame (not_mem_nodes hnot)
      · exact h.not_mem (Ne.symm hsame) (hnodes p hp)
      · exact h.not_mem (Ne.symm hsame) (hnodes q hq)
  · have hold : ∀ st other, other ∈ Function.update queues list ((queues list).erase uid) st →
        other ∈ queues st := by
      intro st other hst
      by_cases hsame : st = list
      · subst hsame
        rw [Function.update_self] at hst
        exact List.mem_of_mem_erase hst
      · rwa [Function.update_of_ne hsame] at hst
    intro first second other hfirst hsecond
    exact h.disjoint first second other (hold first other hfirst) (hold second other hsecond)

/-- The queues after a coroutine went from the one to the tail of the other. -/
def moved (queues : CoroStatus → List Nat) (source target : CoroStatus) (uid : Nat) :
    CoroStatus → List Nat :=
  Function.update (Function.update queues source ((queues source).erase uid)) target
    (queues target ++ [uid])

/-- The move changes the queue of the coroutine and of no other. -/
theorem Rings.mem_moved (h : Rings links queues) {source target : CoroStatus} {uid : Nat}
    (huid : uid ∈ queues source) (list : CoroStatus) (other : Nat) :
    other ∈ moved queues source target uid list ↔
      if other = uid then list = target else other ∈ queues list := by
  by_cases htarget : list = target
  · subst htarget
    by_cases hother : other = uid <;> simp [moved, hother]
  · by_cases hsource : list = source
    · subst hsource
      by_cases hother : other = uid
      · subst hother
        simp [moved, htarget, (h.nodup list).mem_erase_iff]
      · simp [moved, htarget, hother, (h.nodup list).mem_erase_iff]
    · by_cases hother : other = uid
      · subst hother
        have hnot : other ∉ queues list := fun hmem =>
          hsource (h.disjoint list source other hmem huid)
        simp [moved, htarget, hsource, hnot]
      · simp [moved, htarget, hsource, hother]

theorem moved_of_ne {source target list : CoroStatus} {uid : Nat} (hsource : list ≠ source)
    (htarget : list ≠ target) : moved queues source target uid list = queues list := by
  simp [moved, hsource, htarget]

/-- Deleting a coroutine and adding it at the tail of another list. -/
theorem Rings.move (h : Rings links queues) {source target : CoroStatus} {uid : Nat}
    (huid : uid ∈ queues source) (hne : source ≠ target) :
    ∃ middle next, coroutineDel links (.coroutine uid) = .ok middle ∧
      coroutineAddTail middle (.coroutine uid) (.head target) = .ok next ∧
      Rings next (moved queues source target uid) := by
  rcases h.del huid with ⟨middle, hdel, hmiddle⟩
  have hnew : ∀ list, uid ∉ Function.update queues source ((queues source).erase uid) list := by
    intro list hmem
    by_cases hsame : list = source
    · subst hsame
      rw [Function.update_self] at hmem
      exact ((h.nodup list).mem_erase_iff.mp hmem).1 rfl
    · rw [Function.update_of_ne hsame] at hmem
      exact hsame (h.disjoint list source uid hmem huid)
  rcases hmiddle.addTail hnew target with ⟨next, hadd, hnext⟩
  rw [Function.update_of_ne (Ne.symm hne)] at hnext
  exact ⟨middle, next, hdel, hadd, hnext⟩

end

/-! ### The lists and the table -/

/-- A coroutine that was made: `allCoro_` points to it. -/
def Made (s : CoroutineScheduler) (uid : Nat) : Prop := s.allCoro uid = some (.coroutine uid)

/-- The five lists hold the coroutines that were made, each on the queue that its
status names.  Their ids were given out and are places of `allCoro_`, which has none in
the largest pool, as its size is computed in 32 bits. -/
structure Lists (s : CoroutineScheduler) (queues : CoroStatus → List Nat) : Prop where
  rings : Rings s.links queues
  named : ∀ list uid,
    uid ∈ queues list ↔ s.Made uid ∧ s.status (.coroutine uid) = list
  absent : ∀ uid, ¬ s.Made uid → s.allCoro uid = none
  bound : ∀ uid, s.Made uid → 1 ≤ uid ∧ uid ≤ s.uniqId ∧ uid < s.allCoroSize
  size : s.poolSize + 1 = 2 ^ 32 → s.allCoroSize = 0
  room : s.uniqId ≤ s.poolSize
  small : s.poolSize < 2 ^ 32

/-- The ids of the coroutines that were created, which `allCoro_` points to. -/
def createdIds (s : CoroutineScheduler) : List Nat :=
  (List.range s.allCoroSize).filter fun uid => decide (s.allCoro uid = some (.coroutine uid))

section

variable {s : CoroutineScheduler} {queues : CoroStatus → List Nat}

/-- The lists depend on the fields that they speak of. -/
theorem Lists.congr (h : s.Lists queues) {next : CoroutineScheduler}
    (hlinks : next.links = s.links)
    (hstatus : ∀ uid, next.status (.coroutine uid) = s.status (.coroutine uid))
    (huniq : next.uniqId = s.uniqId) (htable : next.allCoro = s.allCoro)
    (hsize : next.allCoroSize = s.allCoroSize) (hpool : next.poolSize = s.poolSize) :
    next.Lists queues := by
  have hmade : ∀ uid, next.Made uid ↔ s.Made uid := by simp [Made, htable]
  refine ⟨hlinks ▸ h.rings, ?_, ?_, ?_, ?_, ?_, ?_⟩
  · intro list uid
    rw [h.named, hmade, hstatus]
  · intro uid huid
    rw [htable]
    exact h.absent uid (mt (hmade uid).mpr huid)
  · intro uid huid
    rw [huniq, hsize]
    exact h.bound uid ((hmade uid).mp huid)
  · rw [hsize, hpool]
    exact h.size
  · rw [huniq, hpool]
    exact h.room
  · rw [hpool]
    exact h.small

theorem Lists.mem_of_made (h : s.Lists queues) {uid : Nat} (hmade : s.Made uid) :
    uid ∈ queues (s.status (.coroutine uid)) :=
  (h.named _ uid).mpr ⟨hmade, rfl⟩

theorem status_of_mem (h : s.Lists queues) {list : CoroStatus} {uid : Nat}
    (huid : uid ∈ queues list) : s.status (.coroutine uid) = list :=
  ((h.named list uid).mp huid).2

theorem made_of_mem (h : s.Lists queues) {list : CoroStatus} {uid : Nat}
    (huid : uid ∈ queues list) : s.Made uid :=
  ((h.named list uid).mp huid).1

theorem Lists.coroOf (h : s.Lists queues) {uid : Nat} (hmade : s.Made uid) :
    s.coroOf uid = .ok (.coroutine uid) := by
  have htable : s.allCoro uid = some (.coroutine uid) := hmade
  simp [CoroutineScheduler.coroOf, (h.bound uid hmade).2.2, htable]

/-- An id that `allCoro_` finds is one of a coroutine. -/
theorem Lists.made_of_coroOf (h : s.Lists queues) {uid : Nat} {coro : CoroutineInfo}
    (hcoro : s.coroOf uid = .ok coro) : s.Made uid ∧ coro = .coroutine uid := by
  by_cases hmade : s.Made uid
  · rw [h.coroOf hmade] at hcoro
    exact ⟨hmade, (Except.ok.inj hcoro).symm⟩
  · simp only [CoroutineScheduler.coroOf, h.absent uid hmade] at hcoro
    split at hcoro <;> contradiction

theorem headEmpty_iff (h : Rings s.links queues) (list : CoroStatus) :
    coroutineHeadEmpty s.links (.head list) = true ↔ queues list = [] := by
  rw [coroutineHeadEmpty, decide_eq_true_eq, (h.ring list).empty_iff, List.map_eq_nil_iff]

/-! ### Counting -/

theorem mem_createdIds (h : s.Lists queues) (uid : Nat) : uid ∈ s.createdIds ↔ s.Made uid := by
  rw [createdIds, List.mem_filter, decide_eq_true_eq, List.mem_range]
  exact ⟨fun hmem => hmem.2, fun hmade => ⟨(h.bound uid hmade).2.2, hmade⟩⟩

theorem nodup_createdIds (s : CoroutineScheduler) : s.createdIds.Nodup :=
  List.nodup_range.filter _

/-- No more coroutines were created than ids given out. -/
theorem Lists.length_createdIds_le (h : s.Lists queues) : s.createdIds.length ≤ s.uniqId := by
  have hsubset : s.createdIds ⊆ List.range' 1 s.uniqId := by
    intro uid huid
    have hbound := h.bound uid ((mem_createdIds h uid).mp huid)
    rw [List.mem_range'_1]
    exact ⟨hbound.1, Nat.lt_one_add_iff.mpr hbound.2.1⟩
  have hle := (List.subperm_of_subset s.nodup_createdIds hsubset).length_le
  rwa [List.length_range'] at hle

/-- The created coroutines are those on `free_` and the others. -/
theorem Lists.length_used (h : s.Lists queues) :
    (s.createdIds.filter fun uid => decide (uid ∉ queues .free)).length +
      (queues .free).length = s.createdIds.length := by
  have hperm : (s.createdIds.filter fun uid => decide (uid ∈ queues .free)).Perm
      (queues .free) := by
    apply (List.perm_ext_iff_of_nodup (s.nodup_createdIds.filter _) (h.rings.nodup .free)).mpr
    intro uid
    rw [List.mem_filter, decide_eq_true_eq, mem_createdIds h]
    exact and_iff_right_of_imp (made_of_mem h)
  have hsplit := List.length_eq_length_filter_add (l := s.createdIds)
    fun uid => decide (uid ∈ queues .free)
  rw [hperm.length_eq] at hsplit
  simp only [decide_not]
  omega

/-- A coroutine that is on another list than `free_` is not counted there. -/
theorem Lists.length_free_lt (h : s.Lists queues) {list : CoroStatus} {uid : Nat}
    (huid : uid ∈ queues list) (hlist : list ≠ .free) :
    (queues .free).length < s.createdIds.length := by
  have hnot : uid ∉ queues .free := fun hmem =>
    hlist (h.rings.disjoint list .free uid huid hmem)
  have hmem : uid ∈ s.createdIds.filter fun uid => decide (uid ∉ queues .free) := by
    rw [List.mem_filter, mem_createdIds h, decide_eq_true_eq]
    exact ⟨made_of_mem h huid, hnot⟩
  have hpos := List.length_pos_of_mem hmem
  have hused := h.length_used
  omega

/-! ### Moves -/

/-- What a move leaves besides the pointers and the status. -/
def relinked (s : CoroutineScheduler) (links : Links CoroutineInfo) (coro : CoroutineInfo)
    (list : CoroStatus) : CoroutineScheduler :=
  { s with links := links, status := Function.update s.status coro list }

/-- The queues and the status change together. -/
theorem Lists.relinked (h : s.Lists queues) {links : Links CoroutineInfo}
    {source target : CoroStatus} {uid : Nat} (huid : uid ∈ queues source)
    (hrings : Rings links (moved queues source target uid)) :
    (s.relinked links (.coroutine uid) target).Lists (moved queues source target uid) := by
  refine ⟨hrings, ?_, h.absent, h.bound, h.size, h.room, h.small⟩
  intro list other
  rw [h.rings.mem_moved huid]
  by_cases hother : other = uid
  · subst hother
    have hmade := ((h.named source other).mp huid).1
    rw [if_pos rfl]
    constructor
    · intro htarget
      exact ⟨hmade, by simp [CoroutineScheduler.relinked, htarget]⟩
    · rintro ⟨_, hstatus⟩
      simpa [CoroutineScheduler.relinked, eq_comm] using hstatus
  · have hne : CoroutineInfo.coroutine other ≠ .coroutine uid := by simpa using hother
    simp only [hother, if_false, h.named, CoroutineScheduler.relinked, Made,
      Function.update_of_ne hne]

/-- `moveTo` of a coroutine that is on another list. -/
theorem Lists.moveTo (h : s.Lists queues) {source target : CoroStatus} {uid : Nat}
    (huid : uid ∈ queues source) (hne : source ≠ target) :
    ∃ links, s.moveTo (.coroutine uid) target =
        .ok (s.relinked links (.coroutine uid) target) ∧
      (s.relinked links (.coroutine uid) target).Lists (moved queues source target uid) := by
  rcases h.rings.move huid hne with ⟨middle, next, hdel, hadd, hrings⟩
  refine ⟨next, ?_, h.relinked huid hrings⟩
  simp only [CoroutineScheduler.moveTo, hdel, hadd, bind, Except.bind]
  rfl

end

end CoroutineScheduler

end Tarsx
