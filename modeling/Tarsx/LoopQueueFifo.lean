/-
`LoopQueue` as a bounded queue: over any sequence of its operations a queue made for
`size` elements answers as a first-in first-out queue of at most `size` items does.
-/
import Tarsx.Foundation.BoundedFifo
import Tarsx.Foundation.Run
import Tarsx.LoopQueue

namespace Tarsx

open Foundation

universe u

namespace LoopQueue

variable {α : Type u}

/-! ### The vector overload -/

/-- The test of the vector overload is exact, for a queue of any size. -/
theorem fullFor_iff (q : LoopQueue α) (count : Nat) :
    q.fullFor count = true ↔ ¬ q.elements.length + count ≤ q.capacitySub := by
  have hbegin := q.beginPos_le
  have hend := q.endPos_le
  have hsmall := q.capacitySub_lt
  rw [length_elements, fullFor, decide_eq_true_iff]
  by_cases hcount : count ≤ q.capacitySub
  · have hadd : wordAdd count 1 = count + 1 := wordAdd_of_lt (by omega)
    have hsub : wordSub (wordSub q.capacity count) 1 = q.capacitySub - count := by
      have hcapacity : q.capacity = q.capacitySub + 1 := rfl
      have hinner : wordSub q.capacity count = q.capacity - count :=
        wordSub_of_le (by omega) (by omega)
      rw [hinner, wordSub_of_le (by omega) (by omega)]
      omega
    rw [hadd, hsub]
    simp only [size, capacity]
    split <;> omega
  · simp only [capacity]
    omega

/-- The loop of the vector overload. -/
theorem elements_foldl_stored (ts : List α) : ∀ q : LoopQueue α,
    q.elements.length + ts.length ≤ q.capacitySub →
      (ts.foldl stored q).elements = q.elements ++ ts ∧
        (ts.foldl stored q).capacitySub = q.capacitySub := by
  induction ts with
  | nil => exact fun q _ => ⟨(List.append_nil _).symm, rfl⟩
  | cons t rest ih =>
      intro q hfits
      rw [List.length_cons] at hfits
      have hone := q.elements_stored_of_room t (by omega)
      have hrest := ih (q.stored t) (by
        rw [hone, List.length_append, List.length_singleton]
        change q.elements.length + 1 + rest.length ≤ q.capacitySub
        omega)
      rw [List.foldl_cons, hrest.1, hone, List.append_assoc, List.singleton_append]
      exact ⟨rfl, hrest.2⟩

/-! ### Runs -/

/-- The calls of `LoopQueue`. -/
inductive Op (α : Type u) where
  | pushBack (t : α)
  | pushBackIndices (t : α)
  | pushBackElement (t : α)
  | pushBackVector (queue : List α)
  | popFront
  | popFrontDiscard
  | getFront
  | size
  | empty

/-- What a call tells its caller; `begin` and `end` of `pushBackIndices` are places in
the array and not part of it. -/
inductive Out (α : Type u) where
  | pushed (ok : Bool)
  | pushedEmpty (ok empty : Bool)
  | element (t : Option α)
  | popped (ok : Bool)
  | size (n : Nat)
  | empty (b : Bool)

def opStep (q : LoopQueue α) : Op α → Except Fault (LoopQueue α × Out α)
  | .pushBack t => .ok ((q.pushBack t).2, .pushedEmpty (q.pushBack t).1.1 (q.pushBack t).1.2)
  | .pushBackIndices t => .ok ((q.pushBackIndices t).2,
      .pushedEmpty (q.pushBackIndices t).1.1 (q.pushBackIndices t).1.2.1)
  | .pushBackElement t => .ok ((q.pushBackElement t).2, .pushed (q.pushBackElement t).1)
  | .pushBackVector queue =>
      .ok ((q.pushBackVector queue).2, .pushed (q.pushBackVector queue).1)
  | .popFront => .ok (q.popFront.2, .element q.popFront.1)
  | .popFrontDiscard => .ok (q.popFrontDiscard.2, .popped q.popFrontDiscard.1)
  | .getFront => .ok (q, .element q.getFront)
  | .size => .ok (q, .size q.size)
  | .empty => .ok (q, .empty q.empty)

/-- The same calls on a bounded queue.  A push that is refused reports `empty` as
false. -/
def fifoStep {bound : Nat} (q : BoundedFifo α bound) : Op α → BoundedFifo α bound × Out α
  | .pushBack t =>
      ((q.push [t]).2, .pushedEmpty (q.push [t]).1 ((q.push [t]).1 && q.items.isEmpty))
  | .pushBackIndices t =>
      ((q.push [t]).2, .pushedEmpty (q.push [t]).1 ((q.push [t]).1 && q.items.isEmpty))
  | .pushBackElement t => ((q.push [t]).2, .pushed (q.push [t]).1)
  | .pushBackVector queue => ((q.push queue).2, .pushed (q.push queue).1)
  | .popFront => (q.pop.2, .element q.pop.1)
  | .popFrontDiscard => (q.pop.2, .popped q.pop.1.isSome)
  | .getFront => (q, .element q.pop.1)
  | .size => (q, .size q.items.length)
  | .empty => (q, .empty q.items.isEmpty)

/-- The queue holds the items of the bounded queue and was made for its bound. -/
structure Holds {bound : Nat} (q : LoopQueue α) (fifo : BoundedFifo α bound) : Prop where
  elements : q.elements = fifo.items
  capacitySub : q.capacitySub = bound

section

variable {bound : Nat} {q : LoopQueue α} {fifo : BoundedFifo α bound}

theorem Holds.empty_eq (h : Holds q fifo) : q.empty = fifo.items.isEmpty := by
  rw [Bool.eq_iff_iff, q.empty_iff, h.elements, List.isEmpty_iff]

/-- One element is stored exactly when fewer than `bound` are there. -/
theorem Holds.push_one (h : Holds q fifo) (hpos : 0 < bound) (t : α) :
    (q.full = true ∧ fifo.push [t] = (false, fifo)) ∨
      (q.full = false ∧ (fifo.push [t]).1 = true ∧
        Holds (q.stored t) (fifo.push [t]).2) := by
  have hfull := q.full_iff (by rw [h.capacitySub]; exact hpos)
  rw [h.elements, h.capacitySub] at hfull
  by_cases hroom : fifo.items.length + 1 ≤ bound
  · obtain ⟨hok, hitems⟩ := @BoundedFifo.push_of_fits _ _ fifo [t] hroom
    refine Or.inr ⟨?_, hok, ?_, h.capacitySub⟩
    · rw [Bool.eq_false_iff, ne_eq, hfull]
      exact (Nat.lt_of_succ_le hroom).ne
    · rw [hitems, ← h.elements]
      apply q.elements_stored_of_room
      rw [h.elements, h.capacitySub]
      exact hroom
  · refine Or.inl ⟨hfull.mpr ?_, BoundedFifo.push_of_not_fits hroom⟩
    exact Nat.le_antisymm fifo.fits (Nat.le_of_not_lt hroom)

/-- An element stored in a queue that is not empty does not make its size 1. -/
theorem Holds.empty_report (h : Holds q fifo) (hpos : 0 < bound) (t : α)
    (hfull : q.full = false) :
    (q.empty || decide ((q.stored t).size = 1)) = q.empty := by
  have hroom : q.size < q.capacitySub := by
    have hnot := mt (q.full_iff (by rw [h.capacitySub]; exact hpos)).mpr (by simp [hfull])
    have hlt := q.size_lt
    rw [length_elements] at hnot
    simp only [capacity] at hlt
    omega
  rw [q.size_stored t hroom]
  cases hempty : q.empty with
  | true => rfl
  | false =>
      have hsome : q.size ≠ 0 := by
        rw [← length_elements]
        intro hzero
        have hyes := q.empty_iff.mpr (List.eq_nil_of_length_eq_zero hzero)
        rw [hempty] at hyes
        contradiction
      simpa using hsome

/-- One call, whatever the queue holds: it answers as the bounded queue does. -/
theorem Holds.step (h : Holds q fifo) (hpos : 0 < bound) (op : Op α) :
    ∃ next, opStep q op = .ok (next, (fifoStep fifo op).2) ∧
      Holds next (fifoStep fifo op).1 := by
  have hempty := h.empty_eq
  cases op with
  | pushBack t =>
      rcases h.push_one hpos t with ⟨hfull, hpush⟩ | ⟨hfull, hok, hnext⟩
      · exact ⟨q, by simp [opStep, fifoStep, pushBack, hfull, hpush],
          by simpa [fifoStep, hpush] using h⟩
      · refine ⟨q.stored t, ?_, hnext⟩
        have hreport := h.empty_report hpos t hfull
        rw [hempty] at hreport
        simp only [opStep, fifoStep, pushBack, hfull, Bool.false_eq_true, if_false, hempty,
          hreport, hok, Bool.true_and]
  | pushBackIndices t =>
      rcases h.push_one hpos t with ⟨hfull, hpush⟩ | ⟨hfull, hok, hnext⟩
      · exact ⟨q, by simp [opStep, fifoStep, pushBackIndices, hfull, hpush],
          by simpa [fifoStep, hpush] using h⟩
      · refine ⟨q.stored t, ?_, hnext⟩
        simp only [opStep, fifoStep, pushBackIndices, hfull, Bool.false_eq_true, if_false,
          hempty, hok, Bool.true_and]
  | pushBackElement t =>
      rcases h.push_one hpos t with ⟨hfull, hpush⟩ | ⟨hfull, hok, hnext⟩
      · exact ⟨q, by simp [opStep, fifoStep, pushBackElement, pushBack, hfull, hpush],
          by simpa [fifoStep, hpush] using h⟩
      · exact ⟨q.stored t, by simp [opStep, fifoStep, pushBackElement, pushBack, hfull, hok],
          hnext⟩
  | pushBackVector queue =>
      have hfull := q.fullFor_iff queue.length
      rw [h.elements, h.capacitySub] at hfull
      by_cases hroom : fifo.items.length + queue.length ≤ bound
      · obtain ⟨hok, hitems⟩ := BoundedFifo.push_of_fits hroom
        have hnot : q.fullFor queue.length = false := by
          rw [Bool.eq_false_iff, ne_eq, hfull, not_not]
          exact hroom
        obtain ⟨helements, hsame⟩ := elements_foldl_stored queue q (by
          rw [h.elements, h.capacitySub]
          exact hroom)
        refine ⟨queue.foldl stored q, ?_, ?_, hsame.trans h.capacitySub⟩
        · simp [opStep, fifoStep, pushBackVector, hnot, hok]
        · rw [helements, h.elements]
          exact hitems.symm
      · have hrefused := BoundedFifo.push_of_not_fits hroom
        refine ⟨q, ?_, ?_⟩
        · simp [opStep, fifoStep, pushBackVector, hfull.mpr hroom, hrefused]
        · simpa [fifoStep, hrefused] using h
  | popFront =>
      cases hitems : fifo.items with
      | nil =>
          have hpop := q.popFront_of_empty (h.elements.trans hitems)
          refine ⟨q, by simp [opStep, fifoStep, BoundedFifo.pop, hpop, hitems], ?_,
            h.capacitySub⟩
          simp [fifoStep, BoundedFifo.pop, h.elements, hitems]
      | cons t rest =>
          obtain ⟨hpop, hrest⟩ := q.popFront_of_elements (h.elements.trans hitems)
          refine ⟨q.dropped, by simp [opStep, fifoStep, BoundedFifo.pop, hpop, hitems], ?_,
            h.capacitySub⟩
          simp [fifoStep, BoundedFifo.pop, hrest, hitems]
  | popFrontDiscard =>
      cases hitems : fifo.items with
      | nil =>
          refine ⟨q, by simp [opStep, fifoStep, BoundedFifo.pop, popFrontDiscard, hempty,
            hitems], ?_, h.capacitySub⟩
          simp [fifoStep, BoundedFifo.pop, h.elements, hitems]
      | cons t rest =>
          obtain ⟨_, hrest⟩ := q.popFront_of_elements (h.elements.trans hitems)
          refine ⟨q.dropped, by simp [opStep, fifoStep, BoundedFifo.pop, popFrontDiscard,
            hempty, hitems], ?_, h.capacitySub⟩
          simp [fifoStep, BoundedFifo.pop, hrest, hitems]
  | getFront =>
      refine ⟨q, ?_, h⟩
      cases hitems : fifo.items with
      | nil => simp [opStep, fifoStep, BoundedFifo.pop, getFront, hempty, hitems]
      | cons t rest =>
          obtain ⟨hpop, _⟩ := q.popFront_of_elements (h.elements.trans hitems)
          have hfront : q.empty = false := by simp [hempty, hitems]
          simp only [popFront, hfront, Bool.false_eq_true, if_false, Prod.mk.injEq,
            Option.some.injEq, and_true] at hpop
          simp [opStep, fifoStep, BoundedFifo.pop, getFront, hfront, hitems, hpop]
  | size =>
      refine ⟨q, ?_, h⟩
      rw [opStep, fifoStep, ← h.elements, length_elements]
  | empty => exact ⟨q, by rw [opStep, fifoStep, hempty], h⟩

end

/-- A queue made for `size` elements, over any calls: it answers as a first-in
first-out queue of at most `size` items, holds the same elements, and in every state
so reached the two overloads for one element leave the same queue and report `empty`
when it was empty. -/
theorem loopQueue_refines_fifo [Inhabited α] {size : Nat} (hpos : 1 ≤ size)
    (hsize : size < 10000) (ops : List (Op α)) :
    ∃ q last, create size = .ok q ∧
      trace opStep q ops =
        .ok (last, (specTrace fifoStep (.nil : BoundedFifo α size) ops).2) ∧
      last.elements = (specTrace fifoStep (.nil : BoundedFifo α size) ops).1.items ∧
      ∀ t, (last.pushBackIndices t).2 = (last.pushBack t).2 ∧
        (last.pushBackIndices t).1.1 = (last.pushBack t).1.1 ∧
        (last.pushBackIndices t).1.2.1 = (last.pushBack t).1.2 ∧
        ((last.pushBack t).1.2 = true ↔ last.elements = []) := by
  obtain ⟨q, hcreate, helements, hcapacity⟩ := @create_of_lt α _ _ hsize
  have hstart : Holds q (.nil : BoundedFifo α size) := ⟨helements, hcapacity⟩
  obtain ⟨last, htrace, hlast⟩ := trace_simulates
    (fun q fifo op h _ => Holds.step h hpos op) hstart
    (along_true : Along (quiet opStep) (fun _ _ => True) q ops)
  refine ⟨q, last, hcreate, htrace, hlast.elements, ?_⟩
  intro t
  rcases hlast.push_one hpos t with ⟨hfull, _⟩ | ⟨hfull, _, _⟩
  · have hsome : last.elements ≠ [] := by
      intro hnil
      have hlength := (last.full_iff (by rw [hlast.capacitySub]; exact hpos)).mp hfull
      rw [hnil, hlast.capacitySub, List.length_nil] at hlength
      omega
    simp [pushBackIndices, pushBack, hfull, hsome]
  · simp only [pushBackIndices, pushBack, hfull, Bool.false_eq_true, if_false,
      hlast.empty_report hpos t hfull, true_and]
    exact last.empty_iff

/-- Two elements in a queue for two, a third that is refused, and one taken out. -/
theorem loopQueue_refines_fifo_two :
    ∃ q last, create 2 = .ok q ∧
      trace opStep q [.pushBack 7, .pushBackVector [8, 9], .pushBackIndices 8, .popFront] =
        .ok (last, [.pushedEmpty true true, .pushed false, .pushedEmpty true false,
          .element (some 7)]) ∧ last.elements = [(8 : Nat)] := by
  obtain ⟨q, last, hcreate, htrace, helements, _⟩ :=
    @loopQueue_refines_fifo Nat _ 2 (by decide) (by decide)
      [.pushBack 7, .pushBackVector [8, 9], .pushBackIndices 8, .popFront]
  exact ⟨q, last, hcreate, htrace, helements⟩

end LoopQueue

end Tarsx
