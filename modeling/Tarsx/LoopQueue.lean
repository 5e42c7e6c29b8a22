/-
`LoopQueue`: a bounded queue in a circular array with two indices, as
`ReqInfoQueue` is one, and what its operations do to the list of its elements.
-/
import Tarsx.Foundation.CircularWindow
import Tarsx.Foundation.Word
import Tarsx.Memory

namespace Tarsx

open Foundation

universe u

/-- The fields of `LoopQueue`; `p_` is `cells`.  The memory that `malloc` gives is
indeterminate in the source and no function reads a cell before it is written; the
model fills it with the default. -/
structure LoopQueue (α : Type u) where
  capacitySub : Nat
  cells : Nat → α
  beginPos : Nat := 0
  endPos : Nat := 0
  capacitySub_lt : capacitySub < 10000
  beginPos_le : beginPos ≤ capacitySub := by omega
  endPos_le : endPos ≤ capacitySub := by omega

namespace LoopQueue

variable {α : Type u}

/-- The constructor, with its `assert`. -/
def create [Inhabited α] (size : Nat) : Except Fault (LoopQueue α) :=
  if hsize : size < 10000 then
    .ok { capacitySub := size, cells := fun _ => default, capacitySub_lt := hsize }
  else .error .assertion

def capacity (q : LoopQueue α) : Nat := q.capacitySub + 1

/-- `size()`. -/
def size (q : LoopQueue α) : Nat :=
  if q.beginPos < q.endPos then q.beginPos + q.capacity - q.endPos
  else q.beginPos - q.endPos

/-- `empty()`. -/
def empty (q : LoopQueue α) : Bool := decide (q.endPos = q.beginPos)

/-- The index behind one, as `begin_` and `end_` move. -/
def advance (q : LoopQueue α) (pos : Nat) : Nat :=
  if pos = q.capacitySub then 0 else pos + 1

theorem advance_le (q : LoopQueue α) {pos : Nat} (hpos : pos ≤ q.capacitySub) :
    q.advance pos ≤ q.capacitySub := by
  simp only [advance]
  split <;> omega

/-- The test of `push_back` for a full queue, in 32-bit arithmetic. -/
def full (q : LoopQueue α) : Bool :=
  decide ((q.endPos > q.beginPos ∧ q.endPos - q.beginPos < 2) ∨
    (q.beginPos > q.endPos ∧
      q.beginPos - q.endPos > word32Sub q.capacity 2))

/-- The queue with an element written at `begin_`. -/
def stored (q : LoopQueue α) (t : α) : LoopQueue α :=
  { q with
    cells := Function.update q.cells q.beginPos t
    beginPos := q.advance q.beginPos
    beginPos_le := q.advance_le q.beginPos_le }

/-- `push_back(t, empty)`: whether the element was stored, and the value of `empty`. -/
def pushBack (q : LoopQueue α) (t : α) : (Bool × Bool) × LoopQueue α :=
  if q.full then ((false, false), q)
  else ((true, q.empty || decide ((q.stored t).size = 1)), q.stored t)

/-- `push_back(t, empty, begin, end)`: the indices it read are handed out as well.
Where `push_back(t, empty)` assigns `empty` a second time this overload compares, so
only the first assignment counts. -/
def pushBackIndices (q : LoopQueue α) (t : α) :
    (Bool × Bool × Nat × Nat) × LoopQueue α :=
  if q.full then ((false, false, q.beginPos, q.endPos), q)
  else ((true, q.empty, q.beginPos, q.endPos), q.stored t)

/-- `push_back(t)`. -/
def pushBackElement (q : LoopQueue α) (t : α) : Bool × LoopQueue α :=
  ((q.pushBack t).1.1, (q.pushBack t).2)

/-- The test of `push_back(queue)`, where the sizes are of type `size_t`. -/
def fullFor (q : LoopQueue α) (count : Nat) : Bool :=
  decide (count > q.capacity - 1 ∨
    (q.endPos > q.beginPos ∧ q.endPos - q.beginPos < wordAdd count 1) ∨
    (q.beginPos > q.endPos ∧
      q.beginPos - q.endPos > wordSub (wordSub q.capacity count) 1))

/-- `push_back(queue)`: all elements or none. -/
def pushBackVector (q : LoopQueue α) (queue : List α) : Bool × LoopQueue α :=
  if q.fullFor queue.length then (false, q) else (true, queue.foldl stored q)

/-- The queue without the element at `end_`. -/
def dropped (q : LoopQueue α) : LoopQueue α :=
  { q with
    endPos := q.advance q.endPos
    endPos_le := q.advance_le q.endPos_le }

/-- `pop_front(t)`; no element stands for the returned `false`. -/
def popFront (q : LoopQueue α) : Option α × LoopQueue α :=
  if q.empty then (none, q) else (some (q.cells q.endPos), q.dropped)

/-- `pop_front()`. -/
def popFrontDiscard (q : LoopQueue α) : Bool × LoopQueue α :=
  if q.empty then (false, q) else (true, q.dropped)

/-- `get_front(t)`; no element stands for the returned `false`. -/
def getFront (q : LoopQueue α) : Option α :=
  if q.empty then none else some (q.cells q.endPos)

/-! ### The elements -/

/-- The elements, the oldest first. -/
def elements (q : LoopQueue α) : List α :=
  circularWindow q.capacity q.cells q.endPos q.size

theorem size_lt (q : LoopQueue α) : q.size < q.capacity := by
  have hbegin := q.beginPos_le
  have hend := q.endPos_le
  simp only [size, capacity]
  split <;> omega

/-- `begin_` is the cell behind the elements. -/
theorem slot_size (q : LoopQueue α) : slot q.capacity q.endPos q.size = q.beginPos := by
  have hbegin := q.beginPos_le
  have hend := q.endPos_le
  simp only [slot, size, capacity]
  split <;> split <;> omega

theorem advance_eq_nextSlot (q : LoopQueue α) (pos : Nat) :
    q.advance pos = nextSlot q.capacity pos := by
  simp [advance, nextSlot, capacity]

theorem create_of_lt [Inhabited α] {size : Nat} (hsize : size < 10000) :
    ∃ q : LoopQueue α, create size = .ok q ∧ q.elements = [] ∧ q.capacitySub = size :=
  ⟨_, by simp only [create, dif_pos hsize]; rfl, rfl, rfl⟩

@[simp] theorem length_elements (q : LoopQueue α) : q.elements.length = q.size :=
  length_circularWindow q.cells

theorem empty_iff (q : LoopQueue α) : q.empty = true ↔ q.elements = [] := by
  have hbegin := q.beginPos_le
  have hend := q.endPos_le
  rw [← List.length_eq_zero_iff, length_elements]
  simp only [empty, size, capacity, decide_eq_true_eq]
  split <;> omega

/-- A queue that was made for at least one element is full when it holds as many as
it was made for. -/
theorem full_iff (q : LoopQueue α) (hpos : 0 < q.capacitySub) :
    q.full = true ↔ q.elements.length = q.capacitySub := by
  have hbegin := q.beginPos_le
  have hend := q.endPos_le
  have hsmall := q.capacitySub_lt
  rw [length_elements]
  unfold full
  rw [decide_eq_true_iff, word32Sub_of_le (by simp only [capacity]; omega)
    (by simp only [capacity]; omega)]
  simp only [size, capacity]
  split <;> omega

theorem size_stored (q : LoopQueue α) (t : α) (hroom : q.size < q.capacitySub) :
    (q.stored t).size = q.size + 1 := by
  have hbegin := q.beginPos_le
  have hend := q.endPos_le
  simp only [stored, size, advance, capacity] at hroom ⊢
  split at hroom <;> split <;> split <;> omega

theorem size_dropped (q : LoopQueue α) (hne : q.size ≠ 0) :
    q.dropped.size + 1 = q.size := by
  have hbegin := q.beginPos_le
  have hend := q.endPos_le
  simp only [dropped, size, advance, capacity] at hne ⊢
  split at hne <;> split <;> split <;> omega

/-- `push_back` on a queue that is not full. -/
theorem elements_stored (q : LoopQueue α) (t : α) (hpos : 0 < q.capacitySub)
    (hfull : q.full = false) : (q.stored t).elements = q.elements ++ [t] := by
  have hroom : q.size < q.capacitySub := by
    have hnot : q.elements.length ≠ q.capacitySub := by
      intro hlen
      simp [(q.full_iff hpos).mpr hlen] at hfull
    have hlt := q.size_lt
    simp only [length_elements, capacity] at hnot hlt
    omega
  have hwrite := @circularWindow_write α q.capacity q.endPos q.size q.cells t q.size_lt
  rw [q.slot_size] at hwrite
  rw [elements, q.size_stored t hroom]
  exact hwrite

theorem elements_stored_of_room (q : LoopQueue α) (t : α)
    (hroom : q.elements.length < q.capacitySub) :
    (q.stored t).elements = q.elements ++ [t] := by
  have hpos : 0 < q.capacitySub := Nat.zero_lt_of_lt hroom
  apply q.elements_stored t hpos
  rw [Bool.eq_false_iff, ne_eq, q.full_iff hpos]
  exact hroom.ne

/-- `pop_front` takes the oldest element. -/
theorem popFront_of_elements (q : LoopQueue α) {t : α} {rest : List α}
    (helements : q.elements = t :: rest) :
    q.popFront = (some t, q.dropped) ∧ q.dropped.elements = rest := by
  have hempty : q.empty = false := by
    have hne : q.elements ≠ [] := by simp [helements]
    simpa using mt q.empty_iff.mp hne
  have hsize : q.size ≠ 0 := by
    rw [← length_elements, helements]
    simp
  have hdropped := q.size_dropped hsize
  have hfirst : q.endPos < q.capacity := Nat.lt_succ_of_le q.endPos_le
  have hcount : q.dropped.size < q.capacity := by
    have hlt := q.size_lt
    omega
  have hwindow := circularWindow_succ q.cells hfirst hcount
  rw [hdropped, ← advance_eq_nextSlot] at hwindow
  change q.elements = q.cells q.endPos :: q.dropped.elements at hwindow
  rw [helements, List.cons.injEq] at hwindow
  rcases hwindow with ⟨hhead, htail⟩
  constructor
  · simp [popFront, hempty, hhead]
  · exact htail.symm

theorem popFront_of_empty (q : LoopQueue α) (helements : q.elements = []) :
    q.popFront = (none, q) := by
  simp [popFront, q.empty_iff.mpr helements]

end LoopQueue

end Tarsx
