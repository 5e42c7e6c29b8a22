/-
The growable byte buffer of the connections and transceivers, function by
function, and one specification lemma for each operation.  The positions and
sizes are `size_t`, so differences, sums, products and shifts are the wrapping
ones; the lemmas show where the invariant keeps them from wrapping.
-/
import Tarsx.Foundation.Word
import Tarsx.Memory

namespace Tarsx

open Foundation

namespace Buffer

/-- `std::numeric_limits<size_t>::max() / 2`. -/
def maxBufferSize : Nat := (2 ^ 64 - 1) / 2

def defaultSize : Nat := 128

end Buffer

/-- `kHeaderSize`: four length bytes and the separator. -/
def kHeaderSize : Nat := 5

/-- The fields of `Buffer`; `buffer` is the `new char[]` block. -/
structure Buffer where
  readPos : Nat := 0
  writePos : Nat := 0
  capacity : Nat := 0
  buffer : Block := none
  highWaterPercent : Nat := 50
deriving DecidableEq, Repr

namespace Buffer

/-- The loop of `detail::roundUp2Power`.  After 64 doublings `roundUp` is 0 for
good, so a loop that takes more than 64 never ends. -/
def roundUpLoop : Nat → Nat → Nat → Except Fault Nat
  | 0, _, _ => .error .nonterminating
  | fuel + 1, roundUp, size =>
      if roundUp < size then roundUpLoop fuel (wordDouble roundUp) size
      else .ok roundUp

def roundUp2Power (size : Nat) : Except Fault Nat :=
  if size = 0 then .ok 0 else roundUpLoop 65 1 size

def readableSize (b : Buffer) : Nat := wordSub b.writePos b.readPos

def writableSize (b : Buffer) : Nat := wordSub b.capacity b.writePos

def empty (b : Buffer) : Bool := b.readableSize == 0

def clear (b : Buffer) : Buffer := { b with readPos := 0, writePos := 0 }

def produce (b : Buffer) (bytes : Nat) : Buffer :=
  { b with writePos := wordAdd b.writePos bytes }

def consume (b : Buffer) (bytes : Nat) : Except Fault Buffer :=
  if wordAdd b.readPos bytes ≤ b.writePos then
    let advanced := { b with readPos := wordAdd b.readPos bytes }
    .ok (if advanced.empty then advanced.clear else advanced)
  else .error .assertion

/-- The `while` loop of `assureSpace`, which changes `capacity_` only.  Every
turn moves the capacity to a larger power of two and past `2 ^ 63` the assertion
fails, so 66 turns are never used up. -/
def growLoop (readPos writePos needsize : Nat) : Nat → Nat → Except Fault Nat
  | 0, _ => .error .nonterminating
  | fuel + 1, capacity =>
      if wordAdd (wordSub capacity writePos) readPos < needsize then
        if capacity < defaultSize then
          growLoop readPos writePos needsize fuel defaultSize
        else if capacity ≤ maxBufferSize then do
          let newCapacity ← roundUp2Power capacity
          if capacity < newCapacity then
            growLoop readPos writePos needsize fuel newCapacity
          else growLoop readPos writePos needsize fuel (wordDouble newCapacity)
        else .error .assertion
      else .ok capacity

/-- The end of `assureSpace`: the readable bytes go to the start of a new block
if the capacity grew, and to the start of the old one otherwise. -/
def relocate (b : Buffer) (capacity : Nat) : Except Fault Block :=
  if b.capacity < capacity then
    if b.readableSize ≠ 0 then do
      let data ← load b.buffer b.readPos b.readableSize
      store (newBlock capacity) 0 data
    else .ok (newBlock capacity)
  else if 0 < b.readPos then do
    let data ← load b.buffer b.readPos b.readableSize
    store b.buffer 0 data
  else .error .assertion

def assureSpace (b : Buffer) (needsize : Nat) : Except Fault Buffer :=
  if needsize ≤ b.writableSize then .ok b
  else do
    let capacity ← growLoop b.readPos b.writePos needsize 66 b.capacity
    let block ← b.relocate capacity
    let result :=
      { b with capacity := capacity, buffer := block, readPos := 0, writePos := b.readableSize }
    if needsize ≤ result.writableSize then .ok result else .error .assertion

/-- `data` is `none` for a null pointer; otherwise its length is `size`. -/
def pushData (b : Buffer) (data : Option (List UInt8)) : Except Fault (Nat × Buffer) :=
  match data with
  | none => .ok (0, b)
  | some bytes =>
      if bytes.length = 0 then .ok (0, b)
      else if maxBufferSize ≤ wordAdd b.readableSize bytes.length then .ok (0, b)
      else do
        let roomy ← b.assureSpace bytes.length
        let block ← store roomy.buffer roomy.writePos bytes
        .ok (bytes.length, produce { roomy with buffer := block } bytes.length)

/-- `buf` tells whether the destination pointer is non-null; the bytes copied
there are returned, and their number is the function's result. -/
def popData (b : Buffer) (buf : Bool) (size : Nat) : Except Fault (List UInt8 × Buffer) :=
  let dataSize := b.readableSize
  if buf = false ∨ size = 0 ∨ dataSize = 0 then .ok ([], b)
  else do
    let bytes ← load b.buffer b.readPos (min size dataSize)
    let rest ← b.consume (min size dataSize)
    .ok (bytes, rest)

/-- The bytes that `peekData` gives the address and the size of. -/
def peekData (b : Buffer) : Except Fault (List UInt8) :=
  load b.buffer b.readPos b.readableSize

def shrink (b : Buffer) : Except Fault Buffer :=
  if b.empty then .ok { b.clear with capacity := 0, buffer := none }
  else if b.capacity ≤ defaultSize then .ok b
  else if wordMul b.capacity b.highWaterPercent < wordMul b.readableSize 100 then .ok b
  else do
    let dataSize := b.readableSize
    let newcap ← roundUp2Power dataSize
    let data ← load b.buffer b.readPos dataSize
    let block ← store (newBlock newcap) 0 data
    .ok { b with buffer := block, capacity := newcap, readPos := 0, writePos := dataSize }

/-- What a caller does through `writeAddr()` before `produce`. -/
def writeAt (b : Buffer) (data : List UInt8) : Except Fault Buffer := do
  let block ← store b.buffer b.writePos data
  .ok { b with buffer := block }

/-- `a.swap(b)`; the high-water mark stays with each buffer. -/
def swap (a b : Buffer) : Buffer × Buffer :=
  ({ b with highWaterPercent := a.highWaterPercent },
    { a with highWaterPercent := b.highWaterPercent })

/-! ### The invariant and the bytes a buffer holds -/

/-- The readable bytes, between the read and the write position. -/
def contents (b : Buffer) : List UInt8 := window b.buffer b.readPos b.writePos

/-- The relation between the positions, the capacity and the block. -/
structure WellFormed (b : Buffer) : Prop where
  readPos_le : b.readPos ≤ b.writePos
  writePos_le : b.writePos ≤ b.capacity
  capacity_pow : ZeroOrPow2 b.capacity
  null_iff : b.capacity = 0 ↔ b.buffer = none
  allocated : ∀ bytes, b.buffer = some bytes → bytes.length = b.capacity

theorem wellFormed_default : WellFormed {} := by
  refine ⟨Nat.le_refl _, Nat.le_refl _, Or.inl rfl, by simp, ?_⟩
  intro bytes hbytes
  simp at hbytes

theorem contents_default : contents {} = [] := rfl

section Positions

variable {b : Buffer}

theorem WellFormed.capacity_le (h : b.WellFormed) : b.capacity ≤ 2 ^ 63 :=
  h.capacity_pow.le

theorem WellFormed.readableSize_eq (h : b.WellFormed) :
    b.readableSize = b.writePos - b.readPos := by
  have hcap := h.capacity_le
  have hwrite := h.writePos_le
  exact wordSub_of_le h.readPos_le (by omega)

theorem WellFormed.writableSize_eq (h : b.WellFormed) :
    b.writableSize = b.capacity - b.writePos := by
  have hcap := h.capacity_le
  exact wordSub_of_le h.writePos_le (by omega)

/-- The block of a buffer whose capacity is not zero. -/
theorem WellFormed.exists_block (h : b.WellFormed) (hpos : 0 < b.capacity) :
    ∃ bytes, b.buffer = some bytes ∧ bytes.length = b.capacity := by
  cases hblock : b.buffer with
  | none =>
      have := h.null_iff.mpr hblock
      omega
  | some bytes => exact ⟨bytes, rfl, h.allocated bytes hblock⟩

theorem WellFormed.length_contents (h : b.WellFormed) :
    b.contents.length = b.writePos - b.readPos := by
  have hread := h.readPos_le
  have hwrite := h.writePos_le
  rcases Nat.eq_zero_or_pos b.capacity with hzero | hpos
  · have hlen : b.writePos - b.readPos = 0 := by omega
    simp [contents, window, hlen]
  · obtain ⟨bytes, hblock, hlen⟩ := h.exists_block hpos
    rw [contents, hblock, length_window hread (by omega)]

theorem WellFormed.readableSize_eq_length (h : b.WellFormed) :
    b.readableSize = b.contents.length := by
  rw [h.readableSize_eq, h.length_contents]

theorem WellFormed.length_contents_le (h : b.WellFormed) :
    b.contents.length ≤ b.capacity := by
  have hlen := h.length_contents
  have hwrite := h.writePos_le
  omega

theorem WellFormed.empty_iff (h : b.WellFormed) :
    b.empty = true ↔ b.contents = [] := by
  rw [empty, beq_iff_eq, h.readableSize_eq_length, List.length_eq_zero_iff]

/-- Reading the whole readable window never faults. -/
theorem WellFormed.load_readable (h : b.WellFormed) :
    load b.buffer b.readPos b.readableSize = .ok b.contents := by
  have hread := h.readPos_le
  have hwrite := h.writePos_le
  rw [h.readableSize_eq]
  rcases Nat.eq_zero_or_pos b.capacity with hzero | hpos
  · have hnull := h.null_iff.mp hzero
    have hlen : b.writePos - b.readPos = 0 := by omega
    simp [contents, window, load, hnull, hlen]
  · obtain ⟨bytes, hblock, hlen⟩ := h.exists_block hpos
    rw [contents, hblock, load_eq_window hread (by omega)]

theorem WellFormed.peekData_eq (h : b.WellFormed) :
    b.peekData = .ok b.contents := h.load_readable

end Positions

end Buffer

end Tarsx
