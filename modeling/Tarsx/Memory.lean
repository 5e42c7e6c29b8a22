/-
The faults a step of the program can end in, and heap blocks of bytes as
`new char[n]`, `memcpy` and `memmove` use them.
-/
import Mathlib.Data.List.Basic

namespace Tarsx

/-- How a function of the program can fail to return. -/
inductive Fault where
  /-- An `assert` whose condition is false. -/
  | assertion
  /-- A loop that never ends. -/
  | nonterminating
  /-- A null pointer is dereferenced. -/
  | nullPointer
  /-- An access outside the block or the container. -/
  | outOfBounds
  /-- A `std::string` is built from more bytes than there are. -/
  | lengthError
  /-- `front()` of an empty list. -/
  | emptyList
  /-- An iterator to an element that is no longer there is used. -/
  | danglingIterator
  /-- A pointer to something that was deleted is used. -/
  | danglingPointer
  /-- `LOG_SYSFATAL`, which ends the process. -/
  | aborted
  /-- A signed integer leaves its type. -/
  | overflow
deriving DecidableEq, Repr

/-- A pointer to a heap block; `none` is `nullptr`. -/
abbrev Block := Option (List UInt8)

/-- `new char[size]`.  The bytes are indeterminate in the source and no function
of the program reads one before it is written; the model fills them with 0.  A `new` that
fails, and throws, is left out. -/
def newBlock (size : Nat) : Block := some (List.replicate size 0)

/-- Read `size` bytes at `offset`. -/
def load (block : Block) (offset size : Nat) : Except Fault (List UInt8) :=
  match block with
  | none => if size = 0 then .ok [] else .error .nullPointer
  | some bytes =>
      if offset + size ≤ bytes.length then .ok ((bytes.drop offset).take size)
      else .error .outOfBounds

/-- Write `data` at `offset`, leaving the other bytes of the block. -/
def store (block : Block) (offset : Nat) (data : List UInt8) :
    Except Fault Block :=
  match block with
  | none => if data = [] then .ok none else .error .nullPointer
  | some bytes =>
      if offset + data.length ≤ bytes.length then
        .ok (some (bytes.take offset ++ data ++ bytes.drop (offset + data.length)))
      else .error .outOfBounds

/-- The bytes of a block between two positions. -/
def window (block : Block) (first last : Nat) : List UInt8 :=
  ((block.getD []).drop first).take (last - first)

theorem load_eq_window {bytes : List UInt8} {first last : Nat}
    (hfirst : first ≤ last) (hlast : last ≤ bytes.length) :
    load (some bytes) first (last - first) =
      .ok (window (some bytes) first last) := by
  simp only [load, window, Option.getD_some]
  rw [if_pos (by omega)]

theorem length_window {bytes : List UInt8} {first last : Nat}
    (hfirst : first ≤ last) (hlast : last ≤ bytes.length) :
    (window (some bytes) first last).length = last - first := by
  simp only [window, Option.getD_some, List.length_take, List.length_drop]
  omega

theorem store_of_fits {bytes data : List UInt8} {offset : Nat}
    (hfits : offset + data.length ≤ bytes.length) :
    store (some bytes) offset data = .ok (some
      (bytes.take offset ++ data ++ bytes.drop (offset + data.length))) := by
  simp only [store, if_pos hfits]

theorem length_stored {bytes data : List UInt8} {offset : Nat}
    (hfits : offset + data.length ≤ bytes.length) :
    (bytes.take offset ++ data ++ bytes.drop (offset + data.length)).length =
      bytes.length := by
  simp only [List.length_append, List.length_take, List.length_drop]
  omega

/-- What is stored at the end of a window extends the window. -/
theorem window_stored {bytes data : List UInt8} {first last : Nat}
    (hfirst : first ≤ last) (hfits : last + data.length ≤ bytes.length) :
    window (some (bytes.take last ++ data ++ bytes.drop (last + data.length)))
        first (last + data.length) =
      window (some bytes) first last ++ data := by
  have hdrop : (bytes.take last ++ (data ++ bytes.drop (last + data.length))).drop
      first = (bytes.take last).drop first ++
        (data ++ bytes.drop (last + data.length)) := by
    rw [List.drop_append_of_le_length]
    simp only [List.length_take]
    omega
  have hlen : ((bytes.take last).drop first).length = last - first := by
    simp only [List.length_drop, List.length_take]
    omega
  have hsize : last + data.length - first =
      ((bytes.take last).drop first).length + data.length := by omega
  simp only [window, Option.getD_some, List.append_assoc]
  rw [hdrop, hsize, List.take_length_add_append, List.take_left',
    List.drop_take]
  rfl

/-- Storing at the start of a fresh block. -/
theorem window_stored_zero (bytes data : List UInt8) :
    window (some (bytes.take 0 ++ data ++ bytes.drop (0 + data.length)))
      0 data.length = data := by
  simp only [window, Option.getD_some, List.take_zero, List.nil_append,
    List.drop_zero, Nat.sub_zero, List.take_left']

end Tarsx
