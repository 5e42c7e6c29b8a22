/-
A memory of bytes whose 64-bit addresses wrap around, and words of several bytes in it, the
lowest byte first.
-/
import Mathlib.Algebra.Group.Nat.Defs
import Mathlib.Logic.Function.Basic

namespace Foundation

abbrev Address := BitVec 64

abbrev ByteMemory := Address → BitVec 8

/-- The address is one of the `n` from `a` on. -/
def Covers (a : Address) (n : Nat) (x : Address) : Prop := (x - a).toNat < n

instance (a : Address) (n : Nat) (x : Address) : Decidable (Covers a n x) :=
  inferInstanceAs (Decidable ((x - a).toNat < n))

/-- Two ranges have no address in common. -/
def Apart (a : Address) (n : Nat) (b : Address) (k : Nat) : Prop :=
  ∀ x, Covers a n x → ¬ Covers b k x

namespace ByteMemory

/-- The word of `n` bytes at an address. -/
def load (m : ByteMemory) : (n : Nat) → Address → BitVec (8 * n)
  | 0, _ => 0#0
  | n + 1, a => load m n (a + 1) ++ m a

/-- A word is written at an address. -/
def store (m : ByteMemory) (n : Nat) (a : Address) (word : BitVec (8 * n)) : ByteMemory :=
  fun x => if Covers a n x then word.extractLsb' (8 * (x - a).toNat) 8 else m x

/-- Two memories hold the same bytes at the addresses. -/
def Agree (p : Address → Prop) (m other : ByteMemory) : Prop := ∀ x, p x → m x = other x

end ByteMemory

section

variable {m other : ByteMemory} {a b : Address} {n k : Nat}

theorem Covers.add {i : Nat} (hi : i < n) (hn : n ≤ 2 ^ 64) :
    Covers a n (a + BitVec.ofNat 64 i) := by
  rw [Covers]
  bv_omega

theorem Apart.symm (h : Apart a n b k) : Apart b k a n := fun x hb ha => h x ha hb

/-- A part of a range. -/
theorem Covers.of_part {i x : Address} (hx : Covers (a + i) k x) (hfits : i.toNat + k ≤ n) :
    Covers a n x := by
  rw [Covers] at hx ⊢
  bv_omega

/-- A range is its first part and the rest. -/
theorem Covers.parts {i x : Address} (hx : Covers a (i.toNat + k) x) :
    Covers a i.toNat x ∨ Covers (a + i) k x := by
  rw [Covers] at hx
  rw [Covers, Covers]
  bv_omega

/-- Two parts of a range one behind the other. -/
theorem apart_parts {i j : Address} (h : i.toNat + n ≤ j.toNat ∨ j.toNat + k ≤ i.toNat)
    (hi : i.toNat + n ≤ 2 ^ 64) (hj : j.toNat + k ≤ 2 ^ 64) : Apart (a + i) n (a + j) k := by
  intro x hx hother
  rw [Covers] at hx hother
  bv_omega

/-- One range below another. -/
theorem apart_below (h : a.toNat + n ≤ b.toNat) (hb : b.toNat + k ≤ 2 ^ 64) : Apart a n b k := by
  intro x hx hother
  rw [Covers] at hx hother
  bv_omega

theorem Apart.part {i : Address} {j : Nat} (h : Apart a n b k) (hfits : i.toNat + j ≤ n) :
    Apart (a + i) j b k :=
  fun x hx => h x (hx.of_part hfits)

theorem ByteMemory.getLsbD_load {i : Nat} (hi : i < 8 * n) :
    (m.load n a).getLsbD i = (m (a + BitVec.ofNat 64 (i / 8))).getLsbD (i % 8) := by
  induction n generalizing a i with
  | zero => omega
  | succ n ih =>
      rw [load, BitVec.getLsbD_append]
      by_cases hlow : i < 8
      · rw [if_pos hlow, Nat.div_eq_of_lt hlow, Nat.mod_eq_of_lt hlow]
        simp
      · have hdiv : i / 8 = 1 + (i - 8) / 8 := by omega
        have hnext : a + 1 + BitVec.ofNat 64 ((i - 8) / 8) = a + BitVec.ofNat 64 (i / 8) := by
          rw [hdiv, BitVec.ofNat_add, BitVec.add_assoc]
          rfl
        rw [if_neg hlow, ih (by omega), hnext, Nat.mod_eq_sub_mod (Nat.le_of_not_lt hlow)]

theorem ByteMemory.load_congr (h : ByteMemory.Agree (Covers a n) m other) (hn : n ≤ 2 ^ 64) :
    m.load n a = other.load n a := by
  apply BitVec.eq_of_getLsbD_eq
  intro i hi
  rw [getLsbD_load hi, getLsbD_load hi, h _ (Covers.add (by omega) hn)]

theorem ByteMemory.store_of_covers {word : BitVec (8 * n)} {x : Address} (hx : Covers a n x) :
    m.store n a word x = word.extractLsb' (8 * (x - a).toNat) 8 :=
  if_pos hx

theorem ByteMemory.store_of_not_covers {word : BitVec (8 * n)} {x : Address}
    (hx : ¬ Covers a n x) : m.store n a word x = m x :=
  if_neg hx

theorem ByteMemory.load_store (hn : n ≤ 2 ^ 64) {word : BitVec (8 * n)} :
    (m.store n a word).load n a = word := by
  apply BitVec.eq_of_getLsbD_eq
  intro i hi
  have hbyte : (a + BitVec.ofNat 64 (i / 8) - a).toNat = i / 8 := by
    rw [BitVec.add_comm, BitVec.add_sub_cancel, BitVec.toNat_ofNat]
    exact Nat.mod_eq_of_lt (by omega)
  rw [getLsbD_load hi, store_of_covers (Covers.add (by omega) hn), hbyte,
    BitVec.getLsbD_extractLsb', Nat.div_add_mod, decide_eq_true (Nat.mod_lt i (by decide)),
    Bool.true_and]

theorem ByteMemory.load_store_of_apart (h : Apart a n b k) (hk : k ≤ 2 ^ 64)
    {word : BitVec (8 * n)} : (m.store n a word).load k b = m.load k b :=
  load_congr (fun _ hx => store_of_not_covers (h.symm _ hx)) hk

/-- A word is read behind or before the one written. -/
theorem ByteMemory.load_store_part {i j : Address} {word : BitVec (8 * n)}
    (h : i.toNat + n ≤ j.toNat ∨ j.toNat + k ≤ i.toNat) (hi : i.toNat + n ≤ 2 ^ 64)
    (hj : j.toNat + k ≤ 2 ^ 64) : (m.store n (a + i) word).load k (a + j) = m.load k (a + j) :=
  load_store_of_apart (apart_parts h hi hj) (by omega)

end

end Foundation
