/-
Fixed-width integers over the naturals: 64-bit unsigned arithmetic with its
wrap-around, two's complement for 32-bit signed values, four-byte big-endian
words, and rounding up to a power of two.
-/
import Mathlib.Data.Nat.Log
import Mathlib.Data.List.Basic
import Mathlib.Tactic.Linarith

namespace Foundation

/-! ### Unsigned 64-bit arithmetic -/

def wordAdd (a b : Nat) : Nat := (a + b) % 2 ^ 64

def wordSub (a b : Nat) : Nat := (a + (2 ^ 64 - b)) % 2 ^ 64

def wordMul (a b : Nat) : Nat := (a * b) % 2 ^ 64

/-- Shift left by one bit. -/
def wordDouble (a : Nat) : Nat := (2 * a) % 2 ^ 64

theorem wordAdd_of_lt {a b : Nat} (h : a + b < 2 ^ 64) : wordAdd a b = a + b :=
  Nat.mod_eq_of_lt h

theorem wordSub_of_le {a b : Nat} (hle : b ≤ a) (hlt : a < 2 ^ 64) :
    wordSub a b = a - b := by
  unfold wordSub
  omega

theorem wordDouble_of_lt {a : Nat} (h : 2 * a < 2 ^ 64) :
    wordDouble a = 2 * a :=
  Nat.mod_eq_of_lt h

/-! ### Unsigned 32-bit arithmetic -/

def word32Add (a b : Nat) : Nat := (a + b) % 2 ^ 32

def word32Sub (a b : Nat) : Nat := (a + (2 ^ 32 - b)) % 2 ^ 32

theorem word32Add_of_lt {a b : Nat} (h : a + b < 2 ^ 32) : word32Add a b = a + b :=
  Nat.mod_eq_of_lt h

theorem word32Sub_of_le {a b : Nat} (hle : b ≤ a) (hlt : a < 2 ^ 32) :
    word32Sub a b = a - b := by
  unfold word32Sub
  omega

/-! ### Signed 32-bit values -/

/-- The value of the low 32 bits read as a two's complement number. -/
def toInt32 (n : Nat) : Int :=
  if n % 2 ^ 32 < 2 ^ 31 then (n % 2 ^ 32 : Nat)
  else ((n % 2 ^ 32 : Nat) : Int) - 2 ^ 32

/-- Conversion of a signed value to a 64-bit unsigned one. -/
def toWord (z : Int) : Nat := (z % 2 ^ 64).toNat

/-- Conversion of a signed value to a 32-bit unsigned one. -/
def toUInt32 (z : Int) : Nat := (z % 2 ^ 32).toNat

theorem toInt32_of_lt {n : Nat} (h : n < 2 ^ 31) : toInt32 n = n := by
  have hmod : n % 2 ^ 32 = n := Nat.mod_eq_of_lt (by omega)
  simp only [toInt32, hmod, if_pos h]

theorem toInt32_neg_iff (n : Nat) : toInt32 n < 0 ↔ 2 ^ 31 ≤ n % 2 ^ 32 := by
  unfold toInt32
  split <;> omega

theorem toInt32_le (n : Nat) : toInt32 n ≤ n := by
  unfold toInt32
  split <;> omega

theorem toInt32_lt (n : Nat) : toInt32 n < 2 ^ 31 := by
  unfold toInt32
  split <;> omega

theorem neg_le_toInt32 (n : Nat) : -2 ^ 31 ≤ toInt32 n := by
  unfold toInt32
  split <;> omega

@[simp] theorem toUInt32_toInt32 (n : Nat) : toUInt32 (toInt32 n) = n % 2 ^ 32 := by
  unfold toUInt32 toInt32
  split <;> omega

theorem toWord_of_nonneg {z : Int} (hnonneg : 0 ≤ z) (hlt : z < 2 ^ 64) :
    toWord z = z.toNat := by
  rw [toWord, Int.emod_eq_of_lt hnonneg hlt]

theorem toWord_of_neg {z : Int} (hneg : z < 0) (hge : -2 ^ 64 ≤ z) :
    (toWord z : Int) = z + 2 ^ 64 := by
  unfold toWord
  omega

theorem toInt32_inj {a b : Nat} : toInt32 a = toInt32 b ↔ a % 2 ^ 32 = b % 2 ^ 32 := by
  unfold toInt32
  split <;> split <;> omega

/-- A count that goes through an `int` and back is right up to the word size of the `int`. -/
theorem toWord_toInt32_mod (n : Nat) : toWord (toInt32 n) % 2 ^ 32 = n % 2 ^ 32 := by
  unfold toWord toInt32
  split <;> omega

/-! ### Four-byte big-endian words -/

/-- The four bytes of the low 32 bits, most significant first. -/
def encodeBE32 (n : Nat) : List UInt8 :=
  [UInt8.ofNat (n / 2 ^ 24), UInt8.ofNat (n / 2 ^ 16),
    UInt8.ofNat (n / 2 ^ 8), UInt8.ofNat n]

@[simp] theorem length_encodeBE32 (n : Nat) : (encodeBE32 n).length = 4 := rfl

/-- The number that a list of bytes denotes, most significant first. -/
def decodeBE (bytes : List UInt8) : Nat :=
  bytes.foldl (fun value byte => 256 * value + byte.toNat) 0

theorem decodeBE_encodeBE32 {n : Nat} (h : n < 2 ^ 32) :
    decodeBE (encodeBE32 n) = n := by
  simp only [decodeBE, encodeBE32, List.foldl_cons, List.foldl_nil,
    UInt8.toNat_ofNat']
  omega

/-- The sign bit of a four-byte word is the top bit of its first byte. -/
theorem decodeBE_four (b₀ b₁ b₂ b₃ : UInt8) :
    decodeBE [b₀, b₁, b₂, b₃] =
      b₀.toNat * 2 ^ 24 + b₁.toNat * 2 ^ 16 + b₂.toNat * 2 ^ 8 + b₃.toNat := by
  simp only [decodeBE, List.foldl_cons, List.foldl_nil]
  omega

theorem toInt32_decodeBE_neg_iff (b₀ b₁ b₂ b₃ : UInt8) :
    toInt32 (decodeBE [b₀, b₁, b₂, b₃]) < 0 ↔ 128 ≤ b₀.toNat := by
  rw [toInt32_neg_iff, decodeBE_four]
  have h₀ := b₀.toNat_lt
  have h₁ := b₁.toNat_lt
  have h₂ := b₂.toNat_lt
  have h₃ := b₃.toNat_lt
  omega

/-! ### Powers of two -/

/-- Zero, or a power of two that fits 64 bits. -/
def ZeroOrPow2 (n : Nat) : Prop := n = 0 ∨ ∃ k, k ≤ 63 ∧ n = 2 ^ k

theorem ZeroOrPow2.le {n : Nat} (h : ZeroOrPow2 n) : n ≤ 2 ^ 63 := by
  rcases h with rfl | ⟨k, hk, rfl⟩
  · exact Nat.zero_le _
  · exact Nat.pow_le_pow_right (by decide) hk

/-- The least power of two that is at least `n`. -/
def pow2Ceil (n : Nat) : Nat := 2 ^ Nat.clog 2 n

theorem le_pow2Ceil (n : Nat) : n ≤ pow2Ceil n := Nat.le_pow_clog (by decide) n

theorem pow2Ceil_le_pow {n k : Nat} (h : n ≤ 2 ^ k) : pow2Ceil n ≤ 2 ^ k :=
  Nat.pow_le_pow_right (by decide) (Nat.clog_le_of_le_pow h)

@[simp] theorem pow2Ceil_pow (k : Nat) : pow2Ceil (2 ^ k) = 2 ^ k := by
  rw [pow2Ceil, Nat.clog_pow 2 k (by decide)]

theorem pow2Ceil_zeroOrPow2 {n : Nat} (h : n ≤ 2 ^ 63) :
    ZeroOrPow2 (pow2Ceil n) :=
  Or.inr ⟨Nat.clog 2 n, Nat.clog_le_of_le_pow h, rfl⟩

end Foundation
