/-
`atoi` on the bytes of a string, as glibc computes it.
-/
import Tarsx.Foundation.Word

namespace Tarsx

open Foundation

/-- `isspace` in the C locale. -/
def isSpace (byte : UInt8) : Bool := byte = 32 || (9 ≤ byte && byte ≤ 13)

def isDigit (byte : UInt8) : Bool := 48 ≤ byte && byte ≤ 57

/-- The byte `'-'`. -/
def minus : UInt8 := 45

/-- The byte `'+'`. -/
def plus : UInt8 := 43

/-- The number that decimal digits denote. -/
def decimalValue (digits : List UInt8) : Nat :=
  digits.foldl (fun value byte => 10 * value + (byte.toNat - 48)) 0

/-- The integer that a text begins with behind white space, if there is one. -/
def leadingInteger (text : List UInt8) : Option Int :=
  match text.dropWhile isSpace with
  | [] => none
  | byte :: rest =>
      let digits :=
        (if byte = minus ∨ byte = plus then rest else byte :: rest).takeWhile isDigit
      if digits = [] then none
      else some (if byte = minus then -(decimalValue digits : Int) else decimalValue digits)

/-- `LONG_MAX`. -/
def longMax : Int := 9223372036854775807

/-- `strtol` stops at the bounds of `long`, and the cast keeps the low 32 bits. -/
def atoi (text : List UInt8) : Int :=
  let value := (leadingInteger text).getD 0
  toInt32 (toUInt32 (max (-longMax - 1) (min value longMax)))

theorem atoi_of_none {text : List UInt8} (hnone : leadingInteger text = none) :
    atoi text = 0 := by
  rw [atoi, hnone]
  rfl

theorem atoi_of_leadingInteger {text : List UInt8} {value : Int}
    (hvalue : leadingInteger text = some value) (hlow : -2147483648 ≤ value)
    (hhigh : value < 2147483648) : atoi text = value := by
  have hclamp : max (-longMax - 1) (min value longMax) = value := by
    unfold longMax
    omega
  simp only [atoi, hvalue, Option.getD_some]
  rw [hclamp]
  unfold toInt32 toUInt32
  split <;> omega

example : atoi [32, 45, 49, 50, 58] = -12 := by decide

end Tarsx
