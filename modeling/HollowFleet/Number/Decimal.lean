import HollowFleet.Number.Binary64
import HollowFleet.Text.Numeral

/-!
# Decimal notation for numbers

An optional sign, digits with an optional point and at least one digit among them, and an
optional exponent; or one of the words `inf`, `infinity` and `nan` in any case. Reading keeps
the number exact (`Decimal`), and `toBinary64` rounds it once.

Reading and rounding are kept apart so that what a text says is a matter of integers: a
coefficient, made of all digits before and after the point, and an exponent, from which the places
after the point are taken away. Every digit counts, however many there are.

Exponents so far out that the rounded number is certain are answered without computing the
power of ten: an exponent from `overflowExponent` on is past the greatest finite number for every
coefficient but zero, and one that outweighs the binary digits of the coefficient by far leaves a
number nearer to zero than to the least number above it. A text of few characters may name such an
exponent, and its power of ten would have as many digits as it says.
-/

namespace HollowFleet.Number

open Text

/-- A number as it is written. -/
inductive Decimal where
  /-- `± coefficient · 10 ^ exponent`. -/
  | exact (negative : Bool) (coefficient : Nat) (exponent : Int)
  | infinite (negative : Bool)
  | undefined
deriving DecidableEq, Repr

namespace Decimal

/-! ### Reading -/

/-- Takes a sign off the front: whether it was a minus, and what follows. -/
def takeSign : List Char → Bool × List Char
  | '-' :: rest => (true, rest)
  | '+' :: rest => (false, rest)
  | cs => (false, cs)

/-- Reads what may follow the digits: nothing, or an exponent. -/
def exponent? : List Char → Option Int
  | [] => some 0
  | c :: rest => if c = 'e' ∨ c = 'E' then signed? rest else none

/-- The digits after a point at the front, and what follows them. -/
def takeFraction : List Char → List Char × List Char
  | '.' :: rest => (rest.takeWhile isDigit, rest.dropWhile isDigit)
  | cs => ([], cs)

/-- Reads digits, an optional point among or around them, and an optional exponent. -/
def unsignedDecimal? (negative : Bool) (cs : List Char) : Option Decimal :=
  let whole := cs.takeWhile isDigit
  let fraction := takeFraction (cs.dropWhile isDigit)
  if whole = [] ∧ fraction.1 = [] then none
  else (exponent? fraction.2).map fun e ↦
    exact negative (digitsValue (whole ++ fraction.1)) (e - fraction.1.length)

/-- Reads a word for a number that is not finite. -/
def word? (negative : Bool) (cs : List Char) : Option Decimal :=
  let lower := cs.map Char.toLower
  if lower = ['i', 'n', 'f'] ∨ lower = ['i', 'n', 'f', 'i', 'n', 'i', 't', 'y'] then
    some (infinite negative)
  else if lower = ['n', 'a', 'n'] then some undefined
  else none

/-- Reads a number. -/
def read? (cs : List Char) : Option Decimal :=
  let signed := takeSign cs
  match unsignedDecimal? signed.1 signed.2 with
  | some d => some d
  | none => word? signed.1 signed.2

/-! ### Rounding -/

/-- From this exponent on every coefficient but zero is past the greatest finite number. -/
def overflowExponent : Int := 400

/-- The floating point number nearest to the written one. -/
def toBinary64 : Decimal → Binary64
  | exact negative c e =>
    if c = 0 then .zero negative
    else if overflowExponent ≤ e then .infinite negative
    else if 0 ≤ e then .ofRatio negative (c * Nat.pow 10 e.toNat) 1
    else if (Nat.log2 c : Int) + 1100 < 3 * -e then .zero negative
    else .ofRatio negative c (Nat.pow 10 (-e).toNat)
  | infinite negative => .infinite negative
  | undefined => .undefined

end Decimal

end HollowFleet.Number
