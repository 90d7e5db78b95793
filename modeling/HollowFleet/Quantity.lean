import HollowFleet.Fault
import HollowFleet.Number.Decimal
import HollowFleet.Text.Blank
import HollowFleet.Text.Split

/-!
# Resource quantities

Amounts such as `100m`, `2`, `512Mi`, `1.5Gi` and `1e3`: a number and at most one suffix. The
value is a floating point number in base units. Memory is counted in bytes and processor
time in thousandths of a core; what is left of a unit counts as a whole one, except for a
rounding slack that absorbs the noise of the floating point product, and a count never passes
`greatestAmount`.

## Suffix or exponent

A text is split at its end: the first suffix that fits is taken off, and what is left is read as a
number. As `E` is a suffix and also begins an exponent, `1E3` and `1E` are told apart by where the
letter stands; only a text that ends in a letter has a suffix. That `Mi` is tried before `M` is a
matter of care and not of necessity, since no text ends in both.

## What is refused

Of a quantity the value has to be finite and not below zero before the factor is applied. The
product is not looked at again: it may be infinite, and then the count is the greatest amount.
A negative zero is a zero. Whatever is refused, the fault carries the text as it was given.

An amount that is not above the slack counts as nothing.
-/

namespace HollowFleet

open Number Text

namespace Quantity

/-- A suffix and the factor that it stands for. -/
structure Suffix where
  /-- How the suffix is written. -/
  text : List Char
  /-- The factor. -/
  factor : Binary64

/-- `1024 ^ k`. -/
def binaryFactor (k : Nat) : Binary64 := .ofNat (Nat.pow 1024 k)

/-- `10 ^ k`. -/
def decimalFactor (k : Nat) : Binary64 := .ofNat (Nat.pow 10 k)

/-- The suffixes, in the order in which they are tried: the longer ones first, so that `Mi`
is never read as `M`. -/
def suffixes : List Suffix :=
  [⟨['K', 'i'], binaryFactor 1⟩, ⟨['M', 'i'], binaryFactor 2⟩, ⟨['G', 'i'], binaryFactor 3⟩,
   ⟨['T', 'i'], binaryFactor 4⟩, ⟨['P', 'i'], binaryFactor 5⟩, ⟨['E', 'i'], binaryFactor 6⟩,
   ⟨['m'], .ofRatio false 1 1000⟩, ⟨['k'], decimalFactor 3⟩, ⟨['M'], decimalFactor 6⟩,
   ⟨['G'], decimalFactor 9⟩, ⟨['T'], decimalFactor 12⟩, ⟨['P'], decimalFactor 15⟩,
   ⟨['E'], decimalFactor 18⟩]

/-- The number before the first suffix that fits, and the factor of that suffix. -/
def splitSuffix (cs : List Char) : List Char × Binary64 :=
  (suffixes.findSome? fun s ↦ (stripEnding? s.text cs).map fun number ↦ (number, s.factor)).getD
    (cs, .ofNat 1)

/-- The value of a quantity in base units. -/
def parse (raw : String) : Except Fault Binary64 :=
  let cs := trim raw.toList
  if cs = [] then .error (.invalid .emptyQuantity)
  else
    let parts := splitSuffix cs
    match Decimal.read? parts.1 with
    | none => .error (.invalid (.malformedQuantity raw))
    | some written =>
      let value := written.toBinary64
      if value.isFinite && !value.isBelowZero then .ok (value.mul parts.2)
      else .error (.invalid (.unboundedQuantity raw))

/-- The greatest amount that is counted. -/
def greatestAmount : Nat := 18446744073709551615

/-- What is taken off a value before what is left of a unit counts as a whole one. -/
def roundingSlack : Binary64 := .ofRatio false 1 1000000000

/-- The number of units needed for a value. -/
def units (value : Binary64) : Nat := (value.sub roundingSlack).ceilWithin greatestAmount

/-- A memory quantity in bytes. -/
def bytes (raw : String) : Except Fault Nat := (parse raw).map units

/-- A processor quantity in thousandths of a core. -/
def millis (raw : String) : Except Fault Nat :=
  (parse raw).map fun cores ↦ units (cores.mul (.ofNat 1000))

end Quantity

end HollowFleet
