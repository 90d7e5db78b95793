import HollowFleet.Json.Value
import HollowFleet.Number.Decimal

/-!
# Sound values

A source can be fine as a source and still describe a value that is no use as a whole: a text
that is none, a number past the greatest one, a nesting without end in sight. Whoever takes
only parts of a value is not bothered by that; whoever wants all of it asks `isSound`.

So soundness is not a condition on reading a source, and it is not checked on the way. A member
that nobody asks for may be unsound without any harm. It matters for the two things that are taken
as a whole: what a deletion is answered with, since it has to be told apart which of two things it
is, and the fields that somebody manages, which are kept as a value.

The depth is counted down and not up, so the recursion is on the value and the number of levels that
are left is a parameter.
-/

namespace HollowFleet.Json

/-- How deep arrays and objects may be nested. -/
def greatestDepth : Nat := 127

/-- Whether a number that is written with a point or an exponent is in range. -/
def isFinite (written : String) : Bool :=
  ((Number.Decimal.read? written.toList).map fun d ↦ d.toBinary64.isFinite).getD false

mutual

/-- Whether a value can be taken as a whole, with `depth` levels of nesting to go. -/
def isSoundTo (depth : Nat) : Json → Bool
  | unreadable => false
  | integer n => (Number.Binary64.ofNat n.natAbs).isFinite
  | fraction written => isFinite written
  | array items => decide (0 < depth) && allSoundTo (depth - 1) items
  | object ms => decide (0 < depth) && membersSoundTo (depth - 1) ms
  | _ => true

/-- The same for every item of an array. -/
def allSoundTo (depth : Nat) : List Json → Bool
  | [] => true
  | j :: rest => isSoundTo depth j && allSoundTo depth rest

/-- The same for the value of every member. -/
def membersSoundTo (depth : Nat) : List (String × Json) → Bool
  | [] => true
  | (_, j) :: rest => isSoundTo depth j && membersSoundTo depth rest

end

/-- Whether a value can be taken as a whole. -/
def isSound (j : Json) : Bool := isSoundTo greatestDepth j

/-- A value of any kind, taken as a whole. -/
def whole? (j : Json) : Option Json := if j.isSound then some j else none

end HollowFleet.Json
