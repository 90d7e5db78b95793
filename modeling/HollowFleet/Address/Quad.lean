import HollowFleet.Text.Numeral

/-!
# Dotted quads

Addresses of version four: four octets, written in decimal without leading zeros and joined
by points. An address stands for a number of 32 bits, the first octet being the most
significant one (`value`); `ofValue_value` says that nothing is lost.

The octets are natural numbers without a bound. That they are below 256 is what reading sees to
(`takeOctet?` takes at most three digits and refuses what is past 255), and the two directions
between an address and its number ask for it where it is needed: `ofValue_value` for the last three
octets, and `value_ofValue` for none, since an octet too large is only the first one.

Reading goes from left to right and never turns back. `take?` takes an address off the front and
leaves the rest to the caller, for an address may be followed by more, as it is within an address of
the other version; `ofChars?` asks that nothing is left. Leading zeros are refused because some
readers take them for a sign of octal notation, so that one text would name two addresses.
-/

namespace HollowFleet

open Text

/-- An address of version four. -/
@[ext]
structure Quad where
  /-- The first octet. -/
  a : Nat
  /-- The second octet. -/
  b : Nat
  /-- The third octet. -/
  c : Nat
  /-- The last octet. -/
  d : Nat
deriving DecidableEq, Repr

namespace Quad

/-- The address as one number. -/
def value (q : Quad) : Nat := ((q.a * 256 + q.b) * 256 + q.c) * 256 + q.d

/-- The address that a number stands for. -/
def ofValue (v : Nat) : Quad := ⟨v / 16777216, v / 65536 % 256, v / 256 % 256, v % 256⟩

theorem ofValue_value {q : Quad} (hb : q.b < 256) (hc : q.c < 256) (hd : q.d < 256) :
    ofValue q.value = q := by
  ext <;> simp only [ofValue, value] <;> omega

theorem value_ofValue (v : Nat) : (ofValue v).value = v := by
  simp only [ofValue, value]
  omega

/-- The first three octets, written with points. -/
def network (q : Quad) : String := toString q.a ++ "." ++ toString q.b ++ "." ++ toString q.c

/-- The address as it is written. -/
def text (q : Quad) : String := q.network ++ "." ++ toString q.d

/-! ### Reading -/

/-- Takes an octet off the front: at most three digits, no leading zero, at most 255. -/
def takeOctet? (cs : List Char) : Option (Nat × List Char) :=
  let digits := cs.takeWhile isDigit
  let n := digitsValue digits
  if digits ≠ [] ∧ digits.length ≤ 3 ∧ (digits.head? = some '0' → digits.length = 1) ∧ n < 256 then
    some (n, cs.dropWhile isDigit)
  else none

/-- Takes a point and an octet off the front. -/
def takeDottedOctet? : List Char → Option (Nat × List Char)
  | '.' :: rest => takeOctet? rest
  | _ => none

/-- Takes an address off the front. -/
def take? (cs : List Char) : Option (Quad × List Char) := do
  let (a, cs) ← takeOctet? cs
  let (b, cs) ← takeDottedOctet? cs
  let (c, cs) ← takeDottedOctet? cs
  let (d, cs) ← takeDottedOctet? cs
  return (⟨a, b, c, d⟩, cs)

/-- Reads an address and nothing else. -/
def ofChars? (cs : List Char) : Option Quad :=
  match take? cs with
  | some (q, []) => some q
  | _ => none

end Quad

end HollowFleet
