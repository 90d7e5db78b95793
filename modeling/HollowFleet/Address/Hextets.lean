import HollowFleet.Address.Quad

/-!
# Addresses of version six

Recognition only: eight groups of up to four digits in base sixteen, joined by colons. Once,
two colons in a row stand for one or more groups of zeros, and the last two groups may be
written as a dotted quad.

No pool has such addresses. They are recognised because a block of them is refused for another
reason than a text that is no address at all, and the reason is told. So nothing is kept of an
address but that it is one, and of its groups only how many there are (`Groups`).

Reading goes from left to right: `takeGroups` takes as many groups as there are, up to a number, and
tries a dotted quad before a group wherever two groups would still fit. A text of eight groups has
to end there; one of fewer has to go on with the two colons, and behind them with at most seven
groups in all. Zones and ports are no part of an address.
-/

namespace HollowFleet.Hextets

open Text

/-- Whether `c` is a digit in base sixteen. -/
def isHexDigit (c : Char) : Bool := (hexDigit? c).isSome

/-- Takes a group off the front: one to four digits. -/
def takeGroup? (cs : List Char) : Option (List Char) :=
  let digits := cs.takeWhile isHexDigit
  if digits ≠ [] ∧ digits.length ≤ 4 then some (cs.dropWhile isHexDigit) else none

/-- Takes the colon before a group off the front; the first group has none. -/
def takeColon? (first : Bool) (cs : List Char) : Option (List Char) :=
  if first then some cs
  else match cs with
    | ':' :: rest => some rest
    | _ => none

/-- How many groups were taken, whether the last two of them were a dotted quad, and what
follows. -/
structure Groups where
  /-- The number of groups. -/
  count : Nat
  /-- Whether a dotted quad came last. -/
  quad : Bool
  /-- What follows. -/
  rest : List Char

/-- Takes as many groups off the front as there are, at most `left`, after `count` were
taken. -/
def takeGroups (count : Nat) (cs : List Char) : Nat → Groups
  | 0 => ⟨count, false, cs⟩
  | left + 1 =>
    match takeColon? (count == 0) cs with
    | none => ⟨count, false, cs⟩
    | some body =>
      match if left = 0 then none else Quad.take? body with
      | some (_, rest) => ⟨count + 2, true, rest⟩
      | none =>
        match takeGroup? body with
        | some rest => takeGroups (count + 1) rest left
        | none => ⟨count, false, cs⟩

/-- Whether a text is an address of version six. -/
def recognise (cs : List Char) : Bool :=
  let head := takeGroups 0 cs 8
  if head.count = 8 then head.rest.isEmpty
  else if head.quad then false
  else match head.rest with
    | ':' :: ':' :: rest => (takeGroups 0 rest (7 - head.count)).rest.isEmpty
    | _ => false

end HollowFleet.Hextets
