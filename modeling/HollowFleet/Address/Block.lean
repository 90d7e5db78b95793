import HollowFleet.Address.Hextets
import HollowFleet.Fault
import HollowFleet.Text.Blank
import HollowFleet.Text.Split

/-!
# Blocks of addresses

A block is written as an address, a slash and the length of the part that its addresses have
in common. Only the last octet is handed out: a block that varies in earlier octets too
counts as the 254 hosts of its first network. The first and the last address of a block of
that size or smaller are not hosts, so a block longer than `longestLength` has none to offer.

## Hosts as numbers

A host is kept as its last octet, a number between `first` and `last`; the block has the octets
before it. The structure carries the bounds of these numbers, so that a block without hosts, or one
whose hosts do not fit into an octet, cannot be made. What has to be shown for that is the content
of `start_add_size_le`: a block that varies in its last octet only does not reach past it, and has
room for the two addresses that are no hosts.

## Reading

A text is a block or one of five faults, which are looked for in a fixed order: no slash, an address
that is malformed or of the other version, a length out of range, a block without a host. The fault
carries the text as it was given, blanks included. An address that comes back is read in the same
way (`host`): it must have the octets of the block, and its last octet must lie among the hosts.
There the last octet is read as any number below 256, so `10.0.0.007` names host 7, although no
address is ever written like that.
-/

namespace HollowFleet

open Text

/-- The hosts of a block: the octets that they have in common and the range of the last
one. -/
structure Block where
  /-- An address of the block; its last octet is of no interest. -/
  base : Quad
  /-- The least host. -/
  first : Nat
  /-- The greatest host. -/
  last : Nat
  /-- No host is zero. -/
  one_le_first : 1 ≤ first
  /-- There is a host. -/
  first_le_last : first ≤ last
  /-- No host is past 254. -/
  last_le : last ≤ 254
deriving DecidableEq

namespace Block

/-- The greatest length that leaves a host. -/
def longestLength : Nat := 30

/-- The number of addresses of a block of a length. -/
def size (length : Nat) : Nat := Nat.pow 2 (32 - length)

/-- The first address of the block of a length that holds `address`. -/
def start (address : Quad) (length : Nat) : Quad :=
  .ofValue (address.value / size length * size length)

/-- A block that varies in the last octet only lies within it, with room for the two
addresses that are not hosts. -/
theorem start_add_size_le (address : Quad) {length : Nat} (hshort : 24 ≤ length)
    (hlong : length ≤ longestLength) :
    4 ≤ size length ∧ (start address length).d + size length ≤ 256 := by
  have hcases : length = 24 ∨ length = 25 ∨ length = 26 ∨ length = 27 ∨ length = 28 ∨
      length = 29 ∨ length = 30 := by
    simp only [longestLength] at hlong
    omega
  rcases hcases with h | h | h | h | h | h | h <;> subst h <;>
    simp only [start, size, Quad.ofValue, Nat.pow_eq, Nat.reduceSub, Nat.reducePow] <;> omega

/-- The hosts of the block of a length that holds `address`. -/
def containing (address : Quad) (length : Nat) (hlong : length ≤ longestLength) : Block :=
  if hshort : 24 ≤ length then
    have h := start_add_size_le address hshort hlong
    ⟨start address length, (start address length).d + 1,
      (start address length).d + size length - 2, by omega, by omega, by omega⟩
  else ⟨start address length, 1, 254, by omega, by omega, by omega⟩

/-- The octets that all hosts have in common, written with points. -/
def network (b : Block) : String := b.base.network

/-- The number of hosts. -/
def capacity (b : Block) : Nat := b.last - b.first + 1

/-- The address of a host. -/
def address (b : Block) (host : Nat) : Quad := { b.base with d := host }

/-- The host that an address names, if it is one of the block's. -/
def host (b : Block) (written : String) : Except Fault Nat :=
  let refuse (cause : ForeignAddress) : Except Fault Nat := .error (.badAddress written cause)
  match splitLast? '.' (trim written.toList) with
  | none => refuse .notDotted
  | some (network, last) =>
    if String.ofList network ≠ b.network then refuse (.otherNetwork b.network)
    else match unsigned? 256 last with
      | none => refuse .malformedHost
      | some n =>
        if b.first ≤ n ∧ n ≤ b.last then .ok n
        else refuse (.outsideRange b.network b.first b.last)

/-- Reads the length of a block. -/
def length? (cs : List Char) : Option Nat := (unsigned? 256 cs).filter fun n ↦ decide (n ≤ 32)

/-- Reads a block. -/
def parse (written : String) : Except Fault Block :=
  let refuse (cause : UnusableBlock) : Except Fault Block := .error (.badBlock written cause)
  match splitFirst? '/' (trim written.toList) with
  | none => refuse .missingLength
  | some (address, length) =>
    match Quad.ofChars? address with
    | none => refuse (if Hextets.recognise address then .notVersionFour else .malformedAddress)
    | some quad =>
      match length? length with
      | none => refuse .lengthOutOfRange
      | some n => if h : n ≤ longestLength then .ok (containing quad n h) else refuse .noUsableHost

end Block

end HollowFleet
