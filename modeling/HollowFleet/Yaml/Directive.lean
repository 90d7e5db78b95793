import HollowFleet.Yaml.Tag

/-!
# Directives

Lines in front of a document about how to read it. They begin with a percent sign. One tells
the version of the format, and the other what the handle of a tag stands for; there are no
others.

A directive of another name is a fault, and not skipped. A directive takes its line to the end, but
for blanks and a comment, and what is left of it is checked in the same way as behind other things
that end a line. Whether a version is one that can be read, and whether a handle was declared
before, is not asked here but where the directives of a document are put together.
-/

namespace HollowFleet.Yaml

open Text

/-- A line in front of a document about how to read it. -/
inductive Directive where
  /-- The version of the format. -/
  | version (major minor : Nat)
  /-- What a handle stands for. -/
  | shorthand (handle : String) (expansion : TagText)
deriving DecidableEq, Repr

/-- The greatest number of digits in a part of a version. -/
def greatestDigits : Nat := 9

/-- Reads a part of a version. -/
def readVersionPart (cs : List Char) : Option (Nat × List Char) :=
  let digits := cs.takeWhile isDigit
  if digits.length ≤ greatestDigits then
    (numeral? digits).map fun n ↦ (n, cs.dropWhile isDigit)
  else none

/-- Reads a version. -/
def readVersion (cs : List Char) : Option (Directive × List Char) := do
  let (major, rest) ← readVersionPart (cs.dropWhile isBlank)
  match rest with
  | '.' :: rest =>
    let (minor, rest) ← readVersionPart rest
    return (.version major minor, rest)
  | _ => none

/-- Reads the declaration of a handle. -/
def readShorthand (cs : List Char) : Option (Directive × List Char) := do
  match cs.dropWhile isBlank with
  | '!' :: cs =>
    let name := cs.takeWhile isNameChar
    let (handle, rest) ← match cs.dropWhile isNameChar with
      | '!' :: rest => some (handleOf name, rest)
      | rest => if name = [] then some ("!", rest) else none
    guard ((rest.head?.map isBlank).getD false)
    let (expansion, rest) ← readUriSome true (rest.dropWhile isBlank)
    guard (endsWord rest)
    return (.shorthand handle expansion, rest)
  | _ => none

/-- Reads a directive behind its percent sign, and what is left of its line. -/
def readDirective (cs : List Char) : Option (Directive × List Char) := do
  let name := cs.takeWhile isNameChar
  let rest := cs.dropWhile isNameChar
  guard (endsWord rest)
  let (directive, rest) ←
    if name = ['Y', 'A', 'M', 'L'] then readVersion rest
    else if name = ['T', 'A', 'G'] then readShorthand rest
    else none
  return (directive, ← endLine? rest)

end HollowFleet.Yaml
