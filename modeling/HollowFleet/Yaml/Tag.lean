import HollowFleet.Text.Numeral
import HollowFleet.Yaml.Cursor

/-!
# Tags

A node may say what it is by a tag, which is an identifier. It is written in full between angle
brackets, or as a handle and a suffix; what a handle stands for is declared in front of a
document (`Shorthands`).

An identifier may hold escapes of the octets of a character. Some of them are well formed and
yet stand for no character, so a tag need not be a text.

A written tag is kept as it is written (`WrittenTag`) until the directives of its document are
known, and expanded then. The escapes of one character have to be complete, and a sequence of octets
that is longer than it needs to be stands for no character.
-/

namespace HollowFleet.Yaml

open Text

/-- The characters of a tag; nothing for an escape that stands for none. -/
abbrev TagText := List (Option Char)

namespace TagText

/-- A tag that is a text. -/
def ofString (s : String) : TagText := s.toList.map some

/-- The text of a tag. -/
def text? (t : TagText) : Option String := (t.mapM id).map String.ofList

end TagText

/-! ### Escapes -/

/-- Reads the escape of an octet. -/
def readOctet : List Char → Option (Nat × List Char)
  | '%' :: a :: b :: rest => (numeralInBase? 16 [a, b]).map fun n ↦ (n, rest)
  | _ => none

/-- Reads the escapes of some octets that are not the first of a character. -/
def readTrailing : Nat → Nat → List Char → Option (Nat × List Char)
  | 0, n, cs => some (n, cs)
  | k + 1, n, cs =>
    match readOctet cs with
    | none => none
    | some (octet, rest) =>
      if octet / 64 = 2 then readTrailing k (n * 64 + octet % 64) rest else none

/-- The number of further octets, the bits that the first one adds, and the least number that
needs so many octets. -/
def leading? (octet : Nat) : Option (Nat × Nat × Nat) :=
  if octet < 0x80 then some (0, octet, 0)
  else if octet < 0xC0 then none
  else if octet < 0xE0 then some (1, octet - 0xC0, 0x80)
  else if octet < 0xF0 then some (2, octet - 0xE0, 0x800)
  else if octet < 0xF8 then some (3, octet - 0xF0, 0x10000)
  else none

/-- Reads the escape of a character. -/
def readEscape (cs : List Char) : Option (Option Char × List Char) := do
  let (octet, rest) ← readOctet cs
  let (trailing, bits, least) ← leading? octet
  let (n, rest) ← readTrailing trailing bits rest
  return (if least ≤ n ∧ n.isValidChar then some (Char.ofNat n) else none, rest)

/-! ### Identifiers -/

/-- Whether a character may stand in an identifier, given whether the identifier is written in
full. -/
def isUriChar (full : Bool) (c : Char) : Bool :=
  isNameChar c || ";/?:@&=+$.!~*'()".toList.contains c || (full && [',', '[', ']'].contains c)

/-- Reads the characters of an identifier. -/
def readUriFrom (full : Bool) : Nat → List Char → Option (TagText × List Char)
  | 0, cs => some ([], cs)
  | _ + 1, [] => some ([], [])
  | fuel + 1, c :: rest =>
    if c = '%' then
      match readEscape (c :: rest) with
      | none => none
      | some (x, rest) => (readUriFrom full fuel rest).map fun r ↦ (x :: r.1, r.2)
    else if isUriChar full c then
      (readUriFrom full fuel rest).map fun r ↦ (some c :: r.1, r.2)
    else some ([], c :: rest)

/-- Reads an identifier, perhaps an empty one. A character of number zero ends it, and the
rest of it is lost. -/
def readUri (full : Bool) (cs : List Char) : Option (TagText × List Char) :=
  (readUriFrom full cs.length cs).map fun r ↦
    (r.1.takeWhile fun c ↦ decide (c ≠ some '\x00'), r.2)

/-- Reads an identifier that is not empty. -/
def readUriSome (full : Bool) (cs : List Char) : Option (TagText × List Char) :=
  (readUri full cs).filter fun r ↦ decide (r.2.length < cs.length)

/-! ### Handles -/

/-- What the handles of tags stand for. -/
abbrev Shorthands := List (String × TagText)

/-- The handles that need no declaration. -/
def Shorthands.standard : Shorthands :=
  [("!", .ofString "!"), ("!!", .ofString "tag:yaml.org,2002:")]

/-- A tag as it is written. One without a handle has the empty handle. -/
structure WrittenTag where
  handle : String
  suffix : TagText
deriving DecidableEq, Repr

/-- What a written tag stands for; nothing if its handle is not declared. -/
def WrittenTag.expand? (t : WrittenTag) (shorthands : Shorthands) : Option TagText :=
  if t.handle = "" then some t.suffix
  else (shorthands.lookup t.handle).map fun expansion ↦ expansion ++ t.suffix

/-- The handle whose name is given. -/
def handleOf (name : List Char) : String := String.ofList ('!' :: name ++ ['!'])

/-- Reads a tag behind its exclamation mark. A lone mark is a tag of its own. -/
def readTagFrom : List Char → Option (WrittenTag × List Char)
  | '<' :: cs => do
    let (suffix, rest) ← readUriSome true cs
    match rest with
    | '>' :: rest => return (⟨"", suffix⟩, rest)
    | _ => none
  | cs =>
    let name := cs.takeWhile isNameChar
    match cs.dropWhile isNameChar with
    | '!' :: rest => (readUriSome false rest).map fun r ↦ (⟨handleOf name, r.1⟩, r.2)
    | rest => (readUri false rest).map fun r ↦
      match name.map some ++ r.1 with
      | [] => (⟨"", [some '!']⟩, r.2)
      | suffix => (⟨"!", suffix⟩, r.2)

/-- Reads a tag behind its exclamation mark. A blank has to follow, or a comma in brackets. -/
def readTag (inFlow : Bool) (cs : List Char) : Option (WrittenTag × List Char) :=
  (readTagFrom cs).filter fun r ↦ endsWord r.2 || (inFlow && r.2.head? = some ',')

end HollowFleet.Yaml
