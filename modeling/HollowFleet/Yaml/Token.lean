import HollowFleet.Yaml.Directive

/-!
# Tokens

What a source is made of. The brackets of flow collections and the marks of entries, keys and
values are written down; where block collections begin and end is told by the columns.

So some tokens have no characters of their own: the beginning and the end of a block collection, and
the beginning of a key without a mark. Tokens carry no places. Whether a collection is one of
brackets or of columns can be told from the tokens, and the readers of nodes go by that, as the two
differ in what may be left out.
-/

namespace HollowFleet.Yaml

/-- A token. -/
inductive Token where
  | directive (content : Directive)
  | documentStart
  | documentEnd
  /-- A block sequence begins. -/
  | blockSequence
  /-- A block mapping begins. -/
  | blockMapping
  /-- The innermost block collection ends. -/
  | blockEnd
  | openBracket
  | closeBracket
  | openBrace
  | closeBrace
  | comma
  /-- The mark of an entry of a block sequence. -/
  | dash
  /-- A key begins here, with a mark of its own or without. -/
  | key
  /-- The colon in front of a value. -/
  | value
  | reference (name : String)
  | anchor (name : String)
  | tag (written : WrittenTag)
  | scalar (plain : Bool) (text : String)
deriving DecidableEq, Repr

/-- Whether a character may follow a name. -/
def closesName (c : Char) : Bool := "?:,]\x7d%@\x60".toList.contains c

/-- Reads the name of an anchor or an alias. -/
def readName (cs : List Char) : Option (String × List Char) :=
  let name := cs.takeWhile isNameChar
  let rest := cs.dropWhile isNameChar
  if name ≠ [] ∧ (endsWord rest || (rest.head?.map closesName).getD false) then
    some (String.ofList name, rest)
  else none

end HollowFleet.Yaml
