import HollowFleet.Yaml.Layout

/-!
# Nodes

A document is a tree of nodes: scalars, sequences and mappings. A node may have a name, its
anchor, and an alias stands for the node of a name.

Nodes are read off the tokens (`readNode`). An empty place stands for an empty plain scalar. A
sequence that is a key or a value of a block mapping may stand at the column of the mapping, and
then nothing tells its beginning but the mark of its first entry. In brackets a single pair is a
mapping of its own.

Every call of a reader either takes a token or hands over to one that does, so a multiple of the
number of tokens is fuel enough.
-/

namespace HollowFleet.Yaml

/-- A node, given what names are. -/
inductive Node (α : Type) where
  | reference (target : α)
  | scalar (anchor : Option α) (tag : Option TagText) (plain : Bool) (text : String)
  | sequence (anchor : Option α) (tag : Option TagText) (items : List (Node α))
  | mapping (anchor : Option α) (tag : Option TagText) (members : List (Node α × Node α))
deriving Inhabited, Repr

/-- What stands in an empty place. -/
def Node.empty {α : Type} : Node α := .scalar none none true ""

/-- Nodes that were read, and the tokens behind them. -/
abbrev Reading (α : Type) := Option (α × List Token)

/-! ### In front of a node -/

/-- An anchor and a written tag, in either order. -/
def takeMarks : List Token → Option String × Option WrittenTag × List Token
  | .anchor name :: .tag t :: rest => (some name, some t, rest)
  | .tag t :: .anchor name :: rest => (some name, some t, rest)
  | .anchor name :: rest => (some name, none, rest)
  | .tag t :: rest => (none, some t, rest)
  | ts => (none, none, ts)

/-- What an optional tag stands for. -/
def expandTag? (shorthands : Shorthands) : Option WrittenTag → Option (Option TagText)
  | none => some none
  | some t => (t.expand? shorthands).map some

/-- The tag of a scalar; the lone mark leaves it as it is. -/
def scalarTag (tag : Option TagText) : Option TagText :=
  tag.filter fun t ↦ decide (t ≠ [some '!'])

/-- The empty scalar behind an anchor or a tag; without either something is missing. -/
def emptyNode (anchor : Option String) (tag : Option TagText) (ts : List Token) :
    Reading (Node String) :=
  if anchor.isSome || tag.isSome then some (.scalar anchor tag true "", ts) else none

/-! ### Empty places -/

/-- Whether the place of an entry in a block is empty. -/
def endsEntry : List Token → Bool
  | .dash :: _ => true
  | .blockEnd :: _ => true
  | _ => false

/-- Whether the place of a key or of a value in a block is empty. -/
def endsField : List Token → Bool
  | .key :: _ => true
  | .value :: _ => true
  | .blockEnd :: _ => true
  | _ => false

/-- Whether the place of a value in brackets is empty. -/
def endsInBrackets : List Token → Bool
  | .comma :: _ => true
  | .closeBracket :: _ => true
  | _ => false

/-- Whether the place of a value in braces is empty. -/
def endsInBraces : List Token → Bool
  | .comma :: _ => true
  | .closeBrace :: _ => true
  | _ => false

/-- Takes a comma between two entries; there is none before the first. -/
def takeComma (first : Bool) : List Token → Option (List Token)
  | .comma :: rest => some (if first then .comma :: rest else rest)
  | ts => if first then some ts else none

/-! ### Reading -/

mutual

/-- Reads a node, given whether it may be a block collection, and whether it may be a sequence
at the column of the mapping around it. -/
def readNode (shorthands : Shorthands) : Nat → Bool → Bool → List Token → Reading (Node String)
  | 0, _, _, _ => none
  | _ + 1, _, _, .reference name :: rest => some (.reference name, rest)
  | fuel + 1, block, inColumn, ts =>
    let (anchor, written, ts) := takeMarks ts
    match expandTag? shorthands written with
    | none => none
    | some tag =>
      match ts with
      | .scalar plain text :: rest => some (.scalar anchor (scalarTag tag) plain text, rest)
      | .openBracket :: rest =>
        (readInBrackets shorthands fuel true rest).map fun r ↦ (.sequence anchor tag r.1, r.2)
      | .openBrace :: rest =>
        (readInBraces shorthands fuel true rest).map fun r ↦ (.mapping anchor tag r.1, r.2)
      | .dash :: rest =>
        if inColumn then
          (readInColumn shorthands fuel (.dash :: rest)).map fun r ↦ (.sequence anchor tag r.1, r.2)
        else emptyNode anchor tag (.dash :: rest)
      | .blockSequence :: rest =>
        if block then
          (readEntries shorthands fuel rest).map fun r ↦ (.sequence anchor tag r.1, r.2)
        else emptyNode anchor tag (.blockSequence :: rest)
      | .blockMapping :: rest =>
        if block then
          (readFields shorthands fuel rest).map fun r ↦ (.mapping anchor tag r.1, r.2)
        else emptyNode anchor tag (.blockMapping :: rest)
      | ts => emptyNode anchor tag ts

/-- Reads the entries of a block sequence. -/
def readEntries (shorthands : Shorthands) : Nat → List Token → Reading (List (Node String))
  | 0, _ => none
  | fuel + 1, .dash :: ts =>
    match (if endsEntry ts then some (.empty, ts) else readNode shorthands fuel true false ts) with
    | none => none
    | some (item, ts) =>
      (readEntries shorthands fuel ts).map fun r ↦ (item :: r.1, r.2)
  | _ + 1, .blockEnd :: ts => some ([], ts)
  | _ + 1, _ => none

/-- Reads the entries of a sequence at the column of the mapping around it. -/
def readInColumn (shorthands : Shorthands) : Nat → List Token → Reading (List (Node String))
  | 0, _ => none
  | fuel + 1, .dash :: ts =>
    match (if endsEntry ts || endsField ts then some (.empty, ts)
      else readNode shorthands fuel true false ts) with
    | none => none
    | some (item, ts) =>
      (readInColumn shorthands fuel ts).map fun r ↦ (item :: r.1, r.2)
  | _ + 1, ts => some ([], ts)

/-- Reads the members of a block mapping. -/
def readFields (shorthands : Shorthands) :
    Nat → List Token → Reading (List (Node String × Node String))
  | 0, _ => none
  | fuel + 1, .key :: ts =>
    match readField shorthands fuel ts with
    | none => none
    | some (key, ts) =>
      match readFieldValue shorthands fuel ts with
      | none => none
      | some (value, ts) =>
        (readFields shorthands fuel ts).map fun r ↦ ((key, value) :: r.1, r.2)
  | _ + 1, .blockEnd :: ts => some ([], ts)
  | _ + 1, _ => none

/-- Reads a key or a value of a block mapping. -/
def readField (shorthands : Shorthands) : Nat → List Token → Reading (Node String)
  | 0, _ => none
  | fuel + 1, ts =>
    if endsField ts then some (.empty, ts) else readNode shorthands fuel true true ts

/-- Reads the value behind a key of a block mapping. -/
def readFieldValue (shorthands : Shorthands) : Nat → List Token → Reading (Node String)
  | 0, _ => none
  | fuel + 1, .value :: ts => readField shorthands fuel ts
  | _ + 1, ts => some (.empty, ts)

/-- Reads the entries between brackets. -/
def readInBrackets (shorthands : Shorthands) :
    Nat → Bool → List Token → Reading (List (Node String))
  | 0, _, _ => none
  | _ + 1, _, .closeBracket :: ts => some ([], ts)
  | fuel + 1, first, ts =>
    match takeComma first ts with
    | none => none
    | some (.closeBracket :: ts) => some ([], ts)
    | some ts =>
      match readItem shorthands fuel ts with
      | none => none
      | some (item, ts) =>
        (readInBrackets shorthands fuel false ts).map fun r ↦ (item :: r.1, r.2)

/-- Reads an entry between brackets. An empty key of a single pair takes the token behind it
along. -/
def readItem (shorthands : Shorthands) : Nat → List Token → Reading (Node String)
  | 0, _ => none
  | fuel + 1, .key :: ts =>
    match (if endsInBrackets ts || ts.head? = some .value then some (.empty, ts.tail)
      else readNode shorthands fuel false false ts) with
    | none => none
    | some (key, ts) =>
      (readFlowValue shorthands endsInBrackets fuel ts).map fun r ↦
        (.mapping none none [(key, r.1)], r.2)
  | fuel + 1, ts => readNode shorthands fuel false false ts

/-- Reads the members between braces. -/
def readInBraces (shorthands : Shorthands) :
    Nat → Bool → List Token → Reading (List (Node String × Node String))
  | 0, _, _ => none
  | _ + 1, _, .closeBrace :: ts => some ([], ts)
  | fuel + 1, first, ts =>
    match takeComma first ts with
    | none => none
    | some (.closeBrace :: ts) => some ([], ts)
    | some ts =>
      match readMember shorthands fuel ts with
      | none => none
      | some (member, ts) =>
        (readInBraces shorthands fuel false ts).map fun r ↦ (member :: r.1, r.2)

/-- Reads a member between braces. What is no key stands for a key without a value. -/
def readMember (shorthands : Shorthands) :
    Nat → List Token → Reading (Node String × Node String)
  | 0, _ => none
  | fuel + 1, .key :: ts =>
    match (if endsInBraces ts || ts.head? = some .value then some (.empty, ts)
      else readNode shorthands fuel false false ts) with
    | none => none
    | some (key, ts) =>
      (readFlowValue shorthands endsInBraces fuel ts).map fun r ↦ ((key, r.1), r.2)
  | fuel + 1, ts =>
    (readNode shorthands fuel false false ts).map fun r ↦ ((r.1, .empty), r.2)

/-- Reads what follows a key in brackets or braces, given what an empty place looks like. -/
def readFlowValue (shorthands : Shorthands) (ends : List Token → Bool) :
    Nat → List Token → Reading (Node String)
  | 0, _ => none
  | fuel + 1, .value :: ts =>
    if ends ts then some (.empty, ts) else readNode shorthands fuel false false ts
  | _ + 1, ts => some (.empty, ts)

end

end HollowFleet.Yaml
