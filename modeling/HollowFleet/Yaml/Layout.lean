import HollowFleet.Yaml.Scalar.Block
import HollowFleet.Yaml.Scalar.Plain
import HollowFleet.Yaml.Scalar.Quoted
import HollowFleet.Yaml.Token

/-!
# The layout of a source

Outside of brackets the columns tell where collections begin and end. Each open block collection
has a column. A token further in than all of them may begin another (`Layout.openBlock`), and a
token in front of a column closes the collection of that column (`Layout.closeBlocks`).

A key needs no mark of its own: only the colon behind it tells that it was one. So the place of
a possible key is kept (`KeyPlace`), and when the colon comes the marks of the key, and of the
mapping that it may begin, are put in front of what was read since (`Layout.insert`). Such a
key is on one line and not long. At the column of a block collection nothing but a key or an
entry may begin, and there the colon has to come.

Every step takes a character, so the length of the source is fuel enough (`tokens?`).
-/

namespace HollowFleet.Yaml

/-- A place where a key may have begun. -/
structure KeyPlace where
  /-- The number of tokens before it. -/
  number : Nat
  /-- Whether nothing but a key may stand here. -/
  required : Bool
  /-- The number of characters before it. -/
  index : Nat
  line : Nat
  column : Nat
deriving DecidableEq, Repr

/-- The greatest number of characters between the beginning of a key and its colon, if the key
has no mark of its own. -/
def KeyPlace.reach : Nat := 1024

/-- Whether a key that began here may still end at a place. -/
def KeyPlace.reaches (k : KeyPlace) (c : Cursor) : Bool :=
  decide (c.line ≤ k.line) && decide (c.index ≤ k.index + reach)

/-- A source that was read up to some place. -/
structure Layout where
  place : Cursor
  /-- The tokens so far, in reverse. -/
  tokens : List Token := []
  /-- The number of tokens so far. -/
  count : Nat := 0
  /-- The columns of the open block collections, the innermost first. -/
  columns : List Nat := []
  /-- The possible key inside the innermost bracket. -/
  candidate : Option KeyPlace := none
  /-- The possible keys around each open bracket, the innermost first. -/
  outer : List (Option KeyPlace) := []
  /-- Whether a key may begin here. -/
  allowsKey : Bool := true

namespace Layout

/-- Whether the place is inside brackets. -/
def inFlow (l : Layout) : Bool := !l.outer.isEmpty

/-- The least column that is further in than the open block collections. -/
def margin (l : Layout) : Nat := (l.columns.head?.map fun n ↦ n + 1).getD 0

/-! ### Tokens -/

/-- Adds a token. -/
def emit (l : Layout) (t : Token) : Layout :=
  { l with tokens := t :: l.tokens, count := l.count + 1 }

/-- Adds a token in front of all but the first `n`. -/
def insert (l : Layout) (n : Nat) (t : Token) : Layout :=
  { l with
    tokens := l.tokens.take (l.count - n) ++ t :: l.tokens.drop (l.count - n)
    count := l.count + 1 }

/-- Moves on by some characters. -/
def skip (l : Layout) (n : Nat) : Layout := { l with place := l.place.advance n }

/-- Moves on to what is left of the source. -/
def moveTo (l : Layout) (rest : List Char) : Layout := { l with place := l.place.moveTo rest }

/-- Says whether a key may begin next. -/
def allow (l : Layout) (allowsKey : Bool) : Layout := { l with allowsKey }

/-! ### Blocks -/

/-- Begins a block collection at a column, in front of all but the first `n` tokens, unless one
is open at that column. There are none in brackets. -/
def openBlock (l : Layout) (column n : Nat) (t : Token) : Layout :=
  if !l.inFlow && decide (l.margin ≤ column) then
    { l.insert n t with columns := column :: l.columns }
  else l

/-- Ends the block collections from a column on. -/
def closeBlocks (l : Layout) (column : Nat) : Layout :=
  if l.inFlow then l
  else
    let closed := l.columns.takeWhile fun n ↦ decide (column ≤ n)
    let ended := closed.foldl (fun (l : Layout) _ ↦ l.emit .blockEnd) l
    { ended with columns := l.columns.drop closed.length }

/-! ### Keys without a mark -/

/-- Gives up the possible key. -/
def dropCandidate (l : Layout) : Option Layout :=
  if (l.candidate.map KeyPlace.required).getD false then none else some { l with candidate := none }

/-- The place as one where a key may begin. -/
def keyPlace (l : Layout) : KeyPlace :=
  { number := l.count
    required := !l.inFlow && decide (l.columns.head? = some l.place.column)
    index := l.place.index
    line := l.place.line
    column := l.place.column }

/-- Takes the place for the beginning of a key, if one may begin here. -/
def noteCandidate (l : Layout) : Option Layout :=
  if l.allowsKey then
    l.dropCandidate.map fun l ↦ { l with candidate := some l.keyPlace }
  else some l

/-- A possible key, unless it is too far back; fails if it was required. -/
def renew (c : Cursor) (k : Option KeyPlace) : Option (Option KeyPlace) :=
  match k with
  | none => some none
  | some k => if k.reaches c then some (some k) else if k.required then none else some none

/-- Gives up the possible keys that are too far back. -/
def expire (l : Layout) : Option Layout := do
  let candidate ← renew l.place l.candidate
  let outer ← l.outer.mapM (renew l.place)
  return { l with candidate, outer }

/-! ### Between tokens -/

/-- Moves on to the next token. Tabs are no margin of a block. On a new line of a block a key
may begin. -/
def approach (l : Layout) : Layout :=
  let next := l.place.pass (l.inFlow || !l.allowsKey) l.inFlow
  { l with
    place := next
    allowsKey := l.allowsKey || (!l.inFlow && decide (l.place.line < next.line)) }

/-! ### Single tokens -/

/-- A bracket that opens. -/
def enter (l : Layout) (t : Token) : Option Layout :=
  l.noteCandidate.map fun l ↦
    { (l.emit t).skip 1 with candidate := none, outer := l.candidate :: l.outer, allowsKey := true }

/-- A bracket that closes. -/
def leave (l : Layout) (t : Token) : Option Layout :=
  l.dropCandidate.map fun l ↦
    { (l.emit t).skip 1 with
      candidate := l.outer.head?.join, outer := l.outer.tail, allowsKey := false }

/-- A comma. -/
def comma (l : Layout) : Option Layout :=
  l.dropCandidate.map fun l ↦ ((l.emit .comma).skip 1).allow true

/-- The mark of an entry or of a key; outside of brackets it needs a place where a key may
begin. -/
def mark (l : Layout) (collection t : Token) (allowsNext : Bool) : Option Layout :=
  if l.inFlow || l.allowsKey then
    (l.openBlock l.place.column l.count collection).dropCandidate.map fun l ↦
      ((l.emit t).skip 1).allow allowsNext
  else none

/-- The colon in front of a value. What was noted as a possible key is one. -/
def colon (l : Layout) : Option Layout :=
  match l.candidate with
  | some k =>
    let l := { l.insert k.number .key with candidate := none }
    let l := l.openBlock k.column k.number .blockMapping
    some (((l.emit .value).skip 1).allow false)
  | none =>
    if l.inFlow || l.allowsKey then
      let l := l.openBlock l.place.column l.count .blockMapping
      some (((l.emit .value).skip 1).allow !l.inFlow)
    else none

/-- The mark of a document. -/
def documentMark (l : Layout) (t : Token) : Option Layout :=
  (l.closeBlocks 0).dropCandidate.map fun l ↦ ((l.emit t).skip 3).allow false

/-- A directive. -/
def directive (l : Layout) (cs : List Char) : Option Layout := do
  let l ← (l.closeBlocks 0).dropCandidate
  let (d, rest) ← readDirective cs
  return ((l.emit (.directive d)).moveTo rest).allow false

/-- A token that may be the beginning of a key, given what reads it. -/
def content (l : Layout) (read : Option (Token × List Char)) : Option Layout := do
  let l ← l.noteCandidate
  let (t, rest) ← read
  return ((l.emit t).moveTo rest).allow false

/-- A plain scalar. If a line ends behind it, a key may begin next. -/
def plain (l : Layout) : Option Layout := do
  let l ← l.noteCandidate
  let s ← readPlain l.inFlow l.margin {} l.place.column l.place.rest
  return ((l.emit (.scalar true s.text)).moveTo s.rest).allow s.endsLine

/-- A block scalar. -/
def blockScalar (l : Layout) (folded : Bool) (cs : List Char) : Option Layout := do
  let l ← l.dropCandidate
  let (text, rest) ← readBlockScalar folded l.margin cs
  return ((l.emit (.scalar false text)).moveTo rest).allow true

/-! ### Steps -/

/-- Takes the token that begins here. -/
def take (l : Layout) (c : Char) (rest : List Char) : Option Layout :=
  if l.place.column = 0 ∧ c = '%' then l.directive rest
  else if l.place.column = 0 ∧ isDocumentMark (c :: rest) then
    l.documentMark (if c = '-' then .documentStart else .documentEnd)
  else if c = '[' then l.enter .openBracket
  else if c = '\x7b' then l.enter .openBrace
  else if c = ']' then l.leave .closeBracket
  else if c = '\x7d' then l.leave .closeBrace
  else if c = ',' then l.comma
  else if c = '-' ∧ endsWord rest then l.mark .blockSequence .dash true
  else if c = '?' ∧ (l.inFlow ∨ endsWord rest) then l.mark .blockMapping .key !l.inFlow
  else if c = ':' ∧ (l.inFlow ∨ endsWord rest) then l.colon
  else if c = '*' then l.content ((readName rest).map fun r ↦ (.reference r.1, r.2))
  else if c = '&' then l.content ((readName rest).map fun r ↦ (.anchor r.1, r.2))
  else if c = '!' then l.content ((readTag l.inFlow rest).map fun r ↦ (.tag r.1, r.2))
  else if c = '|' ∧ !l.inFlow then l.blockScalar false rest
  else if c = '>' ∧ !l.inFlow then l.blockScalar true rest
  else if c = '\x27' then l.content ((readSingle {} rest).map fun r ↦ (.scalar false r.1, r.2))
  else if c = '"' then l.content ((readDouble {} rest).map fun r ↦ (.scalar false r.1, r.2))
  else if canBegin l.inFlow c rest then l.plain
  else none

/-- Reads the source to its end. -/
def finish : Nat → Layout → Option Layout
  | 0, _ => none
  | fuel + 1, l =>
    match l.approach.expire with
    | none => none
    | some l =>
      let l := l.closeBlocks (l.place.column + 1)
      match l.place.rest with
      | [] => (l.closeBlocks 0).dropCandidate
      | c :: rest => (l.take c rest).bind (finish fuel)

end Layout

/-- The tokens of a source. -/
def tokens? (source : List Char) : Option (List Token) :=
  (Layout.finish (source.length + 1) { place := ⟨source, 0, 0, 0⟩ }).map fun l ↦ l.tokens.reverse

end HollowFleet.Yaml
