/-!
# Places in a text

Blocks are told apart by how far they are indented, so a reader has to know where it is. A
cursor is what follows a place, with the number of characters before it, and its line and
column.

Three characters end a line: the line feed, the line separator and the paragraph separator. Every
other line end of a source is made a line feed first (`unifyLineEnds`), and
`ne_return_of_mem_unifyLineEnds` says that none is left. So readers behind that need not care which
of them a source was written with, and a carriage return before a line feed does not count as a
line.

Which characters are blank here is a matter of the format and has nothing to do with the blanks of
other texts: a space and a tab, and no others.
-/

namespace HollowFleet.Yaml

/-! ### Characters -/

/-- Whether a character may stand in a source. -/
def isPrintable (c : Char) : Bool :=
  let n := c.toNat
  c = '\t' || c = '\n' || c = '\r' || (decide (0x20 ≤ n) && decide (n ≤ 0x7E)) || n = 0x85 ||
    (decide (0xA0 ≤ n) && decide (n ≤ 0xFFFD)) || decide (0x10000 ≤ n)

/-- Whether a character ends a line. -/
def isBreak (c : Char) : Bool := c = '\n' || c = '\u2028' || c = '\u2029'

/-- Whether a character is a space or a tab. -/
def isBlank (c : Char) : Bool := c = ' ' || c = '\t'

/-- Whether a character may stand in a name. -/
def isNameChar (c : Char) : Bool := c.isAlphanum || c = '-' || c = '_'

/-- Whether a word ends in front of a text. -/
def endsWord : List Char → Bool
  | [] => true
  | c :: _ => isBlank c || isBreak c

/-- Whether a text at the beginning of a line starts or stops a document. -/
def isDocumentMark : List Char → Bool
  | '-' :: '-' :: '-' :: rest => endsWord rest
  | '.' :: '.' :: '.' :: rest => endsWord rest
  | _ => false

/-- A text with its line ends unified: a carriage return, with a line feed behind it or
without, and the next-line character become line feeds. -/
def unifyLineEnds : List Char → List Char
  | [] => []
  | '\r' :: '\n' :: rest => '\n' :: unifyLineEnds rest
  | c :: rest => (if c = '\r' || c = '\u0085' then '\n' else c) :: unifyLineEnds rest

/-- What is left as a line end is one of the three. -/
theorem ne_return_of_mem_unifyLineEnds {c : Char} {cs : List Char} (h : c ∈ unifyLineEnds cs) :
    c ≠ '\r' ∧ c ≠ '\u0085' := by
  induction cs using unifyLineEnds.induct with
  | case1 => simp [unifyLineEnds] at h
  | case2 rest ih =>
    rw [unifyLineEnds, List.mem_cons] at h
    rcases h with rfl | h
    · decide
    · exact ih h
  | case3 x rest hne ih =>
    rw [unifyLineEnds, List.mem_cons] at h
    · rcases h with rfl | h
      · split
        · decide
        · rename_i hx
          simpa using hx
      · exact ih h
    · exact hne

/-- What follows a line, if nothing but blanks and a comment is left of it. -/
def endLine? (cs : List Char) : Option (List Char) :=
  let cs := cs.dropWhile isBlank
  let cs := if cs.head? = some '#' then cs.dropWhile fun c ↦ !isBreak c else cs
  match cs with
  | [] => some []
  | c :: rest => if isBreak c then some rest else none

/-! ### Places -/

/-- A place in a text. -/
structure Cursor where
  /-- What follows. -/
  rest : List Char
  /-- The number of characters before the place. -/
  index : Nat := 0
  /-- The line, counted from zero. -/
  line : Nat := 0
  /-- The column, counted from zero. -/
  column : Nat := 0
deriving DecidableEq, Repr

namespace Cursor

/-- The place after some more characters. -/
def advance : Nat → Cursor → Cursor
  | 0, c => c
  | n + 1, c =>
    match c.rest with
    | [] => c
    | x :: rest =>
      if isBreak x then advance n ⟨rest, c.index + 1, c.line + 1, 0⟩
      else advance n ⟨rest, c.index + 1, c.line, c.column + 1⟩

/-- What follows is the text without the characters that were passed. -/
theorem rest_advance (n : Nat) (c : Cursor) : (c.advance n).rest = c.rest.drop n := by
  induction n, c using advance.induct with
  | case1 c => rfl
  | case2 n c hnil => simp [advance, hnil]
  | case3 n c x rest hcons hbreak ih => simpa [advance, hcons, hbreak] using ih
  | case4 n c x rest hcons hbreak ih => simpa [advance, hcons, hbreak] using ih

/-- The place from which on only `rest` follows. -/
def moveTo (c : Cursor) (rest : List Char) : Cursor := c.advance (c.rest.length - rest.length)

/-- A reader that leaves a part of the text at its end leads to that part. -/
theorem rest_moveTo {c : Cursor} {taken rest : List Char} (h : c.rest = taken ++ rest) :
    (c.moveTo rest).rest = rest := by
  rw [moveTo, rest_advance, h, List.length_append, Nat.add_sub_cancel, List.drop_left]

/-- The place behind one more character on the same line. -/
def onward (c : Cursor) : Cursor := { c with index := c.index + 1, column := c.column + 1 }

/-- The place behind a line end. -/
def downward (c : Cursor) : Cursor :=
  { c with index := c.index + 1, line := c.line + 1, column := 0 }

/-- Passes over what is between two tokens: blanks, line ends, comments, and a byte order mark
at the beginning of a line. Tabs are blanks only if `tabs` says so for this line, and
`tabsLater` for the others; a comment may be under way. -/
def passFrom (tabsLater : Bool) : Bool → Bool → Cursor → List Char → Cursor
  | _, _, c, [] => { c with rest := [] }
  | comment, tabs, c, x :: rest =>
    if isBreak x then passFrom tabsLater false tabsLater c.downward rest
    else if comment || x = ' ' || (tabs && x = '\t') || (c.column = 0 && x = '\uFEFF') then
      passFrom tabsLater comment tabs c.onward rest
    else if x = '#' then passFrom tabsLater true tabs c.onward rest
    else { c with rest := x :: rest }

/-- The next token, given whether tabs are blanks on this line, and whether on later ones. -/
def pass (c : Cursor) (tabs tabsLater : Bool) : Cursor := passFrom tabsLater false tabs c c.rest

end Cursor

end HollowFleet.Yaml
