import HollowFleet.Yaml.Scalar.Folding

/-!
# Plain scalars

A plain scalar has no quotes, so its end has to be told from what it holds. It ends before a
colon with a blank behind it, before a comment, at a line that is not far enough in, and at
the mark of a document; in brackets also before a bracket or a comma.

What may begin a plain scalar is narrower than what may stand in it: a character that would begin
something else may not, unless a blank behind it would be needed for that and there is none
(`canBegin`). A comment and the mark of a document end a scalar only where a word could begin, that
is behind a gap; a hash within a word is one of its characters. Behind a scalar it is told whether a
line ended, since a key may begin there then.
-/

namespace HollowFleet.Yaml

/-- Whether a character closes a plain scalar in brackets. -/
def isFlowMark (c : Char) : Bool := [',', '[', ']', '\x7b', '\x7d'].contains c

/-- Whether a plain scalar can begin with a character, given what follows it. -/
def canBegin (inFlow : Bool) (c : Char) (rest : List Char) : Bool :=
  if c = '-' then !endsWord rest
  else if c = '?' || c = ':' then !inFlow && !endsWord rest
  else !isFlowMark c && !"#&*!|>'\"%@\x60".toList.contains c && !endsWord [c]

/-- A plain scalar in a text: what it says, whether a line ended behind it, and what follows. -/
structure PlainScalar where
  text : String
  endsLine : Bool
  rest : List Char

/-- The scalar that ends here. -/
def Folded.finish (f : Folded) (rest : List Char) : PlainScalar := ⟨f.words, f.gap.endsLine, rest⟩

/-- Whether the first word behind a gap is no part of a plain scalar. -/
def stopsWord (inFlow : Bool) (margin column : Nat) (cs : List Char) : Bool :=
  (!inFlow && decide (column < margin)) || cs.head? = some '#' ||
    (decide (column = 0) && isDocumentMark cs)

/-- Whether a character is no part of a plain scalar, given what follows it. -/
def stopsPlain (inFlow : Bool) (c : Char) (rest : List Char) : Bool :=
  (c = ':' && endsWord rest) || (inFlow && isFlowMark c)

/-- Whether a colon in brackets stands where none may. -/
def isStrayColon (inFlow : Bool) (c : Char) (rest : List Char) : Bool :=
  inFlow && c = ':' && (rest.head?.map fun x ↦ isFlowMark x || x = '?').getD false

/-- Reads a plain scalar that has begun. Its further lines have to begin at the column `margin`
at least, and tabs do not count for that. -/
def readPlain (inFlow : Bool) (margin : Nat) : Folded → Nat → List Char → Option PlainScalar
  | f, _, [] => some (f.finish [])
  | f, column, c :: rest =>
    if isBreak c then readPlain inFlow margin (f.take c) 0 rest
    else if isBlank c then
      if f.gap.endsLine && decide (column < margin) && c = '\t' then none
      else readPlain inFlow margin (f.take c) (column + 1) rest
    else if !f.gap.isEmpty && stopsWord inFlow margin column (c :: rest) then
      some (f.finish (c :: rest))
    else if isStrayColon inFlow c rest then none
    else if stopsPlain inFlow c rest then some (f.finish (c :: rest))
    else readPlain inFlow margin (f.add c) (column + 1) rest

end HollowFleet.Yaml
