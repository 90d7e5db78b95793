import HollowFleet.Yaml.Cursor

/-!
# Folding

A quoted or plain scalar may go on over several lines. Blanks around a line end are dropped, a
single line feed stands for a space, and of several the first is dropped. The other two line
ends stand for themselves, and a line end behind a backslash for nothing.

What was passed over since the last word is held back as a `Gap`, because its meaning depends on
what comes: blanks count if a word follows on the same line and not if the line ends. So a scalar
that is read is what is settled, in reverse, and a gap (`Folded`). Plain scalars end with their last
word, and quoted ones with the gap behind it.
-/

namespace HollowFleet.Yaml

/-- What was passed over since the last word of a scalar. -/
inductive Gap where
  /-- Blanks of one line, in reverse. -/
  | blanks (reversed : List Char)
  /-- Line ends: the first, unless it was escaped, and the others, in reverse. -/
  | breaks (first : Option Char) (others : List Char)
deriving DecidableEq, Repr

namespace Gap

/-- Whether there is none. -/
def isEmpty (g : Gap) : Bool := g = blanks []

/-- Whether a line ended. -/
def endsLine : Gap → Bool
  | blanks _ => false
  | breaks _ _ => true

/-- Takes one more blank or line end. -/
def add (g : Gap) (c : Char) : Gap :=
  match g with
  | blanks reversed => if isBreak c then breaks (some c) [] else blanks (c :: reversed)
  | breaks first others => if isBreak c then breaks first (c :: others) else g

/-- What the gap stands for, in reverse. -/
def filling : Gap → List Char
  | blanks reversed => reversed
  | breaks none others => others
  | breaks (some c) others =>
    if c = '\n' then if others = [] then [' '] else others else others ++ [c]

end Gap

/-- A scalar that is read over several lines. -/
structure Folded where
  /-- What is settled, in reverse. -/
  done : List Char := []
  /-- What was passed over since. -/
  gap : Gap := .blanks []
  /-- Whether a line has just begun. -/
  fresh : Bool := false
deriving DecidableEq, Repr

namespace Folded

/-- Adds a character that stands for itself. -/
def add (f : Folded) (c : Char) : Folded := { done := c :: f.gap.filling ++ f.done }

/-- Adds a character of the source. -/
def take (f : Folded) (c : Char) : Folded :=
  if isBlank c || isBreak c then { f with gap := f.gap.add c, fresh := isBreak c } else f.add c

/-- Adds an escaped line end. -/
def continueLine (f : Folded) : Folded :=
  { done := f.gap.filling ++ f.done, gap := .breaks none [], fresh := true }

/-- The text up to the last word. -/
def words (f : Folded) : String := String.ofList f.done.reverse

/-- The text with the gap behind it. -/
def whole (f : Folded) : String := String.ofList (f.gap.filling ++ f.done).reverse

end Folded

end HollowFleet.Yaml
