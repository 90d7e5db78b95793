import HollowFleet.Text.Numeral
import HollowFleet.Yaml.Cursor

/-!
# Block scalars

A bar or an angle in front of indented lines makes them one scalar. Behind a bar every line
end counts. Behind an angle the lines are folded, except around lines that begin with a blank.
The head may say how far the lines are in, and what becomes of the line ends behind the last
line.

Where the head does not say how far the lines are in, the greatest column does that was reached up
to the first line that is not empty, empty lines included (`passMargin`), but the scalar is at least
further in than its parent. A line that is less far in ends the scalar. Line ends are held back
until the next line comes (`Lines`), since it depends on that line whether they are folded, and on
its absence whether they are kept.
-/

namespace HollowFleet.Yaml

open Text

/-- What becomes of the line ends behind the last line. -/
inductive Chomping where
  /-- None is kept. -/
  | strip
  /-- The first is kept. -/
  | clip
  /-- All are kept. -/
  | keep
deriving DecidableEq, Repr

/-! ### The head -/

/-- The sign of a chomping. -/
def takeChomping : List Char → Chomping × List Char
  | '+' :: rest => (.keep, rest)
  | '-' :: rest => (.strip, rest)
  | cs => (.clip, cs)

/-- The digit that says how far the lines are in, if there is one; it cannot be zero. -/
def takeDepth : List Char → Option (Option Nat × List Char)
  | [] => some (none, [])
  | c :: rest =>
    match digit? c with
    | none => some (none, c :: rest)
    | some 0 => none
    | some n => some (some n, rest)

/-- Reads the head: the chomping, the depth, and the lines. -/
def readHead (cs : List Char) : Option (Chomping × Option Nat × List Char) := do
  let (chomping, rest) := takeChomping cs
  let (depth, rest) ← takeDepth rest
  let (chomping, rest) := if chomping = .clip then takeChomping rest else (chomping, rest)
  return (chomping, depth, ← endLine? rest)

/-! ### The lines -/

/-- The end of a run of empty lines. -/
structure Margin where
  /-- The line ends, in reverse. -/
  breaks : List Char
  /-- The greatest column that was reached. -/
  greatest : Nat
  /-- The column of what follows. -/
  column : Nat
  /-- What follows. -/
  rest : List Char

/-- Passes over empty lines and the margin of the next one. Without a limit all spaces are
margin; a tab may not stand in it. -/
def passMargin (limit : Option Nat) (breaks : List Char) (greatest : Nat) :
    Nat → List Char → Option Margin
  | column, [] => some ⟨breaks, max greatest column, column, []⟩
  | column, c :: rest =>
    let inMargin := (limit.map fun n ↦ decide (column < n)).getD true
    if inMargin && c = ' ' then passMargin limit breaks greatest (column + 1) rest
    else if inMargin && c = '\t' then none
    else if isBreak c then passMargin limit (c :: breaks) (max greatest column) 0 rest
    else some ⟨breaks, max greatest column, column, c :: rest⟩

/-- What stands between two lines, in reverse: the line end of the first and the empty lines
behind it, given whether the first is to be folded. -/
def between (folds : Bool) (first : Option Char) (others : List Char) : List Char :=
  if folds && first = some '\n' then if others = [] then [' '] else others
  else others ++ first.toList

/-- The lines of a scalar so far. -/
structure Lines where
  /-- What is settled, in reverse. -/
  done : List Char := []
  /-- The line end of the last line. -/
  last : Option Char := none
  /-- Whether the last line begins with a blank. -/
  blank : Bool := false

/-- Reads the lines whose margin is `depth`. -/
def readLines (folded : Bool) (depth : Nat) :
    Nat → Lines → Margin → Option (Lines × Margin)
  | 0, lines, margin => some (lines, margin)
  | fuel + 1, lines, margin =>
    match margin.rest with
    | [] => some (lines, margin)
    | c :: _ =>
      if margin.column = depth then
        let folds := folded && !lines.blank && !isBlank c
        let line := margin.rest.takeWhile fun c ↦ !isBreak c
        let rest := margin.rest.dropWhile fun c ↦ !isBreak c
        let done := line.reverse ++ between folds lines.last margin.breaks ++ lines.done
        match passMargin (some depth) [] 0 0 (rest.drop 1) with
        | none => none
        | some next => readLines folded depth fuel ⟨done, rest.head?, isBlank c⟩ next
      else some (lines, margin)

/-- The text of the lines. -/
def Lines.close (lines : Lines) (chomping : Chomping) (breaks : List Char) : String :=
  let tail := match chomping with
    | .strip => []
    | .clip => lines.last.toList
    | .keep => breaks ++ lines.last.toList
  String.ofList (tail ++ lines.done).reverse

/-- Reads a block scalar whose parent stands in front of the column `least`. -/
def readBlockScalar (folded : Bool) (least : Nat) (cs : List Char) :
    Option (String × List Char) := do
  let (chomping, depth, cs) ← readHead cs
  let given := depth.map fun n ↦ least - 1 + n
  let margin ← passMargin given [] 0 0 cs
  let depth := given.getD (max 1 (max margin.greatest least))
  let (lines, margin) ← readLines folded depth cs.length {} margin
  return (lines.close chomping margin.breaks, margin.rest)

end HollowFleet.Yaml
