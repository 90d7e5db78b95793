import HollowFleet.Json.Value
import HollowFleet.Text.Numeral

/-!
# Reading JSON

The grammar of the format, and nothing beside it: four blank characters, no control
characters inside a text, no leading zeros. A text is read as code points and 16-bit units of
escapes, and the units are joined afterwards (`joinUnits`); where that fails the value is
unreadable. Every call of a reader either takes a character or hands over to one that does, so
twice the length of the input is fuel enough.

A reader takes something off the front of the characters and yields it with the rest. It is one for
each thing that can stand in a source: a text, a number, a word, a value, the items of an array, the
members of an object. The last three call one another, and they alone need fuel; the others follow
the list of characters. A number that is written without a point and without an exponent is an
integer of any size, but for a negative zero, which is kept as it is written.

`parse?` asks that one value is all there is, but for blanks around it.
-/

namespace HollowFleet.Json

open Text

/-- Drops the blanks between tokens. -/
def skipBlanks (cs : List Char) : List Char :=
  cs.dropWhile fun c ↦ c = ' ' || c = '\n' || c = '\r' || c = '\t'

/-! ### Texts -/

/-- The number that four digits in base sixteen stand for. -/
def hexQuad? (a b c d : Char) : Option Nat := do
  let a ← hexDigit? a
  let b ← hexDigit? b
  let c ← hexDigit? c
  let d ← hexDigit? d
  return ((a * 16 + b) * 16 + c) * 16 + d

/-- The character behind a backslash, for the escapes of one letter. -/
def letterEscape? : Char → Option Char
  | '"' => some '"'
  | '\\' => some '\\'
  | '/' => some '/'
  | 'b' => some '\x08'
  | 'f' => some '\x0c'
  | 'n' => some '\n'
  | 'r' => some '\r'
  | 't' => some '\t'
  | _ => none

/-- Whether a unit is the first half of a pair. -/
def isHighHalf (n : Nat) : Bool := decide (0xD800 ≤ n) && decide (n < 0xDC00)

/-- Whether a unit is the second half of a pair. -/
def isLowHalf (n : Nat) : Bool := decide (0xDC00 ≤ n) && decide (n < 0xE000)

/-- The text of code points and units; nothing if a half stands alone. -/
def joinUnits : List Nat → Option (List Char)
  | [] => some []
  | [n] => if isHighHalf n || isLowHalf n then none else some [Char.ofNat n]
  | n :: m :: rest =>
    if isHighHalf n then
      if isLowHalf m then
        (joinUnits rest).map
          (Char.ofNat (0x10000 + (n - 0xD800) * 0x400 + (m - 0xDC00)) :: ·)
      else none
    else if isLowHalf n then none
    else (joinUnits (m :: rest)).map (Char.ofNat n :: ·)

/-- Reads the rest of a text whose quote was taken, `done` holding its code points and units
so far in reverse. -/
def readUnits (done : List Nat) : List Char → Option (List Nat × List Char)
  | [] => none
  | '"' :: rest => some (done.reverse, rest)
  | '\\' :: 'u' :: a :: b :: c :: d :: rest =>
    match hexQuad? a b c d with
    | none => none
    | some n => readUnits (n :: done) rest
  | '\\' :: e :: rest =>
    match letterEscape? e with
    | some x => readUnits (x.toNat :: done) rest
    | none => none
  | c :: rest => if c.toNat < 32 || c = '\\' then none else readUnits (c.toNat :: done) rest

/-- Reads the rest of a text whose quote was taken; what was read may be no text. -/
def readText (cs : List Char) : Option (Option String × List Char) :=
  (readUnits [] cs).map fun r ↦ ((joinUnits r.1).map String.ofList, r.2)

/-! ### Numbers -/

/-- Takes a point and the digits after it. -/
def takePlaces? : List Char → Option (List Char × List Char)
  | '.' :: rest =>
    let digits := rest.takeWhile isDigit
    if digits = [] then none else some ('.' :: digits, rest.dropWhile isDigit)
  | cs => some ([], cs)

/-- Takes an exponent. -/
def takeExponent? : List Char → Option (List Char × List Char)
  | [] => some ([], [])
  | c :: rest =>
    if c = 'e' ∨ c = 'E' then
      let sign := rest.takeWhile fun x ↦ x = '+' || x = '-'
      let after := rest.drop sign.length
      let digits := after.takeWhile isDigit
      if 1 < sign.length ∨ digits = [] then none
      else some (c :: sign ++ digits, after.dropWhile isDigit)
    else some ([], c :: rest)

/-- Reads a number. -/
def readNumber (cs : List Char) : Option (Json × List Char) := do
  let minus := cs.head? = some '-'
  let cs := if minus then cs.tail else cs
  let digits := cs.takeWhile isDigit
  guard (digits ≠ [] ∧ (digits.head? = some '0' → digits.length = 1))
  let (places, rest) ← takePlaces? (cs.dropWhile isDigit)
  let (exponent, rest) ← takeExponent? rest
  let size := digitsValue digits
  if places = [] ∧ exponent = [] ∧ ¬(minus ∧ size = 0) then
    return (integer (if minus then -(size : Int) else size), rest)
  else
    let sign := if minus then ['-'] else []
    return (fraction (String.ofList (sign ++ digits ++ places ++ exponent)), rest)

/-! ### Values -/

/-- Takes a word off the front. -/
def takeWord? (word cs : List Char) : Option (List Char) :=
  if word.isPrefixOf cs then some (cs.drop word.length) else none

/-- Reads one of the named values, or a number. -/
def readAtom (cs : List Char) : Option (Json × List Char) :=
  match takeWord? ['n', 'u', 'l', 'l'] cs with
  | some rest => some (null, rest)
  | none =>
    match takeWord? ['t', 'r', 'u', 'e'] cs with
    | some rest => some (bool true, rest)
    | none =>
      match takeWord? ['f', 'a', 'l', 's', 'e'] cs with
      | some rest => some (bool false, rest)
      | none => readNumber cs

/-- An object of members whose names were read. -/
def ofMembers (ms : List (Option String × Json)) : Json :=
  let named (m : Option String × Json) : Option (String × Json) := m.1.map fun name ↦ (name, m.2)
  ((ms.mapM named).map object).getD unreadable

mutual

/-- Reads a value. -/
def readValue : Nat → List Char → Option (Json × List Char)
  | 0, _ => none
  | fuel + 1, cs =>
    match skipBlanks cs with
    | '"' :: rest => (readText rest).map fun r ↦ ((r.1.map text).getD unreadable, r.2)
    | '[' :: rest =>
      match skipBlanks rest with
      | ']' :: rest => some (array [], rest)
      | rest => (readItems fuel rest).map fun r ↦ (array r.1, r.2)
    | '\x7b' :: rest =>
      match skipBlanks rest with
      | '\x7d' :: rest => some (object [], rest)
      | rest => (readMembers fuel rest).map fun r ↦ (ofMembers r.1, r.2)
    | cs => readAtom cs

/-- Reads the items of an array, one at least, and the bracket that closes it. -/
def readItems : Nat → List Char → Option (List Json × List Char)
  | 0, _ => none
  | fuel + 1, cs =>
    match readValue fuel cs with
    | none => none
    | some (j, rest) =>
      match skipBlanks rest with
      | ']' :: rest => some ([j], rest)
      | ',' :: rest => (readItems fuel rest).map fun r ↦ (j :: r.1, r.2)
      | _ => none

/-- Reads the members of an object, one at least, and the brace that closes it. -/
def readMembers : Nat → List Char → Option (List (Option String × Json) × List Char)
  | 0, _ => none
  | fuel + 1, cs =>
    match skipBlanks cs with
    | '"' :: rest =>
      match readText rest with
      | none => none
      | some (name, rest) =>
        match skipBlanks rest with
        | ':' :: rest =>
          match readValue fuel rest with
          | none => none
          | some (j, rest) =>
            match skipBlanks rest with
            | '\x7d' :: rest => some ([(name, j)], rest)
            | ',' :: rest => (readMembers fuel rest).map fun r ↦ ((name, j) :: r.1, r.2)
            | _ => none
        | _ => none
    | _ => none

end

/-- Reads a text that is one value and nothing else but blanks. -/
def parse? (source : String) : Option Json :=
  let cs := source.toList
  match readValue (2 * cs.length + 2) cs with
  | some (j, rest) => if skipBlanks rest = [] then some j else none
  | none => none

end HollowFleet.Json
