import HollowFleet.Text.Numeral
import HollowFleet.Yaml.Scalar.Folding

/-!
# Quoted scalars

In single quotes only the quote is special, and it is written twice. In double quotes a
backslash begins an escape. No line of a quoted scalar may look like the mark of a document.

Both are folded like plain scalars, but the blanks next to the quotes are kept. An escape stands for
its character and nothing else: an escaped blank is not dropped at the end of a line, and an escaped
line end joins two lines without a space. Escapes by number have two, four or eight digits, and one
that names a surrogate or is out of range is a fault.
-/

namespace HollowFleet.Yaml

open Text

/-- Reads the rest of a scalar in single quotes. -/
def readSingle (f : Folded) : List Char → Option (String × List Char)
  | [] => none
  | '\x27' :: '\x27' :: rest => readSingle (f.add '\x27') rest
  | c :: rest =>
    if c = '\x27' then some (f.whole, rest)
    else if f.fresh && isDocumentMark (c :: rest) then none
    else readSingle (f.take c) rest

/-- The character behind a backslash, for the escapes of one letter. -/
def letterEscape? : Char → Option Char
  | '0' => some '\x00'
  | 'a' => some '\x07'
  | 'b' => some '\x08'
  | 't' => some '\t'
  | '\t' => some '\t'
  | 'n' => some '\n'
  | 'v' => some '\x0b'
  | 'f' => some '\x0c'
  | 'r' => some '\r'
  | 'e' => some '\x1b'
  | ' ' => some ' '
  | '"' => some '"'
  | '/' => some '/'
  | '\\' => some '\\'
  | 'N' => some '\u0085'
  | '_' => some '\u00a0'
  | 'L' => some '\u2028'
  | 'P' => some '\u2029'
  | _ => none

/-- The character of a number in base sixteen; surrogates are none. -/
def hexChar? (digits : List Char) : Option Char :=
  (numeralInBase? 16 digits).bind fun n ↦ if n.isValidChar then some (Char.ofNat n) else none

/-- Reads the rest of a scalar in double quotes. -/
def readDouble (f : Folded) : List Char → Option (String × List Char)
  | [] => none
  | '\\' :: 'x' :: a :: b :: rest =>
    match hexChar? [a, b] with
    | some c => readDouble (f.add c) rest
    | none => none
  | '\\' :: 'u' :: a :: b :: c :: d :: rest =>
    match hexChar? [a, b, c, d] with
    | some c => readDouble (f.add c) rest
    | none => none
  | '\\' :: 'U' :: a :: b :: c :: d :: a' :: b' :: c' :: d' :: rest =>
    match hexChar? [a, b, c, d, a', b', c', d'] with
    | some c => readDouble (f.add c) rest
    | none => none
  | '\\' :: e :: rest =>
    if isBreak e then readDouble f.continueLine rest
    else match letterEscape? e with
      | some c => readDouble (f.add c) rest
      | none => none
  | c :: rest =>
    if c = '"' then some (f.whole, rest)
    else if f.fresh && isDocumentMark (c :: rest) then none
    else readDouble (f.take c) rest

end HollowFleet.Yaml
