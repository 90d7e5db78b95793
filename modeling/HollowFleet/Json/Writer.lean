import HollowFleet.Json.Value
import HollowFleet.Text.Quoted

/-!
# Writing JSON

The compact form: no blanks between tokens, and in texts only quotes, backslashes and control
characters escaped.

Members stand in the order in which the value has them, and a name that occurs twice is written
twice. What is unreadable has no form and stands as `null`, so a value that is to be written should
be one that is sound. The three functions follow the nesting of values as those for equality do. A
number that is kept as it was written is written as it was written.
-/

namespace HollowFleet.Json

open Text

/-- How a character stands in a JSON text. -/
def escapeChar (c : Char) : List Char :=
  match c with
  | '"' => ['\\', '"']
  | '\\' => ['\\', '\\']
  | '\n' => ['\\', 'n']
  | '\r' => ['\\', 'r']
  | '\t' => ['\\', 't']
  | '\x08' => ['\\', 'b']
  | '\x0c' => ['\\', 'f']
  | c =>
    if c.toNat < 32 then ['\\', 'u', '0', '0', if c.toNat < 16 then '0' else '1'] ++
      hexDigits (c.toNat % 16)
    else [c]

/-- A text with its quotes. -/
def writeText (text : String) : String :=
  String.ofList (['"'] ++ text.toList.flatMap escapeChar ++ ['"'])

mutual

/-- The compact form of a value. -/
def compact : Json → String
  | null => "null"
  | unreadable => "null"
  | bool true => "true"
  | bool false => "false"
  | integer n => toString n
  | fraction written => written
  | text value => writeText value
  | array items => "[" ++ String.intercalate "," (compactItems items) ++ "]"
  | object ms => "\x7b" ++ String.intercalate "," (compactMembers ms) ++ "\x7d"

/-- The compact forms of the items of an array. -/
def compactItems : List Json → List String
  | [] => []
  | j :: rest => j.compact :: compactItems rest

/-- The compact forms of the members of an object. -/
def compactMembers : List (String × Json) → List String
  | [] => []
  | (name, j) :: rest => (writeText name ++ ":" ++ j.compact) :: compactMembers rest

end

end HollowFleet.Json
