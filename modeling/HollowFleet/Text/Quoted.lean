import HollowFleet.Text.Graphic

/-!
# Quoted text

A text in double quotes. Quotes and backslashes are escaped by a backslash, the common
controls by their letter, and every other character that is not graphic by its code point
in hexadecimal. A quoted text holds no bare control character, so it stays on one line.

Quoting is for people who read a log and not for a reader of JSON: the escapes of the two differ,
and characters beyond ASCII stand as they are if they leave a mark. It is total, and the texts that
it is applied to come from the cluster, so nothing can be assumed of them.
-/

namespace HollowFleet.Text

/-- The digits of `n` in base sixteen, in lower case. -/
def hexDigits (n : Nat) : List Char := Nat.toDigits 16 n

/-- How a character stands between the quotes. -/
def escape (c : Char) : List Char :=
  match c with
  | '"' => ['\\', '"']
  | '\\' => ['\\', '\\']
  | '\n' => ['\\', 'n']
  | '\r' => ['\\', 'r']
  | '\t' => ['\\', 't']
  | '\x00' => ['\\', '0']
  | c => if isGraphic c then [c] else ['\\', 'u', '\x7b'] ++ hexDigits c.toNat ++ ['\x7d']

/-- The text in quotes. -/
def quoted (text : String) : String :=
  String.ofList (['"'] ++ text.toList.flatMap escape ++ ['"'])

end HollowFleet.Text
