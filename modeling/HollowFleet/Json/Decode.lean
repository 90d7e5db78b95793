import HollowFleet.Json.Value
import HollowFleet.Timestamp

/-!
# Decoding JSON values

Typed views of JSON values. A decoder refuses a value of the wrong kind.

Objects of the cluster are open: a member that is absent and one that is `null` count as the
same (`optional?` answers nothing for both, and `defaulted?` a default), and of a repeated
member the last counts, though each has to be well formed.

Records are strict: none of their fields may be repeated, and an array of the fields in order
will do for an object (`fields?`).

A decoder is a function to an option, and decoders of objects are written as one `do` block that
takes the fields one after the other. Which fault is found first does not matter, as a refusal has
no reason; so a decoder either yields the whole object or nothing. Numbers are bounded where the
field is (`int32?`, `int64?`), and one that is out of range is refused and not cut off.
-/

namespace HollowFleet.Json

variable {α : Type}

/-- A text. -/
def text? : Json → Option String
  | text value => some value
  | _ => none

/-- A truth value. -/
def bool? : Json → Option Bool
  | bool value => some value
  | _ => none

/-- A whole number. -/
def integer? : Json → Option Int
  | integer n => some n
  | _ => none

/-- A whole number of 32 bits. -/
def int32? : Json → Option Int
  | integer n => if -2147483648 ≤ n ∧ n ≤ 2147483647 then some n else none
  | _ => none

/-- A whole number of 64 bits. -/
def int64? : Json → Option Int
  | integer n => if -9223372036854775808 ≤ n ∧ n ≤ 9223372036854775807 then some n else none
  | _ => none

/-- A natural number. -/
def nat? : Json → Option Nat
  | integer n => if 0 ≤ n then some n.toNat else none
  | _ => none

/-- A point in time. -/
def timestamp? (j : Json) : Option Timestamp := j.text?.bind Timestamp.parse?

/-- Every item of an array. -/
def list? (decode : Json → Option α) : Json → Option (List α)
  | array items => items.mapM decode
  | _ => none

/-- Files a value under a name, in place of what was there. -/
def replace (entries : List (String × α)) (entry : String × α) : List (String × α) :=
  entries.filter (fun e ↦ decide (e.1 ≠ entry.1)) ++ [entry]

/-- Every member of an object, with its name; of a repeated one the last counts. -/
def dictionary? (decode : Json → Option α) : Json → Option (List (String × α))
  | object ms =>
    (ms.mapM fun m ↦ (decode m.2).map fun value ↦ (m.1, value)).map fun entries ↦
      entries.foldl replace []
  | _ => none

/-- The members of an object; no other value is accepted. -/
def object? : Json → Option (List (String × Json))
  | object ms => some ms
  | _ => none

/-- The values of a member, in order. -/
def occurrences (ms : List (String × Json)) (name : String) : List Json :=
  (ms.filter fun m ↦ decide (m.1 = name)).map Prod.snd

/-- A value or `null`. -/
def nullable? (decode : Json → Option α) : Json → Option (Option α)
  | null => some none
  | j => (decode j).map some

/-- A member that may be absent. -/
def optional? (decode : Json → Option α) (ms : List (String × Json)) (name : String) :
    Option (Option α) :=
  ((occurrences ms name).mapM (nullable? decode)).map fun found ↦ found.getLast?.join

/-- A member with a default for its absence. -/
def defaulted? (decode : Json → Option α) (default : α) (ms : List (String × Json))
    (name : String) : Option α :=
  (optional? decode ms name).map fun value ↦ value.getD default

/-! ### Records -/

/-- The fields of a record, as far as they are there. -/
def fields? (names : List String) : Json → Option (List (Option Json))
  | object ms => names.mapM fun name ↦
    match occurrences ms name with
    | [] => some none
    | [j] => some (some j)
    | _ => none
  | array items =>
    if items.length ≤ names.length then
      some (items.map some ++ List.replicate (names.length - items.length) none)
    else none
  | _ => none

/-- A field with a default for its absence. -/
def fieldOr (decode : Json → Option α) (default : α) : Option Json → Option α
  | none => some default
  | some j => decode j

end HollowFleet.Json
