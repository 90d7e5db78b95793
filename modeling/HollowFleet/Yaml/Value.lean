import HollowFleet.Number.Decimal
import HollowFleet.Yaml.Tag

/-!
# Values

What a document says. A plain scalar spells nothing, a truth value, a number or a text
(`Value.ofPlain?`); a quoted one is a text. A tag of the format decides which of them a scalar
has to be, and a tag of the document's own, one with an exclamation mark in front, is kept
beside the value (`Value.ofScalar?`).

The keys of a mapping may be any values, and no two of them are the same (`Value.same`). The
order of members does not count for that.

Sameness is not equality: it looks past the order of members and past the sign of zero, and it tells
a whole number from a fraction of the same size. Whole numbers may be written in four bases; with a
zero in front of other digits a text is no number at all. A whole number of more than 64 bits
is a fault and not a text, unless it has so many that it counts as a decimal.
-/

namespace HollowFleet.Yaml

open Number Text

/-- A value. -/
inductive Value where
  | null
  | bool (value : Bool)
  | integer (value : Int)
  | float (value : Binary64)
  | text (value : String)
  | sequence (items : List Value)
  | mapping (members : List (Value × Value))
  /-- A value with a tag of the document's own. -/
  | tagged (name : String) (content : Value)
deriving Inhabited, Repr

namespace Value

/-! ### Sameness -/

/-- A number with the sign of zero left out. -/
def unsignedZero : Binary64 → Binary64
  | .finite _ 0 e => .finite false 0 e
  | x => x

mutual

/-- Whether two values are the same. A whole number and a fraction are not, nor a number and a
text. -/
def same : Value → Value → Bool
  | null, null => true
  | bool a, bool b => a == b
  | integer a, integer b => decide (a = b)
  | float a, float b => decide (unsignedZero a = unsignedZero b)
  | text a, text b => decide (a = b)
  | sequence as, sequence bs => sameItems as bs
  | mapping as, mapping bs => decide (as.length = bs.length) && sameMembers as bs
  | tagged s a, tagged t b => decide (s = t) && same a b
  | _, _ => false

/-- Whether two lists hold the same values in the same order. -/
def sameItems : List Value → List Value → Bool
  | [], [] => true
  | a :: as, b :: bs => same a b && sameItems as bs
  | _, _ => false

/-- Whether every member of the first list is one of the second. -/
def sameMembers : List (Value × Value) → List (Value × Value) → Bool
  | [], _ => true
  | (key, a) :: as, bs => (bs.any fun m ↦ same key m.1 && same a m.2) && sameMembers as bs

end

/-- The mapping of some members; nothing if two keys are the same. -/
def ofMembers? (members : List (Value × Value)) : Option Value :=
  (members.foldlM (fun (keys : List Value) m ↦
    if keys.any (same m.1) then none else some (m.1 :: keys)) []).map fun _ ↦ mapping members

/-! ### What scalars spell -/

/-- Whether a text spells nothing. -/
def spellsNull (s : String) : Bool := ["~", "null", "Null", "NULL"].contains s

/-- The truth value that a text spells. -/
def truth? (s : String) : Option Bool :=
  if ["true", "True", "TRUE"].contains s then some true
  else if ["false", "False", "FALSE"].contains s then some false
  else none

/-- Whether a text without a sign is more than one digit and begins with a zero. -/
def hasLeadingZero : List Char → Bool
  | '0' :: c :: rest => (c :: rest).all isDigit
  | _ => false

/-- The whole number that a text without a sign spells. -/
def whole? : List Char → Option Nat
  | '0' :: 'x' :: rest => numeralInBase? 16 rest
  | '0' :: 'o' :: rest => numeralInBase? 8 rest
  | '0' :: 'b' :: rest => numeralInBase? 2 rest
  | cs => if hasLeadingZero cs then none else numeral? cs

/-- The whole number that a text spells. One of more than 128 bits is none. -/
def integer? (s : String) : Option Int :=
  match Decimal.takeSign s.toList with
  | (true, cs) => (whole? cs).bind fun n ↦ if n ≤ Nat.pow 2 127 then some (-(n : Int)) else none
  | (false, cs) => (whole? cs).bind fun n ↦ if n < Nat.pow 2 128 then some (n : Int) else none

/-- Whether a whole number fits into 64 bits, with a sign or without. -/
def fits (n : Int) : Bool :=
  decide (-(Nat.pow 2 63 : Int) ≤ n) && decide (n < (Nat.pow 2 64 : Int))

/-- The words for numbers that are not finite. -/
def word? (s : String) : Option Binary64 :=
  if [".inf", ".Inf", ".INF", "+.inf", "+.Inf", "+.INF"].contains s then some (.infinite false)
  else if ["-.inf", "-.Inf", "-.INF"].contains s then some (.infinite true)
  else if [".nan", ".NaN", ".NAN"].contains s then some .undefined
  else none

/-- The number that a text spells. It is a word or a decimal in the range of the format. -/
def float? (s : String) : Option Binary64 :=
  (word? s).or (((Decimal.read? s.toList).map Decimal.toBinary64).filter Binary64.isFinite)

/-- The number of a spelled whole number; nothing if it is out of range. -/
def ofInteger? (n : Int) : Option Value := if fits n then some (integer n) else none

/-- What a plain scalar spells. A whole number that is out of range is a fault, unless it is so
large that it counts as a decimal. -/
def ofPlain? (s : String) : Option Value :=
  if s = "" || spellsNull s then some null
  else match truth? s with
    | some b => some (bool b)
    | none =>
      match integer? s with
      | some n => ofInteger? n
      | none =>
        if hasLeadingZero (Decimal.takeSign s.toList).2 then some (text s)
        else match float? s with
          | some x => some (float x)
          | none => some (text s)

/-! ### Tags -/

/-- What a scalar without a tag of the document's own spells. -/
def ofUntagged? (plain : Bool) (s : String) : Option Value :=
  if plain then ofPlain? s else some (text s)

/-- The value of a scalar whose tag is given by the format; other tags make it a text. -/
def ofStandard? (tag : TagText) (s : String) : Option Value :=
  if tag = .ofString "tag:yaml.org,2002:bool" then (truth? s).map bool
  else if tag = .ofString "tag:yaml.org,2002:int" then (integer? s).bind ofInteger?
  else if tag = .ofString "tag:yaml.org,2002:float" then (float? s).map float
  else if tag = .ofString "tag:yaml.org,2002:null" then
    if spellsNull s then some null else none
  else some (text s)

/-- The name in a tag of the document's own. One more exclamation mark counts for nothing. -/
def ownName? : TagText → Option String
  | some '!' :: rest =>
    match rest with
    | some '!' :: c :: rest => TagText.text? (c :: rest)
    | rest => TagText.text? rest
  | _ => none

/-- A value with a tag of the document's own; nothing if the tag is empty. -/
def withName? (name : String) (v : Value) : Option Value :=
  if name = "" then none else some (tagged name v)

/-- The value of a scalar. -/
def ofScalar? (tag : Option TagText) (plain : Bool) (s : String) : Option Value :=
  match tag with
  | none => ofUntagged? plain s
  | some t =>
    match ownName? t with
    | some name => (ofUntagged? plain s).bind (withName? name)
    | none => if t.head? = some (some '!') && plain then ofPlain? s else ofStandard? t s

/-- The value of a collection. Tags of the format say nothing about it. -/
def ofCollection? (tag : Option TagText) (v : Value) : Option Value :=
  match tag.bind ownName? with
  | some name => withName? name v
  | none => some v

end Value

end HollowFleet.Yaml
