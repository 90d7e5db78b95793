import HollowFleet.Yaml.Value

/-!
# Decoding values

Typed views of values. A decoder looks through the tags of the document's own and refuses a
value of the wrong kind. Where a collection is wanted, nothing is an empty one.

The fields of a record have texts as names. A field occurs once at most, and one that is not
known may hold anything.

A field may be missing in three ways, and each has a view of its own: `optional?` takes an absent
field and one that is nothing for the same, `present?` asks that a field which is there has the
right kind, and `required?` that it is there. What has to be free of tags as a whole is asked of the
value (`isSimple`), since a decoder would look through them.
-/

namespace HollowFleet.Yaml.Value

variable {α : Type}

/-- The value without its tags. -/
def untagged : Value → Value
  | tagged _ content => content.untagged
  | v => v

/-- A text. -/
def text? (v : Value) : Option String :=
  match v.untagged with
  | text s => some s
  | _ => none

/-- A truth value. -/
def bool? (v : Value) : Option Bool :=
  match v.untagged with
  | bool b => some b
  | _ => none

/-- Every item of a sequence. -/
def list? (decode : Value → Option α) (v : Value) : Option (List α) :=
  match v.untagged with
  | sequence items => items.mapM decode
  | null => some []
  | _ => none

/-- A member with a text as its name. -/
def named? (m : Value × Value) : Option (String × Value) := m.1.text?.map fun name ↦ (name, m.2)

/-- The fields of a record. -/
def fields? (v : Value) : Option (List (String × Value)) :=
  match v.untagged with
  | mapping members => members.mapM named?
  | null => some []
  | _ => none

/-- A dictionary of texts. -/
def dictionary? (v : Value) : Option (List (String × String)) :=
  v.fields?.bind fun ms ↦ ms.mapM fun m ↦ m.2.text?.map fun s ↦ (m.1, s)

/-! ### Fields -/

/-- A field, if there is one. -/
def field? (ms : List (String × Value)) (name : String) : Option (Option Value) :=
  match ms.filter fun m ↦ decide (m.1 = name) with
  | [] => some none
  | [m] => some (some m.2)
  | _ => none

/-- A value that may be nothing. -/
def nullable? (decode : Value → Option α) : Value → Option (Option α)
  | null => some none
  | v => (decode v).map some

/-- A field that may be absent or nothing. -/
def optional? (decode : Value → Option α) (ms : List (String × Value)) (name : String) :
    Option (Option α) :=
  match field? ms name with
  | none => none
  | some none => some none
  | some (some v) => nullable? decode v

/-- A field that has to be there. -/
def required? (decode : Value → Option α) (ms : List (String × Value)) (name : String) :
    Option α :=
  (field? ms name).join.bind decode

/-- A field that may be absent. -/
def present? (decode : Value → Option α) (ms : List (String × Value)) (name : String) :
    Option (Option α) :=
  match field? ms name with
  | none => none
  | some none => some none
  | some (some v) => (decode v).map some

/-! ### Values without tags -/

mutual

/-- Whether a value has no tags, but for its keys, and no keys but texts. -/
def isSimple : Value → Bool
  | tagged _ _ => false
  | sequence items => allSimple items
  | mapping members => allNamed members
  | _ => true

/-- The same for every item of a sequence. -/
def allSimple : List Value → Bool
  | [] => true
  | v :: rest => v.isSimple && allSimple rest

/-- The same for every member of a mapping. -/
def allNamed : List (Value × Value) → Bool
  | [] => true
  | (key, v) :: rest => key.text?.isSome && v.isSimple && allNamed rest

end

/-- A value without tags. -/
def simple? (v : Value) : Option Value := if v.isSimple then some v else none

end HollowFleet.Yaml.Value
