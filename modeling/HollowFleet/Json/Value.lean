/-!
# JSON values

Values of the data format in which objects and requests are exchanged. Whole numbers are
kept as integers; a number with a point or an exponent is kept as it is written, because
nothing here computes with one. Members of an object keep their order, and a name may occur
more than once.

A source may hold escapes that make up no text: surrogates without their other half. What
holds such a text, as a value or as a name, is `unreadable`. That is no fault of the source as
long as nobody asks for it.

## Equality

Two values are equal if they have the same parts in the same order, so another order of members is
another value. That it can be decided does not come for free, as values nest through lists of pairs;
the test `same` follows the nesting by three functions that call one another, and `same_iff` says
that it decides equality. Where the order of members must not count, both sides are put in order
first (`sorted`).
-/

namespace HollowFleet

/-- A JSON value. -/
inductive Json where
  | null
  | bool (value : Bool)
  | integer (value : Int)
  /-- A number that is not written as a whole one. -/
  | fraction (text : String)
  | text (value : String)
  | array (items : List Json)
  | object (members : List (String × Json))
  /-- A text, or the members of an object, with a part that is no text. -/
  | unreadable
deriving Inhabited, Repr

namespace Json

/-- A natural number. -/
def nat (n : Nat) : Json := integer n

/-- The members of an object; any other value has none. -/
def members : Json → List (String × Json)
  | object ms => ms
  | _ => []

/-- The member of a name, if the value is an object that has one. -/
def member? (j : Json) (name : String) : Option Json := j.members.lookup name

/-- A member that is left out when there is nothing to show. -/
def optional (name : String) (value : Option Json) : List (String × Json) :=
  match value with
  | some j => [(name, j)]
  | none => []

/-- A dictionary of texts. -/
def dictionary (entries : List (String × String)) : Json :=
  object (entries.map fun e ↦ (e.1, text e.2))

/-! ### Equality

Values are compared as they are written: two objects with the same members in another order
are not the same value. -/

mutual

/-- Whether two values are the same. -/
def same : Json → Json → Bool
  | null, null => true
  | bool b, bool b' => decide (b = b')
  | integer n, integer n' => decide (n = n')
  | fraction t, fraction t' => decide (t = t')
  | text t, text t' => decide (t = t')
  | array items, array items' => sameItems items items'
  | object ms, object ms' => sameMembers ms ms'
  | unreadable, unreadable => true
  | _, _ => false

/-- The same for the items of two arrays. -/
def sameItems : List Json → List Json → Bool
  | [], [] => true
  | j :: rest, j' :: rest' => j.same j' && sameItems rest rest'
  | _, _ => false

/-- The same for the members of two objects. -/
def sameMembers : List (String × Json) → List (String × Json) → Bool
  | [], [] => true
  | (name, j) :: rest, (name', j') :: rest' =>
    decide (name = name') && j.same j' && sameMembers rest rest'
  | _, _ => false

end

mutual

theorem same_iff : (a b : Json) → (a.same b = true ↔ a = b)
  | null, b => by cases b <;> simp [same]
  | bool _, b => by cases b <;> simp [same]
  | integer _, b => by cases b <;> simp [same]
  | fraction _, b => by cases b <;> simp [same]
  | text _, b => by cases b <;> simp [same]
  | array items, b => by cases b <;> simp [same, sameItems_iff items]
  | object ms, b => by cases b <;> simp [same, sameMembers_iff ms]
  | unreadable, b => by cases b <;> simp [same]

theorem sameItems_iff : (xs ys : List Json) → (sameItems xs ys = true ↔ xs = ys)
  | [], ys => by cases ys <;> simp [sameItems]
  | j :: rest, ys => by cases ys <;> simp [sameItems, same_iff j, sameItems_iff rest]

theorem sameMembers_iff :
    (xs ys : List (String × Json)) → (sameMembers xs ys = true ↔ xs = ys)
  | [], ys => by cases ys <;> simp [sameMembers]
  | (name, j) :: rest, ys => by
    cases ys <;>
      simp [sameMembers, same_iff j, sameMembers_iff rest, Prod.ext_iff, and_assoc]

end

instance : DecidableEq Json := fun a b ↦ decidable_of_iff _ (same_iff a b)

/-! ### Order of members -/

mutual

/-- The value with the members of every object in the order of their names. -/
def sorted : Json → Json
  | array items => array (sortedItems items)
  | object ms => object ((sortedMembers ms).mergeSort fun a b ↦ decide (a.1 ≤ b.1))
  | j => j

/-- The same for every item of an array. -/
def sortedItems : List Json → List Json
  | [] => []
  | j :: rest => j.sorted :: sortedItems rest

/-- The same for the value of every member. -/
def sortedMembers : List (String × Json) → List (String × Json)
  | [] => []
  | (name, j) :: rest => (name, j.sorted) :: sortedMembers rest

end

end Json

end HollowFleet
