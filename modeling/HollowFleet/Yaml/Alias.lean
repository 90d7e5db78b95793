import HollowFleet.Yaml.Document
import HollowFleet.Yaml.Value

/-!
# Aliases

An alias stands for the node of its anchor. Anchors are numbered in the order in which they
are met: the number of an anchor is the number of different names before it (`Node.number?`).
So a name that is used again takes a new number, which the next new name takes as well, and of
all nodes with one number the last counts (`Node.target?`).

A value is found by following the aliases (`Expansion`). Its collections are nested no
deeper than `greatestDepth`, and aliases are followed no more often than a multiple of the size
of the document, so a node that contains itself has no value.

Numbering and following are two passes because an alias may be met before it is known what its
number will come to stand for. The bounds are not there to make the recursion end only: a short
document of aliases of aliases describes a value of any size, and a document that goes past them is
refused as a whole.
-/

namespace HollowFleet.Yaml

namespace Node

/-! ### Numbers for names -/

/-- The numbers that names have, the last one first. -/
abbrev Names := List (String × Nat)

/-- Gives a number to an anchor, if there is one. -/
def numberAnchor (names : Names) : Option String → Option Nat × Names
  | none => (none, names)
  | some name =>
    let n := names.length
    (some n, (name, n) :: names.filter fun e ↦ decide (e.1 ≠ name))

mutual

/-- Replaces names by numbers, given the names that are known before. An alias needs a known
name. -/
def number? (names : Names) : Node String → Option (Node Nat × Names)
  | reference name => (names.lookup name).map fun n ↦ (reference n, names)
  | scalar anchor tag plain text =>
    let (n, names) := numberAnchor names anchor
    some (scalar n tag plain text, names)
  | sequence anchor tag items =>
    let (n, names) := numberAnchor names anchor
    (numberItems? names items).map fun r ↦ (sequence n tag r.1, r.2)
  | mapping anchor tag members =>
    let (n, names) := numberAnchor names anchor
    (numberMembers? names members).map fun r ↦ (mapping n tag r.1, r.2)

/-- The same for the items of a sequence, from the first to the last. -/
def numberItems? (names : Names) : List (Node String) → Option (List (Node Nat) × Names)
  | [] => some ([], names)
  | node :: rest =>
    match number? names node with
    | none => none
    | some (node, names) => (numberItems? names rest).map fun r ↦ (node :: r.1, r.2)

/-- The same for the members of a mapping, each key before its value. -/
def numberMembers? (names : Names) :
    List (Node String × Node String) → Option (List (Node Nat × Node Nat) × Names)
  | [] => some ([], names)
  | (key, value) :: rest =>
    match number? names key with
    | none => none
    | some (key, names) =>
      match number? names value with
      | none => none
      | some (value, names) =>
        (numberMembers? names rest).map fun r ↦ ((key, value) :: r.1, r.2)

end

/-! ### Nodes of numbers -/

/-- The anchor of a node. -/
def anchor? {α : Type} : Node α → Option α
  | reference _ => none
  | scalar anchor _ _ _ => anchor
  | sequence anchor _ _ => anchor
  | mapping anchor _ _ => anchor

mutual

/-- All nodes of a tree, each before those in it. -/
def nodes {α : Type} : Node α → List (Node α)
  | reference target => [reference target]
  | scalar anchor tag plain text => [scalar anchor tag plain text]
  | sequence anchor tag items => sequence anchor tag items :: itemNodes items
  | mapping anchor tag members => mapping anchor tag members :: memberNodes members

/-- All nodes in the items of a sequence. -/
def itemNodes {α : Type} : List (Node α) → List (Node α)
  | [] => []
  | node :: rest => nodes node ++ itemNodes rest

/-- All nodes in the members of a mapping. -/
def memberNodes {α : Type} : List (Node α × Node α) → List (Node α)
  | [] => []
  | (key, value) :: rest => nodes key ++ nodes value ++ memberNodes rest

end

/-- The nodes that have anchors, the last one first. -/
def anchored (root : Node Nat) : List (Nat × Node Nat) :=
  (root.nodes.filterMap fun node ↦ node.anchor?.map fun n ↦ (n, node)).reverse

/-- The size of a node without those in it: a collection has two ends. -/
def extent {α : Type} : Node α → Nat
  | reference _ => 1
  | scalar _ _ _ _ => 1
  | sequence _ _ _ => 2
  | mapping _ _ _ => 2

/-- The size of a tree. -/
def size {α : Type} (root : Node α) : Nat := root.nodes.foldl (fun n node ↦ n + node.extent) 0

end Node

/-! ### Expansion -/

/-- An expansion counts how often an alias was followed. -/
abbrev Expansion := StateT Nat Option

namespace Expansion

/-- How deep collections may be nested. -/
def greatestDepth : Nat := 128

/-- How often an alias may be followed, for each unit of size. -/
def greatestRepetition : Nat := 100

/-- Follows an alias. -/
def follow (limit : Nat) : Expansion Unit := fun n ↦
  if n < limit then some ((), n + 1) else none

/-- The value of a node that is no alias, given how the nodes in it are expanded; without that
it may not be a collection. -/
def expandContent (inner : Option (Node Nat → Expansion Value)) : Node Nat → Expansion Value
  | .reference _ => failure
  | .scalar _ tag plain text => StateT.lift (Value.ofScalar? tag plain text)
  | .sequence _ tag items =>
    match inner with
    | none => failure
    | some inner => do
      let items ← items.mapM inner
      StateT.lift (Value.ofCollection? tag (.sequence items))
  | .mapping _ tag members =>
    match inner with
    | none => failure
    | some inner => do
      let members ← members.mapM fun m ↦ return (← inner m.1, ← inner m.2)
      StateT.lift ((Value.ofMembers? members).bind (Value.ofCollection? tag))

/-- The value of a node, perhaps of an alias. -/
def expandNode (limit : Nat) (anchored : List (Nat × Node Nat))
    (inner : Option (Node Nat → Expansion Value)) : Node Nat → Expansion Value
  | .reference n => do
    follow limit
    match anchored.lookup n with
    | none => failure
    | some node => expandContent inner node
  | node => expandContent inner node

/-- The value of a node in which collections are nested to some depth. -/
def expandWithin (limit : Nat) (anchored : List (Nat × Node Nat)) :
    Nat → Node Nat → Expansion Value
  | 0 => expandNode limit anchored none
  | depth + 1 => expandNode limit anchored (some (expandWithin limit anchored depth))

end Expansion

/-- The value of a document. -/
def Node.value? (root : Node String) : Option Value := do
  let (root, _) ← root.number? []
  let limit := Expansion.greatestRepetition * root.size
  let (value, _) ← Expansion.expandWithin limit root.anchored Expansion.greatestDepth root 0
  return value

/-- The values of the documents of a source. -/
def parse? (source : String) : Option (List Value) :=
  (documents? source).bind fun roots ↦ roots.mapM Node.value?

end HollowFleet.Yaml
