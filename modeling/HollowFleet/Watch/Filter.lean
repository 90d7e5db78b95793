import HollowFleet.Object.Node
import HollowFleet.Object.Pod
import HollowFleet.Table

/-!
# Watch filters

A watch reports objects as they are, not what happened to them. A filter keeps the last
object of each key and tells from it what a report means: an object was added, updated or
deleted, or nothing happened that is worth reporting. While the watch lists all objects anew,
the filter collects the keys that it sees; what it knows and does not see is gone.

* An object that is on its way out is reported as deleted once, and nothing more is reported
  for its key until it is really gone.
* Two objects of one key with the same version are the same object.

## Slots

What a filter knows under one key is a slot: nothing, or the last object with a mark that says
whether its deletion was reported. Apart from the end of a list, a report touches the slot of one
key, and what it means depends on that slot alone (`classify`). So a filter is many small machines
side by side, one for each key.

The mark belongs to the slot and not to the object. It is set by an object that is on its way out,
it is taken over to whatever is seen under the key afterwards, and it goes when the slot is emptied,
by a final deletion or by a list in which the key does not occur. An object that replaced a marked
one unnoticed is therefore not reported.

Objects that do not concern the fleet are passed over when they are seen, and are not noted as
listed either; a final deletion empties the slot in any case. What a kind of objects has to tell for
all this is the class `Watched`. Nodes are always relevant and never on their way out.
-/

namespace HollowFleet

/-- What a watch needs to know of a kind of objects. -/
class Watched (κ : Type) where
  /-- The name of the kind. -/
  kind : String
  /-- Names and versions of an object. -/
  metadata : κ → Metadata
  /-- Whether an object concerns the fleet at all. -/
  relevant : κ → Bool
  /-- Whether an object is on its way out. -/
  terminating : κ → Bool

instance : Watched Node where
  kind := "Node"
  metadata := Node.metadata
  relevant _ := true
  terminating _ := false

/-- A pod concerns the fleet once it is bound to a node. -/
instance : Watched Pod where
  kind := "Pod"
  metadata := Pod.metadata
  relevant pod := pod.node?.isSome
  terminating pod := pod.metadata.deletionTimestamp.isSome

namespace Watch

/-- What happened to an object. -/
inductive Op where
  /-- It was seen for the first time. -/
  | added
  /-- It changed. -/
  | updated
  /-- It is gone or on its way out. -/
  | deleted
deriving DecidableEq, Repr

/-- Something that happened to an object. -/
structure Event (κ : Type) where
  /-- What happened. -/
  op : Op
  /-- The object as it was last seen. -/
  object : κ
deriving DecidableEq

/-- What a watch reports. -/
inductive Report (κ : Type) where
  /-- A list of all objects begins. -/
  | init
  /-- An object of that list. -/
  | initApply (object : κ)
  /-- The list is complete. -/
  | initDone
  /-- An object is there, new or changed. -/
  | apply (object : κ)
  /-- An object is gone. -/
  | delete (object : κ)

/-- The key of an object: its name, after its namespace if it has one. -/
def key {κ : Type} [Watched κ] (object : κ) : String :=
  let m := Watched.metadata object
  match m.space with
  | some space => space ++ "/" ++ m.displayName
  | none => m.displayName

/-- An object that a filter knows. -/
structure Known (κ : Type) where
  /-- The object as it was last seen. -/
  object : κ
  /-- Whether its deletion was reported. -/
  terminating : Bool
deriving DecidableEq

/-- A filter. -/
structure Filter (κ : Type) where
  /-- The known objects, by key. -/
  known : Table (Known κ) := ∅
  /-- The keys seen since a list began, if it is not complete yet. -/
  listed : Option (List String) := none

namespace Filter

variable {κ : Type} [Watched κ]

/-- What the sight of an object means, given what was known under its key. -/
def classify (before : Option (Known κ)) (object : κ) : Option Op :=
  match before with
  | none => some (if Watched.terminating object then .deleted else .added)
  | some known =>
    if known.terminating then none
    else if Watched.terminating object then some .deleted
    else if (Watched.metadata known.object).resourceVersion =
        (Watched.metadata object).resourceVersion then none
    else some .updated

/-- An object was seen. -/
def seen (f : Filter κ) (object : κ) : Filter κ × List (Event κ) :=
  if Watched.relevant object then
    let k := key object
    let before := f.known.find? k
    let reported := (before.map Known.terminating).getD false
    let known := f.known.insert k ⟨object, Watched.terminating object || reported⟩
    (⟨known, f.listed.map fun keys ↦ k :: keys⟩,
      ((classify before object).map fun op ↦ ⟨op, object⟩).toList)
  else (f, [])

/-- An object is gone. -/
def gone (f : Filter κ) (object : κ) : Filter κ × List (Event κ) :=
  let k := key object
  let emitted := match f.known.find? k with
    | some known => !known.terminating
    | none => Watched.relevant object
  ({ f with known := f.known.erase k }, if emitted then [⟨.deleted, object⟩] else [])

/-- A list is complete: what is known and was not listed is gone. -/
def complete (f : Filter κ) : Filter κ × List (Event κ) :=
  match f.listed with
  | none => (f, [])
  | some keys =>
    let vanished := f.known.filter fun k ↦ !keys.contains k
    let left := vanished.values.filter fun known ↦ !known.terminating
    (⟨f.known.filter fun k ↦ keys.contains k, none⟩,
      left.map fun known ↦ ⟨.deleted, known.object⟩)

/-- What a report means: the filter after it and what happened. -/
def step (f : Filter κ) : Report κ → Filter κ × List (Event κ)
  | .init => ({ f with listed := some [] }, [])
  | .initApply object => f.seen object
  | .initDone => f.complete
  | .apply object => f.seen object
  | .delete object => f.gone object

/-- What happened over several reports. -/
def run (f : Filter κ) : List (Report κ) → Filter κ × List (Event κ)
  | [] => (f, [])
  | r :: rest =>
    let first := f.step r
    let others := first.1.run rest
    (others.1, first.2 ++ others.2)

omit [Watched κ] in
/-- Nothing is reported for an object whose deletion was reported. -/
theorem classify_of_terminating [Watched κ] {known : Known κ} (h : known.terminating = true)
    (object : κ) : classify (some known) object = none := by
  simp [classify, h]

/-- The reports of two lists in a row are those of the first and then those of the second. -/
theorem run_append (f : Filter κ) (first second : List (Report κ)) :
    f.run (first ++ second) =
      (((f.run first).1.run second).1,
        (f.run first).2 ++ ((f.run first).1.run second).2) := by
  induction first generalizing f with
  | nil => simp [run]
  | cons r rest ih => simp [run, ih]

end Filter

end Watch

end HollowFleet
