import HollowFleet.Json.Decode
import HollowFleet.Json.Sound

/-!
# Metadata of objects

What every object of the cluster carries beside its own content: names, versions, marks of its
life, and the notes that others left on it. The agent looks at a few of these fields only: at
the names, at the version and at the mark of a deletion. All the others are read and written
back as they are, so that an object which is fetched, changed in one place and stored again is
otherwise the object that was fetched.

The name under which an object goes (`displayName`) is its own one, else the stem from which
the cluster was to generate one, else empty.

Points in time are read with the precision that they are written in and written in whole seconds.
Dictionaries of texts are lists of pairs in the order in which they were read, and the fields that
somebody manages are kept as a JSON value, since their form is a matter of their manager. A field
that is absent and one that is `null` are the same, and neither is written; a field that is not
known is dropped when it is read.

An object states its kind and its version. One that states another kind than the reader expects
cannot be read, and one that states none can.
-/

namespace HollowFleet

open Json

/-- An object that another object belongs to. -/
structure OwnerReference where
  /-- The version of the owner's kind. -/
  apiVersion : String := ""
  /-- The owner's kind. -/
  kind : String := ""
  /-- The owner's name. -/
  name : String := ""
  /-- The owner's identity. -/
  uid : String := ""
  /-- Whether the owner is the one that manages the object. -/
  controller : Option Bool := none
  /-- Whether the owner stays until the object is gone. -/
  blockOwnerDeletion : Option Bool := none
deriving DecidableEq, Repr, Inhabited

/-- The fields of an object that somebody has set and keeps. -/
structure ManagedFields where
  /-- Who set them. -/
  manager : Option String := none
  /-- How they were set. -/
  operation : Option String := none
  /-- The version of the object's kind in which they are named. -/
  apiVersion : Option String := none
  /-- When they were set. -/
  time : Option Timestamp := none
  /-- The format of the set of fields. -/
  fieldsType : Option String := none
  /-- The set of fields, in that format. -/
  fieldsV1 : Option Json := none
  /-- The part of the object through which they were set. -/
  subresource : Option String := none
deriving DecidableEq, Repr, Inhabited

/-- The metadata of an object. -/
structure Metadata where
  /-- The name. -/
  name : Option String := none
  /-- The stem from which the cluster generates a name. -/
  generateName : Option String := none
  /-- The namespace; objects that belong to the whole cluster have none. -/
  space : Option String := none
  /-- The identity, which a recreated object of the same name does not share. -/
  uid : Option String := none
  /-- The version of the object's content. -/
  resourceVersion : Option String := none
  /-- When the deletion of the object was asked for. -/
  deletionTimestamp : Option Timestamp := none
  /-- Labels, by which objects are selected. -/
  labels : Option (List (String × String)) := none
  /-- Notes, by which they are not. -/
  annotations : Option (List (String × String)) := none
  /-- When the object was made. -/
  creationTimestamp : Option Timestamp := none
  /-- For how many seconds a deleted object may wind up. -/
  deletionGracePeriodSeconds : Option Int := none
  /-- Who still has to see to a deleted object before it may go. -/
  finalizers : Option (List String) := none
  /-- How often the declared content has changed. -/
  generation : Option Int := none
  /-- Who set which fields. -/
  managedFields : Option (List ManagedFields) := none
  /-- The objects that the object belongs to. -/
  ownerReferences : Option (List OwnerReference) := none
  /-- A path to the object, which clusters have ceased to state. -/
  selfLink : Option String := none
deriving DecidableEq, Repr, Inhabited

namespace Metadata

/-- The name under which the object goes. -/
def displayName (m : Metadata) : String :=
  match m.name with
  | some name => name
  | none => m.generateName.getD ""

/-- Namespace and name in one text, an absent namespace counting as an empty one. -/
def qualifiedName (m : Metadata) : String := m.space.getD "" ++ "/" ++ m.displayName

end Metadata

/-! ### As JSON -/

/-- A point in time in whole seconds. -/
def Timestamp.toJson (t : Timestamp) : Json := text t.seconds

/-- Reads a reference to an owner. -/
def OwnerReference.ofJson? (j : Json) : Option OwnerReference := do
  let ms ← j.object?
  let apiVersion ← defaulted? text? "" ms "apiVersion"
  let kind ← defaulted? text? "" ms "kind"
  let name ← defaulted? text? "" ms "name"
  let uid ← defaulted? text? "" ms "uid"
  let controller ← optional? bool? ms "controller"
  let blockOwnerDeletion ← optional? bool? ms "blockOwnerDeletion"
  return { apiVersion, kind, name, uid, controller, blockOwnerDeletion }

/-- A reference to an owner, with its kind, name and identity always. -/
def OwnerReference.toJson (o : OwnerReference) : Json :=
  object <|
    [("apiVersion", text o.apiVersion), ("kind", text o.kind), ("name", text o.name),
      ("uid", text o.uid)] ++
    optional "controller" (o.controller.map bool) ++
    optional "blockOwnerDeletion" (o.blockOwnerDeletion.map bool)

/-- Reads who set which fields. -/
def ManagedFields.ofJson? (j : Json) : Option ManagedFields := do
  let ms ← j.object?
  let manager ← optional? text? ms "manager"
  let operation ← optional? text? ms "operation"
  let apiVersion ← optional? text? ms "apiVersion"
  let time ← optional? timestamp? ms "time"
  let fieldsType ← optional? text? ms "fieldsType"
  let fieldsV1 ← optional? whole? ms "fieldsV1"
  let subresource ← optional? text? ms "subresource"
  return { manager, operation, apiVersion, time, fieldsType, fieldsV1, subresource }

/-- Who set which fields; what is absent is left out. -/
def ManagedFields.toJson (m : ManagedFields) : Json :=
  object <|
    optional "manager" (m.manager.map text) ++
    optional "operation" (m.operation.map text) ++
    optional "apiVersion" (m.apiVersion.map text) ++
    optional "time" (m.time.map Timestamp.toJson) ++
    optional "fieldsType" (m.fieldsType.map text) ++
    optional "fieldsV1" m.fieldsV1 ++
    optional "subresource" (m.subresource.map text)

namespace Metadata

/-- Reads metadata. -/
def ofJson? (j : Json) : Option Metadata := do
  let ms ← j.object?
  let name ← optional? text? ms "name"
  let generateName ← optional? text? ms "generateName"
  let space ← optional? text? ms "namespace"
  let uid ← optional? text? ms "uid"
  let resourceVersion ← optional? text? ms "resourceVersion"
  let deletionTimestamp ← optional? timestamp? ms "deletionTimestamp"
  let labels ← optional? (dictionary? text?) ms "labels"
  let annotations ← optional? (dictionary? text?) ms "annotations"
  let creationTimestamp ← optional? timestamp? ms "creationTimestamp"
  let deletionGracePeriodSeconds ← optional? int64? ms "deletionGracePeriodSeconds"
  let finalizers ← optional? (list? text?) ms "finalizers"
  let generation ← optional? int64? ms "generation"
  let managedFields ← optional? (list? ManagedFields.ofJson?) ms "managedFields"
  let ownerReferences ← optional? (list? OwnerReference.ofJson?) ms "ownerReferences"
  let selfLink ← optional? text? ms "selfLink"
  return {
    name, generateName, space, uid, resourceVersion, deletionTimestamp, labels, annotations,
    creationTimestamp, deletionGracePeriodSeconds, finalizers, generation, managedFields,
    ownerReferences, selfLink }

/-- Metadata as a value; what is absent is left out. -/
def toJson (m : Metadata) : Json :=
  object <|
    optional "name" (m.name.map text) ++
    optional "generateName" (m.generateName.map text) ++
    optional "namespace" (m.space.map text) ++
    optional "uid" (m.uid.map text) ++
    optional "resourceVersion" (m.resourceVersion.map text) ++
    optional "deletionTimestamp" (m.deletionTimestamp.map Timestamp.toJson) ++
    optional "labels" (m.labels.map dictionary) ++
    optional "annotations" (m.annotations.map dictionary) ++
    optional "creationTimestamp" (m.creationTimestamp.map Timestamp.toJson) ++
    optional "deletionGracePeriodSeconds" (m.deletionGracePeriodSeconds.map integer) ++
    optional "finalizers" (m.finalizers.map fun l ↦ array (l.map text)) ++
    optional "generation" (m.generation.map integer) ++
    optional "managedFields"
      (m.managedFields.map fun l ↦ array (l.map ManagedFields.toJson)) ++
    optional "ownerReferences"
      (m.ownerReferences.map fun l ↦ array (l.map OwnerReference.toJson)) ++
    optional "selfLink" (m.selfLink.map text)

end Metadata

/-- The metadata of an object of a version and a kind, given its members: both may be left
out, but neither may be another one. -/
def Metadata.ofMembers? (apiVersion kind : String) (ms : List (String × Json)) :
    Option Metadata := do
  let stated (name expected : String) : Bool :=
    (occurrences ms name).all fun j ↦ decide (j.text? = some expected)
  guard (stated "apiVersion" apiVersion && stated "kind" kind)
  defaulted? Metadata.ofJson? {} ms "metadata"

end HollowFleet
