import HollowFleet.Fault
import HollowFleet.Json.Decode
import HollowFleet.Json.Sound

/-!
# Reports of the cluster

Beside objects the cluster sends reports on what it did: a refusal (`Refusal.ofJson?`), or the
outcome of a deletion, which may only have begun (`isOutcome`). Reports are strict records.

A refusal is read, for its parts decide how a failed call is taken: status and code have to be
there, the two texts may be missing. Of an outcome nothing is used but that there is one, so it is
only recognised. That still takes a look at all of it, down to the causes in its details: if one of
them is not as it should be, the response as a whole is none that the client can read, and a
deletion that the cluster carried out counts as a failure.

The numbers of reports are bounded, a code by 16 bits and a delay by 32; one that is past its bound
makes the report unreadable and is not cut off.
-/

namespace HollowFleet

open Json

/-- A whole number of 16 bits. -/
def code? (j : Json) : Option Nat := j.nat?.filter fun n ↦ decide (n < 65536)

/-- A whole number of 32 bits without a sign. -/
def count? (j : Json) : Option Nat := j.nat?.filter fun n ↦ decide (n < 4294967296)

/-- Reads a refusal: status and code have to be there. -/
def Refusal.ofJson? (j : Json) : Option Refusal := do
  match ← fields? ["status", "message", "reason", "code"] j with
  | [some status, message, reason, some code] =>
    let status ← text? status
    let message ← fieldOr text? "" message
    let reason ← fieldOr text? "" reason
    let code ← code? code
    return { status, message, reason, code }
  | _ => none

namespace Outcome

/-- The two ends that a deletion can come to. -/
def ends : List String := ["Success", "Failure"]

/-- Whether a value names an end: its name, or an object that has the name for its only member
and nothing in it. -/
def isEnd : Json → Bool
  | .text name => ends.contains name
  | .object [(name, .null)] => ends.contains name
  | _ => false

/-- Whether a value tells one of the causes of an outcome. -/
def isCause (j : Json) : Bool :=
  match fields? ["reason", "message", "field"] j with
  | some fields => fields.all fun f ↦ (fieldOr text? "" f).isSome
  | none => false

/-- Whether a value tells the details of an outcome. -/
def isDetails (j : Json) : Bool :=
  match fields? ["name", "group", "kind", "uid", "causes", "retryAfterSeconds"] j with
  | some [name, group, kind, uid, causes, delay] =>
    ([name, group, kind, uid].all fun f ↦ (fieldOr text? "" f).isSome) &&
      ((causes.bind fun j ↦ match j with
        | .array items => some (items.all isCause)
        | _ => some false).getD true) &&
      (fieldOr count? 0 delay).isSome
  | _ => false

/-- Whether a field is absent, `null`, or accepted. -/
def absentOr (accepts : Json → Bool) : Option Json → Bool
  | none => true
  | some .null => true
  | some j => accepts j

end Outcome

/-- Whether a value reports on a deletion that was carried out or begun. -/
def isOutcome (j : Json) : Bool :=
  match fields? ["status", "code", "message", "reason", "details"] j with
  | some [status, code, message, reason, details] =>
    Outcome.absentOr Outcome.isEnd status && (fieldOr code? 0 code).isSome &&
      (fieldOr text? "" message).isSome && (fieldOr text? "" reason).isSome &&
      Outcome.absentOr Outcome.isDetails details
  | _ => false

end HollowFleet
