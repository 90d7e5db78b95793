import HollowFleet.Fault
import HollowFleet.Object.Lease
import HollowFleet.Object.Node
import HollowFleet.Object.Pod

/-!
# Calls to the cluster

The calls that the agent makes, and what each is answered with. A look-up answers the object
or nothing; every other call answers that it was done. Any call may fail.

A call carries the whole object that it is about, as the agent has it at that moment, so what was
written can be read off the calls of a run alone. The type of an answer depends on the call
(`Call.Answer`). So a task that looks up a lease is resumed with a lease or nothing, and with no
other object, and an answer of the wrong kind need not be handled or ruled out anywhere.

What a call does to the cluster is not part of it. A cluster is whatever answers calls, with any
faults and in any state of its own; where a result needs a cluster that stores what it is given,
that is a hypothesis on the answers. The same holds for failure: that a call failed says nothing
about whether it was carried out.

`kind` and `target` are for those who answer calls by rules: they tell which call it is and which
object it is about without looking into it.
-/

namespace HollowFleet

/-- A call to the cluster. -/
inductive Call where
  /-- Look up a node. -/
  | getNode (name : String)
  /-- Register a node. -/
  | createNode (node : Node)
  /-- Look up the lease of a node. -/
  | getLease (node : String)
  /-- Create a lease. -/
  | createLease (lease : Lease)
  /-- Replace a lease. -/
  | updateLease (lease : Lease)
  /-- Write the status of a pod. -/
  | updatePodStatus (pod : Pod)
  /-- Delete exactly this pod, with a grace period in seconds. -/
  | deletePod (pod : Pod) (grace : Nat)
deriving DecidableEq

namespace Call

/-- What a call is answered with when it succeeds. -/
def Answer : Call → Type
  | getNode _ => Option Node
  | getLease _ => Option Lease
  | _ => Unit

/-- The outcome of a call. -/
abbrev Reply (c : Call) : Type := Except Fault c.Answer

/-- The kinds of calls. -/
inductive Kind where
  | getNode
  | createNode
  | getLease
  | createLease
  | updateLease
  | updatePodStatus
  | deletePod
deriving DecidableEq, Repr

/-- The kind of a call. -/
def kind : Call → Kind
  | getNode _ => .getNode
  | createNode _ => .createNode
  | getLease _ => .getLease
  | createLease _ => .createLease
  | updateLease _ => .updateLease
  | updatePodStatus _ => .updatePodStatus
  | deletePod _ _ => .deletePod

/-- The name of the object that a call is about. -/
def target : Call → String
  | getNode name => name
  | createNode node => node.name
  | getLease node => node
  | createLease lease => lease.name
  | updateLease lease => lease.name
  | updatePodStatus pod => pod.metadata.displayName
  | deletePod pod _ => pod.metadata.displayName

end Call

end HollowFleet
