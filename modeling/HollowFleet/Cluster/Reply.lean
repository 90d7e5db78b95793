import HollowFleet.Cluster.Call

/-!
# Failed calls

How a client takes the answer to a call that failed. Looking up an object that does not exist
is no failure: there is nothing to show. Deleting a pod that is gone, or that was replaced by
another one of its name, has achieved what was wanted.

The two go by different marks of a refusal. A look-up goes by the reason that the cluster states
for programs, whatever the code; a deletion goes by the code, whatever the reason. So one and the
same refusal may count as an absence for one of them and as a failure for the other.

`settle` is the last thing that happens to a fault before a task is resumed with it, and it is
total: every other call hands the fault on as it is. What crosses a connection (`acrossConnection`)
is less than what may go wrong within the agent, for only the refusals of the cluster are told.
-/

namespace HollowFleet

/-- The reason by which the cluster says that an object does not exist. -/
def Refusal.notFoundReason : String := "NotFound"

/-- What crosses a connection: the cluster's refusals as they are, and of everything else that
there was no answer. -/
def Fault.acrossConnection : Fault → Fault
  | .refused r => .refused r
  | _ => .unanswered

namespace Call

/-- Whether a call names an existing object. -/
def needsName : Call → Bool
  | createNode _ => false
  | createLease _ => false
  | _ => true

/-- Whether a fault says that a looked up object does not exist. -/
def isAbsence : Fault → Bool
  | .refused r => decide (r.reason = Refusal.notFoundReason)
  | _ => false

/-- What a client answers when the cluster answered with a fault. -/
def settle (c : Call) (fault : Fault) : c.Reply :=
  match c with
  | getNode _ => if isAbsence fault then .ok none else .error fault
  | getLease _ => if isAbsence fault then .ok none else .error fault
  | deletePod _ _ => if fault.isNotFound || fault.isConflict then .ok () else .error fault
  | createNode _ => .error fault
  | createLease _ => .error fault
  | updateLease _ => .error fault
  | updatePodStatus _ => .error fault

end Call

end HollowFleet
