import HollowFleet.Fault

/-!
# Settings

What the agent is told before it starts. `Settings.check` refuses settings with which it
cannot run; of several faults the first in the order of the fields is reported.

The check passes exactly if every setting is within its bounds (`check_eq_ok_iff`), and the defaults
are (`check_default`). The bound on the number of nodes comes from the fleet's addresses
(`greatestNodeCount`): the index of a node is part of the block of its pods, and one more node than
that would have no block of its own. The other bounds are what the parts of the agent need: a lease
that is good for no time is never held, a beat needs an interval, and a channel has to hold
something.

The check says nothing about how the settings go together. A lease that is good for less time than
the interval between two renewals is accepted, and runs out between them.
-/

namespace HollowFleet

/-- The settings of an agent. -/
structure Settings where
  /-- The number of nodes to register at the start. -/
  nodeCount : Nat := 4
  /-- The namespace of the nodes' leases. -/
  leaseSpace : String := "kube-node-lease"
  /-- For how many seconds a lease is good. -/
  leaseDuration : Int := 40
  /-- Milliseconds between two renewals of a lease. -/
  renewInterval : Nat := 20000
  /-- The number of watch events that may wait. -/
  eventBuffer : Nat := 1024
  /-- The number of pods that may wait in each work queue. -/
  queueCapacity : Nat := 1024
deriving DecidableEq, Repr, Inhabited

namespace Settings

/-- The largest fleet: the node of index `i` takes its pods' addresses from a block that has
`i + 1` as an octet. -/
def greatestNodeCount : Nat := 254

/-- Refuses settings with which the agent cannot run. -/
def check (s : Settings) : Except Fault Unit :=
  if s.nodeCount = 0 ∨ greatestNodeCount < s.nodeCount then
    .error (.invalid (.nodeCount greatestNodeCount s.nodeCount))
  else if s.leaseSpace = "" then .error (.invalid .emptyLeaseNamespace)
  else if s.leaseDuration ≤ 0 then .error (.invalid .leaseDuration)
  else if s.renewInterval = 0 then .error (.invalid .zeroRenewInterval)
  else if s.eventBuffer = 0 then .error (.invalid .zeroEventBuffer)
  else if s.queueCapacity = 0 then .error (.invalid .zeroQueueCapacity)
  else .ok ()

/-- A test in front of other tests is passed exactly if there is nothing to refuse and the others
are passed. -/
theorem refuse_eq_ok_iff {c : Prop} [Decidable c] {fault : Fault} {rest : Except Fault Unit} :
    (if c then .error fault else rest) = .ok () ↔ ¬ c ∧ rest = .ok () := by
  split
  · next h => simp [h]
  · next h => simp [h]

/-- **The agent can run** exactly with settings of which every one is within its bounds. -/
theorem check_eq_ok_iff {s : Settings} :
    s.check = .ok () ↔
      (s.nodeCount ≠ 0 ∧ s.nodeCount ≤ greatestNodeCount) ∧ s.leaseSpace ≠ "" ∧
        0 < s.leaseDuration ∧ s.renewInterval ≠ 0 ∧ s.eventBuffer ≠ 0 ∧ s.queueCapacity ≠ 0 := by
  simp only [check, refuse_eq_ok_iff, not_or, Nat.not_lt, Int.not_le, ne_eq, and_true]

/-- The settings that are taken if nothing is said pass their own check. -/
theorem check_default : ({} : Settings).check = .ok () := check_eq_ok_iff.2 (by decide)

end Settings

end HollowFleet
