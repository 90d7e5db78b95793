import HollowFleet.Agent.State

/-!
# Tracked nodes and their leases

A node is tracked from its first sight until it is gone. Its lease is fetched and renewed, or
created if there is none; a lease that could not be renewed is a warning and no reason to stop
tracking the node.

## Two calls for one lease

A renewal looks the lease up and then writes it, in two calls, so others may act in between and
either call may fail. What is written is the lease that was fetched with its renew time moved, so
the second call depends on nothing but the answer to the first and on the clock. The clock is asked
after the answer has come and not before, so the time that a slow answer took is not lost.

A lease is created only after a look-up that found none. If that was long ago, somebody else may
have created it meanwhile, and the creation fails; the next tick then finds the lease.

## The account of a node

A node that is tracked already is left as it is when it is added again, and its lease is not looked
up a second time. A report of a node takes over the capacity, and tracks the node if it was not
tracked, but then without a lease until the next tick. A capacity that cannot be read is a warning
and counts as nothing, so that nothing fits on the node.
-/

namespace HollowFleet.Agent

/-- Renews the lease of a node, or creates it. -/
def renewLease (node : String) : Action Unit := do
  match ← Action.call (.getLease node) with
  | some lease =>
    let agent ← Action.get
    Action.call (.updateLease (lease.renewedAt agent.clock))
  | none =>
    let agent ← Action.get
    let settings := agent.settings
    Action.call
      (.createLease (.forNode agent.clock node settings.leaseSpace settings.leaseDuration))

/-- Renews the leases of some nodes, one after the other. -/
def renewAll : List String → Task Agent Unit
  | [] => pure ()
  | node :: rest => do
    (renewLease node).orWarn .renewalFailed
    renewAll rest

/-- Renews the lease of every tracked node. -/
def renewTracked : Task Agent Unit := do
  let agent ← Task.get
  renewAll agent.ledger.keys

/-- The capacity of a node; one that cannot be read counts as nothing. -/
def capacity (node : Node) : Task Agent Amounts :=
  match Amounts.ofNode node with
  | .ok amounts => pure amounts
  | .error fault => do
    Task.warn (.unreadableCapacity fault)
    return {}

/-- The account of a node without charges. -/
def newAccount (node : Node) : Task Agent Account := do
  let capacity ← capacity node
  return { address := node.internalAddress?, capacity }

/-- Files an account. -/
def setAccount (node : String) (account : Account) : Task Agent Unit :=
  Task.modify fun a ↦ { a with ledger := a.ledger.insert node account }

/-- Tracks a node from now on and sees to its lease; a tracked node is left as it is. -/
def trackNode (node : Node) : Task Agent Unit := do
  let agent ← Task.get
  if agent.ledger.contains node.name then return ()
  else
    setAccount node.name (← newAccount node)
    (renewLease node.name).orWarn .leaseMissing

/-- Takes over what a node reports, and tracks it if it is not tracked. -/
def updateNode (node : Node) : Task Agent Unit := do
  let reported ← capacity node
  let agent ← Task.get
  let account ← match agent.ledger.find? node.name with
    | some account => pure account
    | none => newAccount node
  setAccount node.name (account.report reported node.internalAddress?)

/-- Tracks a node no more. -/
def untrackNode (node : Node) : Task Agent Unit :=
  Task.modify fun a ↦ { a with ledger := a.ledger.erase node.name }

/-! ### Charges -/

/-- Charges a pod to its node. -/
def chargePod (pod : Pod) : Action Unit := do
  let agent ← Action.get
  match agent.ledger.charge pod with
  | .ok ledger => Action.lift (Task.modify fun a ↦ { a with ledger })
  | .error fault => throw fault

/-- Drops the charge of a pod. -/
def dischargePod (pod : Pod) : Task Agent Unit :=
  Task.modify fun a ↦ { a with ledger := a.ledger.discharge pod }

/-- Whether a pod fits on its node; on a node that is not tracked none does. -/
def fits (pod : Pod) : Task Agent Bool := do
  let agent ← Task.get
  match agent.ledger.accountOf? pod with
  | none => return false
  | some (_, account) =>
    match Amounts.ofPod pod with
    | .ok needed => return account.fits needed
    | .error fault => do
      Task.warn (.unreadableRequests fault)
      return false

end HollowFleet.Agent
