import HollowFleet.Object.Metadata

/-!
# Leases

A lease tells the cluster that its holder is alive. A node's lease is held by the node itself
and is renewed by moving its renew time; `renewedAt` touches nothing else. A lease declares
more than a node's lease makes use of, such as a strategy for a change of its holder; whatever
was fetched of that is stored again with the renewal.

A lease may declare nothing at all. A renewal then gives it a declaration that has the renew time
only; it does not fill in a holder or a duration, which `forNode` gives to a lease that is new. So
what a renewed lease says of its holder is what it said before, whoever created it.

The two times of a lease are kept with the precision of the clock and are written with six places,
unlike all other times, which are written in whole seconds. A time that was fetched therefore has at
most the precision in which it was stored.
-/

namespace HollowFleet

open Json

/-- What a lease declares. -/
structure LeaseSpec where
  /-- Who holds the lease. -/
  holderIdentity : Option String := none
  /-- For how many seconds a renewal is good. -/
  leaseDurationSeconds : Option Int := none
  /-- When the holder took the lease. -/
  acquireTime : Option Timestamp := none
  /-- When the holder last renewed it. -/
  renewTime : Option Timestamp := none
  /-- How often the holder has changed. -/
  leaseTransitions : Option Int := none
  /-- Who should hold the lease instead. -/
  preferredHolder : Option String := none
  /-- How the next holder is chosen. -/
  strategy : Option String := none
deriving DecidableEq, Repr, Inhabited

/-- A lease. -/
structure Lease where
  /-- Names and versions. -/
  metadata : Metadata := {}
  /-- What the lease declares. -/
  spec : Option LeaseSpec := none
deriving DecidableEq, Repr, Inhabited

namespace Lease

/-- The name under which the lease goes. -/
def name (lease : Lease) : String := lease.metadata.displayName

/-- When the lease was last renewed. -/
def renewTime? (lease : Lease) : Option Timestamp := lease.spec.bind LeaseSpec.renewTime

/-- A lease of a node that is held by the node itself and renewed at `now`. -/
def forNode (now : Timestamp) (node space : String) (duration : Int) : Lease where
  metadata := { name := some node, space := some space }
  spec := some {
    holderIdentity := some node
    leaseDurationSeconds := some duration
    renewTime := some now }

/-- The lease with its renew time moved to `now`. -/
def renewedAt (now : Timestamp) (lease : Lease) : Lease :=
  { lease with spec := some { lease.spec.getD {} with renewTime := some now } }

@[simp]
theorem metadata_renewedAt (now : Timestamp) (lease : Lease) :
    (lease.renewedAt now).metadata = lease.metadata := rfl

@[simp]
theorem renewTime?_renewedAt (now : Timestamp) (lease : Lease) :
    (lease.renewedAt now).renewTime? = some now := rfl

/-- Of several renewals only the last one shows. -/
@[simp]
theorem renewedAt_renewedAt (now earlier : Timestamp) (lease : Lease) :
    (lease.renewedAt earlier).renewedAt now = lease.renewedAt now := rfl

end Lease

/-! ### As JSON -/

/-- Reads what a lease declares. -/
def LeaseSpec.ofJson? (j : Json) : Option LeaseSpec := do
  let ms ← j.object?
  let holderIdentity ← optional? text? ms "holderIdentity"
  let leaseDurationSeconds ← optional? int32? ms "leaseDurationSeconds"
  let acquireTime ← optional? timestamp? ms "acquireTime"
  let renewTime ← optional? timestamp? ms "renewTime"
  let leaseTransitions ← optional? int32? ms "leaseTransitions"
  let preferredHolder ← optional? text? ms "preferredHolder"
  let strategy ← optional? text? ms "strategy"
  return {
    holderIdentity, leaseDurationSeconds, acquireTime, renewTime, leaseTransitions,
    preferredHolder, strategy }

/-- Reads a lease. -/
def Lease.ofJson? (j : Json) : Option Lease := do
  let ms ← j.object?
  let metadata ← Metadata.ofMembers? "coordination.k8s.io/v1" "Lease" ms
  let spec ← optional? LeaseSpec.ofJson? ms "spec"
  return { metadata, spec }

/-- What a lease declares; its times have six places. -/
def LeaseSpec.toJson (s : LeaseSpec) : Json :=
  object <|
    optional "holderIdentity" (s.holderIdentity.map text) ++
    optional "leaseDurationSeconds" (s.leaseDurationSeconds.map integer) ++
    optional "acquireTime" (s.acquireTime.map fun t ↦ text t.micros) ++
    optional "renewTime" (s.renewTime.map fun t ↦ text t.micros) ++
    optional "leaseTransitions" (s.leaseTransitions.map integer) ++
    optional "preferredHolder" (s.preferredHolder.map text) ++
    optional "strategy" (s.strategy.map text)

/-- A lease; what is absent is left out. -/
def Lease.toJson (lease : Lease) : Json :=
  object <|
    [("apiVersion", text "coordination.k8s.io/v1"), ("kind", text "Lease"),
      ("metadata", lease.metadata.toJson)] ++
    optional "spec" (lease.spec.map LeaseSpec.toJson)

end HollowFleet
