import HollowFleet.Accounting.Amounts
import HollowFleet.Table

/-!
# The ledger

For every node that is tracked, an account: the node's address and capacity, the charge of
each pod and the sum of the charges. A pod's charge replaces the one before it, so a pod that
is reported again is not counted twice on its node.

## What an account promises

The sum of the charges is carried along and not computed from them. It is what was added and taken
away in the course of time, with sums that stop at a greatest amount, so it agrees with the charges
only as long as no sum was stopped; from then on it may be less. A charge and its drop go by the key
of the pod, so two pods of one namespace and name are one pod for the account.

An account knows of nothing but its own node. `Ledger.charge` and `Ledger.discharge` go to the node
that the pod names at that moment (`accountOf?`) and to no other one: a pod that is reported on
another node than before is charged there, and what it was charged before stays where it was.

A pod without a node and a pod of a node that is not tracked are charged nowhere, which is no fault.
Requests that cannot be read are one, and they leave the ledger as it was. A report of a node
changes its capacity and never its charges (`used_report`, `charges_report`), and a report without
an address keeps the one from before.
-/

namespace HollowFleet

/-- The account of a node. -/
structure Account where
  /-- The node's address, if it reported one. -/
  address : Option String
  /-- The node's capacity. -/
  capacity : Amounts
  /-- The sum of the charges. -/
  used : Amounts := {}
  /-- What each pod was charged, by namespace and name. -/
  charges : Table Amounts := ∅
deriving DecidableEq

namespace Account

/-- Charges a pod, in the place of its earlier charge. -/
def charge (a : Account) (key : String) (amount : Amounts) : Account :=
  let before := match a.charges.find? key with
    | some previous => a.used - previous
    | none => a.used
  { a with used := before + amount, charges := a.charges.insert key amount }

/-- Drops the charge of a pod. -/
def discharge (a : Account) (key : String) : Account :=
  match a.charges.find? key with
  | some previous => { a with used := a.used - previous, charges := a.charges.erase key }
  | none => a

/-- Whether `needed` fits on top of what is used; filling the node to the brim does not. -/
def fits (a : Account) (needed : Amounts) : Bool := (a.used + needed).below a.capacity

/-- The account after the node reported a capacity, and perhaps an address. -/
def report (a : Account) (capacity : Amounts) (address : Option String) : Account :=
  { a with
    capacity
    address := match address with
      | some found => some found
      | none => a.address }

@[simp]
theorem used_report (a : Account) (capacity : Amounts) (address : Option String) :
    (a.report capacity address).used = a.used := rfl

@[simp]
theorem charges_report (a : Account) (capacity : Amounts) (address : Option String) :
    (a.report capacity address).charges = a.charges := rfl

end Account

/-- The accounts of the tracked nodes, by name. -/
abbrev Ledger := Table Account

namespace Ledger

/-- The account of the node that a pod is bound to. -/
def accountOf? (ledger : Ledger) (pod : Pod) : Option (String × Account) := do
  let node ← pod.node?
  let account ← ledger.find? node
  return (node, account)

/-- Charges a pod to its node, unless the node is not tracked. -/
def charge (ledger : Ledger) (pod : Pod) : Except Fault Ledger :=
  match ledger.accountOf? pod with
  | none => .ok ledger
  | some (node, account) =>
    (Amounts.ofPod pod).map fun amount ↦ ledger.insert node (account.charge pod.key amount)

/-- Drops the charge of a pod from its node. -/
def discharge (ledger : Ledger) (pod : Pod) : Ledger :=
  match ledger.accountOf? pod with
  | none => ledger
  | some (node, account) => ledger.insert node (account.discharge pod.key)

end Ledger

end HollowFleet
