import HollowFleet.Object.Node
import HollowFleet.Object.Pod
import HollowFleet.Quantity

/-!
# Amounts of memory and processor time

Sums of amounts stop at the greatest amount that is counted and differences at zero. A pod
asks for the sum of what its regular containers request; a node offers the capacity that it
reports.

## Sums that stop

The two operations do not undo each other. Once a sum was stopped, taking a summand away again
gives less than the other summand, so a difference must not be read as what was there before.
The equations `memory_add` to `millis_sub` are all that is needed of the instances: with them a
statement on amounts is one on natural numbers with a minimum, part by part.

`below` is strict in both parts. So amounts that are equal in one part do not compare, and a node
of capacity zero has no room for anything, not even for nothing.

## Reading

Memory is read before processor time, so of two faults in one dictionary the one of the memory is
reported; and containers are read in order, up to the first fault. A name that is absent counts as
zero, as does a missing dictionary, while one that is there and cannot be read is a fault. Only what
the regular containers request counts: initial and ephemeral containers ask for nothing here, and
limits are not looked at.
-/

namespace HollowFleet

/-- An amount of memory and of processor time. -/
@[ext]
structure Amounts where
  /-- Memory in bytes. -/
  memory : Nat := 0
  /-- Thousandths of a core. -/
  millis : Nat := 0
deriving DecidableEq, Repr, Inhabited

namespace Amounts

/-- The sum of two counts, at most the greatest amount. -/
def capped (m n : Nat) : Nat := min (m + n) Quantity.greatestAmount

/-- The sum, each part at most the greatest amount. -/
def add (x y : Amounts) : Amounts := ⟨capped x.memory y.memory, capped x.millis y.millis⟩

/-- The difference, each part at least zero. -/
def sub (x y : Amounts) : Amounts := ⟨x.memory - y.memory, x.millis - y.millis⟩

instance : Add Amounts := ⟨add⟩

instance : Sub Amounts := ⟨sub⟩

@[simp]
theorem memory_add (x y : Amounts) : (x + y).memory = capped x.memory y.memory := rfl

@[simp]
theorem millis_add (x y : Amounts) : (x + y).millis = capped x.millis y.millis := rfl

@[simp]
theorem memory_sub (x y : Amounts) : (x - y).memory = x.memory - y.memory := rfl

@[simp]
theorem millis_sub (x y : Amounts) : (x - y).millis = x.millis - y.millis := rfl

/-- Strictly less in both parts. -/
def below (x y : Amounts) : Bool := decide (x.memory < y.memory) && decide (x.millis < y.millis)

/-! ### Requests and capacity -/

/-- The amount under a name, read by `read`; nothing if the name is absent. -/
def entry (read : String → Except Fault Nat) (entries : List (String × String)) (name : String) :
    Except Fault Nat :=
  match entries.lookup name with
  | some raw => read raw
  | none => .ok 0

/-- The amounts in a dictionary, memory being read first. -/
def ofEntries (entries : List (String × String)) : Except Fault Amounts := do
  let memory ← entry Quantity.bytes entries "memory"
  let millis ← entry Quantity.millis entries "cpu"
  return ⟨memory, millis⟩

/-- The sum of what some containers request. -/
def requested : Amounts → List Container → Except Fault Amounts
  | total, [] => .ok total
  | total, c :: rest => do
    let amounts ← ofEntries (c.requests.getD [])
    requested (total + amounts) rest

/-- The sum of what a pod's regular containers request. -/
def ofPod (pod : Pod) : Except Fault Amounts :=
  requested {} ((pod.spec.map PodSpec.containers).getD [])

/-- The capacity that a node reports. -/
def ofNode (node : Node) : Except Fault Amounts :=
  ofEntries ((node.status.bind NodeStatus.capacity).getD [])

end Amounts

end HollowFleet
