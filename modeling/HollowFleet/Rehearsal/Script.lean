import HollowFleet.Cluster.Call
import HollowFleet.Table

/-!
# Scripted clusters

A cluster for rehearsals. It keeps the objects that are written to it and behaves by rules: a
rule catches calls of a kind, perhaps only about an object of one name, and delays them, lets
them fail, or never answers them. Of the rules that fit a call the first counts; a rule can be
told to let some calls pass before it starts, and to stop after some.

A call that fails by a rule has no effect on the objects. One that is delayed has its effect when it
is answered, so what was changed meanwhile is seen by it. The cluster does not check versions: a
lease that is stored replaces whatever lease there was, and an object that exists can be created
again. Every call is recorded when it begins, with how it ends (`Record`), and a call that is never
answered is recorded as well.
-/

namespace HollowFleet.Rehearsal

/-- A rule. -/
structure Rule where
  /-- The kind of calls that the rule catches. -/
  kind : Call.Kind
  /-- The name of the object that they must be about, if it matters. -/
  target : Option String := none
  /-- The number of fitting calls that still pass. -/
  skip : Nat := 0
  /-- The number of calls that the rule still catches; without a number, any. -/
  times : Option Nat := none
  /-- Milliseconds until the call is answered. -/
  delay : Nat := 0
  /-- Whether the call is never answered. -/
  stall : Bool := false
  /-- The fault that it is answered with. -/
  fault : Option Fault := none

namespace Rule

/-- Whether the rule is about a call and not used up. -/
def fits (r : Rule) (c : Call) : Bool :=
  decide (r.kind = c.kind) && ((r.target.map fun name ↦ decide (name = c.target)).getD true) &&
    decide (r.times ≠ some 0)

end Rule

/-- Looks for the first rule that catches a call; the rules that let it pass count it. -/
def consult (c : Call) : List Rule → List Rule × Option Rule
  | [] => ([], none)
  | r :: rest =>
    if r.fits c then
      if r.skip = 0 then ({ r with times := r.times.map (· - 1) } :: rest, some r)
      else
        let found := consult c rest
        ({ r with skip := r.skip - 1 } :: found.1, found.2)
    else
      let found := consult c rest
      (r :: found.1, found.2)

/-- A scripted cluster. -/
structure Script where
  /-- The nodes, by name. -/
  nodes : Table Node := ∅
  /-- The leases, by name. -/
  leases : Table Lease := ∅
  /-- The rules. -/
  rules : List Rule := []
  /-- The pods as their status was last written, by namespace and name. -/
  written : Table Pod := ∅

namespace Script

/-- Carries out a call. -/
def perform (s : Script) : (c : Call) → Script × c.Answer
  | .getNode name => (s, s.nodes.find? name)
  | .createNode node => ({ s with nodes := s.nodes.insert node.name node }, ())
  | .getLease node => (s, s.leases.find? node)
  | .createLease lease => ({ s with leases := s.leases.insert lease.name lease }, ())
  | .updateLease lease => ({ s with leases := s.leases.insert lease.name lease }, ())
  | .updatePodStatus pod => ({ s with written := s.written.insert pod.key pod }, ())
  | .deletePod _ _ => (s, ())

/-- Adds nodes and leases. -/
def addObjects (s : Script) (nodes : List Node) (leases : List Lease) : Script :=
  { s with
    nodes := nodes.foldl (fun t n ↦ t.insert n.name n) s.nodes
    leases := leases.foldl (fun t l ↦ t.insert l.name l) s.leases }

/-- Removes leases. -/
def dropLeases (s : Script) (names : List String) : Script :=
  { s with leases := s.leases.filter fun name ↦ !names.contains name }

end Script

/-! ### Records -/

/-- How a call went. -/
inductive Ending where
  | answered
  | failed
  | stalled
deriving DecidableEq, Repr

/-- The record of a call. -/
structure Record where
  /-- The call. -/
  call : Call
  /-- How it went. -/
  ending : Ending

end HollowFleet.Rehearsal
