import HollowFleet.Proofs.Accounting.Totals
import Mathlib.Algebra.BigOperators.Group.List.Basic

/-!
# What pods request

A pod asks for what its regular containers request, added up one container after the other. The
running sum is capped at each step, and one request that is no quantity spoils the whole sum.

Both can be told without the order of the containers: nothing is asked for if some container
misstates a request (`Container.Misstates`), and else the cap of the exact sum
(`Amounts.ofPod_eq_ok_iff`), since a sum that was capped on the way is capped at the end. A pod
whose requests cannot be read is not charged, and the accounts stay as they are.

The way up is by levels. One amount is refused if it is no quantity and for nothing else
(`Resource.read_eq_error_iff`). The amounts of one container are refused if one of them is
(`Amounts.ofEntries_eq_ok_iff`), and nothing but memory and processor time is looked at. The
containers of a pod are a fold over the list, and `requested_eq_ok_iff` replaces it by the cap of a
sum, by induction on the list with the sum so far generalized.

That the order does not matter (`ofPod_eq_ok_congr`) follows from the sum and not from the fold, and
that init containers, ephemeral containers and limits do not matter from the fact that only the
requests of the regular containers occur in it (`ofPod_congr`).
-/

namespace HollowFleet

open Agent Watch

/-! ### One amount -/

namespace Quantity

/-- Nothing is counted beyond the greatest amount. -/
theorem units_le (value : Number.Binary64) : units value ≤ greatestAmount := by
  rw [units, Number.Binary64.ceilWithin.eq_def]
  split
  · exact Nat.le_refl _
  · exact Nat.min_le_right _ _

end Quantity

namespace Resource

/-- The name under which amounts of a resource are listed. -/
def name : Resource → String
  | .memory => "memory"
  | .processor => "cpu"

/-- Reads an amount of a resource. -/
def read : Resource → String → Except Fault ℕ
  | .memory => Quantity.bytes
  | .processor => Quantity.millis

/-- An amount is refused if it is no quantity, and for nothing else. -/
theorem read_eq_error_iff {r : Resource} {raw : String} {fault : Fault} :
    r.read raw = .error fault ↔ Quantity.parse raw = .error fault := by
  cases r <;> simp only [read, Quantity.bytes, Quantity.millis] <;>
    cases Quantity.parse raw <;> simp [Except.map]

theorem read_le {r : Resource} {raw : String} {n : ℕ} (h : r.read raw = .ok n) :
    n ≤ Quantity.greatestAmount := by
  cases r <;> simp only [read, Quantity.bytes, Quantity.millis] at h <;>
    cases hparse : Quantity.parse raw <;> simp only [hparse, Except.map] at h <;> cases h <;>
    exact Quantity.units_le _

end Resource

/-! ### One dictionary -/

namespace Amounts

theorem eq_of_forall {x y : Amounts} (h : ∀ r, x.of r = y.of r) : x = y :=
  Amounts.ext (h .memory) (h .processor)

/-- So much of each resource. -/
def each (f : Resource → ℕ) : Amounts := ⟨f .memory, f .processor⟩

@[simp]
theorem of_each (f : Resource → ℕ) (r : Resource) : (each f).of r = f r := by cases r <;> rfl

/-- The amounts of a dictionary are read if each of them is. -/
theorem ofEntries_eq_ok_iff {entries : List (String × String)} {x : Amounts} :
    ofEntries entries = .ok x ↔ ∀ r : Resource, entry r.read entries r.name = .ok (x.of r) := by
  have hboth : (∀ r : Resource, entry r.read entries r.name = .ok (x.of r)) ↔
      entry Quantity.bytes entries "memory" = .ok x.memory ∧
        entry Quantity.millis entries "cpu" = .ok x.millis :=
    ⟨fun h ↦ ⟨h .memory, h .processor⟩, fun h r ↦ by cases r; exacts [h.1, h.2]⟩
  rw [hboth, ofEntries]
  cases entry Quantity.bytes entries "memory" with
  | error fault => simp [bind, Except.bind]
  | ok memory =>
    cases entry Quantity.millis entries "cpu" with
    | error fault => simp [bind, Except.bind]
    | ok millis => simp [bind, Except.bind, pure, Except.pure, Amounts.ext_iff]

/-- What a dictionary says of a resource is no more than the greatest amount. -/
theorem entry_le {r : Resource} {entries : List (String × String)} {name : String} {n : ℕ}
    (h : entry r.read entries name = .ok n) : n ≤ Quantity.greatestAmount := by
  rw [entry] at h
  split at h
  · exact Resource.read_le h
  · cases h
    exact Nat.zero_le _

/-- A dictionary lists nothing beyond the greatest amount. -/
theorem of_le_of_ofEntries {entries : List (String × String)} {x : Amounts}
    (h : ofEntries entries = .ok x) (r : Resource) : x.of r ≤ Quantity.greatestAmount :=
  entry_le (ofEntries_eq_ok_iff.1 h r)

end Amounts

/-! ### One container -/

namespace Container

/-- What a container requests of a resource, as it is written. -/
def request? (c : Container) (r : Resource) : Option String :=
  (c.requests.getD []).lookup r.name

/-- What a container requests of a resource, nothing if it does not say or if that is no
quantity. -/
def requested (c : Container) (r : Resource) : ℕ :=
  ((c.request? r).bind fun raw ↦ (r.read raw).toOption).getD 0

/-- A container requests an amount that is no quantity. -/
def Misstates (c : Container) : Prop :=
  ∃ r raw fault, c.request? r = some raw ∧ Quantity.parse raw = .error fault

/-- The requests of a container are read unless it misstates one. -/
theorem ofEntries_eq_ok_iff {c : Container} {x : Amounts} :
    Amounts.ofEntries (c.requests.getD []) = .ok x ↔
      ¬ c.Misstates ∧ ∀ r, x.of r = c.requested r := by
  have hentry : ∀ r : Resource, Amounts.entry r.read (c.requests.getD []) r.name = .ok (x.of r) ↔
      (∀ raw fault, c.request? r = some raw → Quantity.parse raw ≠ .error fault) ∧
        x.of r = c.requested r := by
    intro r
    have hrequest : (c.requests.getD []).lookup r.name = c.request? r := rfl
    rw [Amounts.entry, hrequest, requested]
    cases c.request? r with
    | none => simp [eq_comm]
    | some raw =>
      simp only [Option.some.injEq, forall_comm (α := String), forall_eq', Option.bind_some]
      simp only [ne_eq, ← Resource.read_eq_error_iff (r := r)]
      cases r.read raw with
      | error fault => simp
      | ok n => simp [Except.toOption, eq_comm]
  simp only [Amounts.ofEntries_eq_ok_iff, hentry, forall_and, Misstates, not_exists, not_and]

end Container

/-! ### All containers of a pod -/

/-- The regular containers of a pod. -/
def Pod.containers (pod : Pod) : List Container :=
  (pod.spec.map PodSpec.containers).getD []

namespace Amounts

/-- **A capped running sum is the cap of the sum.** -/
theorem requested_eq_ok_iff {containers : List Container} {total result : Amounts}
    (htotal : ∀ r, total.of r ≤ Quantity.greatestAmount) :
    requested total containers = .ok result ↔
      (∀ c ∈ containers, ¬ c.Misstates) ∧
        ∀ r, result.of r =
          min (total.of r + (containers.map (·.requested r)).sum) Quantity.greatestAmount := by
  induction containers generalizing total with
  | nil =>
    simp only [requested, Except.ok.injEq, List.not_mem_nil, false_imp_iff, implies_true, true_and,
      List.map_nil, List.sum_nil, Nat.add_zero, Nat.min_eq_left (htotal _)]
    exact ⟨fun h r ↦ by rw [h], fun h ↦ eq_of_forall fun r ↦ (h r).symm⟩
  | cons c rest ih =>
    rw [requested]
    by_cases hc : c.Misstates
    · -- the first request that is no quantity ends the sum
      cases hread : ofEntries (c.requests.getD []) with
      | ok x => exact absurd hc (Container.ofEntries_eq_ok_iff.1 hread).1
      | error fault => simp [bind, Except.bind, hc]
    · have hread : ofEntries (c.requests.getD []) =
          .ok ⟨c.requested .memory, c.requested .processor⟩ :=
        Container.ofEntries_eq_ok_iff.2 ⟨hc, fun r ↦ by cases r <;> rfl⟩
      have hof : ∀ r, (⟨c.requested .memory, c.requested .processor⟩ : Amounts).of r =
          c.requested r := fun r ↦ by cases r <;> rfl
      have hnext : ∀ r, (total + ⟨c.requested .memory, c.requested .processor⟩).of r =
          min (total.of r + c.requested r) Quantity.greatestAmount := fun r ↦ by
        rw [of_add, hof]
      have hcapped : ∀ r n, min (min (total.of r + c.requested r) Quantity.greatestAmount + n)
          Quantity.greatestAmount =
            min (total.of r + (c.requested r + n)) Quantity.greatestAmount := by
        intro r n
        omega
      simp only [hread, bind, Except.bind]
      rw [ih fun r ↦ by rw [hnext]; exact Nat.min_le_right _ _]
      simp only [hnext, hcapped, List.forall_mem_cons, hc, not_false_eq_true, true_and,
        List.map_cons, List.sum_cons]

/-- **The requests of a pod**, without the order in which they are added up. -/
theorem ofPod_eq_ok_iff {pod : Pod} {total : Amounts} :
    ofPod pod = .ok total ↔
      (∀ c ∈ pod.containers, ¬ c.Misstates) ∧
        ∀ r, total.of r =
          min (pod.containers.map (·.requested r)).sum Quantity.greatestAmount := by
  have hzero : ∀ r, ({} : Amounts).of r ≤ Quantity.greatestAmount := fun r ↦ by simp
  rw [ofPod, requested_eq_ok_iff hzero]
  simp only [of_zero, Nat.zero_add]
  rfl

/-- A pod is refused if one of its regular containers misstates a request. -/
theorem exists_ofPod_eq_error_iff {pod : Pod} :
    (∃ fault, ofPod pod = .error fault) ↔ ∃ c ∈ pod.containers, c.Misstates := by
  constructor
  · rintro ⟨fault, hfault⟩
    by_contra hnone
    have hread := ofPod_eq_ok_iff.2
      ⟨fun c hc hmisstates ↦ hnone ⟨c, hc, hmisstates⟩, fun r ↦ of_each _ r⟩
    rw [hfault] at hread
    cases hread
  · rintro ⟨c, hc, hmisstates⟩
    cases hread : ofPod pod with
    | error fault => exact ⟨fault, rfl⟩
    | ok total => exact absurd hmisstates ((ofPod_eq_ok_iff.1 hread).1 c hc)

/-- All that is read of a container is what it requests. -/
theorem requested_map_requests (total : Amounts) (containers : List Container) :
    requested total ((containers.map Container.requests).map fun requests ↦ { requests }) =
      requested total containers := by
  induction containers generalizing total with
  | nil => rfl
  | cons c rest ih =>
    simp only [List.map_cons, requested]
    cases ofEntries (c.requests.getD []) with
    | error fault => rfl
    | ok amounts => exact ih (total + amounts)

theorem ofPod_congr {pod pod' : Pod}
    (h : pod'.containers.map Container.requests = pod.containers.map Container.requests) :
    ofPod pod' = ofPod pod := by
  calc ofPod pod'
      = requested {} ((pod'.containers.map Container.requests).map fun requests ↦ { requests }) :=
        (requested_map_requests _ _).symm
    _ = requested {} ((pod.containers.map Container.requests).map fun requests ↦ { requests }) := by
        rw [h]
    _ = ofPod pod := requested_map_requests _ _

/-- In another order the same requests add up to the same. -/
theorem ofPod_eq_ok_congr {pod pod' : Pod}
    (h : (pod'.containers.map Container.requests).Perm (pod.containers.map Container.requests))
    (total : Amounts) : ofPod pod' = .ok total ↔ ofPod pod = .ok total := by
  have hread : ∀ p : Pod, ofPod p = .ok total ↔
      (∀ requests ∈ p.containers.map Container.requests, ¬ Container.Misstates { requests }) ∧
        ∀ r, total.of r = min ((p.containers.map Container.requests).map
          fun requests ↦ Container.requested { requests } r).sum Quantity.greatestAmount := by
    intro p
    rw [ofPod_eq_ok_iff, List.forall_mem_map]
    simp only [List.map_map]
    rfl
  rw [hread, hread]
  simp only [h.mem_iff, fun r ↦ (h.map fun requests ↦ Container.requested { requests } r).sum_eq]

end Amounts

/-! ### Charging -/

/-- A pod that misstates a request is refused, and nothing else happens. -/
theorem Agent.run_book_of_fault {ε : Type} (host : Host Agent ε) (world : ε) {a : Agent} {op : Op}
    (hop : op ≠ .deleted) {pod : Pod} {node : String} (hnode : pod.node? = some node)
    (htracked : (a.ledger.find? node).isSome) {fault : Fault}
    (hfault : Amounts.ofPod pod = .error fault) :
    (book (.pod ⟨op, pod⟩)).run.run host world a = ⟨a, world, some (.error fault)⟩ := by
  obtain ⟨account, hfound⟩ := Option.isSome_iff_exists.1 htracked
  have hcharge : a.ledger.charge pod = .error fault := by
    rw [Ledger.charge, Ledger.accountOf?_eq_some_iff.2 ⟨hnode, hfound⟩, hfault]
    rfl
  have hrun : (chargePod pod).run.run host world a = ⟨a, world, some (.error fault)⟩ := by
    have hget : ∀ next : Agent → Action Unit, (Action.get >>= next).run.run host world a =
        (next a).run.run host world a := fun _ ↦ rfl
    rw [chargePod, hget, hcharge]
    rfl
  cases op with
  | deleted => exact absurd rfl hop
  | added => exact hrun
  | updated => exact hrun

/-- **What a pod requests**, and what becomes of a pod whose requests cannot be read:

* the requests are refused exactly if one of a regular container is no quantity;
* else they are the cap of the exact sum over the regular containers;
* the order of these containers does not matter, and nothing but their requests is read;
* a pod on a tracked node that is refused for its requests is refused by that very fault when it
  is added or updated, and the agent with all its accounts is as before. -/
theorem requests_summed (pod : Pod) :
    ((∃ fault, Amounts.ofPod pod = .error fault) ↔ ∃ c ∈ pod.containers, c.Misstates) ∧
      (∀ total, Amounts.ofPod pod = .ok total → ∀ r,
        total.of r = min (pod.containers.map (·.requested r)).sum Quantity.greatestAmount) ∧
      (∀ pod' : Pod,
        (pod'.containers.map Container.requests).Perm (pod.containers.map Container.requests) →
          (Amounts.ofPod pod').toOption = (Amounts.ofPod pod).toOption) ∧
      (∀ pod' : Pod,
        pod'.containers.map Container.requests = pod.containers.map Container.requests →
          Amounts.ofPod pod' = Amounts.ofPod pod) ∧
      ∀ fault, Amounts.ofPod pod = .error fault →
        ∀ (a : Agent) (node : String), pod.node? = some node → (a.ledger.find? node).isSome →
          ∀ op, op ≠ .deleted → ∀ (ε : Type) (host : Host Agent ε) (world : ε),
            (book (.pod ⟨op, pod⟩)).run.run host world a = ⟨a, world, some (.error fault)⟩ := by
  refine ⟨Amounts.exists_ofPod_eq_error_iff, fun total hread ↦ (Amounts.ofPod_eq_ok_iff.1 hread).2,
    fun pod' hperm ↦ ?_, fun pod' hsame ↦ Amounts.ofPod_congr hsame,
    fun fault hfault a node hnode htracked op hop ε host world ↦
      run_book_of_fault host world hop hnode htracked hfault⟩
  have hcongr := Amounts.ofPod_eq_ok_congr hperm
  cases hread : Amounts.ofPod pod with
  | ok total => rw [(hcongr total).2 hread]
  | error fault =>
    cases hread' : Amounts.ofPod pod' with
    | error fault' => rfl
    | ok total =>
      rw [(hcongr total).1 hread'] at hread
      cases hread

/-- A pod that asks for more memory than is counted, in two containers; the amounts of the
container that is run first, and the limits, do not count. -/
def greedy : Pod where
  metadata := { name := some "web", space := some "default" }
  spec := some
    { nodeName := some "mock-node-0"
      initContainers := some [{ requests := some [("cpu", "2")] }]
      containers :=
        [{ requests := some [("memory", "16Ei")], limits := some [("cpu", "lots")] },
          { requests := some [("memory", "1"), ("cpu", "250m")] }] }

/-- What it asks for is capped; and a pod that comes to ask for `lots` keeps its charge. -/
theorem requests_summed_of_greedy :
    (Amounts.ofPod greedy = .ok ⟨18446744073709551615, 250⟩ ∧
      ∀ r, (⟨18446744073709551615, 250⟩ : Amounts).of r =
        min (greedy.containers.map (·.requested r)).sum Quantity.greatestAmount) ∧
      let a := (keepBooks CommandLine.disconnected () (.initial {} ⟨0, false⟩) raising).1
      (book (.pod ⟨.updated, asking "lots" "1"⟩)).run.run CommandLine.disconnected () a =
          ⟨a, (), some (.error (.invalid (.malformedQuantity "lots")))⟩ ∧
        (a.ledger.find? "mock-node-0").map Account.used = some ⟨1073741824, 500⟩ := by
  have hgreedy : Amounts.ofPod greedy = .ok ⟨18446744073709551615, 250⟩ := by decide +kernel
  have hrefused : Amounts.ofPod (asking "lots" "1") =
      .error (.invalid (.malformedQuantity "lots")) := by
    decide +kernel
  obtain ⟨-, hsum, -⟩ := requests_summed greedy
  obtain ⟨-, -, -, -, hkept⟩ := requests_summed (asking "lots" "1")
  refine ⟨⟨hgreedy, hsum _ hgreedy⟩, ?_, by decide +kernel⟩
  exact hkept _ hrefused _ "mock-node-0" (by decide) (by decide +kernel) .updated (by decide) _ _ _

end HollowFleet
