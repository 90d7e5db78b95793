import HollowFleet.Proofs.Fleet.Registration

/-!
# The start of the fleet

The fleet is registered in the order of its indices, until one registration fails. So at any time
the nodes below some bound are tracked (`Enrolled`), whatever becomes of the calls, and where a
registration stopped, and why, tells the bound (`Course`). A registration that was begun or done
before only takes up what is there. So the fleet can be registered again after a fault, and what is
held of the nodes is what would be held had there been no fault (`bootstrap_resumable`).

## What the main theorem rests on

* `Enrolled.attempt` is the step, one registration: the bound goes up by one, or stays where it is
  if the agent hears a fault instead of an answer about the node. It takes an index up to the bound,
  so that a registration that is repeated is covered by the same lemma.
* `FleetStart` collects what a start does from some index on, and `FleetStart.cons` puts one
  registration before it; `exists_fleetStart` is by induction on the number of indices that are
  left.
* `Course` keeps apart the two ways to fail. A fault of the cluster leaves the node unregistered, so
  that the next start takes it up; a block that cannot be read leaves it tracked without a pool, and
  stops the next start at the same index.
* What two starts leave is compared with what one clean start leaves through the terms of the nodes
  (`Enrolled.holding_eq`). A node of the fleet that is missing may be created at different times in
  the two, which its terms do not show.
-/

namespace HollowFleet

open Agent

namespace Node

/-- A node that is not refused has the pool of its block. -/
theorem exists_pool {node : Node} {block : String} (h : node.poolFault? = none)
    (hblock : node.podBlock? = some block) :
    ∃ pool, Pool.parse block = .ok pool ∧ node.pool? = some pool := by
  rw [poolFault?, hblock, Option.bind_some] at h
  rw [pool?, hblock, Option.bind_some]
  cases hparse : Pool.parse block with
  | ok pool => exact ⟨pool, rfl, rfl⟩
  | error fault =>
    rw [hparse] at h
    cases h

/-- A node that is refused declares a block that cannot be read, and has no pool. -/
theorem exists_block {node : Node} {fault : Fault} (h : node.poolFault? = some fault) :
    ∃ block, node.podBlock? = some block ∧ Pool.parse block = .error fault ∧ node.pool? = none := by
  obtain ⟨block, hblock, hfault⟩ := Option.bind_eq_some_iff.1 h
  refine ⟨block, hblock, ?_⟩
  rw [pool?, hblock, Option.bind_some]
  cases hparse : Pool.parse block with
  | ok pool =>
    rw [hparse] at hfault
    cases hfault
  | error fault' =>
    rw [hparse] at hfault
    cases hfault
    exact ⟨rfl, rfl⟩

end Node

/-! ### Up to a bound -/

/-- The nodes of the indices below a bound are in the cluster and held on their terms, and nothing
is held of any other node. -/
structure Enrolled (w : Registry) (bound : ℕ) (a : Agent) : Prop where
  /-- What is held of the nodes below the bound. -/
  held : ∀ i < bound, ∃ node, w.node? (Node.fleetName i) = some node ∧
    holding (Node.fleetName i) a = node.terms
  /-- What is held of others. -/
  others : ∀ name, (∀ i < bound, name ≠ Node.fleetName i) → holding name a = {}

namespace Enrolled

variable {w w' : Registry} {bound : ℕ} {a a' : Agent}

/-- At the start nothing is held. -/
theorem initial (w : Registry) (settings : Settings) (clock : Timestamp) :
    Enrolled w 0 (.initial settings clock) where
  held i hi := absurd hi (Nat.not_lt_zero i)
  others _ _ := rfl

/-- What was enrolled stays so when the cluster has more nodes and the agent holds the same. -/
theorem grows (h : Enrolled w bound a) (hgrows : w.Grows w')
    (hsame : ∀ name, holding name a' = holding name a) : Enrolled w' bound a' where
  held i hi := by
    obtain ⟨node, hnode, hheld⟩ := h.held i hi
    exact ⟨node, hgrows.node? hnode, (hsame _).trans hheld⟩
  others name hname := (hsame name).trans (h.others name hname)

/-- The node of an index up to the bound is held on its terms or not at all. -/
theorem held_or_nothing (h : Enrolled w bound a) {index : ℕ} (hindex : index ≤ bound) :
    (∃ node, w.node? (Node.fleetName index) = some node ∧
      holding (Node.fleetName index) a = node.terms) ∨ holding (Node.fleetName index) a = {} := by
  rcases Nat.lt_or_eq_of_le hindex with hlt | rfl
  · exact .inl (h.held index hlt)
  · exact .inr (h.others _ fun i hi heq ↦ hi.ne' (Node.fleetName_injective heq))

/-- The nodes that are tracked are those of the indices below the bound. -/
theorem contains_iff (h : Enrolled w bound a) (name : String) :
    a.ledger.contains name = true ↔ ∃ i < bound, name = Node.fleetName i := by
  have hslot : a.ledger.contains name = (holding name a).account.isSome := rfl
  rw [hslot]
  constructor
  · intro hsome
    by_contra hnone
    rw [h.others name fun i hi heq ↦ hnone ⟨i, hi, heq⟩] at hsome
    cases hsome
  · rintro ⟨i, hi, rfl⟩
    obtain ⟨node, -, hheld⟩ := h.held i hi
    rw [hheld]
    rfl

/-- Two agents that have registered the same part of the fleet hold the same of every node. -/
theorem holding_eq {w₀ : Registry} (h : Enrolled w bound a) (h' : Enrolled w' bound a')
    (hgrows : w₀.Grows w) (hgrows' : w₀.Grows w') (name : String) :
    holding name a = holding name a' := by
  by_cases hname : ∃ i < bound, name = Node.fleetName i
  · obtain ⟨i, hi, rfl⟩ := hname
    obtain ⟨node, hnode, hheld⟩ := h.held i hi
    obtain ⟨node', hnode', hheld'⟩ := h'.held i hi
    calc
      holding (Node.fleetName i) a = (w.member i).terms := by rw [hheld, Registry.member_eq hnode]
      _ = (w₀.member i).terms := (hgrows.member i).1
      _ = (w'.member i).terms := (hgrows'.member i).1.symm
      _ = holding (Node.fleetName i) a' := by rw [hheld', Registry.member_eq hnode']
  · have hnone : ∀ i < bound, name ≠ Node.fleetName i := fun i hi heq ↦ hname ⟨i, hi, heq⟩
    rw [h.others name hnone, h'.others name hnone]

end Enrolled

namespace Registry

/-- Why the node of an index gets no pool. -/
def poolFaultAt? (w : Registry) (index : ℕ) : Option Fault := (w.member index).poolFault?

/-- Whether a node gets a pool does not change when it is created. -/
theorem Grows.poolFaultAt? {w w' : Registry} (h : w.Grows w') : w'.poolFaultAt? = w.poolFaultAt? :=
  funext fun index ↦ (h.member index).2

end Registry

namespace Enrolled

variable {w : Registry} {bound index : ℕ} {a : Agent}

/-- A node below the bound that is not refused has the pool of its block. -/
theorem pool (h : Enrolled w bound a) (hindex : index < bound)
    (hclear : w.poolFaultAt? index = none) :
    ∃ node, w.node? (Node.fleetName index) = some node ∧
      ∀ block, node.podBlock? = some block →
        ∃ pool, Pool.parse block = .ok pool ∧ poolAt (Node.fleetName index) a = some pool := by
  obtain ⟨node, hnode, hheld⟩ := h.held index hindex
  rw [Registry.poolFaultAt?, Registry.member_eq hnode] at hclear
  refine ⟨node, hnode, fun block hblock ↦ ?_⟩
  obtain ⟨pool, hparse, hpool⟩ := Node.exists_pool hclear hblock
  exact ⟨pool, hparse, (congrArg Holding.pool hheld).trans hpool⟩

/-- A node below the bound that is refused has no pool. -/
theorem refused (h : Enrolled w bound a) (hindex : index < bound) {fault : Fault}
    (hfault : w.poolFaultAt? index = some fault) :
    poolAt (Node.fleetName index) a = none ∧
      ∃ node block, w.node? (Node.fleetName index) = some node ∧
        node.podBlock? = some block ∧ Pool.parse block = .error fault := by
  obtain ⟨node, hnode, hheld⟩ := h.held index hindex
  rw [Registry.poolFaultAt?, Registry.member_eq hnode] at hfault
  obtain ⟨block, hblock, hparse, hpool⟩ := Node.exists_block hfault
  exact ⟨(congrArg Holding.pool hheld).trans hpool, node, block, hnode, hblock, hparse⟩

/-- A node that is not below the bound has no pool. -/
theorem poolAt_eq_none (h : Enrolled w bound a) (hindex : bound ≤ index) :
    poolAt (Node.fleetName index) a = none :=
  congrArg Holding.pool (h.others _ fun i hi heq ↦ by
    have hsame := Node.fleetName_injective heq
    omega)

end Enrolled

/-- **One registration** of an index up to the bound. If the agent hears a fault instead of an
answer about the node, the bound stays; else the node is below it. -/
theorem Enrolled.attempt {fates : ℕ → Call → Fate} {w : Registry} {bound index : ℕ} {a : Agent}
    (h : Enrolled w bound a) (hindex : index ≤ bound) {calls : List Entry}
    {r : Run Agent Registry (Except Fault Unit)} (hr : Attempt fates w a index calls r) :
    (∃ fault, r.result = some (.error fault) ∧
        calls.getLast?.bind Entry.nodeFault? = some fault ∧
        (∃ count c, (fates count c).fortune ≠ .granted) ∧ Enrolled r.world bound r.state) ∨
      (r.result = some ((w.poolFaultAt? index).elim (.ok ()) .error) ∧
        Enrolled r.world (max bound (index + 1)) r.state) := by
  rcases hr.ends with ⟨fault, hresult, hlast, hlost, hsame⟩ | ⟨node, hnode, hresult, hholding⟩
  · exact .inl ⟨fault, hresult, hlast, hlost, h.grows hr.grows hsame⟩
  · -- registered before or not, the node is held on its terms now
    have hbefore : holding (Node.fleetName index) a = node.terms ∨
        holding (Node.fleetName index) a = {} := by
      refine (h.held_or_nothing hindex).imp_left ?_
      rintro ⟨node', hnode', hheld⟩
      obtain rfl := Option.some.inj (hnode.symm.trans (hr.grows.node? hnode'))
      exact hheld
    have hterms : holding (Node.fleetName index) r.state = node.terms := by
      rw [hholding, if_pos rfl]
      rcases hbefore with hheld | hheld
      · rw [hheld, node.after_terms]
      · rw [hheld, node.after_nothing]
    have hfault : w.poolFaultAt? index = node.poolFault? := by
      rw [← hr.grows.poolFaultAt?, Registry.poolFaultAt?, Registry.member_eq hnode]
    refine .inr ⟨?_, ⟨fun i hi ↦ ?_, fun name hname ↦ ?_⟩⟩
    · rw [hresult, hfault]
      split
      · next hpool =>
        -- where there is a pool already, the node is not refused
        have hnone : node.poolFault? = none := by
          have hslot : poolAt (Node.fleetName index) a =
              (holding (Node.fleetName index) a).pool := rfl
          rw [hslot] at hpool
          rcases hbefore with hheld | hheld
          · rw [hheld] at hpool
            exact Node.poolFault?_eq_none_of_pool? hpool
          · rw [hheld] at hpool
            cases hpool
        rw [hnone]
        rfl
      · rfl
    · by_cases heq : i = index
      · subst heq
        exact ⟨node, hnode, hterms⟩
      · obtain ⟨other, hother, hheld⟩ := h.held i (by omega)
        refine ⟨other, hr.grows.node? hother, ?_⟩
        rw [hholding, if_neg fun hname ↦ heq (Node.fleetName_injective hname), hheld]
    · rw [hholding, if_neg (hname index (by omega))]
      exact h.others name fun i hi ↦ hname i (by omega)

/-! ### The course of a start -/

/-- The course of a registration of the indices from `first` on and below `stop`: the index that
comes after the last one that was begun, the index up to which nodes are tracked then, and how it
ended. -/
inductive Course (fates : ℕ → Call → Fate) (poolFaultAt? : ℕ → Option Fault) (first stop : ℕ)
    (calls : List Entry) : ℕ → ℕ → Except Fault Unit → Prop
  /-- Every node is registered. -/
  | done (hclear : ∀ j, first ≤ j → j < stop → poolFaultAt? j = none) :
      Course fates poolFaultAt? first stop calls stop stop (.ok ())
  /-- The agent hears a fault instead of an answer about a node. -/
  | unheard (k : ℕ) (fault : Fault) (hfirst : first ≤ k) (hstop : k < stop)
      (hclear : ∀ j, first ≤ j → j < k → poolFaultAt? j = none)
      (hlast : calls.getLast?.bind Entry.nodeFault? = some fault)
      (hlost : ∃ count c, (fates count c).fortune ≠ .granted) :
      Course fates poolFaultAt? first stop calls (k + 1) k (.error fault)
  /-- The block of a node cannot be read. -/
  | refused (k : ℕ) (fault : Fault) (hfirst : first ≤ k) (hstop : k < stop)
      (hclear : ∀ j, first ≤ j → j < k → poolFaultAt? j = none)
      (hfault : poolFaultAt? k = some fault) :
      Course fates poolFaultAt? first stop calls (k + 1) (k + 1) (.error fault)

namespace Course

variable {fates fates' : ℕ → Call → Fate} {poolFaultAt? : ℕ → Option Fault} {first stop : ℕ}
  {calls calls' : List Entry} {reached reached' tracked tracked' : ℕ}
  {result result' : Except Fault Unit}

/-- One more registration before the others. -/
theorem cons (h : Course fates poolFaultAt? (first + 1) stop calls reached tracked result)
    (hclear : poolFaultAt? first = none) (before : List Entry) :
    Course fates poolFaultAt? first stop (before ++ calls) reached tracked result := by
  have hfrom {k : ℕ} (hrest : ∀ j, first + 1 ≤ j → j < k → poolFaultAt? j = none) (j : ℕ)
      (hfirst : first ≤ j) (hj : j < k) : poolFaultAt? j = none := by
    rcases Nat.eq_or_lt_of_le hfirst with rfl | hlt
    · exact hclear
    · exact hrest j hlt hj
  cases h with
  | done hrest => exact .done (hfrom hrest)
  | unheard k fault hfirst hstop hrest hlast hlost =>
    refine .unheard _ fault (by omega) hstop (hfrom hrest) ?_ hlost
    obtain ⟨e, he, -⟩ := Option.bind_eq_some_iff.1 hlast
    rw [List.getLast?_append, he, Option.some_or, ← he]
    exact hlast
  | refused k fault hfirst hstop hrest hfault =>
    exact .refused k fault (by omega) hstop (hfrom hrest) hfault

/-- What was registered before a start stays behind it. -/
theorem first_le (h : Course fates poolFaultAt? (first + 1) stop calls reached tracked result)
    (hstop : first < stop) : first + 1 ≤ tracked := by
  cases h with
  | done => exact hstop
  | unheard k fault hfirst => exact hfirst
  | refused k fault hfirst => exact hfirst.trans (Nat.le_succ _)

/-- Without faults of the cluster a start gets at least as far. -/
theorem tracked_le (h : Course fates poolFaultAt? first stop calls reached tracked result)
    (h' : Course fates' poolFaultAt? first stop calls' reached' tracked' result')
    (hgranted : ∀ count c, (fates' count c).fortune = .granted) : tracked ≤ tracked' := by
  cases h' with
  | unheard k fault hfirst hstop hclear hlast hlost =>
    obtain ⟨count, c, hnot⟩ := hlost
    exact absurd (hgranted count c) hnot
  | done hclear' =>
    cases h with
    | done => exact le_rfl
    | unheard k fault hfirst hstop => exact hstop.le
    | refused k fault hfirst hstop => exact hstop
  | refused k' fault' hfirst' hstop' hclear' hfault' =>
    -- whoever gets past the node that is refused is refused there
    have hpast {k : ℕ} (hclear : ∀ j, first ≤ j → j < k → poolFaultAt? j = none) : k ≤ k' := by
      by_contra hlt
      have hnone := hclear k' hfirst' (by omega)
      rw [hfault'] at hnone
      cases hnone
    cases h with
    | done hclear => exact absurd (hpast hclear) (by omega)
    | unheard k fault hfirst hstop hclear => exact (hpast hclear).trans (Nat.le_succ _)
    | refused k fault hfirst hstop hclear => exact Nat.succ_le_succ (hpast hclear)

end Course

/-! ### Runs -/

namespace Agent

section Bind

variable {α β ε : Type} {host : Host Agent ε} {world : ε} {a : Agent} {action : Action α}
  {next : α → Action β}

/-- What comes after work depends on how it ended. -/
theorem run_bind_of_result {outcome : Except Fault α}
    (h : (action.run.run host world a).result = some outcome) :
    (action >>= next).run.run host world a =
      Task.run host (action.run.run host world a).world (action.run.run host world a).state
        (ExceptT.bindCont next outcome) := by
  have hbind : (action >>= next).run.run host world a =
      Task.run host world a (action.run >>= ExceptT.bindCont next) := rfl
  rw [hbind, Task.run_bind]
  rcases hrun : action.run.run host world a with ⟨s, world', result⟩
  rw [hrun] at h
  cases h
  rfl

/-- Work goes on after what does not fail. -/
theorem run_bind_of_ok {value : α}
    (h : (action.run.run host world a).result = some (.ok value)) :
    (action >>= next).run.run host world a =
      (next value).run.run host (action.run.run host world a).world
        (action.run.run host world a).state :=
  run_bind_of_result h

/-- A fault ends the work. -/
theorem run_bind_of_error {fault : Fault}
    (h : (action.run.run host world a).result = some (.error fault)) :
    (action >>= next).run.run host world a =
      ⟨(action.run.run host world a).state, (action.run.run host world a).world,
        some (.error fault)⟩ :=
  run_bind_of_result h

end Bind

/-- **What a start of the fleet does** with the indices from `first` on and below `stop`, where the
nodes below a bound were registered before. -/
structure FleetStart (fates : ℕ → Call → Fate) (w : Registry) (a : Agent) (bound first stop : ℕ)
    (visits : List (List Entry)) (tracked : ℕ) (r : Run Agent Registry (Except Fault Unit)) :
    Prop where
  /-- The indices are visited in order. -/
  ordered : List.Forall₂ Registration (List.range' first visits.length) visits
  /-- Nothing else is called. -/
  log : r.world.log = w.log ++ visits.flatten
  /-- The nodes of the cluster are kept. -/
  grows : w.Grows r.world
  /-- No node is created that is there. -/
  created : ∀ e ∈ visits.flatten, ∀ node, e.call = .createNode node → w.node? node.name = none
  /-- The settings stay as they are. -/
  settings : r.state.settings = a.settings
  /-- How far the start comes, and how it ends. -/
  course : ∃ result, r.result = some result ∧
    Course fates w.poolFaultAt? first stop visits.flatten (first + visits.length) tracked result
  /-- What is held of the nodes then. -/
  enrolled : Enrolled r.world (max bound tracked) r.state

variable {fates : ℕ → Call → Fate} {w : Registry} {a : Agent} {bound first stop : ℕ}

/-- A start that comes to its end with the first index. -/
theorem Attempt.fleetStart {calls : List Entry} {tracked : ℕ} {result : Except Fault Unit}
    {r : Run Agent Registry (Except Fault Unit)} (hattempt : Attempt fates w a first calls r)
    (hresult : r.result = some result)
    (hcourse : Course fates w.poolFaultAt? first stop calls (first + 1) tracked result)
    (henrolled : Enrolled r.world (max bound tracked) r.state) :
    FleetStart fates w a bound first stop [calls] tracked r where
  ordered := .cons hattempt.registration .nil
  log := by rw [List.flatten_singleton, hattempt.log]
  grows := hattempt.grows
  created := by
    rw [List.flatten_singleton]
    exact hattempt.created
  settings := hattempt.settings
  course := ⟨result, hresult, by rwa [List.flatten_singleton]⟩
  enrolled := henrolled

/-- One more registration before a start. -/
theorem FleetStart.cons {calls : List Entry} {visits : List (List Entry)} {tracked : ℕ}
    {r r' : Run Agent Registry (Except Fault Unit)} (hattempt : Attempt fates w a first calls r)
    (hclear : w.poolFaultAt? first = none) (hstop : first < stop)
    (h : FleetStart fates r.world r.state (max bound (first + 1)) (first + 1) stop visits tracked
      r') :
    FleetStart fates w a bound first stop (calls :: visits) tracked r' := by
  obtain ⟨result, hresult, hcourse⟩ := h.course
  rw [hattempt.grows.poolFaultAt?] at hcourse
  have hfirst : first + 1 ≤ tracked := hcourse.first_le hstop
  refine {
    ordered := .cons hattempt.registration h.ordered
    log := by rw [h.log, hattempt.log, List.append_assoc, List.flatten_cons]
    grows := hattempt.grows.trans h.grows
    created := fun e he node hcall ↦ ?_
    settings := h.settings.trans hattempt.settings
    course := ⟨result, hresult, ?_⟩
    enrolled := ?_ }
  · rcases List.mem_append.1 he with he | he
    · exact hattempt.created e he node hcall
    · exact hattempt.grows.node?_eq_none (h.created e he node hcall)
  · have hlength : first + 1 + visits.length = first + (visits.length + 1) := by omega
    rw [hlength] at hcourse
    exact hcourse.cons hclear calls
  · have hbound : max (max bound (first + 1)) tracked = max bound tracked := by omega
    exact hbound ▸ h.enrolled

variable (fates)

/-- **A start from some index on**, by induction on how many indices are left. -/
theorem exists_fleetStart (hnamed : w.Named) (h : Enrolled w bound a) (hfirst : first ≤ bound)
    (count : ℕ) (hstop : first + count = stop) :
    ∃ visits tracked, FleetStart fates w a bound first stop visits tracked
      ((registerAll (List.range' first count)).run.run (Registry.host fates) w a) := by
  induction count generalizing w a bound first with
  | zero =>
    obtain rfl : first = stop := hstop
    refine ⟨[], first, {
      ordered := .nil
      log := (List.append_nil _).symm
      grows := .refl w
      created := List.forall_mem_nil _
      settings := rfl
      course := ⟨_, rfl, .done fun j hle hlt ↦ absurd hle (by omega)⟩
      enrolled := by rwa [Nat.max_eq_left hfirst] }⟩
  | succ count ih =>
    obtain ⟨calls, hattempt⟩ := exists_attempt fates a hnamed first
    have hnothing (j : ℕ) (hle : first ≤ j) (hlt : j < first) : w.poolFaultAt? j = none := by omega
    rw [List.range'_succ, registerAll]
    obtain ⟨fault, hresult, hlast, hlost, henrolled⟩ | ⟨hresult, henrolled⟩ :=
      h.attempt hfirst hattempt
    · rw [run_bind_of_error hresult, ← hresult]
      rw [← Nat.max_eq_left hfirst] at henrolled
      exact ⟨[calls], first, hattempt.fleetStart hresult
        (.unheard first fault le_rfl (by omega) hnothing hlast hlost) henrolled⟩
    · cases hfault : w.poolFaultAt? first with
      | some fault =>
        rw [hfault] at hresult
        have herror : _ = some (Except.error fault) := hresult
        rw [run_bind_of_error herror, ← herror]
        exact ⟨[calls], first + 1, hattempt.fleetStart hresult
          (.refused first fault le_rfl (by omega) hnothing hfault) henrolled⟩
      | none =>
        rw [hfault] at hresult
        rw [run_bind_of_ok hresult]
        obtain ⟨visits, tracked, hstart⟩ := ih (hattempt.grows.named hnamed) henrolled
          (Nat.le_max_right _ _) (by omega)
        exact ⟨calls :: visits, tracked, hstart.cons hattempt hfault (by omega)⟩

/-- The start of the whole fleet is one from index zero on. -/
theorem exists_fleetStart_bootstrap (hnamed : w.Named) (h : Enrolled w bound a) :
    ∃ visits tracked, FleetStart fates w a bound 0 a.settings.nodeCount visits tracked
      (bootstrap.run.run (Registry.host fates) w a) := by
  have hrun : bootstrap.run.run (Registry.host fates) w a =
      (registerAll (List.range a.settings.nodeCount)).run.run (Registry.host fates) w a := rfl
  rw [hrun, List.range_eq_range']
  exact exists_fleetStart fates hnamed h (Nat.zero_le bound) a.settings.nodeCount (Nat.zero_add _)

/-- A start after another, without faults of the cluster, leaves what a single one leaves. -/
theorem holding_bootstrap_again (hnamed : w.Named) (settings : Settings)
    (clock clock' clock₁ : Timestamp) {fates' fates₁ : ℕ → Call → Fate}
    (hgranted' : ∀ count c, (fates' count c).fortune = .granted)
    (hgranted₁ : ∀ count c, (fates₁ count c).fortune = .granted) (name : String) :
    let r := bootstrap.run.run (Registry.host fates) w (.initial settings clock)
    let again := bootstrap.run.run (Registry.host fates') r.world { r.state with clock := clock' }
    let once := bootstrap.run.run (Registry.host fates₁) w (.initial settings clock₁)
    holding name again.state = holding name once.state := by
  intro r again once
  obtain ⟨visits, tracked, hstart⟩ :=
    exists_fleetStart_bootstrap fates hnamed (.initial w settings clock)
  obtain ⟨visits₁, tracked₁, hstart₁⟩ :=
    exists_fleetStart_bootstrap fates₁ hnamed (.initial w settings clock₁)
  have hbefore : Enrolled r.world (max 0 tracked) { r.state with clock := clock' } :=
    hstart.enrolled.grows (.refl _) fun _ ↦ rfl
  obtain ⟨visits', tracked', hstart'⟩ :=
    exists_fleetStart_bootstrap fates' (hstart.grows.named hnamed) hbefore
  obtain ⟨result, -, hcourse⟩ := hstart.course
  obtain ⟨result₁, -, hcourse₁⟩ := hstart₁.course
  obtain ⟨result', -, hcourse'⟩ := hstart'.course
  have hsettings : r.state.settings = settings := hstart.settings
  rw [hstart.grows.poolFaultAt?] at hcourse'
  replace hcourse' : Course fates' w.poolFaultAt? 0 settings.nodeCount _ _ tracked' result' :=
    hsettings ▸ hcourse'
  have hle : tracked ≤ tracked' := hcourse.tracked_le hcourse' hgranted'
  have heq : tracked' = tracked₁ :=
    (hcourse'.tracked_le hcourse₁ hgranted₁).antisymm (hcourse₁.tracked_le hcourse' hgranted')
  have hagain : Enrolled again.world tracked₁ again.state := by
    have hbound : max (max 0 tracked) tracked' = tracked₁ := by omega
    exact hbound ▸ hstart'.enrolled
  have honce : Enrolled once.world tracked₁ once.state := Nat.zero_max tracked₁ ▸ hstart₁.enrolled
  exact hagain.holding_eq honce (hstart.grows.trans hstart'.grows) hstart₁.grows name

/-- **The start of the fleet**, whatever becomes of the calls. The indices are visited in order, and
a node is created only after the look-up found none; the nodes that are there are kept. The start
ends before the last index if the agent hears a fault instead of an answer about the node of an
index, or if the block of that node cannot be read. No other call ends it. Then the nodes of the
indices before are tracked and have their pools, that node has none and is tracked only if its block
was the matter, and no later index was visited. A start after that, without faults of the cluster,
leaves what a single such start leaves. -/
theorem bootstrap_resumable (settings : Settings) (clock : Timestamp) (fates : ℕ → Call → Fate)
    (w : Registry) (hnamed : w.Named) :
    let r := bootstrap.run.run (Registry.host fates) w (.initial settings clock)
    (∃ visits done tracked,
      List.Forall₂ Registration (List.range visits.length) visits ∧
      r.world.log = w.log ++ visits.flatten ∧
      (∀ name node, w.node? name = some node → r.world.node? name = some node) ∧
      (∀ e ∈ visits.flatten, ∀ node, e.call = .createNode node → w.node? node.name = none) ∧
      (∀ name, r.state.ledger.contains name = true ↔ ∃ i < tracked, name = Node.fleetName i) ∧
      (∀ i < done, ∃ node, r.world.node? (Node.fleetName i) = some node ∧
        ∀ block, node.podBlock? = some block → ∃ pool, Pool.parse block = .ok pool ∧
          poolAt (Node.fleetName i) r.state = some pool) ∧
      ((r.result = some (.ok ()) ∧ done = settings.nodeCount ∧ tracked = done ∧
          visits.length = done) ∨
        ∃ fault, r.result = some (.error fault) ∧ done < settings.nodeCount ∧
          visits.length = done + 1 ∧ poolAt (Node.fleetName done) r.state = none ∧
          ((tracked = done ∧ visits.flatten.getLast?.bind Entry.nodeFault? = some fault) ∨
            (tracked = done + 1 ∧ ∃ node block, r.world.node? (Node.fleetName done) = some node ∧
              node.podBlock? = some block ∧ Pool.parse block = .error fault)))) ∧
    ∀ fates' fates₁ clock' clock₁, (∀ count c, (fates' count c).fortune = .granted) →
      (∀ count c, (fates₁ count c).fortune = .granted) →
      let again := bootstrap.run.run (Registry.host fates') r.world { r.state with clock := clock' }
      let once := bootstrap.run.run (Registry.host fates₁) w (.initial settings clock₁)
      ∀ name, again.state.ledger.find? name = once.state.ledger.find? name ∧
        poolAt name again.state = poolAt name once.state := by
  intro r
  obtain ⟨visits, tracked, hstart⟩ :=
    exists_fleetStart_bootstrap fates hnamed (.initial w settings clock)
  have henrolled : Enrolled r.world tracked r.state := Nat.zero_max tracked ▸ hstart.enrolled
  have hfaults : r.world.poolFaultAt? = w.poolFaultAt? := hstart.grows.poolFaultAt?
  have hordered := hstart.ordered
  rw [← List.range_eq_range'] at hordered
  constructor
  · obtain ⟨result, hresult, hcourse⟩ := hstart.course
    rw [Nat.zero_add] at hcourse
    generalize hreached : visits.length = reached at hcourse
    -- the pools follow from the bound, and so only the end is told apart
    have hpools {done : ℕ} (hle : done ≤ tracked)
        (hclear : ∀ j, 0 ≤ j → j < done → w.poolFaultAt? j = none) (i : ℕ) (hi : i < done) :=
      henrolled.pool (hi.trans_le hle) (hfaults ▸ hclear i (Nat.zero_le i) hi)
    cases hcourse with
    | done hclear =>
      exact ⟨visits, _, _, hordered, hstart.log, fun _ _ ↦ hstart.grows.node?, hstart.created,
        henrolled.contains_iff, hpools le_rfl hclear, .inl ⟨hresult, rfl, rfl, hreached⟩⟩
    | unheard _ fault hfirst hstop hclear hlast hlost =>
      exact ⟨visits, tracked, tracked, hordered, hstart.log, fun _ _ ↦ hstart.grows.node?,
        hstart.created, henrolled.contains_iff, hpools le_rfl hclear, .inr ⟨fault, hresult, hstop,
          hreached, henrolled.poolAt_eq_none le_rfl, .inl ⟨rfl, hlast⟩⟩⟩
    | refused done fault hfirst hstop hclear hfault =>
      obtain ⟨hnone, hblock⟩ := henrolled.refused (Nat.lt_succ_self done) (hfaults ▸ hfault)
      exact ⟨visits, done, _, hordered, hstart.log, fun _ _ ↦ hstart.grows.node?, hstart.created,
        henrolled.contains_iff, hpools (Nat.le_succ done) hclear, .inr ⟨fault, hresult, hstop,
          hreached, hnone, .inr ⟨rfl, hblock⟩⟩⟩
  · intro fates' fates₁ clock' clock₁ hgranted' hgranted₁ again once name
    have hsame := holding_bootstrap_again fates hnamed settings clock clock' clock₁
      hgranted' hgranted₁ name
    exact ⟨congrArg Holding.account hsame, congrArg Holding.pool hsame⟩

/-- A cluster that has the first node of the fleet, with a block of its own. -/
def firstThere : Registry where
  cluster := { nodes := (∅ : Table Node).insert "mock-node-0" nodeWithBlock }

/-- The second node is created, but the agent hears a fault. -/
def unheardCreation (_ : ℕ) : Call → Fate
  | .createNode node =>
    if node.name = "mock-node-1" then { fortune := .unheard .unanswered } else {}
  | _ => {}

/-- The start ends with the second node, which is not tracked then. The next start finds it in the
cluster and gives it its pool. -/
theorem bootstrap_resumable_of_unheardCreation :
    let first := Agent.initial { nodeCount := 3 } ⟨0, false⟩
    let r := bootstrap.run.run (Registry.host unheardCreation) firstThere first
    let again := bootstrap.run.run (Registry.host fun _ _ ↦ {}) r.world
      { r.state with clock := ⟨5, false⟩ }
    let once := bootstrap.run.run (Registry.host fun _ _ ↦ {}) firstThere first
    r.result = some (.error .unanswered) ∧ r.state.ledger.contains "mock-node-1" = false ∧
      (r.world.node? "mock-node-1").isSome = true ∧
      (∀ name, again.state.ledger.find? name = once.state.ledger.find? name ∧
        poolAt name again.state = poolAt name once.state) ∧
      (poolAt "mock-node-0" again.state, poolAt "mock-node-1" again.state) =
        (some newPool, (Pool.parse "10.244.2.0/24").toOption) := by
  have hnamed : firstThere.Named := by
    intro name node hnode
    rw [Registry.node?, firstThere, Table.find?_insert] at hnode
    split at hnode
    · next heq =>
      cases hnode
      exact heq.symm
    · cases hnode
  obtain ⟨-, hagain⟩ :=
    bootstrap_resumable { nodeCount := 3 } ⟨0, false⟩ unheardCreation firstThere hnamed
  have hsame := hagain (fun _ _ ↦ {}) (fun _ _ ↦ {}) ⟨5, false⟩ ⟨0, false⟩ (fun _ _ ↦ rfl)
    fun _ _ ↦ rfl
  dsimp only at hsame ⊢
  exact ⟨by decide +kernel, by decide +kernel, by decide +kernel, hsame, by decide +kernel⟩

end Agent

end HollowFleet
