import HollowFleet.Agent.Dispatch
import HollowFleet.Proofs.Accounting.Charges
import HollowFleet.Proofs.Cluster.Frame
import Mathlib.Data.List.Infix

/-!
# Bookkeeping

The ledger takes part in every event of a node or a pod (`Agent.book`). What that does to the
accounts does not depend on the cluster, although it may be asked about a lease on the way:
`Ledger.after` says it outright, and `ensures_book` that the running tasks agree.

The accounts are a part of the agent that no answer of the cluster touches: a renewal keeps all of
the agent itself (`keeps_renewLease`), and a capacity that cannot be read leaves a warning and
counts as nothing (`ensures_capacity_bind`). So each task of the ledger is settled by the frame
lemmas from what it does to the accounts directly, and the calls drop out.

`ensures_book` is what the rest of the development uses. From there on the accounts after a run are
computed with `Ledger.after`, which is a plain function of the accounts and the event, and neither
hosts nor faults are mentioned any more. That the agent is abandoned in the middle of an event is
no exception: the accounts are settled before the first pause of a task.
-/

namespace HollowFleet

open Agent Watch

/-- The account of a node that was not tracked so far. An unreadable capacity counts as
nothing. -/
def Account.ofNode (node : Node) : Account where
  address := node.internalAddress?
  capacity := (Amounts.ofNode node).toOption.getD {}

/-- A pod has an account if it is bound to a node and the node is tracked. -/
theorem Ledger.accountOf?_eq_some_iff {ledger : Ledger} {pod : Pod} {node : String}
    {account : Account} :
    ledger.accountOf? pod = some (node, account) ↔
      pod.node? = some node ∧ ledger.find? node = some account := by
  simp only [Ledger.accountOf?, Option.bind_eq_bind, Option.bind_eq_some_iff]
  constructor
  · rintro ⟨node', hnode, account', hfound, heq⟩
    cases heq
    exact ⟨hnode, hfound⟩
  · rintro ⟨hnode, hfound⟩
    exact ⟨node, hnode, account, hfound, rfl⟩

/-! ### Events of the ledger -/

/-- What the ledger does about an event. -/
def Agent.book : Notice → Action Unit
  | .node ⟨.added, node⟩ => Action.lift (trackNode node)
  | .node ⟨.updated, node⟩ => Action.lift (updateNode node)
  | .node ⟨.deleted, node⟩ => Action.lift (untrackNode node)
  | .pod ⟨.added, pod⟩ => chargePod pod
  | .pod ⟨.updated, pod⟩ => chargePod pod
  | .pod ⟨.deleted, pod⟩ => Action.lift (dischargePod pod)

/-- The accounts after an event. -/
def Ledger.after (ledger : Ledger) : Notice → Ledger
  | .node ⟨.added, node⟩ =>
    if ledger.contains node.name then ledger else ledger.insert node.name (.ofNode node)
  | .node ⟨.updated, node⟩ =>
    let account := (ledger.find? node.name).getD (.ofNode node)
    let capacity := (Amounts.ofNode node).toOption.getD {}
    ledger.insert node.name (account.report capacity node.internalAddress?)
  | .node ⟨.deleted, node⟩ => ledger.erase node.name
  | .pod ⟨.added, pod⟩ => (ledger.charge pod).toOption.getD ledger
  | .pod ⟨.updated, pod⟩ => (ledger.charge pod).toOption.getD ledger
  | .pod ⟨.deleted, pod⟩ => ledger.discharge pod

/-! ### The tasks -/

/-- Renewing a lease changes nothing of the agent itself. -/
theorem keeps_renewLease {τ : Type} (view : Agent → τ) (node : String) :
    Task.Keeps view (renewLease node).run := by
  refine (Task.Keeps.call _).bind fun reply ↦ ?_
  rcases reply with fault | - | lease
  · exact .pure _
  · exact fun s ↦ (Task.Keeps.call _).bind (fun reply ↦ .pure _) s
  · exact fun s ↦ (Task.Keeps.call _).bind (fun reply ↦ .pure _) s

/-- The capacity of a node is told without touching the accounts. -/
theorem ensures_capacity_bind {node : Node} {s : Agent} {α : Type} {next : Amounts → Task Agent α}
    {post : Ledger → Option α → Prop}
    (h : ∀ s', s'.ledger = s.ledger →
      Task.Ensures Agent.ledger (next ((Amounts.ofNode node).toOption.getD {})) s' post) :
    Task.Ensures Agent.ledger (capacity node >>= next) s post := by
  rw [capacity]
  cases hread : Amounts.ofNode node with
  | ok amounts =>
    rw [hread] at h
    exact h s rfl
  | error fault =>
    rw [hread] at h
    exact h (s.warn (.unreadableCapacity fault)) rfl

/-- A new account is that of its node, and whatever warnings it takes to read it are kept elsewhere.
-/
theorem ensures_newAccount_bind {node : Node} {s : Agent} {α : Type}
    {next : Account → Task Agent α} {post : Ledger → Option α → Prop}
    (h : ∀ s', s'.ledger = s.ledger →
      Task.Ensures Agent.ledger (next (.ofNode node)) s' post) :
    Task.Ensures Agent.ledger (newAccount node >>= next) s post := by
  have hassoc : newAccount node >>= next =
      capacity node >>= fun capacity ↦ next { address := node.internalAddress?, capacity } := by
    rw [newAccount, capacity]
    cases Amounts.ofNode node <;> rfl
  -- so only the capacity is asked for before the account goes on
  rw [hassoc]
  exact ensures_capacity_bind h

/-- A node that is added gets an account, or keeps the one it has. -/
theorem ensures_trackNode (node : Node) (s : Agent) :
    Task.Ensures Agent.ledger (trackNode node) s
      fun ledger _ ↦ ledger = s.ledger.after (.node ⟨.added, node⟩) := by
  refine Task.Ensures.get_bind ?_
  simp only [Ledger.after]
  split
  · exact .pure rfl
  · refine ensures_newAccount_bind fun s' hs' ↦ ?_
    -- the account is filed before the lease is seen to, and the lease leaves it alone
    have hlease : Task.Keeps Agent.ledger ((renewLease node.name).orWarn .leaseMissing) :=
      .orWarn (fun _ _ ↦ rfl) (keeps_renewLease _ _) _
    rw [← hs']
    exact hlease { s' with ledger := s'.ledger.insert node.name (.ofNode node) }

/-- A node that is updated reports its address and its capacity anew; the charges stay. -/
theorem ensures_updateNode (node : Node) (s : Agent) :
    Task.Ensures Agent.ledger (updateNode node) s
      fun ledger _ ↦ ledger = s.ledger.after (.node ⟨.updated, node⟩) := by
  refine ensures_capacity_bind fun s' hs' ↦ Task.Ensures.get_bind ?_
  rw [← hs']
  cases hfound : s'.ledger.find? node.name with
  | some account =>
    simp only [Ledger.after, hfound]
    exact .modify rfl
  | none =>
    simp only [Ledger.after, hfound]
    refine ensures_newAccount_bind fun s'' hs'' ↦ .modify ?_
    rw [← hs'']
    rfl

/-- A pod is charged if its requests can be read and its node is tracked. -/
theorem ensures_chargePod (pod : Pod) (s : Agent) :
    Task.Ensures Agent.ledger (chargePod pod).run s
      fun ledger _ ↦ ledger = (s.ledger.charge pod).toOption.getD s.ledger := by
  rw [chargePod]
  refine Task.Ensures.action_get_bind ?_
  cases s.ledger.charge pod with
  | ok ledger => exact Task.Ensures.modify_bind (.pure rfl)
  | error fault => exact .pure rfl

/-- **The accounts after an event**, whatever the cluster answers and whether it answers. -/
theorem ensures_book (notice : Notice) (s : Agent) :
    Task.Ensures Agent.ledger (book notice).run s
      fun ledger _ ↦ ledger = s.ledger.after notice := by
  rcases notice with ⟨op, node⟩ | ⟨op, pod⟩
  · cases op with
    | added => exact (ensures_trackNode node s).lift
    | updated => exact (ensures_updateNode node s).lift
    | deleted => exact Task.Ensures.lift (.modify rfl)
  · cases op with
    | added => exact ensures_chargePod pod s
    | updated => exact ensures_chargePod pod s
    | deleted => exact Task.Ensures.lift (.modify rfl)

end HollowFleet
