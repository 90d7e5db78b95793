import HollowFleet.Proofs.Accounting.Bookkeeping
import HollowFleet.Proofs.Lifecycle.Pairing

/-!
# What events and queued pods leave

An event goes to the accounts and to the pools, and the cluster is asked in between. What it
answers decides neither: if an event is handled to its end, the accounts and the pools are what
the event alone makes of them (`leaves_ledger_handle`, `leaves_pool_handle`). A pod that is taken
off a queue is started or stopped, which the accounts take no part in (`keeps_ledger_drain`).

Accounts and pools are treated apart, as two parts of the agent. The tasks that make up the handling
of an event each concern one of the two and keep the other, so for either part there is one task
that does something and others that are passed over: the accounts are changed by the charge, which
comes after the start or the stop of the pod, and the pools by the start or the stop itself.

That is also why the two theorems speak of events that are handled to their end. A start that is
abandoned at its call has asked the pool by then, but has not been charged, so the accounts after it
are still those before. On a host that answers every call no event is abandoned, and there the two
theorems say what a run leaves, whatever the answers are.

What an event does to the pool of a node is said as an act on the pools (`Notice.act?`), so that
what is known of runs of acts can be used for runs of events.
-/

namespace HollowFleet

open Agent Watch

namespace Agent

/-! ### Accounts -/

theorem ledger_started (a : Agent) (pod : Pod) : (a.started pod).1.ledger = a.ledger := by
  rw [started, assignAddress]
  split
  · rfl
  · split
    · rfl
    · split <;> rfl

theorem ledger_stopped (a : Agent) (pod : Pod) : (a.stopped pod).1.ledger = a.ledger := by
  simp only [stopped, releaseAddress]
  split
  · split <;> rfl
  · rfl

theorem keeps_ledger_startPod (pod : Pod) : Task.Keeps Agent.ledger (startPod pod) := by
  intro s ε host world hhost
  rw [← ledger_started s pod]
  exact (ensures_settled_startPod Agent.ledger pod s ε host world hhost).1

theorem keeps_ledger_stopPod (pod : Pod) : Task.Keeps Agent.ledger (stopPod pod) := by
  intro s ε host world hhost
  rw [← ledger_stopped s pod]
  exact (ensures_settled_stopPod Agent.ledger pod s ε host world hhost).1

/-- The start of a reported pod and its submission leave the accounts alone. -/
theorem keeps_ledger_accept (pod : Pod) : Task.Keeps Agent.ledger (accept pod).run :=
  (keeps_ledger_startPod pod).lift.action_bind fun (_, result) ↦
    keeps_enqueue_then _ _ _ result

theorem keeps_ledger_retire (pod : Pod) : Task.Keeps Agent.ledger (retire pod).run :=
  (keeps_ledger_stopPod pod).lift.action_bind fun (_, result) ↦
    keeps_enqueue_then _ _ _ result

/-- Adding a pool changes nothing but the pools. -/
theorem keeps_addPool {τ : Type} {view : Agent → τ}
    (hpools : ∀ (a : Agent) pools, view { a with pools } = view a) (node : Node) :
    Task.Keeps view (addPool node).run := by
  refine fun s ↦ Task.Ensures.action_get_bind ?_
  split
  · exact .pure rfl
  · split
    · exact .pure rfl
    · split
      · exact Task.Ensures.lift (.modify (hpools s _))
      · exact .pure rfl

theorem keeps_ledger_addPool (node : Node) : Task.Keeps Agent.ledger (addPool node).run :=
  keeps_addPool (fun _ _ ↦ rfl) node

/-- The accounts after the event of a node, which are settled before any call is made. -/
theorem ensures_handleNode (e : Event Node) (s : Agent) :
    Task.Ensures Agent.ledger (handleNode e) s
      fun ledger _ ↦ ledger = s.ledger.after (.node e) := by
  obtain ⟨op, node⟩ := e
  cases op with
  | added =>
    exact (ensures_trackNode node s).andThen fun _ ↦
      (keeps_ledger_addPool node).orWarn (fun _ _ ↦ rfl) _
  | updated => exact ensures_updateNode node s
  | deleted => exact Task.Ensures.modify_bind (.modify rfl)

/-- The accounts after the event of a pod: it is charged, or its charge is dropped, once the
start or the stop of the pod is over. -/
theorem leaves_handlePod (e : Event Pod) (s : Agent) :
    Task.Leaves Agent.ledger (handlePod e) s (s.ledger.after (.pod e)) := by
  obtain ⟨op, pod⟩ := e
  have hwarn : ∀ (a : Agent) w, (a.warn w).ledger = a.ledger := fun _ _ ↦ rfl
  have hcharge : ∀ s : Agent, Task.Leaves Agent.ledger (handlePod ⟨.updated, pod⟩) s
      (s.ledger.after (.pod ⟨.updated, pod⟩)) := by
    intro s
    have haccept := (keeps_ledger_accept pod).orWarn hwarn .startFailed s
    refine haccept.leaves.bind fun s' _ hs' ↦ ?_
    have hcharged := (ensures_chargePod pod s').orWarn hwarn .chargeFailed
    rw [hs'] at hcharged
    exact hcharged.leaves
  cases op with
  | added =>
    refine ensures_fits_bind hwarn fun s' fitting hs' ↦ ?_
    rw [← hs']
    cases fitting with
    | true => exact hcharge s'
    | false => exact Task.Ensures.modify_bind (hcharge (s'.warn .overcommitted))
  | updated => exact hcharge s
  | deleted =>
    have hretire := (keeps_ledger_retire pod).orWarn hwarn .stopFailed s
    refine hretire.leaves.bind fun s' _ hs' ↦ Task.Ensures.leaves (.modify ?_)
    rw [← hs']
    rfl

/-- **The accounts after an event** that was handled to its end, whatever the cluster
answered. -/
theorem leaves_ledger_handle (notice : Notice) (s : Agent) :
    Task.Leaves Agent.ledger (handle notice) s (s.ledger.after notice) := by
  cases notice with
  | node e => exact (ensures_handleNode e s).leaves
  | pod e => exact leaves_handlePod e s

/-- Queued pods are none of the accounts' business. -/
theorem keeps_ledger_drain (lane : Lane) (pod : Pod) :
    Task.Keeps Agent.ledger (drain lane pod) := by
  cases lane with
  | start =>
    exact (keeps_ledger_startPod pod).bind fun outcome ↦
      keeps_warning (fun _ _ ↦ rfl) .restartFailed outcome.2
  | stop =>
    exact (keeps_ledger_stopPod pod).bind fun outcome ↦
      keeps_warning (fun _ _ ↦ rfl) .restopFailed outcome.2

/-! ### Pools -/

section Node

variable {τ : Type} {view : Agent → τ}

/-- To read a capacity may leave a warning, and nothing else. -/
theorem keeps_capacity (hwarn : ∀ a w, view (Agent.warn a w) = view a) (node : Node) :
    Task.Keeps view (capacity node) := by
  rw [capacity]
  cases Amounts.ofNode node with
  | ok amounts => exact .pure _
  | error fault => exact (Task.Keeps.warn hwarn _).bind fun _ ↦ .pure _

theorem keeps_newAccount (hwarn : ∀ a w, view (Agent.warn a w) = view a) (node : Node) :
    Task.Keeps view (newAccount node) :=
  (keeps_capacity hwarn node).bind fun _ ↦ .pure _

/-- Tracking a node changes nothing but the accounts and the journal. -/
theorem keeps_trackNode (hwarn : ∀ a w, view (Agent.warn a w) = view a)
    (hledger : ∀ (a : Agent) ledger, view { a with ledger } = view a) (node : Node) :
    Task.Keeps view (trackNode node) := by
  refine fun s ↦ Task.Ensures.get_bind ?_
  split
  · exact .pure rfl
  · refine (keeps_newAccount hwarn node).bind (fun account ↦ ?_) s
    refine (Task.Keeps.modify fun a ↦ hledger a _).bind fun _ ↦ ?_
    exact (keeps_renewLease view node.name).orWarn hwarn _

/-- An update of a node changes nothing but the accounts and the journal either. -/
theorem keeps_updateNode (hwarn : ∀ a w, view (Agent.warn a w) = view a)
    (hledger : ∀ (a : Agent) ledger, view { a with ledger } = view a) (node : Node) :
    Task.Keeps view (updateNode node) := by
  refine (keeps_capacity hwarn node).bind fun reported s ↦ Task.Ensures.get_bind ?_
  have hfile : ∀ account : Account,
      Task.Keeps view (setAccount node.name (account.report reported node.internalAddress?)) :=
    fun account ↦ .modify fun a ↦ hledger a _
  cases s.ledger.find? node.name with
  | some account => exact hfile account s
  | none => exact (keeps_newAccount hwarn node).bind hfile s

end Node

end Agent

/-- What an event does to the pools. -/
def Agent.Notice.act? : Notice → Option Act
  | .node ⟨.added, n⟩ => some (.add n)
  | .node ⟨.updated, _⟩ => none
  | .node ⟨.deleted, n⟩ => some (.drop n)
  | .pod e => some (.ofReport e)

/-- The pool of a node after an event. -/
def Agent.Notice.effect (name : String) (slot : Option Pool) (notice : Notice) : Option Pool :=
  notice.act?.elim slot (Act.effect name slot)

namespace Agent

/-- **The pool of a node after an event** that was handled to its end, whatever the cluster
answered. -/
theorem leaves_pool_handle (node : String) (notice : Notice) (s : Agent) :
    Task.Leaves (poolAt node) (handle notice) s (notice.effect node (poolAt node s)) := by
  have hwarn : ∀ (a : Agent) w, poolAt node (a.warn w) = poolAt node a := fun _ _ ↦ rfl
  have hledger : ∀ (a : Agent) ledger, poolAt node { a with ledger } = poolAt node a :=
    fun _ _ ↦ rfl
  rcases notice with ⟨op, n⟩ | e
  · cases op with
    | added =>
      -- the lease is seen to before the pool is added
      refine (keeps_trackNode hwarn hledger n s).leaves.bind fun s' _ hs' ↦ ?_
      rw [← hs']
      exact (ensures_perform node (.add n) s').leaves
    | updated => exact (keeps_updateNode hwarn hledger n s).leaves
    | deleted =>
      let untracked : Agent := { s with ledger := s.ledger.erase n.name }
      exact Task.Ensures.leaves
        (Task.Ensures.modify_bind (.modify (poolAt_dropPool node n untracked)))
  · exact (ensures_handlePod node e s).leaves

end Agent

end HollowFleet
