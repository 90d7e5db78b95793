import HollowFleet.Proofs.Dispatch.Indifference

/-!
# What an agent holds of a node

Of a node an agent holds an account and a pool, both filed under the name of the node
(`Agent.holding`). An event is about one node at most: the node that it tells of, or the one that
its pod is bound to. What it makes of what is held of that node depends on nothing else, neither on
other nodes nor on the answers of the cluster (`Holding.after`), and what is held of every other
node stays as it is (`holding_handle`). So events of other nodes can be left out of a run
(`nodes_apart`).

## What the main theorem rests on

* `holding_handle` is the step. It puts together what an event makes of the accounts (`find?_after`)
  and of the pools (`Notice.effect_eq`), each of them looked at under the name of one node. A pod's
  address does not lead to another node's pool: it is the node of the pod that is asked, whatever
  the address is, and no pool takes back an address that is not one of its own.
* `holding_handleAll` is the run, by induction on the events. Those that are not about the node drop
  out one by one, so what is left is the run of `Holding.after` over the events that are.
* Both runs of `nodes_apart`, the whole one and the one that was cut down, are compared with that
  same run, and not with each other. So nothing is asked of how their calls and their clusters are
  related, and two agents that differ in all other nodes may still be compared.
-/

namespace HollowFleet

open Agent Watch

/-! ### Events of one node -/

/-- The name of the node that an event is about. -/
def Agent.Notice.node? : Notice → Option String
  | .node e => some e.object.name
  | .pod e => e.object.node?

/-- Whether an event is about a node. -/
def Agent.Notice.concerns (name : String) (notice : Notice) : Bool :=
  decide (notice.node? = some name)

/-- Whether an event ends what is held of its node. -/
def Agent.Notice.ends : Notice → Bool
  | .node e => decide (e.op = .deleted)
  | .pod _ => false

/-- The event of a pod, if it is one. -/
def Agent.Notice.podEvent? : Notice → Option (Event Pod)
  | .node _ => none
  | .pod e => some e

/-- A new pool of the block that a node declares. -/
def Node.pool? (node : Node) : Option Pool :=
  node.podBlock?.bind fun block ↦ (Pool.parse block).toOption

/-- What the pool of a pod's node is asked when something happens to the pod. -/
def Agent.requestOf? (e : Event Pod) : Option Pool.Request :=
  if e.op = .deleted then e.object.address?.map .release
  else if e.object.address? = none then some .allocate else none

/-- The account of a pod's node after something happened to the pod: it is charged or discharged,
and not charged if its requests cannot be read. -/
def Account.enter (a : Account) (e : Event Pod) : Account :=
  if e.op = .deleted then a.discharge e.object.key
  else ((Amounts.ofPod e.object).toOption.map (a.charge e.object.key)).getD a

@[simp]
theorem Account.capacity_enter (a : Account) (e : Event Pod) :
    (a.enter e).capacity = a.capacity := by
  rw [enter]
  split
  · rw [discharge]
    split <;> rfl
  · cases Amounts.ofPod e.object <;> rfl

/-- What a node reports and what its pods are charged are kept apart. -/
theorem Account.report_enter (a : Account) (e : Event Pod) (capacity : Amounts)
    (address : Option String) :
    (a.enter e).report capacity address = (a.report capacity address).enter e := by
  simp only [enter]
  split
  · simp only [discharge, charges_report]
    split <;> rfl
  · cases Amounts.ofPod e.object <;> rfl

/-! ### Holdings -/

/-- What is held of a node. -/
@[ext]
structure Holding where
  /-- The account of the node, if it is tracked. -/
  account : Option Account := none
  /-- The pool of the node, if it has one. -/
  pool : Option Pool := none
deriving DecidableEq

namespace Holding

/-- What is held of a node after an event that is about it. -/
def after (h : Holding) : Notice → Holding
  | .node ⟨.added, n⟩ => ⟨h.account.or (some (.ofNode n)), h.pool.or n.pool?⟩
  | .node ⟨.updated, n⟩ =>
    let account := (h.account.getD (.ofNode n)).report (Account.ofNode n).capacity
      n.internalAddress?
    { h with account := some account }
  | .node ⟨.deleted, _⟩ => {}
  | .pod e => ⟨h.account.map (·.enter e), h.pool.map (·.asked (requestOf? e))⟩

/-- What is held of a node after some events that are about it. -/
def afterAll (h : Holding) (notices : List Notice) : Holding := notices.foldl after h

@[simp]
theorem afterAll_nil (h : Holding) : h.afterAll [] = h := rfl

@[simp]
theorem afterAll_cons (h : Holding) (notice : Notice) (rest : List Notice) :
    h.afterAll (notice :: rest) = (h.after notice).afterAll rest := rfl

/-- What is held after two runs is what the second one makes of what the first one left. -/
theorem afterAll_append (h : Holding) (notices notices' : List Notice) :
    h.afterAll (notices ++ notices') = (h.afterAll notices).afterAll notices' :=
  List.foldl_append

end Holding

/-! ### One event -/

namespace Ledger

/-- The account of one pod's node is changed, and no other account. -/
theorem find?_of_accountOf?_cases {ledger ledger' : Ledger} {pod : Pod} {f : Account → Account}
    (hnone : ledger.accountOf? pod = none → ledger' = ledger)
    (hsome : ∀ home account, ledger.accountOf? pod = some (home, account) → ∀ name,
      ledger'.find? name = if name = home then some (f account) else ledger.find? name)
    (name : String) :
    ledger'.find? name =
      if pod.node? = some name then (ledger.find? name).map f else ledger.find? name := by
  cases hof : ledger.accountOf? pod with
  | none =>
    rw [hnone hof]
    split
    · next hnode =>
      cases hfound : ledger.find? name with
      | none => rfl
      | some account =>
        rw [accountOf?_eq_some_iff.2 ⟨hnode, hfound⟩] at hof
        cases hof
    · rfl
  | some found =>
    obtain ⟨home, account⟩ := found
    obtain ⟨hnode, hfound⟩ := accountOf?_eq_some_iff.1 hof
    rw [hsome home account hof, hnode]
    by_cases hname : name = home
    · simp [hname, hfound]
    · simp [hname, Ne.symm hname]

/-- A charge enters the pod in the account of its node, and in no other. -/
theorem find?_charge (ledger : Ledger) (pod : Pod) (op : Op) (hop : op ≠ .deleted)
    (name : String) :
    ((ledger.charge pod).toOption.getD ledger).find? name =
      if pod.node? = some name then (ledger.find? name).map (·.enter ⟨op, pod⟩)
      else ledger.find? name := by
  refine find?_of_accountOf?_cases (fun hof ↦ by rw [charge, hof]; rfl)
    (fun home account hof name' ↦ ?_) name
  simp only [charge, hof, Account.enter, if_neg hop]
  cases Amounts.ofPod pod with
  | ok amount => exact Table.find?_insert ..
  | error fault =>
    -- requests that cannot be read change nothing
    split
    · next hname => rw [hname]; exact (accountOf?_eq_some_iff.1 hof).2
    · rfl

theorem find?_discharge (ledger : Ledger) (pod : Pod) (name : String) :
    (ledger.discharge pod).find? name =
      if pod.node? = some name then (ledger.find? name).map (·.enter ⟨.deleted, pod⟩)
      else ledger.find? name := by
  refine find?_of_accountOf?_cases (fun hof ↦ by rw [discharge, hof])
    (fun home account hof name' ↦ ?_) name
  rw [discharge, hof]
  exact Table.find?_insert ..

/-- What an event makes of the account of a node. -/
theorem find?_after (ledger : Ledger) (slot : Option Pool) (notice : Notice) (name : String) :
    (ledger.after notice).find? name =
      if notice.node? = some name then (Holding.after ⟨ledger.find? name, slot⟩ notice).account
      else ledger.find? name := by
  rcases notice with ⟨op, n⟩ | ⟨op, pod⟩
  · simp only [Notice.node?, Option.some.injEq]
    cases op with
    | added =>
      simp only [after, Holding.after]
      by_cases htracked : ledger.contains n.name = true
      · -- a node that is tracked already is left as it is
        obtain ⟨account, hfound⟩ := Option.isSome_iff_exists.1 htracked
        rw [if_pos htracked]
        split
        · next hname => rw [← hname, hfound, Option.some_or]
        · rfl
      · have hfound : ledger.find? n.name = none := Option.not_isSome_iff_eq_none.1 htracked
        rw [if_neg htracked, Table.find?_insert]
        by_cases hname : n.name = name
        · rw [if_pos hname.symm, if_pos hname, ← hname, hfound, Option.none_or]
        · rw [if_neg (Ne.symm hname), if_neg hname]
    | updated =>
      simp only [after, Holding.after, Table.find?_insert]
      by_cases hname : n.name = name
      · rw [if_pos hname.symm, if_pos hname, hname]
        rfl
      · rw [if_neg (Ne.symm hname), if_neg hname]
    | deleted =>
      rw [after, Table.find?_erase]
      by_cases hname : n.name = name
      · rw [if_pos hname.symm, if_pos hname]
        rfl
      · rw [if_neg (Ne.symm hname), if_neg hname]
  · cases op with
    | added => exact find?_charge ledger pod .added (by decide) name
    | updated => exact find?_charge ledger pod .updated (by decide) name
    | deleted => exact find?_discharge ledger pod name

end Ledger

/-- What an event makes of the pool of a node. -/
theorem Agent.Notice.effect_eq (account : Option Account) (slot : Option Pool) (notice : Notice)
    (name : String) :
    notice.effect name slot =
      if notice.node? = some name then (Holding.after ⟨account, slot⟩ notice).pool else slot := by
  rcases notice with ⟨op, n⟩ | ⟨op, pod⟩
  · simp only [Notice.node?, Option.some.injEq]
    cases op with
    | added => rfl
    | updated => exact (ite_self slot).symm
    | deleted => rfl
  · -- a pod of another node asks nothing
    have hasked : (slot.map fun pool ↦ pool.asked none) = slot := by
      cases slot <;> rfl
    by_cases hnode : pod.node? = some name
    · cases op <;>
        simp [Notice.effect, Notice.act?, Act.ofReport, Act.effect, Act.request?, Notice.node?,
          Holding.after, requestOf?, hnode]
    · cases op <;>
        simp [Notice.effect, Notice.act?, Act.ofReport, Act.effect, Act.request?, Notice.node?,
          hnode]

/-! ### Runs -/

/-- A host answers every call and settles every submission, one way or another, and nobody else
works on the books meanwhile. -/
structure Host.Discreet {ε : Type} (host : Host Agent ε) : Prop where
  /-- Nothing is left open. -/
  answers : host.Answers
  /-- The accounts stay as they are. -/
  ledger : host.Keeps Agent.ledger
  /-- The pools stay as they are. -/
  pools : ∀ name, host.Keeps (poolAt name)

/-- A host that lets nothing happen meanwhile is discreet all the more. -/
theorem Host.Prompt.discreet {ε : Type} {host : Host Agent ε} (h : host.Prompt) :
    host.Discreet where
  answers := h.answers
  ledger := h.keeps_ledger
  pools := h.keeps_poolAt

namespace Agent

/-- What an agent holds of a node. -/
def holding (name : String) (a : Agent) : Holding := ⟨a.ledger.find? name, poolAt name a⟩

variable {ε : Type} {host : Host Agent ε}

/-- **What an event leaves of a node** that it is about is settled by what was there and the event;
what is held of any other node stays as it is. The cluster may answer as it likes. -/
theorem holding_handle (h : host.Discreet) (world : ε) (a : Agent) (notice : Notice)
    (name : String) :
    holding name ((handle notice).run host world a).state =
      if notice.concerns name then (holding name a).after notice else holding name a := by
  have hledger := (leaves_ledger_handle notice a).view_run h.ledger h.answers world
  have hpool := (leaves_pool_handle name notice a).view_run (h.pools name) h.answers world
  rw [holding, hledger, hpool, Ledger.find?_after a.ledger (poolAt name a),
    Notice.effect_eq (a.ledger.find? name)]
  simp only [Notice.concerns, decide_eq_true_eq]
  split <;> rfl

/-- What a run of events leaves of a node is what the events make of it that are about the node. -/
theorem holding_handleAll (h : host.Discreet) (world : ε) (a : Agent) (notices : List Notice)
    (name : String) :
    holding name ((handleAll notices).run host world a).state =
      (holding name a).afterAll (notices.filter (Notice.concerns name)) := by
  induction notices generalizing world a with
  | nil => rfl
  | cons notice rest ih =>
    obtain ⟨-, -, hrun⟩ := h.answers.run_bind world a (handle notice) fun _ ↦ handleAll rest
    rw [handleAll, hrun, ih, holding_handle h, List.filter_cons]
    split <;> rfl

variable {ε' : Type} {host' : Host Agent ε'}

/-- **Nodes do not interfere.** An agent handles some events, and an agent that is the same handles
only those of them that are about one node, each with a cluster that answers every call as it
likes, and with queues that may take a pod or not. Then the two hold the same of that node: its
account, with its capacity, its address, what is used and what each pod is charged, and its pool,
with the hosts in use, those given back and the one that is next. -/
theorem nodes_apart (h : host.Discreet) (h' : host'.Discreet) (world : ε) (world' : ε') (a : Agent)
    (notices : List Notice) (name : String) :
    let whole := ((handleAll notices).run host world a).state
    let alone := ((handleAll (notices.filter (Notice.concerns name))).run host' world' a).state
    whole.ledger.find? name = alone.ledger.find? name ∧ poolAt name whole = poolAt name alone := by
  intro whole alone
  have hwhole := holding_handleAll h world a notices name
  have halone := holding_handleAll h' world' a (notices.filter (Notice.concerns name)) name
  simp only [List.filter_filter, Bool.and_self] at halone
  exact ⟨congrArg Holding.account (hwhole.trans halone.symm),
    congrArg Holding.pool (hwhole.trans halone.symm)⟩

/-- Two nodes get a pool each, and a pod of the first an address. Then a pod of the second with
that same address, and with the name of the other pod, is deleted. -/
def strangerGone : List Notice :=
  let edge : Node := .healthy ⟨0, false⟩ "edge-1" "10.10.10.9" "10.244.2.0/24"
  let stranger := { podWith "web" (some "10.244.1.1") with spec := some { nodeName := "edge-1" } }
  [.node ⟨.added, nodeWithBlock⟩, .node ⟨.added, edge⟩, .pod ⟨.added, podWith "web" none⟩,
    .pod ⟨.deleted, stranger⟩]

/-- The pod of the first node keeps its address, whether the cluster answers or not. -/
theorem nodes_apart_of_stranger :
    let before := Agent.initial {} ⟨0, false⟩
    let whole := ((handleAll strangerGone).run (answering fun _ ↦ .error .unanswered) ()
      before).state
    let alone := ((handleAll (strangerGone.filter (Notice.concerns "mock-node-0"))).run
      (answering Call.granted) () before).state
    (whole.ledger.find? "mock-node-0" = alone.ledger.find? "mock-node-0" ∧
      poolAt "mock-node-0" whole = poolAt "mock-node-0" alone) ∧
      poolAt "mock-node-0" whole = some (newPool.handOut 1).2 := by
  intro before whole alone
  have hsame := nodes_apart (prompt_answering fun _ ↦ .error .unanswered).discreet
    (prompt_answering Call.granted).discreet () () before strangerGone "mock-node-0"
  exact ⟨hsame, by decide +kernel⟩

end Agent

end HollowFleet
