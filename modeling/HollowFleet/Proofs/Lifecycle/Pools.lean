import HollowFleet.Agent.Dispatch
import HollowFleet.Proofs.Address.Supply
import HollowFleet.Proofs.Address.Written
import HollowFleet.Proofs.Cluster.Frame

/-!
# Pools, node by node

The pools change by four acts: a pod is started or stopped, and the pool of a node is added or
dropped. To one node an act means that its pool is asked something, or is new, or gone, or
nothing at all (`Act.effect`). That is settled before the cluster is asked and does not depend on
its answers (`ensures_perform`), so a run of acts leaves in the pool of a node what their effects
on this node make of it, one after the other (`poolAt_simulate`).

A pod with an address is started without asking the pool whether the address is one of its own,
and a pod that is stopped hands back whatever address it reports.

## What the lemmas rest on

* To look at one node is enough: an act asks the pool of one node at most, the one that its pod is
  bound to (`poolAt_of_asked`), and a pool that refuses is left as it was.
* `address?_started_eq` tells the address of a started pod, and by `hostOf?_started_of_none` it is
  that of the host that the pool hands out next. These two are what most theorems about addresses
  use of a start.
* A start and a stop settle the agent and the pod before their only call
  (`ensures_settled_startPod`, `ensures_settled_stopPod`), so it makes no difference whether the
  pod was reported, taken off a queue, or given by hand; the occasion of an act is there to tell
  these ways apart, and has no effect.
* Runs are folds of effects over lists of acts, and what is said of all runs is by induction on the
  list.
-/

namespace HollowFleet

open Agent

/-- The address that a pod reports. -/
def Pod.address? (pod : Pod) : Option String := pod.status.bind PodStatus.address?

/-- A pod that nothing is reported on reports no address. -/
theorem Pod.address?_getD (pod : Pod) : (pod.status.getD {}).address? = pod.address? := by
  rw [address?]
  cases pod.status <;> rfl

/-- No address is empty. -/
theorem PodStatus.ne_empty_of_address? {s : PodStatus} {ip : String} (h : s.address? = some ip) :
    ip ≠ "" := by
  rw [address?] at h
  split at h
  · next heq =>
    cases h
    simpa using (Option.filter_eq_some_iff.1 heq).2
  · simpa using (Option.filter_eq_some_iff.1 h).2

theorem Pod.ne_empty_of_address? {pod : Pod} {ip : String} (h : pod.address? = some ip) :
    ip ≠ "" := by
  obtain ⟨status, -, hip⟩ := Option.bind_eq_some_iff.1 h
  exact PodStatus.ne_empty_of_address? hip

namespace Lifecycle

/-- To start the containers of a pod does not touch its address. -/
theorem address?_prepared (now : Timestamp) (pod : Pod) :
    (prepared now pod).address? = pod.address? := by
  rw [prepared, ← pod.address?_getD]
  cases pod.spec <;> rfl

theorem address?_running (now : Timestamp) (s : PodStatus) :
    (running now s).address? = s.address? := rfl

theorem address?_completed (now : Timestamp) (s : PodStatus) :
    (completed now s).address? = s.address? := rfl

end Lifecycle

/-- The host of a block that the address of a pod names. -/
def Block.hostOf? (b : Block) (pod : Pod) : Option ℕ :=
  pod.address?.bind fun ip ↦ (b.host ip).toOption

/-- What the address of a pod names in a block is a host of the block. -/
theorem Block.mem_hosts_of_hostOf? {b : Block} {pod : Pod} {n : ℕ} (h : b.hostOf? pod = some n) :
    n ∈ b.hosts := by
  obtain ⟨ip, -, hread⟩ := Option.bind_eq_some_iff.1 h
  cases hhost : b.host ip with
  | error fault =>
    rw [hhost] at hread
    cases hread
  | ok host =>
    rw [hhost] at hread
    cases hread
    exact mem_hosts_of_host hhost

/-! ### Acts -/

/-- The pool after it was asked something, or nothing. -/
def Pool.asked (p : Pool) : Option Pool.Request → Pool
  | some r => (p.serve r).1
  | none => p

@[simp]
theorem Pool.asked_none (p : Pool) : p.asked none = p := rfl

/-- Why a pod is started or stopped. -/
inductive Occasion where
  /-- It was asked for. -/
  | asked
  /-- The pod was reported, and is queued afterwards. -/
  | reported
  /-- The pod was queued. -/
  | queued
deriving DecidableEq, Repr

/-- What is done to the pools. -/
inductive Act where
  /-- A pod is started. -/
  | start (why : Occasion) (pod : Pod)
  /-- A pod is stopped. -/
  | stop (why : Occasion) (pod : Pod)
  /-- A node gets a pool. -/
  | add (node : Node)
  /-- The pool of a node is dropped. -/
  | drop (node : Node)

namespace Act

/-- What the pool of a node is asked. -/
def request? (node : String) : Act → Option Pool.Request
  | start _ pod => if pod.node? = some node ∧ pod.address? = none then some .allocate else none
  | stop _ pod => if pod.node? = some node then pod.address?.map .release else none
  | add _ => none
  | drop _ => none

/-- The pool of a node after an act. -/
def effect (node : String) (slot : Option Pool) : Act → Option Pool
  | start why pod => slot.map fun pool ↦ pool.asked ((start why pod).request? node)
  | stop why pod => slot.map fun pool ↦ pool.asked ((stop why pod).request? node)
  | add n =>
    if n.name = node then slot.or (n.podBlock?.bind fun block ↦ (Pool.parse block).toOption)
    else slot
  | drop n => if n.name = node then none else slot

end Act

/-- The pool of a node. -/
def Agent.poolAt (node : String) (a : Agent) : Option Pool := a.pools.find? node

/-- Does something to the pools. -/
def Agent.perform : Act → Task Agent Unit
  | .start .asked pod => do
    let _ ← startPod pod
    return ()
  | .start .reported pod => (accept pod).orWarn .startFailed
  | .start .queued pod => drain .start pod
  | .stop .asked pod => do
    let _ ← stopPod pod
    return ()
  | .stop .reported pod => (retire pod).orWarn .stopFailed
  | .stop .queued pod => drain .stop pod
  | .add node => (addPool node).orWarn .nodeRefused
  | .drop node => dropPool node

namespace Agent

@[simp]
theorem poolAt_warn (node : String) (a : Agent) (w : Warning) :
    poolAt node (a.warn w) = poolAt node a := rfl

/-- To file a pool for one node leaves those of all others as they are. -/
theorem poolAt_setPool (node node' : String) (a : Agent) (pool : Pool) :
    poolAt node (a.setPool node' pool) = if node = node' then some pool else poolAt node a := by
  rw [poolAt, setPool, Table.find?_insert]
  rfl

/-- The pool of a pod is that of the node which it is bound to. -/
theorem poolOf?_eq_some_iff {a : Agent} {pod : Pod} {node : String} {pool : Pool} :
    a.poolOf? pod = some (node, pool) ↔ pod.node? = some node ∧ poolAt node a = some pool := by
  simp only [poolOf?, poolAt, Option.bind_eq_bind, Option.bind_eq_some_iff]
  constructor
  · rintro ⟨node', hnode, pool', hpool, heq⟩
    cases heq
    exact ⟨hnode, hpool⟩
  · rintro ⟨hnode, hpool⟩
    exact ⟨node, hnode, pool, hpool, rfl⟩

/-- A pod has no pool if it is bound to no node, or to one that has none. -/
theorem poolOf?_eq_none_iff {a : Agent} {pod : Pod} :
    a.poolOf? pod = none ↔ ∀ node, pod.node? = some node → poolAt node a = none := by
  cases hnode : pod.node? with
  | none => simp [poolOf?, hnode]
  | some node =>
    cases hpool : a.pools.find? node <;> simp [poolOf?, poolAt, hnode, hpool]

/-! ### Starts and stops -/

/-- The pool of one pod's node is asked something, and no other pool. It is filed as it is then,
unless it refused and did not change. -/
theorem poolAt_of_asked {a b : Agent} {pod : Pod} {r : Pool.Request}
    (hnone : a.poolOf? pod = none → b = a)
    (hsome : ∀ home pool, a.poolOf? pod = some (home, pool) →
      b = a.setPool home (pool.serve r).1 ∨ ∃ w, b = a.warn w ∧ (pool.serve r).1 = pool)
    (node : String) :
    poolAt node b =
      (poolAt node a).map fun pool ↦
        pool.asked (if pod.node? = some node then some r else none) := by
  cases hpool : a.poolOf? pod with
  | none =>
    rw [hnone hpool]
    split
    · next hnode =>
      rw [poolOf?_eq_none_iff.1 hpool node hnode]
      rfl
    · simp
  | some found =>
    obtain ⟨home, pool⟩ := found
    obtain ⟨hnode, hhome⟩ := poolOf?_eq_some_iff.1 hpool
    have hasked : poolAt node b = if node = home then some (pool.serve r).1 else poolAt node a := by
      rcases hsome home pool hpool with rfl | ⟨w, rfl, hsame⟩
      · exact poolAt_setPool ..
      · rw [poolAt_warn, hsame]
        split
        · next heq => rw [heq, hhome]
        · rfl
    rw [hasked, hnode]
    by_cases heq : node = home
    · simp [heq, hhome, Pool.asked]
    · have hne : ¬ some home = some node := fun h ↦ heq (Option.some.inj h).symm
      simp [heq, hne]

/-- What a start leaves of the pool of a node, be it the pod's own or another one. -/
theorem poolAt_started (node : String) (a : Agent) (why : Occasion) (pod : Pod) :
    poolAt node (a.started pod).1 = (Act.start why pod).effect node (poolAt node a) := by
  simp only [started, assignAddress, Lifecycle.address?_prepared, Act.effect, Act.request?]
  cases hip : pod.address? with
  | some ip => simp
  | none =>
    simp only [and_true]
    refine poolAt_of_asked (fun hpool ↦ by simp only [hpool]) (fun home pool hpool ↦ ?_) node
    simp only [hpool, Pool.serve]
    cases pool.allocate with
    | ok handed => exact .inl rfl
    | error fault => exact .inr ⟨_, rfl, rfl⟩

theorem poolAt_stopped (node : String) (a : Agent) (why : Occasion) (pod : Pod) :
    poolAt node (a.stopped pod).1 = (Act.stop why pod).effect node (poolAt node a) := by
  simp only [stopped, releaseAddress, Lifecycle.address?_completed, Pod.address?_getD, Act.effect,
    Act.request?]
  cases hip : pod.address? with
  | none => simp
  | some ip =>
    simp only [Option.map_some]
    refine poolAt_of_asked (fun hpool ↦ by simp only [hpool]) (fun home pool hpool ↦ ?_) node
    simp only [hpool, Pool.serve]
    cases pool.release ip with
    | ok rest => exact .inl rfl
    | error fault => exact .inr ⟨_, rfl, rfl⟩

/-! ### The address of a started pod -/

theorem address?_started (a : Agent) (pod : Pod) :
    (a.started pod).2.address? =
      (a.assignAddress pod (Lifecycle.prepared a.clock pod)).2.address? := rfl

/-- A pod keeps its address. -/
theorem address?_started_of_some {a : Agent} {pod : Pod} {ip : String}
    (h : pod.address? = some ip) : (a.started pod).2.address? = some ip := by
  rw [address?_started, assignAddress, Lifecycle.address?_prepared, h]
  exact PodStatus.address?_withAddress _ (Pod.ne_empty_of_address? h)

/-- A pod without an address gets the next one of its node's pool, if there is one. -/
theorem address?_started_of_none {a : Agent} {pod : Pod} {node : String} {pool : Pool}
    (h : pod.address? = none) (hnode : pod.node? = some node) (hpool : poolAt node a = some pool) :
    (a.started pod).2.address? =
      pool.take?.map fun handed ↦ (pool.block.address handed.1).text := by
  have hof := poolOf?_eq_some_iff.2 ⟨hnode, hpool⟩
  rw [address?_started, assignAddress, Lifecycle.address?_prepared, h]
  simp only [hof, Pool.allocate]
  rcases pool.take? with - | ⟨n, rest⟩
  · exact (Lifecycle.address?_prepared _ _).trans h
  · exact PodStatus.address?_withAddress _ (Quad.text_ne_empty _)

/-- The address of a started pod, all in one: its own, or else what its node's pool has next. -/
theorem address?_started_eq (a : Agent) (pod : Pod) :
    (a.started pod).2.address? = pod.address?.or
      ((pod.node?.bind fun node ↦ poolAt node a).bind fun pool ↦
        pool.take?.map fun handed ↦ (pool.block.address handed.1).text) := by
  cases haddress : pod.address? with
  | some ip => exact address?_started_of_some haddress
  | none =>
    rw [Option.none_or]
    cases hpool : a.poolOf? pod with
    | some found =>
      obtain ⟨hnode, hpoolAt⟩ := poolOf?_eq_some_iff.1 hpool
      rw [address?_started_of_none haddress hnode hpoolAt, hnode, Option.bind_some, hpoolAt,
        Option.bind_some]
    | none =>
      have hnowhere : (pod.node?.bind fun node ↦ poolAt node a) = none :=
        Option.bind_eq_none_iff.2 fun node hnode ↦ poolOf?_eq_none_iff.1 hpool node hnode
      rw [hnowhere, address?_started, assignAddress, Lifecycle.address?_prepared, haddress, hpool]
      exact (Lifecycle.address?_prepared _ _).trans haddress

/-- A stopped pod reports no address. -/
theorem address?_stopped (a : Agent) (pod : Pod) : (a.stopped pod).2.address? = none := rfl

/-- What a pod without an address gets names the host that the pool hands out next. -/
theorem hostOf?_started_of_none {a : Agent} {pod : Pod} {node : String} {pool : Pool}
    (h : pod.address? = none) (hnode : pod.node? = some node)
    (hpool : poolAt node a = some pool) :
    pool.block.hostOf? (a.started pod).2 = pool.take?.map Prod.fst := by
  rw [Block.hostOf?, address?_started_of_none h hnode hpool]
  rcases htake : pool.take? with - | ⟨n, rest⟩
  · rfl
  · have hhosts : n ∈ pool.block.hosts :=
      (Finset.mem_sdiff.1 (Pool.isLeast_of_take? htake).1).1
    simp [Block.host_text hhosts, Except.toOption]

/-! ### Tasks -/

/-- A start settles the agent and the pod before the cluster is asked. -/
theorem ensures_settled_startPod {τ : Type} (view : Agent → τ) (pod : Pod) (s : Agent) :
    Task.Ensures view (startPod pod) s fun v result ↦
      v = view (s.started pod).1 ∧ ∀ outcome ∈ result, outcome.1 = (s.started pod).2 := by
  refine Task.Ensures.get_bind (Task.Ensures.modify_bind ?_)
  split
  · refine .pure ⟨rfl, fun outcome h ↦ ?_⟩
    cases h
    rfl
  · refine ((Task.Keeps.call _) (s.started pod).1).bind (fun s' reply hs' ↦ .pure ⟨hs', ?_⟩)
      fun v hv ↦ ⟨hv, fun outcome h ↦ nomatch h⟩
    intro outcome h
    cases h
    rfl

/-- A stop settles the agent and the pod before the cluster is asked. -/
theorem ensures_settled_stopPod {τ : Type} (view : Agent → τ) (pod : Pod) (s : Agent) :
    Task.Ensures view (stopPod pod) s fun v result ↦
      v = view (s.stopped pod).1 ∧ ∀ outcome ∈ result, outcome.1 = (s.stopped pod).2 := by
  refine Task.Ensures.get_bind (Task.Ensures.modify_bind ?_)
  refine ((Task.Keeps.call _) (s.stopped pod).1).bind (fun s' reply hs' ↦ .pure ⟨hs', ?_⟩)
    fun v hv ↦ ⟨hv, fun outcome h ↦ nomatch h⟩
  intro outcome h
  cases h
  rfl

/-- A call on a pod that settles the pod at once hands back that pod, whatever the answer is. -/
theorem exists_reply {ε : Type} {host : Host Agent ε} (hanswers : host.Answers) (world : ε)
    {s : Agent} {task : Task Agent (Pod × Except Fault Unit)} {settled : Agent × Pod}
    (htask : Task.Ensures (fun _ ↦ ()) task s fun v result ↦
      v = () ∧ ∀ outcome ∈ result, outcome.1 = settled.2) :
    ∃ reply, (task.run host world s).result = some (settled.2, reply) := by
  obtain ⟨outcome, houtcome⟩ := hanswers.exists_result world s task
  have hkeeps : host.Keeps fun _ ↦ () := ⟨fun _ _ _ ↦ rfl, fun _ _ _ _ ↦ rfl⟩
  have hpod := (htask ε host world hkeeps).2 outcome houtcome
  exact ⟨outcome.2, by rw [houtcome, ← hpod]⟩

/-- A start does to the pool of a node what its act says, on every host. -/
theorem ensures_startPod (node : String) (why : Occasion) (pod : Pod) (s : Agent) :
    Task.Ensures (poolAt node) (startPod pod) s
      fun slot _ ↦ slot = (Act.start why pod).effect node (poolAt node s) := by
  intro ε host world hhost
  rw [← poolAt_started]
  exact (ensures_settled_startPod (poolAt node) pod s ε host world hhost).1

theorem ensures_stopPod (node : String) (why : Occasion) (pod : Pod) (s : Agent) :
    Task.Ensures (poolAt node) (stopPod pod) s
      fun slot _ ↦ slot = (Act.stop why pod).effect node (poolAt node s) := by
  intro ε host world hhost
  rw [← poolAt_stopped]
  exact (ensures_settled_stopPod (poolAt node) pod s ε host world hhost).1

/-- What is made of a fault changes nothing but the journal. -/
theorem keeps_warning {τ : Type} {view : Agent → τ} (hwarn : ∀ a w, view (Agent.warn a w) = view a)
    (w : Fault → Warning) (result : Except Fault Unit) :
    Task.Keeps view (match result with
      | .ok _ => pure ()
      | .error fault => Task.warn (w fault)) := by
  cases result with
  | ok => exact .pure ()
  | error fault => exact .warn hwarn _

/-- Queueing a pod changes nothing of the agent itself. -/
theorem keeps_enqueue {τ : Type} (view : Agent → τ) (lane : Lane) (pod : Pod) :
    Task.Keeps view (enqueue lane pod).run := by
  refine Task.Keeps.action_bind (Task.Keeps.submit _ _).lift fun taken ↦ ?_
  cases taken <;> exact .pure _

/-- What follows the start or the stop of a reported pod changes nothing of the agent itself. -/
theorem keeps_enqueue_then {τ : Type} (view : Agent → τ) (lane : Lane) (pod : Pod)
    (result : Except Fault Unit) :
    Task.Keeps view (enqueue lane pod >>= fun _ ↦ ExceptT.mk (pure result) : Action Unit).run :=
  Task.Keeps.action_bind (keeps_enqueue view lane pod) fun _ ↦ .pure _

/-- A reported pod is started, and what follows has nothing to do with pools. -/
theorem ensures_accept (node : String) (why : Occasion) (pod : Pod) (s : Agent) :
    Task.Ensures (poolAt node) (accept pod).run s
      fun slot _ ↦ slot = (Act.start why pod).effect node (poolAt node s) :=
  (ensures_startPod node why pod s).lift.action_andThen fun (_, result) ↦
    keeps_enqueue_then _ _ _ result

/-- A pod that is reported as gone is stopped, and what follows has nothing to do with pools. -/
theorem ensures_retire (node : String) (why : Occasion) (pod : Pod) (s : Agent) :
    Task.Ensures (poolAt node) (retire pod).run s
      fun slot _ ↦ slot = (Act.stop why pod).effect node (poolAt node s) :=
  (ensures_stopPod node why pod s).lift.action_andThen fun (_, result) ↦
    keeps_enqueue_then _ _ _ result

/-- A node gets a pool once, from a block that can be read. -/
theorem ensures_addPool (node : String) (n : Node) (s : Agent) :
    Task.Ensures (poolAt node) (addPool n).run s
      fun slot _ ↦ slot = (Act.add n).effect node (poolAt node s) := by
  refine Task.Ensures.action_get_bind ?_
  cases hfound : s.pools.find? n.name with
  | some pool =>
    have hcontains : s.pools.contains n.name = true := by rw [Table.contains, hfound]; rfl
    rw [if_pos hcontains]
    refine .pure ?_
    by_cases heq : n.name = node
    · subst heq
      simp [Act.effect, poolAt, hfound]
    · simp [Act.effect, heq]
  | none =>
    have hcontains : ¬ s.pools.contains n.name = true := by simp [Table.contains, hfound]
    rw [if_neg hcontains]
    have hnone : n.name = node → poolAt node s = none := fun heq ↦ heq ▸ hfound
    cases hblock : n.podBlock? with
    | none =>
      refine .pure ?_
      by_cases heq : n.name = node <;> simp [Act.effect, hblock, heq]
    | some block =>
      simp only
      cases hpool : Pool.parse block with
      | error fault =>
        refine .pure ?_
        by_cases heq : n.name = node <;> simp [Act.effect, hblock, hpool, heq, Except.toOption]
      | ok pool =>
        refine Task.Ensures.lift (.modify ?_)
        by_cases heq : n.name = node
        · simp [Act.effect, hblock, hpool, heq, poolAt_setPool, hnone heq, Except.toOption]
        · simp [Act.effect, heq, poolAt_setPool, Ne.symm heq]

theorem poolAt_dropPool (node : String) (n : Node) (a : Agent) :
    poolAt node { a with pools := a.pools.erase n.name } =
      (Act.drop n).effect node (poolAt node a) := by
  rw [poolAt, Table.find?_erase, Act.effect]
  by_cases heq : n.name = node
  · simp [heq]
  · rw [if_neg heq, if_neg fun h ↦ heq h.symm]
    rfl

/-- **What an act does to the pool of a node**, whatever the cluster answers and whether it
answers. -/
theorem ensures_perform (node : String) (act : Act) (s : Agent) :
    Task.Ensures (poolAt node) (perform act) s
      fun slot _ ↦ slot = act.effect node (poolAt node s) := by
  cases act with
  | start why pod =>
    cases why with
    | asked => exact (ensures_startPod node _ pod s).andThen fun _ ↦ .pure _
    | reported => exact (ensures_accept node _ pod s).andThen (keeps_warning (fun _ _ ↦ rfl) _)
    | queued =>
      refine (ensures_startPod node _ pod s).andThen fun outcome ↦ ?_
      exact keeps_warning (fun _ _ ↦ rfl) _ outcome.2
  | stop why pod =>
    cases why with
    | asked => exact (ensures_stopPod node _ pod s).andThen fun _ ↦ .pure _
    | reported => exact (ensures_retire node _ pod s).andThen (keeps_warning (fun _ _ ↦ rfl) _)
    | queued =>
      refine (ensures_stopPod node _ pod s).andThen fun outcome ↦ ?_
      exact keeps_warning (fun _ _ ↦ rfl) _ outcome.2
  | add n => exact (ensures_addPool node n s).andThen (keeps_warning (fun _ _ ↦ rfl) _)
  | drop n => exact .modify (poolAt_dropPool node n s)

/-! ### Runs -/

variable {ε : Type}

/-- The agent after a run of acts. -/
def simulate (host : Host Agent ε) (world : ε) (a : Agent) (acts : List Act) : Agent :=
  (Task.runAll host world a (acts.map perform)).1

/-- **The pool of a node after a run of acts** does not depend on the host. -/
theorem poolAt_simulate {host : Host Agent ε} (hhost : host.Keeps Agent.pools) (world : ε)
    (a : Agent) (acts : List Act) (node : String) :
    poolAt node (simulate host world a acts) = acts.foldl (Act.effect node) (poolAt node a) :=
  Task.view_runAll (fun act s ↦ ensures_perform node act s) (hhost.part fun t ↦ t.find? node)
    world a acts

end Agent

/-! ### Starts in a row -/

/-- Of pods that are started one after the other, each that has no address takes a host. -/
theorem Act.foldl_effect_start {node : String} {why : Occasion} {pods : List Pod}
    (hnodes : ∀ pod ∈ pods, pod.node? = some node) (p : Pool) :
    (pods.map (Act.start why)).foldl (effect node) (some p) =
      some (p.handOut (pods.countP fun pod ↦ pod.address? = none)).2 := by
  induction pods generalizing p with
  | nil => rfl
  | cons pod rest ih =>
    have hnode := hnodes pod List.mem_cons_self
    rw [List.map_cons, List.foldl_cons, effect, Option.map_some,
      ih fun pod' h ↦ hnodes pod' (List.mem_cons_of_mem _ h)]
    by_cases haddress : pod.address? = none
    · rw [List.countP_cons_of_pos (by simpa using haddress), Pool.handOut_succ]
      simp [request?, hnode, haddress, Pool.asked]
    · rw [List.countP_cons_of_neg (by simpa using haddress)]
      simp [request?, haddress, Pool.asked]

@[simp]
theorem Pool.block_asked (p : Pool) (request : Option Pool.Request) :
    (p.asked request).block = p.block := by
  cases request with
  | none => rfl
  | some r => exact p.block_serve r

/-! ### A cluster that does what it is asked -/

/-- The answer to a call that was carried out; nothing that is looked up is there. -/
def Call.granted : (c : Call) → c.Reply
  | getNode _ => .ok none
  | createNode _ => .ok ()
  | getLease _ => .ok none
  | createLease _ => .ok ()
  | updateLease _ => .ok ()
  | updatePodStatus _ => .ok ()
  | deletePod _ _ => .ok ()

/-- A host that carries out every call and takes every pod into its queue. -/
def Agent.obliging : Host Agent Unit where
  call _ a c := .resumed a () c.granted
  submit _ a lane pod := .resumed { a with queues := a.queues.push lane pod } () true

theorem Agent.keeps_pools_obliging : obliging.Keeps Agent.pools where
  call _ _ _ := rfl
  submit _ _ _ _ := rfl

theorem Agent.keeps_ledger_obliging : obliging.Keeps Agent.ledger where
  call _ _ _ := rfl
  submit _ _ _ _ := rfl

theorem Agent.answers_obliging : obliging.Answers where
  call _ a c := ⟨a, (), c.granted, rfl⟩
  submit _ _ _ _ := ⟨_, (), true, rfl⟩

/-- A node with a block. -/
def nodeWithBlock : Node where
  metadata := { name := some "mock-node-0" }
  spec := some { podCIDR := some "10.244.1.0/24" }

/-- A pod of that node, perhaps with an address. -/
def podWith (name : String) (ip : Option String) : Pod where
  metadata := { name := some name, space := some "default" }
  spec := some { nodeName := some "mock-node-0" }
  status := ip.map fun ip ↦ { podIP := some ip }

/-- The pool of that node, as it is at first. -/
def newPool : Pool := .ofBlock (.containing ⟨10, 244, 1, 0⟩ 24 (by decide))

end HollowFleet
