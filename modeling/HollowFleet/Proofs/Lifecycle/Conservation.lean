import HollowFleet.Proofs.Lifecycle.Retries
import Mathlib.Logic.Function.Basic

/-!
# Pods and the pools of their nodes

Pods are started and stopped, each as the call before left it. Between a pod and the pool there
is only the text of an address, in the status of the pod. Still the two keep together: the
addresses that the pods of a node show are those of the hosts in use in the node's pool, each of
them shown by one pod (`Housed`). A start takes a host from the pool and shows it on a pod that
showed none (`Housed.take`), a stop gives back the host that its pod shows (`Housed.giveBack`),
and no call does anything else (`Housed.started`, `Housed.stopped`). So it holds after any calls
(`conserved`).

## What the main theorem rests on

* `Housed` is said of one node, so a call on a pod of another node changes neither side of it. That
  no two pods of one node show one address is part of it, since a stop that gave back an address
  which another pod shows as well would break the agreement.
* Texts and hosts are brought together by the block of the pool: hosts of a block have different
  texts (`Housed.host_eq_of_text_eq`), and the text of a host is read back as that host.
* `Tidy` is the invariant of a run: every node is housed, with a pool of the block that it had at
  first. `Tidy.turn` is the step, by cases on the call, and `Tidy.run` the induction on the calls.
* That a pod without an address gets one by a later start, once its node's pool has a host again, is
  not part of the invariant: it follows from what a start does on the pool as it is by then.
-/

namespace HollowFleet

open Agent

variable {ι : Type}

/-! ### One node -/

/-- A pod is bound to a node and shows an address. -/
def Shows (node : String) (pods : ι → Pod) (i : ι) (ip : String) : Prop :=
  (pods i).node? = some node ∧ (pods i).address? = some ip

/-- The pods of a node and its pool keep together. -/
structure Housed (node : String) (slot : Option Pool) (pods : ι → Pod) : Prop where
  /-- No two pods of the node show one address. -/
  apart : ∀ i j ip, Shows node pods i ip → Shows node pods j ip → i = j
  /-- The addresses that they show are those of the hosts in use. -/
  used : ∀ ip, (∃ i, Shows node pods i ip) ↔
    ∃ pool ∈ slot, ∃ host ∈ pool.used, (pool.block.address host).text = ip

namespace Housed

variable {node : String} {slot : Option Pool} {pods pods' : ι → Pod}

/-- It matters only which pods show which addresses. -/
theorem congr (h : Housed node slot pods)
    (hshows : ∀ i ip, Shows node pods' i ip ↔ Shows node pods i ip) : Housed node slot pods' where
  apart i j ip hi hj := h.apart i j ip ((hshows i ip).1 hi) ((hshows j ip).1 hj)
  used ip := by rw [← h.used ip, exists_congr fun i ↦ hshows i ip]

variable {pool : Pool} {i : ι} {pod : Pod}

/-- To keep together with a pool is to show the addresses of its hosts in use, each on one pod. -/
theorem of_pool
    (hapart : ∀ i j ip, Shows node pods i ip → Shows node pods j ip → i = j)
    (hused : ∀ ip, (∃ i, Shows node pods i ip) ↔
      ∃ host ∈ pool.used, (pool.block.address host).text = ip) :
    Housed node (some pool) pods where
  apart := hapart
  used ip := by simpa using hused ip

theorem exists_host (h : Housed node (some pool) pods) {ip : String} (hi : Shows node pods i ip) :
    ∃ host ∈ pool.used, (pool.block.address host).text = ip := by
  obtain ⟨pool', heq, hhost⟩ := (h.used ip).1 ⟨i, hi⟩
  cases heq
  exact hhost

theorem exists_shows (h : Housed node (some pool) pods) {host : ℕ} (hhost : host ∈ pool.used) :
    ∃ i, Shows node pods i (pool.block.address host).text :=
  (h.used _).2 ⟨pool, rfl, host, hhost, rfl⟩

/-- A host in use is one of the block, so its text names it. -/
theorem mem_hosts_of_used {host : ℕ}
    (hhost : host ∈ pool.used) : host ∈ pool.block.hosts :=
  pool.used_subset (List.mem_toFinset.2 hhost)

/-- Hosts of a block are told apart by the text of their addresses. -/
theorem host_eq_of_text_eq {host host' : ℕ} (hhost : host ∈ pool.block.hosts)
    (hhost' : host' ∈ pool.block.hosts)
    (htext : (pool.block.address host).text = (pool.block.address host').text) : host = host' := by
  have hread := Block.host_text hhost
  rw [htext, Block.host_text hhost'] at hread
  exact (Except.ok.inj hread).symm

variable [DecidableEq ι]

/-- What pods show after one of them was replaced: that one what it shows now, and the others what
they showed. -/
theorem shows_update_iff {j : ι} {ip : String} :
    Shows node (Function.update pods i pod) j ip ↔
      if j = i then pod.node? = some node ∧ pod.address? = some ip else Shows node pods j ip := by
  rw [Shows]
  split
  · next hj => rw [hj, Function.update_self]
  · next hj => rw [Function.update_of_ne hj, Shows]

/-- A host is taken from the pool and shown on a pod that showed none. -/
theorem take (h : Housed node (some pool) pods) {host : ℕ} {rest : Pool}
    (htake : pool.take? = some (host, rest)) (hnone : (pods i).address? = none)
    (hnode : pod.node? = some node)
    (haddress : pod.address? = some (pool.block.address host).text) :
    Housed node (some rest) (Function.update pods i pod) := by
  obtain ⟨hblock, hused⟩ := Pool.used_of_take? htake
  have hfresh := Finset.mem_sdiff.1 (Pool.isLeast_of_take? htake).1
  have hmem : ∀ n, n ∈ rest.used ↔ n = host ∨ n ∈ pool.used := fun n ↦ by
    rw [← List.mem_toFinset, hused, Finset.mem_insert, List.mem_toFinset]
  have hshows : ∀ j ip, Shows node (Function.update pods i pod) j ip ↔
      j = i ∧ ip = (pool.block.address host).text ∨ Shows node pods j ip := by
    intro j ip
    rw [shows_update_iff]
    split
    · next hj => simp [Shows, hj, hnode, haddress, hnone, eq_comm]
    · next hj => simp [hj]
  -- nobody showed the new address, for its host was not in use
  have hnew : ∀ j, ¬ Shows node pods j (pool.block.address host).text := by
    intro j hj
    obtain ⟨other, hother, htext⟩ := h.exists_host hj
    rw [host_eq_of_text_eq (mem_hosts_of_used hother) hfresh.1 htext] at hother
    exact hfresh.2 (List.mem_toFinset.2 hother)
  refine of_pool (fun j k ip hj hk ↦ ?_) fun ip ↦ ?_
  · rcases (hshows j ip).1 hj with ⟨hji, hip⟩ | hold <;>
      rcases (hshows k ip).1 hk with ⟨hki, hip'⟩ | hold'
    · rw [hji, hki]
    · exact absurd (hip ▸ hold') (hnew k)
    · exact absurd (hip' ▸ hold) (hnew j)
    · exact h.apart j k ip hold hold'
  · simp only [hshows, hblock, hmem]
    constructor
    · rintro ⟨j, ⟨rfl, rfl⟩ | hj⟩
      · exact ⟨host, .inl rfl, rfl⟩
      · obtain ⟨other, hother, htext⟩ := h.exists_host hj
        exact ⟨other, .inr hother, htext⟩
    · rintro ⟨other, rfl | hother, rfl⟩
      · exact ⟨i, .inl ⟨rfl, rfl⟩⟩
      · obtain ⟨j, hj⟩ := h.exists_shows hother
        exact ⟨j, .inr hj⟩

/-- The host that a pod shows is given back, and shown no more. -/
theorem giveBack (h : Housed node (some pool) pods) {ip : String} (hi : Shows node pods i ip)
    (hnone : pod.address? = none) :
    Housed node (some (pool.serve (.release ip)).1) (Function.update pods i pod) := by
  obtain ⟨host, hhost, rfl⟩ := h.exists_host hi
  -- the text of the address is read as the host that it was written for
  have hserve : (pool.serve (.release (pool.block.address host).text)).1 = pool.putBack host := by
    rw [Pool.serve_release_of_host (Block.host_text (mem_hosts_of_used hhost))]
  have hmem : ∀ n, n ∈ (pool.putBack host).used ↔ n ≠ host ∧ n ∈ pool.used := fun n ↦ by
    rw [← List.mem_toFinset, pool.used_putBack, Finset.mem_erase, List.mem_toFinset]
  have hshows : ∀ j ip, Shows node (Function.update pods i pod) j ip ↔
      j ≠ i ∧ Shows node pods j ip := by
    intro j ip
    rw [shows_update_iff]
    split
    · next hj => simp [hj, hnone]
    · next hj => simp [hj]
  rw [hserve]
  refine of_pool (fun j k ip hj hk ↦ ?_) fun ip ↦ ?_
  · exact h.apart j k ip ((hshows j ip).1 hj).2 ((hshows k ip).1 hk).2
  · simp only [hshows, Pool.block_putBack, hmem]
    constructor
    · rintro ⟨j, hji, hj⟩
      obtain ⟨other, hother, rfl⟩ := h.exists_host hj
      refine ⟨other, ⟨?_, hother⟩, rfl⟩
      rintro rfl
      exact hji (h.apart j i _ hj hi)
    · rintro ⟨other, ⟨hne, hother⟩, rfl⟩
      obtain ⟨j, hj⟩ := h.exists_shows hother
      refine ⟨j, ?_, hj⟩
      rintro rfl
      have hsame := Option.some.inj (hj.2.symm.trans hi.2)
      exact hne (host_eq_of_text_eq (mem_hosts_of_used hother) (mem_hosts_of_used hhost) hsame)

/-- A pod is replaced by one that shows the same. -/
theorem keep (h : Housed node slot pods) (hnode : pod.node? = (pods i).node?)
    (haddress : (pods i).node? = some node → pod.address? = (pods i).address?) :
    Housed node slot (Function.update pods i pod) := by
  refine h.congr fun j ip ↦ ?_
  rw [shows_update_iff]
  split
  · next hj =>
    rw [hj, Shows, hnode]
    exact and_congr_right fun hhere ↦ by rw [haddress hhere]
  · exact Iff.rfl

/-! ### One call -/

/-- A pod of a node that shows no address is started: it is given one, if there is any. -/
theorem started_of_none {a : Agent} (h : Housed node (poolAt node a) pods)
    (hhere : (pods i).node? = some node) (hnone : (pods i).address? = none) :
    Housed node (poolAt node (a.started (pods i)).1)
      (Function.update pods i (a.started (pods i)).2) := by
  have hnode : (a.started (pods i)).2.node? = (pods i).node? := rfl
  rw [poolAt_started node a .asked]
  cases hslot : poolAt node a with
  | none =>
    rw [hslot] at h
    refine h.keep hnode fun _ ↦ ?_
    rw [address?_started_eq, hhere, hnone, Option.bind_some, hslot]
    rfl
  | some pool =>
    rw [hslot] at h
    have haddress := address?_started_of_none hnone hhere hslot
    simp only [Act.effect, Act.request?, hhere, hnone, and_self, if_true, Option.map_some,
      Pool.asked, Pool.serve, Pool.allocate]
    rcases htake : pool.take? with - | ⟨host, rest⟩
    · rw [htake] at haddress
      exact h.keep hnode fun _ ↦ haddress.trans hnone.symm
    · rw [htake] at haddress
      exact h.take htake hnone (hnode.trans hhere) haddress

/-- **A start keeps the pods of a node and its pool together.** -/
theorem started {a : Agent} (h : Housed node (poolAt node a) pods) (i : ι) :
    Housed node (poolAt node (a.started (pods i)).1)
      (Function.update pods i (a.started (pods i)).2) := by
  by_cases hasks : (pods i).node? = some node ∧ (pods i).address? = none
  · exact h.started_of_none hasks.1 hasks.2
  · have hslot : poolAt node (a.started (pods i)).1 = poolAt node a := by
      rw [poolAt_started node a .asked, Act.effect, Act.request?, if_neg hasks]
      exact Option.map_id'
    rw [hslot]
    refine h.keep rfl fun hhere ↦ ?_
    obtain ⟨ip, hip⟩ := Option.ne_none_iff_exists'.1 fun hnone ↦ hasks ⟨hhere, hnone⟩
    rw [address?_started_of_some hip, hip]

/-- **A stop keeps the pool of the node in step with the pods**: the host that the pod showed comes
back, and the pod shows none any more. -/
theorem stopped {a : Agent} (h : Housed node (poolAt node a) pods) (i : ι) :
    Housed node (poolAt node (a.stopped (pods i)).1)
      (Function.update pods i (a.stopped (pods i)).2) := by
  rw [poolAt_stopped node a .asked]
  by_cases hshown : ∃ ip, Shows node pods i ip
  · obtain ⟨ip, hi⟩ := hshown
    obtain ⟨pool, hslot, -⟩ := (h.used ip).1 ⟨i, hi⟩
    rw [Option.mem_def] at hslot
    rw [hslot] at h ⊢
    rw [Act.effect, Act.request?, if_pos hi.1, hi.2]
    exact h.giveBack hi (address?_stopped a (pods i))
  · have hnone : (pods i).node? = some node → (pods i).address? = none := fun hhere ↦
      Option.eq_none_iff_forall_ne_some.2 fun ip hip ↦ hshown ⟨ip, hhere, hip⟩
    have hslot : (Act.stop .asked (pods i)).effect node (poolAt node a) = poolAt node a := by
      rw [Act.effect, Act.request?]
      split
      · next hhere =>
        rw [hnone hhere]
        exact Option.map_id'
      · exact Option.map_id'
    rw [hslot]
    exact h.keep rfl fun hhere ↦ (address?_stopped a (pods i)).trans (hnone hhere).symm

end Housed

/-! ### Runs of calls -/

/-- A pod reports an address alone, and as the only one of its list. -/
def Pod.Reports (pod : Pod) (ip : String) : Prop :=
  ∃ status, pod.status = some status ∧ status.podIP = some ip ∧ status.podIPs = some [ip]

/-- A started pod with an address reports it alone and as the only one of its list. -/
theorem Agent.reports_started {a : Agent} {pod : Pod} {ip : String}
    (h : (a.started pod).2.address? = some ip) : (a.started pod).2.Reports ip :=
  ⟨Lifecycle.running a.clock (a.assignAddress pod (Lifecycle.prepared a.clock pod)).2, rfl,
    by rw [assignAddress_of_started h]; rfl, by rw [assignAddress_of_started h]; rfl⟩

/-- An agent with the pods in its care, and the world around it. -/
structure AgentWithPods (ε ι : Type) where
  /-- The agent. -/
  agent : Agent
  /-- The world. -/
  world : ε
  /-- The pods, each as the last call left it. -/
  pods : ι → Pod

/-- A call of the agent. -/
inductive Turn (ι : Type) where
  /-- A pod is started. -/
  | start (i : ι)
  /-- A pod is stopped. -/
  | stop (i : ι)

namespace AgentWithPods

variable {ε : Type} [DecidableEq ι]

/-- What a call on a pod left. -/
def afterCall (f : AgentWithPods ε ι) (i : ι) (run : Run Agent ε (Pod × Except Fault Unit)) :
    AgentWithPods ε ι where
  agent := run.state
  world := run.world
  pods := match run.result with
    | some outcome => Function.update f.pods i outcome.1
    | none => f.pods

/-- Makes a call. -/
def turn (host : Host Agent ε) (f : AgentWithPods ε ι) : Turn ι → AgentWithPods ε ι
  | .start i => f.afterCall i ((startPod (f.pods i)).run host f.world f.agent)
  | .stop i => f.afterCall i ((stopPod (f.pods i)).run host f.world f.agent)

/-- Makes some calls, one after the other. -/
def run (host : Host Agent ε) (f : AgentWithPods ε ι) (turns : List (Turn ι)) : AgentWithPods ε ι :=
  turns.foldl (turn host) f

variable {host : Host Agent ε} {f : AgentWithPods ε ι}

/-- A call comes to its end, and leaves the pools and the pod settled. -/
theorem afterCall_eq (hhost : host.Keeps Agent.pools) (hanswers : host.Answers) (i : ι)
    {task : Task Agent (Pod × Except Fault Unit)} {settled : Agent × Pod}
    (htask : Task.Ensures Agent.pools task f.agent fun pools result ↦
      pools = settled.1.pools ∧ ∀ outcome ∈ result, outcome.1 = settled.2) :
    (f.afterCall i (task.run host f.world f.agent)).agent.pools = settled.1.pools ∧
      (f.afterCall i (task.run host f.world f.agent)).pods =
        Function.update f.pods i settled.2 := by
  obtain ⟨hpools, hpod⟩ := htask ε host f.world hhost
  obtain ⟨outcome, houtcome⟩ := hanswers.exists_result f.world f.agent task
  refine ⟨hpools, ?_⟩
  rw [afterCall, houtcome, ← hpod outcome houtcome]

/-- A start leaves the pools and the pod as they were settled, whatever the cluster answers. -/
theorem turn_start (hhost : host.Keeps Agent.pools) (hanswers : host.Answers) (i : ι) :
    (f.turn host (.start i)).agent.pools = (f.agent.started (f.pods i)).1.pools ∧
      (f.turn host (.start i)).pods =
        Function.update f.pods i (f.agent.started (f.pods i)).2 :=
  afterCall_eq hhost hanswers i (ensures_settled_startPod Agent.pools (f.pods i) f.agent)

theorem turn_stop (hhost : host.Keeps Agent.pools) (hanswers : host.Answers) (i : ι) :
    (f.turn host (.stop i)).agent.pools = (f.agent.stopped (f.pods i)).1.pools ∧
      (f.turn host (.stop i)).pods =
        Function.update f.pods i (f.agent.stopped (f.pods i)).2 :=
  afterCall_eq hhost hanswers i (ensures_settled_stopPod Agent.pools (f.pods i) f.agent)

/-- All is in order: on every node the pods and the pool keep together, the pool is one of the
block that it had at first, and what a pod shows it reports. -/
structure Tidy (a : Agent) (f : AgentWithPods ε ι) : Prop where
  /-- The pods of a node and its pool keep together. -/
  housed : ∀ node, Housed node (poolAt node f.agent) f.pods
  /-- The pools stay in place. -/
  block : ∀ node, (poolAt node f.agent).map Pool.block = (poolAt node a).map Pool.block
  /-- An address stands alone in the status. -/
  reports : ∀ i ip, (f.pods i).address? = some ip → (f.pods i).Reports ip

/-- A call keeps all in order, if it settles one pod and asks the pools for no more than they
have. -/
theorem Tidy.of_settled {a : Agent} (h : f.Tidy a) {f' : AgentWithPods ε ι} {i : ι}
    {settled : Agent × Pod} (hcall : f'.agent.pools = settled.1.pools ∧
      f'.pods = Function.update f.pods i settled.2)
    (hhoused : ∀ node, Housed node (poolAt node settled.1) (Function.update f.pods i settled.2))
    (hasked : ∀ node, ∃ r, poolAt node settled.1 =
      (poolAt node f.agent).map fun pool ↦ pool.asked r)
    (hreports : ∀ ip, settled.2.address? = some ip → settled.2.Reports ip) : f'.Tidy a := by
  obtain ⟨hpools, hpods⟩ := hcall
  have hpoolAt : ∀ node, poolAt node f'.agent = poolAt node settled.1 := fun node ↦
    congrArg (·.find? node) hpools
  refine ⟨fun node ↦ ?_, fun node ↦ ?_, fun j ip hip ↦ ?_⟩
  · rw [hpoolAt, hpods]
    exact hhoused node
  · obtain ⟨r, hr⟩ := hasked node
    rw [hpoolAt, hr, ← h.block node, Option.map_map]
    exact Option.map_congr fun pool _ ↦ pool.block_asked r
  · rw [hpods] at hip ⊢
    by_cases hj : j = i
    · rw [hj, Function.update_self] at hip ⊢
      exact hreports ip hip
    · rw [Function.update_of_ne hj] at hip ⊢
      exact h.reports j ip hip

/-- **One call keeps all in order**, be it a start or a stop. -/
theorem Tidy.turn {a : Agent} (h : f.Tidy a) (hhost : host.Keeps Agent.pools)
    (hanswers : host.Answers) (t : Turn ι) : (f.turn host t).Tidy a := by
  cases t with
  | start i =>
    refine h.of_settled (turn_start hhost hanswers i) (fun node ↦ (h.housed node).started i)
      (fun node ↦ ⟨_, poolAt_started node f.agent .asked (f.pods i)⟩) fun ip hip ↦ ?_
    exact reports_started hip
  | stop i =>
    refine h.of_settled (turn_stop hhost hanswers i) (fun node ↦ (h.housed node).stopped i)
      (fun node ↦ ⟨_, poolAt_stopped node f.agent .asked (f.pods i)⟩) fun ip hip ↦ ?_
    rw [address?_stopped] at hip
    cases hip

theorem Tidy.run {a : Agent} (h : f.Tidy a) (hhost : host.Keeps Agent.pools)
    (hanswers : host.Answers) (turns : List (Turn ι)) : (f.run host turns).Tidy a := by
  induction turns generalizing f with
  | nil => exact h
  | cons t rest ih => exact ih (h.turn hhost hanswers t)

omit [DecidableEq ι] in
/-- Pods without an address and empty pools are in order. -/
theorem tidy_of_empty {ε : Type} (world : ε) {a : Agent} {pods : ι → Pod}
    (hempty : ∀ node, ∀ pool ∈ poolAt node a, pool.used = [])
    (hnone : ∀ i, (pods i).address? = none) : Tidy a ⟨a, world, pods⟩ := by
  have hbare : ∀ i ip, (pods i).address? ≠ some ip := fun i ip hip ↦ by
    rw [hnone i] at hip
    cases hip
  refine ⟨fun node ↦ ⟨fun i j ip hi _ ↦ ?_, ?_⟩, fun node ↦ rfl,
    fun i ip hip ↦ absurd hip (hbare i ip)⟩
  · exact absurd hi.2 (hbare i ip)
  · intro ip
    refine iff_of_false (fun ⟨i, hi⟩ ↦ hbare i ip hi.2) ?_
    rintro ⟨pool, hpool, host, hhost, -⟩
    rw [hempty node pool hpool] at hhost
    cases hhost

/-- **Starts and stops conserve addresses.** Pods without an address are started and stopped on
nodes whose pools are empty at first, whatever the cluster answers. Then, after any calls:

* no two pods of a node show one address, and the addresses that they show are those of the
  hosts in use in the node's pool;
* an address stands alone in its status, and every node has the pool of its block;
* a pod of the node that has no address gets one by its next start, unless all hosts of the
  block are in use. -/
theorem conserved {ε : Type} (host : Host Agent ε) (hhost : host.Keeps Agent.pools)
    (hanswers : host.Answers) (world : ε) (a : Agent) (pods : ι → Pod)
    (hempty : ∀ node, ∀ pool ∈ poolAt node a, pool.used = [])
    (hnone : ∀ i, (pods i).address? = none) (turns : List (Turn ι)) (node : String) :
    let f := run host ⟨a, world, pods⟩ turns
    ((∀ i j ip, Shows node f.pods i ip → Shows node f.pods j ip → i = j) ∧
      ∀ ip, (∃ i, Shows node f.pods i ip) ↔
        ∃ pool ∈ poolAt node f.agent, ∃ host ∈ pool.used, (pool.block.address host).text = ip) ∧
      ((∀ i ip, (f.pods i).address? = some ip → (f.pods i).Reports ip) ∧
        (poolAt node f.agent).map Pool.block = (poolAt node a).map Pool.block) ∧
      ∀ i, (f.pods i).node? = some node → (f.pods i).address? = none →
        ∀ pool ∈ poolAt node f.agent, ((f.turn host (.start i)).pods i).address? = none ↔
          pool.used.toFinset = pool.block.hosts := by
  intro f
  have htidy : f.Tidy a := (tidy_of_empty world hempty hnone).run hhost hanswers turns
  have hhoused := htidy.housed node
  refine ⟨⟨hhoused.apart, hhoused.used⟩, ⟨htidy.reports, htidy.block node⟩, ?_⟩
  intro i hhere hbare pool hpool
  rw [(turn_start hhost hanswers i).2, Function.update_self,
    address?_started_of_none hbare hhere hpool, Option.map_eq_none_iff]
  exact Pool.take?_eq_none_iff

/-! ### Three pods and two hosts -/

/-- An agent with a pool of two hosts. -/
def withTwoHosts : Agent := (Agent.initial {} ⟨0, false⟩).setPool "mock-node-0" Pool.twoHosts

/-- Three pods of its node. -/
def threePods (i : Fin 3) : Pod := podWith (toString i.val) none

/-- All three are started, and the first one is stopped. -/
def crowd : List (Turn (Fin 3)) := [.start 0, .start 1, .start 2, .stop 0]

/-- The third pod found the pool exhausted, and gets the address that the first one gave back. -/
theorem conserved_of_crowd :
    let f := run obliging ⟨withTwoHosts, (), threePods⟩ crowd
    (f.pods 2).address? = none ∧
      (∀ i j ip, Shows "mock-node-0" f.pods i ip → Shows "mock-node-0" f.pods j ip → i = j) ∧
      ((f.turn obliging (.start 2)).pods 2).address? ≠ none := by
  intro f
  have hempty : ∀ node, ∀ pool ∈ poolAt node withTwoHosts, pool.used = [] := by
    intro node pool hpool
    rw [withTwoHosts, poolAt_setPool] at hpool
    split at hpool
    · cases hpool
      rfl
    · cases hpool
  obtain ⟨⟨hapart, -⟩, -, hnext⟩ := conserved obliging keeps_pools_obliging answers_obliging ()
    withTwoHosts threePods hempty (fun _ ↦ rfl) crowd "mock-node-0"
  have hbare : (f.pods 2).address? = none := by decide +kernel
  have hpool : poolAt "mock-node-0" f.agent =
      some ((Pool.twoHosts.handOut 2).2.putBack 1) := by decide +kernel
  refine ⟨hbare, hapart, fun hnone ↦ ?_⟩
  have hall := (hnext 2 rfl hbare _ hpool).1 hnone
  revert hall
  decide

end AgentWithPods

end HollowFleet
