import HollowFleet.Proofs.Lifecycle.Pools

/-!
# Adopted addresses

A pod may come with an address of its node's pool: from an earlier agent, or from an earlier pool
of the node. It is started with that address, and the pool is not asked. So nothing in the pool
tells of the pod, and whether another pod of the node gets the same address is settled by what
went on besides.

## When the address is given out

The pool knows a host as one in use from the moment at which it gives it to a pod until a pod of
the node that shows its address is stopped, or the pool is dropped with its node. That is what
`Held` says of a run of acts. `reserves_simulate_iff` shows that the hosts in use after a run are
those that are held after it: its step is `reserves_effect_iff`, one case for each kind of act, and
the induction is on the run, from its end.

`adopted_respected_iff` draws three conclusions for a pod that came with an address, after any
acts, of which its own start is one that does not count:

* it is started with the address that it came with;
* the next pod of the node that comes without an address gets the same one exactly if the host is
  not held and all lower hosts of the block are, for a pool hands out the least host that it can;
* as long as pods are only started, none of them gets it, exactly if the host is held.

So the address is as good as given away once no pod to which the pool gave it is left
(`not_adopted_respected`), whatever the adopted pod itself does.
-/

namespace HollowFleet

open Agent

/-! ### Hosts in use -/

namespace Pool

variable {p : Pool} {n : ℕ}

/-- The host that is handed out is the least one that is not in use, and there is no other one. -/
theorem map_fst_take?_eq_some_iff :
    p.take?.map Prod.fst = some n ↔
      n ∈ p.block.hosts ∧ n ∉ p.used ∧ ∀ m ∈ p.block.hosts, m < n → m ∈ p.used := by
  have hleast : ∀ {host}, IsLeast (↑(p.block.hosts \ p.used.toFinset) : Set ℕ) host ↔
      host ∈ p.block.hosts ∧ host ∉ p.used ∧ ∀ m ∈ p.block.hosts, m < host → m ∈ p.used := by
    intro host
    simp only [IsLeast, lowerBounds, Finset.coe_sdiff, Set.mem_sdiff, Finset.mem_coe,
      List.mem_toFinset, Set.mem_ofPred_eq, and_imp, and_assoc]
    refine and_congr_right fun _ ↦ and_congr_right fun _ ↦ forall₂_congr fun m _ ↦ ?_
    rw [← not_imp_not, not_le, not_not]
  rw [← hleast]
  constructor
  · intro h
    obtain ⟨⟨host, rest⟩, htake, rfl⟩ := Option.map_eq_some_iff.1 h
    exact isLeast_of_take? htake
  · intro h
    rcases htake : p.take? with - | ⟨host, rest⟩
    · have hall := take?_eq_none_iff.1 htake
      rw [hall, sdiff_self] at h
      cases h.1
    · exact congrArg some ((isLeast_of_take? htake).unique h)

theorem mem_used_serve_allocate :
    n ∈ (p.serve .allocate).1.used ↔ n ∈ p.used ∨ p.take?.map Prod.fst = some n := by
  rcases htake : p.take? with - | ⟨host, rest⟩
  · simp [serve, allocate, htake]
  · obtain ⟨-, hused⟩ := used_of_take? htake
    simp only [serve, allocate, htake]
    rw [← List.mem_toFinset, hused, Finset.mem_insert, List.mem_toFinset, Option.map_some,
      Option.some.injEq, or_comm, eq_comm]

theorem mem_used_serve_release {written : String} :
    n ∈ (p.serve (.release written)).1.used ↔
      n ∈ p.used ∧ (p.block.host written).toOption ≠ some n := by
  cases hhost : p.block.host written with
  | error fault => simp [serve_release_of_fault hhost, Except.toOption]
  | ok host =>
    rw [serve_release_of_host hhost, ← List.mem_toFinset, used_putBack, Finset.mem_erase,
      List.mem_toFinset, and_comm]
    simp [Except.toOption, eq_comm]

end Pool

/-- A node has a pool of a block, and a host is in use there. -/
def Reserves (b : Block) (n : ℕ) (slot : Option Pool) : Prop :=
  ∃ p, slot = some p ∧ p.block = b ∧ n ∈ p.used

theorem reserves_some_iff {p : Pool} {n : ℕ} : Reserves p.block n (some p) ↔ n ∈ p.used := by
  constructor
  · rintro ⟨p', heq, -, hused⟩
    cases heq
    exact hused
  · exact fun h ↦ ⟨p, rfl, rfl, h⟩

/-! ### What an act does to a host in use -/

namespace Act

variable {node : String} {b : Block} {n : ℕ} {slot : Option Pool}

/-- Nothing is done to a node that makes its pool take a host back, or that drops the pool. -/
def Spares (node : String) (b : Block) (n : ℕ) : Act → Prop
  | start _ _ => True
  | stop _ pod => pod.node? = some node → b.hostOf? pod ≠ some n
  | add _ => True
  | drop other => other.name ≠ node

/-- A pod of a node is started without an address, and a host is next in the node's pool. -/
def Takes (node : String) (b : Block) (n : ℕ) (slot : Option Pool) : Act → Prop
  | start _ pod => pod.node? = some node ∧ pod.address? = none ∧
    ∃ p, slot = some p ∧ p.block = b ∧ p.take?.map Prod.fst = some n
  | _ => False

/-- After a start the hosts in use are those from before and the one that the start took. -/
theorem reserves_effect_start_iff {why : Occasion} {pod : Pod} :
    Reserves b n ((start why pod).effect node slot) ↔
      Reserves b n slot ∨ (start why pod).Takes node b n slot := by
  rcases slot with - | p
  · simp [effect, Takes, Reserves]
  · simp only [effect, request?, Takes, Reserves, Option.map_some, Option.some.injEq,
      exists_eq_left']
    split
    · next hasks =>
      simp only [Pool.asked, Pool.block_serve, Pool.mem_used_serve_allocate, hasks, true_and]
      exact and_or_left
    · next hasks => simp only [Pool.asked_none, ← and_assoc, hasks, false_and, or_false]

/-- After a stop the hosts in use are those from before without the one that the stop gave back. -/
theorem reserves_effect_stop_iff {why : Occasion} {pod : Pod} :
    Reserves b n ((stop why pod).effect node slot) ↔
      Reserves b n slot ∧ (stop why pod).Spares node b n := by
  rcases slot with - | p
  · simp [effect, Reserves]
  · simp only [effect, request?, Spares, Reserves, Option.map_some, Option.some.injEq,
      exists_eq_left']
    split
    · next hhere =>
      cases hip : pod.address? with
      | none => simp [Block.hostOf?, hip]
      | some ip =>
        simp only [Option.map_some, Pool.asked, Pool.block_serve, Pool.mem_used_serve_release,
          Block.hostOf?, hip, Option.bind_some, hhere, true_imp_iff, ← and_assoc]
        refine and_congr_right fun h ↦ ?_
        rw [h.1]
    · next hhere => simp [hhere]

/-- **What becomes of a host in use**: it stays in use while it is spared, and a host comes into
use by being taken. -/
theorem reserves_effect_iff (act : Act) :
    Reserves b n (act.effect node slot) ↔
      Reserves b n slot ∧ act.Spares node b n ∨ act.Takes node b n slot := by
  cases act with
  | start why pod => simpa [Spares] using reserves_effect_start_iff
  | stop why pod => simpa [Takes] using reserves_effect_stop_iff
  | add other =>
    simp only [effect, Spares, Takes, and_true, or_false]
    split
    · rcases slot with - | p
      · -- nothing is in use in the pool that a node is given
        refine iff_of_false ?_ (by simp [Reserves])
        rintro ⟨p, hp, -, hused⟩
        obtain ⟨block, -, hread⟩ := Option.bind_eq_some_iff.1 ((Option.none_or ..).symm.trans hp)
        cases hparse : Pool.parse block with
        | error fault =>
          rw [hparse] at hread
          cases hread
        | ok pool =>
          rw [hparse] at hread
          cases hread
          rw [Pool.eq_ofBlock_of_parse hparse] at hused
          cases hused
      · rw [Option.some_or]
    · rfl
  | drop other =>
    simp only [effect, Spares, Takes, or_false]
    split
    · next h => simp [Reserves, h]
    · next h => simp [h]

end Act

/-! ### Hosts that are held -/

/-- By its start a pod of a node that came without an address gets a host of the node's pool. -/
structure Agent.Gives (a : Agent) (node : String) (b : Block) (n : ℕ) (pod : Pod) : Prop where
  /-- The pod is bound to the node. -/
  here : pod.node? = some node
  /-- It came without an address. -/
  bare : pod.address? = none
  /-- The pool of the node is one of the block. -/
  pool : ∃ p, poolAt node a = some p ∧ p.block = b
  /-- The address with which the pod is started names the host. -/
  host : b.hostOf? (a.started pod).2 = some n

/-- A host of a node is held after some acts: the pool gave it to a pod, and since then no pod of
the node that showed its address was stopped, nor was the pool dropped. -/
def Held (after : List Act → Agent) (node : String) (b : Block) (n : ℕ) (acts : List Act) : Prop :=
  ∃ before why pod later, acts = before ++ .start why pod :: later ∧
    (after before).Gives node b n pod ∧ ∀ act ∈ later, act.Spares node b n

section Held

variable {node : String} {b : Block} {n : ℕ}

theorem Agent.gives_iff {a : Agent} {pod : Pod} (why : Occasion) :
    a.Gives node b n pod ↔ (Act.start why pod).Takes node b n (poolAt node a) := by
  constructor
  · rintro ⟨hhere, hbare, ⟨p, hpool, rfl⟩, hhost⟩
    rw [hostOf?_started_of_none hbare hhere hpool] at hhost
    exact ⟨hhere, hbare, p, hpool, rfl, hhost⟩
  · rintro ⟨hhere, hbare, p, hpool, rfl, htake⟩
    refine ⟨hhere, hbare, ⟨p, hpool, rfl⟩, ?_⟩
    rw [hostOf?_started_of_none hbare hhere hpool, htake]

variable {after : List Act → Agent} {acts : List Act}

theorem not_held_nil : ¬ Held after node b n [] := by
  rintro ⟨before, why, pod, later, heq, -⟩
  exact absurd heq.symm (List.append_ne_nil_of_right_ne_nil _ (List.cons_ne_nil _ _))

/-- A host is held after one more act if it was held and is spared, or if it is given just now. -/
theorem held_concat_iff (act : Act) :
    Held after node b n (acts ++ [act]) ↔ Held after node b n acts ∧ act.Spares node b n ∨
      act.Takes node b n (poolAt node (after acts)) := by
  constructor
  · rintro ⟨before, why, pod, later, heq, hgives, hspares⟩
    rcases List.eq_nil_or_concat' later with rfl | ⟨later, last, rfl⟩
    · obtain ⟨rfl, hlast⟩ := List.append_inj' heq rfl
      cases hlast
      exact .inr ((gives_iff why).1 hgives)
    · rw [← List.cons_append, ← List.append_assoc] at heq
      obtain ⟨rfl, hlast⟩ := List.append_inj' heq rfl
      cases hlast
      exact .inl ⟨⟨before, why, pod, later, rfl, hgives, fun act hact ↦
        hspares act (List.mem_append_left _ hact)⟩, hspares _ (by simp)⟩
  · rintro (⟨⟨before, why, pod, later, rfl, hgives, hspares⟩, hact⟩ | htakes)
    · refine ⟨before, why, pod, later ++ [act], by simp, hgives, fun act' hact' ↦ ?_⟩
      rcases List.mem_append.1 hact' with hmem | hmem
      · exact hspares act' hmem
      · exact List.mem_singleton.1 hmem ▸ hact
    · cases act with
      | start why pod => exact ⟨acts, why, pod, [], rfl, (gives_iff why).2 htakes, by simp⟩
      | stop why pod => cases htakes
      | add other => cases htakes
      | drop other => cases htakes

end Held

variable {ε : Type}

/-- **The hosts in use after a run are those that are held**, whatever the order of the starts and
stops in it, and however often nodes were deleted and added again. -/
theorem reserves_simulate_iff {host : Host Agent ε} (hhost : host.Keeps Agent.pools) (world : ε)
    (settings : Settings) (clock : Timestamp) (acts : List Act) {node : String} {b : Block}
    {n : ℕ} :
    Reserves b n (poolAt node (simulate host world (.initial settings clock) acts)) ↔
      Held (simulate host world (.initial settings clock)) node b n acts := by
  induction acts using List.reverseRecOn with
  | nil =>
    refine iff_of_false ?_ not_held_nil
    rintro ⟨p, hp, -⟩
    cases hp
  | append_singleton acts act ih =>
    rw [held_concat_iff, ← ih, poolAt_simulate hhost, List.foldl_append, List.foldl_cons,
      List.foldl_nil, Act.reserves_effect_iff, ← poolAt_simulate hhost]

/-! ### A pod that comes with an address -/

/-- A pod of a node without an address, that goes by another key than some pod. -/
def Pod.stranger (node key : String) : Pod where
  metadata := { name := some key }
  spec := some { nodeName := some node }

theorem Pod.key_stranger_ne (node key : String) : (stranger node key).key ≠ key := by
  intro h
  have hlength := congrArg String.length h
  simp [stranger, Pod.key, Metadata.qualifiedName, Metadata.displayName] at hlength

theorem Pod.node?_stranger {pod : Pod} {node : String} (h : pod.node? = some node) (key : String) :
    (stranger node key).node? = some node :=
  Option.filter_eq_some_iff.2 ⟨rfl, (Option.filter_eq_some_iff.1 h).2⟩

section Run

variable {host : Host Agent ε} {world : ε} {settings : Settings} {clock : Timestamp}
  {acts : List Act} {node : String} {pool : Pool} {n : ℕ}

theorem held_iff_mem_used (hhost : host.Keeps Agent.pools)
    (hpool : poolAt node (simulate host world (.initial settings clock) acts) = some pool) :
    Held (simulate host world (.initial settings clock)) node pool.block n acts ↔
      n ∈ pool.used := by
  rw [← reserves_simulate_iff hhost, hpool, reserves_some_iff]

/-- What the next pod without an address gets is told by the hosts that are held. -/
theorem hostOf?_started_iff_held (hhost : host.Keeps Agent.pools)
    (hpool : poolAt node (simulate host world (.initial settings clock) acts) = some pool)
    (hn : n ∈ pool.block.hosts) {other : Pod} (hother : other.node? = some node)
    (hbare : other.address? = none) :
    pool.block.hostOf? ((simulate host world (.initial settings clock) acts).started other).2 =
        some n ↔
      ¬ Held (simulate host world (.initial settings clock)) node pool.block n acts ∧
        ∀ m ∈ pool.block.hosts, m < n →
          Held (simulate host world (.initial settings clock)) node pool.block m acts := by
  rw [hostOf?_started_of_none hbare hother hpool, Pool.map_fst_take?_eq_some_iff]
  simp only [held_iff_mem_used hhost hpool, hn, true_and]

/-- A host that is held stays held as long as it is spared, and is not given to anybody. -/
theorem hostOf?_started_ne_of_held (hhost : host.Keeps Agent.pools) {b : Block}
    (hheld : Held (simulate host world (.initial settings clock)) node b n acts)
    {later : List Act} (hspares : ∀ act ∈ later, act.Spares node b n) {other : Pod}
    (hother : other.node? = some node) (hbare : other.address? = none) :
    b.hostOf? ((simulate host world (.initial settings clock) (acts ++ later)).started other).2 ≠
      some n := by
  have hstill : Held (simulate host world (.initial settings clock)) node b n (acts ++ later) := by
    obtain ⟨before, why, pod, between, rfl, hgives, hspared⟩ := hheld
    refine ⟨before, why, pod, between ++ later, by simp, hgives, fun act hact ↦ ?_⟩
    exact (List.mem_append.1 hact).elim (hspared act) (hspares act)
  obtain ⟨p, hp, rfl, hused⟩ := (reserves_simulate_iff hhost world settings clock _).2 hstill
  rw [hostOf?_started_of_none hbare hother hp, Ne, Pool.map_fst_take?_eq_some_iff]
  exact fun h ↦ h.2.1 hused

/-- A pool that is asked often enough comes to every host that is not held, so starts of other pods
alone lead to a pod that gets it. -/
theorem exists_given_of_not_held (hhost : host.Keeps Agent.pools)
    (hpool : poolAt node (simulate host world (.initial settings clock) acts) = some pool)
    (hn : n ∈ pool.block.hosts)
    (hheld : ¬ Held (simulate host world (.initial settings clock)) node pool.block n acts)
    {adopted : Pod} (hnode : adopted.node? = some node) :
    ∃ (times : ℕ) (other : Pod), other.key ≠ adopted.key ∧ other.node? = some node ∧
      other.address? = none ∧ pool.block.hostOf? ((simulate host world (.initial settings clock)
        (acts ++ List.replicate times (.start .asked other))).started other).2 = some n := by
  rw [held_iff_mem_used hhost hpool] at hheld
  obtain ⟨k, rest, htake⟩ :=
    Pool.exists_take? (Finset.mem_sdiff.2 ⟨hn, by rwa [List.mem_toFinset]⟩ : n ∈ pool.unused)
  let other := Pod.stranger node adopted.key
  have hother : other.node? = some node := Pod.node?_stranger hnode _
  have hturn : poolAt node (simulate host world (.initial settings clock)
      (acts ++ List.replicate k (.start .asked other))) = some (pool.handOut k).2 := by
    rw [poolAt_simulate hhost, List.foldl_append, ← poolAt_simulate hhost, hpool,
      ← List.map_replicate, Act.foldl_effect_start fun pod hpod ↦
        (List.eq_of_mem_replicate hpod) ▸ hother, List.countP_replicate]
    rfl
  refine ⟨k, other, Pod.key_stranger_ne _ _, hother, rfl, ?_⟩
  rw [← (pool.supplies_handOut k).block, hostOf?_started_of_none rfl hother hturn, htake]
  rfl

end Run

/-- **When an adopted address is respected.** A pod comes with an address and is started with it.
After any further acts, starts and stops and deletions of nodes in any order:

* another pod of the node that comes without an address is given the same one exactly if its host
  is not held, and all lower hosts of the node's pool are;
* if the host is held, nobody is given it as long as no pod that shows it is stopped and the node
  is not deleted;
* if it is not, starts of another pod alone lead to one that is given it. -/
theorem adopted_respected_iff (host : Host Agent ε) (hhost : host.Keeps Agent.pools) (world : ε)
    (settings : Settings) (clock : Timestamp) (history : List Act) (node : String) (adopted : Pod)
    (hnode : adopted.node? = some node) (haddress : adopted.address? ≠ none) (why : Occasion) :
    let after (acts : List Act) : Agent := simulate host world (.initial settings clock) acts
    ((after history).started adopted).2.address? = adopted.address? ∧
      ∀ (acts : List Act) (pool : Pool),
        let run : List Act := history ++ .start why adopted :: acts
        poolAt node (after run) = some pool → ∀ n, pool.block.hostOf? adopted = some n →
          (∀ other : Pod, other.node? = some node → other.address? = none →
            (pool.block.hostOf? ((after run).started other).2 = some n ↔
              ¬ Held after node pool.block n run ∧
                ∀ m ∈ pool.block.hosts, m < n → Held after node pool.block m run)) ∧
          (Held after node pool.block n run → ∀ later : List Act,
            (∀ act ∈ later, act.Spares node pool.block n) →
            ∀ other : Pod, other.node? = some node → other.address? = none →
              pool.block.hostOf? ((after (run ++ later)).started other).2 ≠ some n) ∧
          (¬ Held after node pool.block n run → ∃ (times : ℕ) (other : Pod),
            other.key ≠ adopted.key ∧ other.node? = some node ∧ other.address? = none ∧
              pool.block.hostOf? ((after (run ++
                List.replicate times (.start .asked other))).started other).2 = some n) := by
  intro after
  obtain ⟨ip, hip⟩ := Option.ne_none_iff_exists'.1 haddress
  refine ⟨(address?_started_of_some hip).trans hip.symm, ?_⟩
  intro acts pool run hpool n hn
  have hmem : n ∈ pool.block.hosts := Block.mem_hosts_of_hostOf? hn
  refine ⟨fun other hother hbare ↦ ?_, fun hheld later hspares other hother hbare ↦ ?_,
    fun hheld ↦ ?_⟩
  · exact hostOf?_started_iff_held hhost hpool hmem hother hbare
  · exact hostOf?_started_ne_of_held hhost hheld hspares hother hbare
  · exact exists_given_of_not_held hhost hpool hmem hheld hnode

/-! ### A pod of an earlier agent -/

/-- A pod of a new agent that was given the first address. -/
def firstStarted : Pod :=
  ((simulate obliging () (.initial {} ⟨0, false⟩) [.add nodeWithBlock]).started
    (podWith "first" none)).2

/-- A pod that comes with an address which another pod was given before is started with it, and a
third pod is given another one, until the other pod is stopped. -/
theorem adopted_respected_of_held :
    let after := simulate obliging () (.initial {} ⟨0, false⟩)
    let run : List Act := [.add nodeWithBlock, .start .reported (podWith "first" none),
      .start .asked (podWith "old" (some "10.244.1.1"))]
    newPool.block.hostOf? ((after run).started (podWith "new" none)).2 ≠ some 1 ∧
      newPool.block.hostOf? ((after (run ++ [.stop .reported firstStarted])).started
        (podWith "new" none)).2 = some 1 := by
  intro after run
  obtain ⟨-, hrespected⟩ := adopted_respected_iff obliging keeps_pools_obliging () {} ⟨0, false⟩
    [.add nodeWithBlock, .start .reported (podWith "first" none)] "mock-node-0"
    (podWith "old" (some "10.244.1.1")) rfl (by decide) .asked
  have hheld : Held after "mock-node-0" newPool.block 1 run := by
    refine ⟨[.add nodeWithBlock], .reported, podWith "first" none, [_], rfl,
      ⟨rfl, rfl, ⟨newPool, by decide +kernel, rfl⟩, by decide +kernel⟩, ?_⟩
    simp [Act.Spares]
  constructor
  · obtain ⟨hgiven, -⟩ :=
      hrespected [] (newPool.handOut 1).2 (by decide +kernel) 1 (by decide +kernel)
    exact fun h ↦ ((hgiven (podWith "new" none) rfl rfl).1 h).1 hheld
  · let left := (newPool.handOut 1).2.putBack 1
    have hleft : poolAt "mock-node-0" (after (run ++ [.stop .reported firstStarted])) =
        some left := by decide +kernel
    obtain ⟨hgiven, -⟩ :=
      hrespected [.stop .reported firstStarted] left hleft 1 (by decide +kernel)
    have hback : ¬ Held after "mock-node-0" left.block 1 (run ++ [.stop .reported firstStarted]) :=
      fun h ↦ absurd ((held_iff_mem_used keeps_pools_obliging hleft).1 h) (by decide +kernel)
    refine (hgiven (podWith "new" none) rfl rfl).2 ⟨hback, fun m hm hlt ↦ ?_⟩
    -- there is no host before the first one
    have hfirst : 1 ≤ m := (Block.mem_hosts.1 hm).1
    omega

/-- A pod of some key is stopped. -/
def Act.Stops (key : String) : Act → Prop
  | stop _ pod => pod.key = key
  | _ => False

/-- **An adopted address is not respected**: the pool of a new agent hands it out. -/
theorem not_adopted_respected :
    ¬ ∀ (host : Host Agent Unit), host.Keeps Agent.pools → ∀ (settings : Settings)
      (clock : Timestamp) (history : List Act) (node : String) (pool : Pool),
      poolAt node (simulate host () (.initial settings clock) history) = some pool →
      ∀ (adopted : Pod) (why : Occasion) (n : ℕ), adopted.node? = some node →
      pool.block.hostOf? adopted = some n →
      ∀ acts, (∀ act ∈ acts, ¬ act.Stops adopted.key) → ∀ other : Pod,
        other.key ≠ adopted.key → other.node? = some node → other.address? = none →
          pool.block.hostOf? ((simulate host () (.initial settings clock)
            (history ++ .start why adopted :: acts)).started other).2 ≠ some n := by
  intro h
  refine h obliging keeps_pools_obliging {} ⟨0, false⟩ [.add nodeWithBlock]
    "mock-node-0" newPool (by decide +kernel) (podWith "old" (some "10.244.1.1")) .asked 1 rfl
    (by decide +kernel) [] (by simp) (podWith "new" none) (by decide) rfl rfl ?_
  decide +kernel

end HollowFleet
