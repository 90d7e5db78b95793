import HollowFleet.Proofs.Dispatch.Holding
import Mathlib.Data.List.DropRight

/-!
# What is held of a node is settled by its history

A node that is deleted is forgotten altogether, so of its history only the events since then count,
its `tenure`. From these the account and the pool follow by rules of their own
(`books_of_tenure`). The account begins with the first report of the node and takes over the
capacity of every update. The pool is made from the first addition that declares a block which can
be read; later reports of the node do not touch it, so what it handed out stays handed out.

## What the main theorem rests on

* That events of other nodes do not count is known already, so an agent's history comes down to
  `Holding.afterAll` on the events of one node (`holding_of_initial`). The rest is about this
  function alone, with no agent and no cluster.
* A deletion leaves nothing held, whatever was held before, so a run after the last deletion starts
  from nothing (`afterAll_rtakeWhile`).
* The capacity (`capacity_afterAll`) and the pool (`pool_afterAll_of_some`) are told by induction on
  the tenure, each for itself. For the pool it starts behind the addition that made it: up to there
  no block could be read, so pods found nothing to ask for an address.
* A node has a pool only if it is tracked, since the same event that adds the pool tracks the node,
  and only a deletion takes either away.
-/

namespace HollowFleet

open Agent Watch

namespace Agent

/-- The node that an event reports, if this is what happened to it. -/
def Notice.nodeOf? (op : Op) : Notice → Option Node
  | .node e => if e.op = op then some e.object else none
  | .pod _ => none

/-- The events that are about a node, from its last deletion on. -/
def tenure (name : String) (notices : List Notice) : List Notice :=
  (notices.filter (Notice.concerns name)).rtakeWhile fun notice ↦ !notice.ends

/-- The nodes to which something happened. -/
def reported (op : Op) (notices : List Notice) : List Node := notices.filterMap (Notice.nodeOf? op)

end Agent

/-- A pool after some events of pods of its node. -/
def Pool.afterPods (p : Pool) (events : List (Event Pod)) : Pool :=
  events.foldl (fun pool e ↦ pool.asked (requestOf? e)) p

namespace Holding

/-! ### One tenure -/

/-- Where nothing was held, only the last tenure counts. -/
theorem afterAll_rtakeWhile (notices : List Notice) :
    ({} : Holding).afterAll (notices.rtakeWhile fun notice ↦ !notice.ends) =
      ({} : Holding).afterAll notices := by
  induction notices using List.reverseRecOn with
  | nil => rfl
  | append_singleton notices notice ih =>
    by_cases hends : notice.ends = true
    · rw [List.rtakeWhile_concat_neg _ _ _ (by simp [hends]), afterAll_append]
      rcases notice with ⟨op, node⟩ | e
      · cases op with
        | added => cases hends
        | updated => cases hends
        | deleted => rfl
      · cases hends
    · rw [List.rtakeWhile_concat_pos _ _ _ (by simp [hends]), afterAll_append, afterAll_append, ih]

section

variable {notices : List Notice} (hkept : ∀ notice ∈ notices, notice.ends = false) (h : Holding)

include hkept

/-- **The capacity** is that of the last update, or else the one that was there, or else that of
the first addition. -/
theorem capacity_afterAll :
    (h.afterAll notices).account.map Account.capacity =
      ((reported .updated notices).getLast?.map fun node ↦ (Account.ofNode node).capacity).or
        ((h.account.map Account.capacity).or
          ((reported .added notices).head?.map fun node ↦ (Account.ofNode node).capacity)) := by
  induction notices generalizing h with
  | nil => simp [reported]
  | cons notice rest ih =>
    rw [afterAll_cons, ih fun notice hmem ↦ hkept notice (List.mem_cons_of_mem _ hmem)]
    rcases notice with ⟨op, node⟩ | e
    · cases op with
      | added =>
        cases haccount : h.account <;> simp [after, haccount, reported, Notice.nodeOf?]
      | updated =>
        -- the capacity that was there is replaced at once
        simp only [after, reported, Notice.nodeOf?, List.filterMap_cons, if_true,
          List.getLast?_cons, reduceCtorEq, if_false]
        cases (rest.filterMap (Notice.nodeOf? .updated)).getLast? <;> rfl
      | deleted => cases hkept _ List.mem_cons_self
    · simp [after, reported, Notice.nodeOf?, Function.comp_def]

/-- **A pool is kept** through the reports of its node, and what its pods ask of it is done. -/
theorem pool_afterAll_of_some {pool : Pool} (hpool : h.pool = some pool) :
    (h.afterAll notices).pool = some (pool.afterPods (notices.filterMap Notice.podEvent?)) := by
  induction notices generalizing h pool with
  | nil => exact hpool
  | cons notice rest ih =>
    have hrest := ih fun notice hmem ↦ hkept notice (List.mem_cons_of_mem _ hmem)
    rw [afterAll_cons]
    rcases notice with ⟨op, node⟩ | e
    · cases op with
      | added => exact hrest _ (by simp [after, hpool])
      | updated => exact hrest _ hpool
      | deleted => cases hkept _ List.mem_cons_self
    · exact hrest _ (by simp [after, hpool])

/-- There is a pool if there was one or if a node was added with a block that can be read. -/
theorem isSome_pool_afterAll :
    (h.afterAll notices).pool.isSome = true ↔
      h.pool.isSome = true ∨ ∃ node ∈ reported .added notices, node.pool?.isSome = true := by
  induction notices generalizing h with
  | nil => simp [reported]
  | cons notice rest ih =>
    rw [afterAll_cons, ih fun notice hmem ↦ hkept notice (List.mem_cons_of_mem _ hmem)]
    rcases notice with ⟨op, node⟩ | e
    · cases op with
      | added => simp [after, reported, Notice.nodeOf?, or_assoc]
      | updated => simp [after, reported, Notice.nodeOf?]
      | deleted => cases hkept _ List.mem_cons_self
    · simp [after, reported, Notice.nodeOf?]

end

end Holding

/-! ### Whole histories -/

namespace Agent

theorem ends_of_mem_tenure {name : String} {notices : List Notice} {notice : Notice}
    (h : notice ∈ tenure name notices) : notice.ends = false := by
  simpa using List.mem_rtakeWhile_imp h

variable {ε : Type} {host : Host Agent ε}

/-- What a new agent holds of a node after a run is what its tenure makes of nothing. -/
theorem holding_of_initial (h : host.Discreet) (world : ε) (settings : Settings)
    (clock : Timestamp) (notices : List Notice) (name : String) :
    holding name ((handleAll notices).run host world (.initial settings clock)).state =
      ({} : Holding).afterAll (tenure name notices) := by
  rw [holding_handleAll h, tenure, Holding.afterAll_rtakeWhile]
  rfl

/-- **The books of a node are settled by its history.** A new agent handles some events, and the
cluster answers its calls as it likes. Of a node count the events since it was deleted last.

* The node is tracked if it was added or updated, whatever block it declared.
* Its capacity is that of the last update, or else of the first addition.
* It has a pool if it was added with a block that can be read. The pool is the one of the first
  such addition, and it was asked since for what the pods of the node needed and gave back, and
  for nothing else.
* Where there is a pool, the node is tracked. -/
theorem books_of_tenure (h : host.Discreet) (world : ε) (settings : Settings) (clock : Timestamp)
    (notices : List Notice) (name : String) :
    let a := ((handleAll notices).run host world (.initial settings clock)).state
    let events := tenure name notices
    (a.ledger.contains name = true ↔
        reported .added events ≠ [] ∨ reported .updated events ≠ []) ∧
      (a.ledger.find? name).map Account.capacity =
        ((reported .updated events).getLast?.or (reported .added events).head?).map
          (fun node ↦ (Account.ofNode node).capacity) ∧
      ((poolAt name a).isSome = true ↔
        ∃ node ∈ reported .added events, node.pool?.isSome = true) ∧
      (∀ before node pool after, events = before ++ .node ⟨.added, node⟩ :: after →
        (∀ earlier ∈ reported .added before, earlier.pool? = none) →
        node.pool? = some pool →
        poolAt name a = some (pool.afterPods (after.filterMap Notice.podEvent?))) ∧
      ((poolAt name a).isSome = true → a.ledger.contains name = true) := by
  intro a events
  have hkept : ∀ notice ∈ events, notice.ends = false := fun _ ↦ ends_of_mem_tenure
  have hheld := holding_of_initial h world settings clock notices name
  have hledger : a.ledger.find? name = (({} : Holding).afterAll events).account :=
    congrArg Holding.account hheld
  have hpool : poolAt name a = (({} : Holding).afterAll events).pool :=
    congrArg Holding.pool hheld
  have hcapacity : (a.ledger.find? name).map Account.capacity =
      ((reported .updated events).getLast?.or (reported .added events).head?).map
        (fun node ↦ (Account.ofNode node).capacity) := by
    rw [hledger, Holding.capacity_afterAll hkept, Option.map_or]
    rfl
  have htracked : a.ledger.contains name = true ↔
      reported .added events ≠ [] ∨ reported .updated events ≠ [] := by
    have hsome := congrArg Option.isSome hcapacity
    simp only [Option.isSome_map, Option.isSome_or] at hsome
    rw [Table.contains, hsome, Bool.or_eq_true, List.getLast?_isSome, List.isSome_head?]
    exact or_comm
  have hhas : (poolAt name a).isSome = true ↔
      ∃ node ∈ reported .added events, node.pool?.isSome = true := by
    rw [hpool, Holding.isSome_pool_afterAll hkept]
    simp
  refine ⟨htracked, hcapacity, hhas, fun before node pool after hsplit hearlier hparsed ↦ ?_,
    fun hsome ↦ ?_⟩
  · rw [hpool]
    rw [hsplit] at hkept ⊢
    rw [Holding.afterAll_append, Holding.afterAll_cons]
    have hnone : (({} : Holding).afterAll before).pool = none := by
      rw [← Option.not_isSome_iff_eq_none, Holding.isSome_pool_afterAll fun notice hmem ↦
        hkept notice (List.mem_append_left _ hmem)]
      rintro (hsome | ⟨earlier, hmem, hsome⟩)
      · cases hsome
      · rw [hearlier earlier hmem] at hsome
        cases hsome
    refine Holding.pool_afterAll_of_some (fun notice hmem ↦ hkept notice ?_) _ ?_
    · exact List.mem_append_right _ (List.mem_cons_of_mem _ hmem)
    · rw [Holding.after, hnone, hparsed, Option.none_or]
  · obtain ⟨node, hmem, -⟩ := hhas.1 hsome
    exact htracked.2 (.inl (List.ne_nil_of_mem hmem))

/-- A node comes with a block that cannot be read, then with one that can, gets a pod, and comes
with another block. -/
def movingBlocks : List Notice :=
  let withBlock (block : String) : Node :=
    { nodeWithBlock with spec := some { podCIDR := some block } }
  [.node ⟨.added, withBlock "here"⟩, .node ⟨.added, nodeWithBlock⟩,
    .pod ⟨.added, podWith "web" none⟩, .node ⟨.added, withBlock "10.244.9.0/24"⟩]

/-- The pool is that of the second addition, with the pod's address in use, whether the cluster
answers or not. -/
theorem books_of_movingBlocks :
    let a := ((handleAll movingBlocks).run (answering fun _ ↦ .error .unanswered) ()
      (.initial {} ⟨0, false⟩)).state
    a.ledger.contains "mock-node-0" = true ∧
      poolAt "mock-node-0" a = some (newPool.handOut 1).2 := by
  intro a
  obtain ⟨-, -, -, hpool, htracked⟩ := books_of_tenure
    (prompt_answering fun _ ↦ .error .unanswered).discreet () {} ⟨0, false⟩ movingBlocks
    "mock-node-0"
  have hbuilt := hpool (movingBlocks.take 1) nodeWithBlock newPool (movingBlocks.drop 2)
    (by decide +kernel) (by decide +kernel) (by decide +kernel)
  exact ⟨htracked (by rw [hbuilt]; rfl), by rw [hbuilt]; decide +kernel⟩

end Agent

end HollowFleet
