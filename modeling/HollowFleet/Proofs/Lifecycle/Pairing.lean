import HollowFleet.Proofs.Lifecycle.Pools
import Mathlib.Data.Finset.Option

/-!
# Addresses of reported pods

A pod is reported once as added, some times as updated and once as deleted. Every report but the
last starts it, with the address that the report shows or else with a new one of its node's
pool; the last one hands back the address that it shows. The agent itself remembers nothing of
the pod. So the pool ends as it began exactly if what it handed out to the pod is what the last
report shows, and that was not in use before (`pool_restored_iff`).

## What the main theorem rests on

* `ensures_handlePod` says what the handling of a report does to the pool of a node: it is that of a
  start or a stop, whatever the cluster answers and also if it never does. The check whether the pod
  fits and the charge that follows are none of the pool's business.
* By `poolAt_dispatch` the pool after the reports is that after a run of acts on pools, with no host
  left in the statement.
* The reports that are not the last take hosts and give none back (`Act.foldl_effect_start`), so
  what is in use after them is what was in use before and what was handed out since. The last report
  gives back one host at most (`Act.used_effect_stop`).
* The condition is then about sets: what comes and goes leaves a set as it was exactly if all that
  comes goes and nothing else does (`union_sdiff_eq_self_iff`).
-/

namespace HollowFleet

open Agent Watch

/-- What the report of a pod does to the pools. -/
def Act.ofReport (e : Event Pod) : Act :=
  match e.op with
  | .added => .start .reported e.object
  | .updated => .start .reported e.object
  | .deleted => .stop .reported e.object

namespace Agent

variable {ε : Type}

/-! ### Reports -/

/-- Accounts have nothing to do with pools. -/
theorem keeps_chargePod (node : String) (pod : Pod) (w : Fault → Warning) :
    Task.Keeps (poolAt node) ((chargePod pod).orWarn w) := by
  refine .orWarn (fun _ _ ↦ rfl) (fun s ↦ Task.Ensures.action_get_bind ?_) w
  cases s.ledger.charge pod with
  | ok ledger => exact Task.Ensures.modify_bind (.pure rfl)
  | error fault => exact .pure rfl

/-- Whether a pod fits is told at once, at most with a warning. -/
theorem fits_eq_done {τ : Type} {view : Agent → τ} (hwarn : ∀ a w, view (Agent.warn a w) = view a)
    (pod : Pod) (s : Agent) :
    ∃ s' fitting, fits pod s = .done s' fitting ∧ view s' = view s := by
  simp only [fits, bind, Task.bind, Task.get, Progress.bind]
  cases s.ledger.accountOf? pod with
  | none => exact ⟨s, false, rfl, rfl⟩
  | some found =>
    cases Amounts.ofPod pod with
    | ok needed => exact ⟨s, found.2.fits needed, rfl, rfl⟩
    | error fault => exact ⟨s.warn (.unreadableRequests fault), false, rfl, hwarn s _⟩

/-- What comes after the check may rely on nothing but a pool that is the same as before. -/
theorem ensures_fits_bind {τ : Type} {view : Agent → τ}
    (hwarn : ∀ a w, view (Agent.warn a w) = view a) {pod : Pod} {s : Agent} {α : Type}
    {next : Bool → Task Agent α} {post : τ → Option α → Prop}
    (h : ∀ s' fitting, view s' = view s → Task.Ensures view (next fitting) s' post) :
    Task.Ensures view (fits pod >>= next) s post := by
  obtain ⟨s', fitting, hdone, hs'⟩ := fits_eq_done hwarn pod s
  intro ε host world hhost
  have hrun : (fits pod >>= next).run host world s = (next fitting).run host world s' :=
    congrArg (fun p ↦ (p.bind next).follow host world) hdone
  rw [hrun]
  exact h s' fitting hs' ε host world hhost

/-- **What the report of a pod does to the pool of a node** is to start or to stop the pod. -/
theorem ensures_handlePod (node : String) (e : Event Pod) (s : Agent) :
    Task.Ensures (poolAt node) (handlePod e) s
      fun slot _ ↦ slot = (Act.ofReport e).effect node (poolAt node s) := by
  obtain ⟨op, pod⟩ := e
  have hstart : ∀ s, Task.Ensures (poolAt node) (handlePod ⟨.updated, pod⟩) s
      fun slot _ ↦ slot = (Act.start .reported pod).effect node (poolAt node s) := fun s ↦
    (ensures_perform node (.start .reported pod) s).andThen fun _ ↦ keeps_chargePod node pod _
  cases op with
  | added =>
    -- whether the pod fits is only a matter of a warning before it is started
    refine ensures_fits_bind (fun _ _ ↦ rfl) fun s' fitting hs' ↦ ?_
    rw [← hs']
    cases fitting with
    | true => exact hstart s'
    | false => exact Task.Ensures.modify_bind (hstart (s'.warn .overcommitted))
  | updated => exact hstart s
  | deleted =>
    exact (ensures_perform node (.stop .reported pod) s).andThen fun _ ↦ .modify fun _ ↦ rfl

/-- The agent after some reports. -/
def dispatch (host : Host Agent ε) (world : ε) (a : Agent) (events : List (Event Pod)) : Agent :=
  (Task.runAll host world a (events.map handlePod)).1

/-- The pool after some reports is that after the acts that they amount to. -/
theorem poolAt_dispatch {host : Host Agent ε} (hhost : host.Keeps Agent.pools) (world : ε)
    (a : Agent) (events : List (Event Pod)) (node : String) :
    poolAt node (dispatch host world a events) =
      (events.map Act.ofReport).foldl (Act.effect node) (poolAt node a) := by
  rw [List.foldl_map]
  exact Task.view_runAll (fun e s ↦ ensures_handlePod node e s) (hhost.part fun t ↦ t.find? node)
    world a events

/-! ### One pod, from its first report to its last -/

/-- The reports of a pod that is there: it is added and then updated. -/
def reportsOf (first : Pod) (updates : List Pod) : List (Event Pod) :=
  ⟨.added, first⟩ :: updates.map fun pod ↦ ⟨.updated, pod⟩

/-- Reports of a pod that is there are starts to its node's pool. -/
theorem ofReport_reportsOf (first : Pod) (updates : List Pod) :
    (reportsOf first updates).map Act.ofReport = (first :: updates).map (Act.start .reported) := by
  simp [reportsOf, Act.ofReport]

end Agent

/-- A stop gives back the host whose address the pod reports, and nothing else. -/
theorem Act.used_effect_stop {node : String} {pod : Pod} (hnode : pod.node? = some node)
    (why : Occasion) (p : Pool) :
    ∃ left, (stop why pod).effect node (some p) = some left ∧
      left.used.toFinset = p.used.toFinset \ (p.block.hostOf? pod).toFinset := by
  refine ⟨_, rfl, ?_⟩
  simp only [request?, hnode, if_true, Block.hostOf?]
  cases pod.address? with
  | none => simp
  | some ip =>
    obtain ⟨-, hused, -⟩ := p.serve_refines (.release ip)
    rw [Option.map_some, Pool.asked, ← hused, Block.serve]
    cases hhost : p.block.host ip with
    | error fault => simp [hhost, Except.toOption]
    | ok n => simp [hhost, Except.toOption, Finset.sdiff_singleton_eq_erase]

/-- What comes and goes leaves a set as it was if all that comes goes, and nothing else does. -/
theorem union_sdiff_eq_self_iff {used taken returned : Finset ℕ} (h : Disjoint used taken) :
    (used ∪ taken) \ returned = used ↔ taken ⊆ returned ∧ Disjoint returned used := by
  constructor
  · intro heq
    refine ⟨fun n hn ↦ ?_, Finset.disjoint_right.2 fun n hn ↦ ?_⟩
    · by_contra hkept
      have hused : n ∈ used := heq ▸ Finset.mem_sdiff.2 ⟨Finset.mem_union_right _ hn, hkept⟩
      exact Finset.disjoint_left.1 h hused hn
    · rw [← heq] at hn
      exact (Finset.mem_sdiff.1 hn).2
  · rintro ⟨hall, hother⟩
    rw [Finset.union_sdiff_distrib, Finset.sdiff_eq_empty_iff_subset.2 hall, Finset.union_empty,
      Finset.sdiff_eq_self_of_disjoint hother.symm]

namespace Agent

variable {ε : Type}

/-- **What a pod leaves of its node's pool.** A pod is reported as added, some times as updated,
and once as deleted. Each of the former reports that shows no address takes another host from
the pool, as long as there are any; the last one gives back the host whose address it shows. So
the same hosts are in use as before exactly if every host that was taken is the one that is
given back, and that was not in use before. -/
theorem pool_restored_iff (host : Host Agent ε) (hhost : host.Keeps Agent.pools) (world : ε)
    (settings : Settings) (clock : Timestamp) (history : List Act) (node : String) (pool : Pool)
    (hpool : poolAt node (simulate host world (.initial settings clock) history) = some pool)
    (first : Pod) (updates : List Pod) (last : Pod)
    (hnodes : ∀ pod ∈ first :: updates, pod.node? = some node) (hlast : last.node? = some node) :
    let after (events : List (Event Pod)) : Option Pool :=
      poolAt node
        (dispatch host world (simulate host world (.initial settings clock) history) events)
    let times := (first :: updates).countP fun pod ↦ pod.address? = none
    let taken := (pool.handOut times).1
    let returned := pool.block.hostOf? last
    (∃ mid, after (reportsOf first updates) = some mid ∧ pool.Supplies times taken mid) ∧
      ∃ left, after (reportsOf first updates ++ [⟨.deleted, last⟩]) = some left ∧
        left.used.toFinset = (pool.used.toFinset ∪ taken.toFinset) \ returned.toFinset ∧
        (left.used.toFinset = pool.used.toFinset ↔
          (∀ n ∈ taken, returned = some n) ∧ ∀ n ∈ returned, n ∉ pool.used) := by
  intro after times taken returned
  have hsupplies : pool.Supplies times taken (pool.handOut times).2 := pool.supplies_handOut times
  have hmid : after (reportsOf first updates) = some (pool.handOut times).2 := by
    show poolAt node (dispatch ..) = _
    rw [poolAt_dispatch hhost, hpool, ofReport_reportsOf, Act.foldl_effect_start hnodes]
  obtain ⟨left, hleft, hused⟩ :=
    Act.used_effect_stop hlast .reported (pool.handOut times).2
  rw [hsupplies.used, hsupplies.block] at hused
  refine ⟨⟨_, hmid, hsupplies⟩, left, ?_, hused, ?_⟩
  · -- the last report comes to the pool that the others left
    have hconcat : after (reportsOf first updates ++ [⟨.deleted, last⟩]) =
        (Act.stop .reported last).effect node (after (reportsOf first updates)) := by
      simp only [after, poolAt_dispatch hhost, List.map_append, List.foldl_append]
      rfl
    rw [hconcat, hmid, hleft]
  · rw [hused, union_sdiff_eq_self_iff hsupplies.fresh]
    simp only [Finset.subset_iff, Finset.disjoint_left, Option.mem_toFinset, List.mem_toFinset,
      Option.mem_def]
    exact Iff.rfl

/-! ### Reports that come late -/

/-- The reports show what the cluster may have known: the status with which the pod came, or one
that was written on an earlier report. -/
def Reported (host : Host Agent ε) (world : ε) (a : Agent) (first : Pod)
    (events : List (Event Pod)) : Prop :=
  ∀ past e rest, events = past ++ e :: rest → e.object.status = first.status ∨
    ∃ before e' later, past = before ++ e' :: later ∧ e'.op ≠ .deleted ∧
      e.object.status = ((dispatch host world a before).started e'.object).2.status

/-- An agent with a pool. -/
def withPool : Agent := simulate obliging () (.initial {} ⟨0, false⟩) [.add nodeWithBlock]

/-- A pod as it is written on its first report. -/
def writtenFirst : Pod := (withPool.started (podWith "web" none)).2

/-- A pod that shows its address from the second report on leaves the pool as it was. -/
theorem pool_restored_of_shown :
    ∃ left, poolAt "mock-node-0" (dispatch obliging () withPool
        (reportsOf (podWith "web" none) [writtenFirst] ++ [⟨.deleted, writtenFirst⟩])) = some left ∧
      left.used.toFinset = newPool.used.toFinset := by
  have h := pool_restored_iff obliging keeps_pools_obliging () {} ⟨0, false⟩ [.add nodeWithBlock]
    "mock-node-0" newPool (by decide +kernel) (podWith "web" none) [writtenFirst] writtenFirst
    (by decide +kernel) (by decide +kernel)
  obtain ⟨-, left, hleft, -, hiff⟩ := h
  exact ⟨left, hleft, hiff.2 (by decide +kernel)⟩

/-- A pod as it is written on its second report, if that one came too late to show what was
written on the first. -/
def writtenSecond : Pod :=
  ((dispatch obliging () withPool [⟨.added, podWith "web" none⟩]).started (podWith "web" none)).2

/-- The late reports show what the cluster may have known at their time. -/
theorem reported_writtenSecond :
    Reported obliging () withPool (podWith "web" none)
      (reportsOf (podWith "web" none) [podWith "web" none] ++ [⟨.deleted, writtenSecond⟩]) := by
  intro past e rest heq
  rcases past with - | ⟨e₁, - | ⟨e₂, - | ⟨e₃, past⟩⟩⟩
  · obtain ⟨rfl, -⟩ := List.cons.inj heq
    exact .inl rfl
  · obtain ⟨-, hrest⟩ := List.cons.inj heq
    obtain ⟨rfl, -⟩ := List.cons.inj hrest
    exact .inl rfl
  · obtain ⟨rfl, hrest⟩ := List.cons.inj heq
    obtain ⟨rfl, hlast⟩ := List.cons.inj hrest
    obtain ⟨rfl, -⟩ := List.cons.inj hlast
    exact .inr ⟨[⟨.added, podWith "web" none⟩], _, [], rfl, nofun, rfl⟩
  · simp [reportsOf] at heq

/-- **A pod can leave an address in use**: a report that came late takes a second one, and only
the second one is given back. -/
theorem not_pool_restored :
    ¬ ∀ (host : Host Agent Unit), host.Keeps Agent.pools → ∀ (settings : Settings)
      (clock : Timestamp) (history : List Act) (node : String) (pool : Pool),
      poolAt node (simulate host () (.initial settings clock) history) = some pool →
      ∀ (first : Pod) (updates : List Pod) (last : Pod),
      (∀ pod ∈ first :: updates ++ [last], pod.node? = some node ∧ pod.key = first.key) →
      Reported host () (simulate host () (.initial settings clock) history) first
        (reportsOf first updates ++ [⟨.deleted, last⟩]) →
      ∀ left, poolAt node (dispatch host () (simulate host () (.initial settings clock) history)
        (reportsOf first updates ++ [⟨.deleted, last⟩])) = some left →
        left.used.toFinset = pool.used.toFinset := by
  intro h
  have hstuck : poolAt "mock-node-0" (dispatch obliging () withPool
      (reportsOf (podWith "web" none) [podWith "web" none] ++ [⟨.deleted, writtenSecond⟩])) =
        some ((newPool.handOut 2).2.putBack 2) := by
    decide +kernel
  have hrestored := h obliging keeps_pools_obliging {} ⟨0, false⟩ [.add nodeWithBlock]
    "mock-node-0" newPool (by decide +kernel) (podWith "web" none) [podWith "web" none]
    writtenSecond (by decide +kernel) reported_writtenSecond _ hstuck
  revert hrestored
  decide

end Agent

end HollowFleet
