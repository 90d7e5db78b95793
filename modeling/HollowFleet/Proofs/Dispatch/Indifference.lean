import HollowFleet.Proofs.Dispatch.Handling
import HollowFleet.Proofs.Lifecycle.Queues
import HollowFleet.Proofs.Lifecycle.Retries

/-!
# Failures of the cluster leave no trace in the books

An agent handles events and sees to the pods that it queued. Two clusters may answer its calls
differently, so it makes different calls and queues different pods: a pod as it was started, or
as it is to be started again. But these agree in the node that they are bound to and in the
address that they show, which is all that the pools ask of a pod (`slip_entryAfterStart`). So two
agents that agree in their accounts and pools, and pod by pod in what is queued, still do so
after any job (`Alike.run_work`), and the accounts and pools after a run of jobs are the same
whatever the clusters answer (`bookkeeping_eq`).

## What the main theorem rests on

* `Agent.Alike` is the relation: equal accounts, equal pools, and queues whose pods have the same
  slips in the same order. It says nothing of statuses and nothing of the clock, which do differ.
* For an event, both agents are asked to do the same, and what each submits has the slip of the pod
  as it settled it (`queues_handlePod`); agents that are alike settle it alike
  (`Alike.slip_settled`).
* For a queued pod, the two pods have one slip, so they ask one thing of the pools
  (`effect_actOf_congr`), and neither is queued again (`tame_drain`).
* `Alike.run_toil` is the induction on the jobs. The hosts let nobody else work on the agent
  meanwhile (`Host.Prompt`); what happens in between is then some job before or after.
-/

namespace HollowFleet

open Agent Watch

/-- What of a pod matters to the pools: its node, and the address that it reports. -/
def Pod.slip (pod : Pod) : Option String × Option String := (pod.node?, pod.address?)

namespace Agent

/-- What a start leaves of the slip: the address that the pod has, or else the next one of its
node's pool. -/
theorem slip_started_eq (a : Agent) (pod : Pod) :
    (a.started pod).2.slip = (pod.node?, pod.address?.or
      ((pod.node?.bind fun node ↦ poolAt node a).bind fun pool ↦
        pool.take?.map fun handed ↦ (pool.block.address handed.1).text)) := by
  rw [Pod.slip, address?_started_eq]
  rfl

/-- A stopped pod is still on its node, without an address. -/
theorem slip_stopped (a : Agent) (pod : Pod) : (a.stopped pod).2.slip = (pod.node?, none) := rfl

/-- What is queued after a start has the node and the address of the started pod, also if it is
to be started again. -/
theorem slip_entryAfterStart (a : Agent) (pod : Pod) (result : Except Fault Unit) :
    (entryAfterStart pod (a.started pod).2 result).slip = (a.started pod).2.slip := by
  have hretry : (retryEntry pod (a.started pod).2).slip = (a.started pod).2.slip := by
    cases haddress : (a.started pod).2.address? with
    | some ip =>
      rw [Pod.slip, Pod.slip, address?_retryEntry haddress, haddress, retryEntry_of_some haddress]
      rfl
    | none =>
      -- a pod that has no address after the start had none before
      have hbefore : pod.address? = none := by
        rw [address?_started_eq] at haddress
        exact (Option.or_eq_none_iff.1 haddress).1
      rw [retryEntry_of_none haddress, Pod.slip, Pod.slip, hbefore, haddress]
      rfl
  cases result with
  | ok => rfl
  | error fault =>
    rw [entryAfterStart]
    split
    · exact hretry
    · rfl

end Agent

/-! ### Hosts that let nothing happen meanwhile -/

/-- The queues after a pod was submitted: open ones take it, closed ones do not. -/
def Queues.placed (q : Queues) (lane : Lane) (pod : Pod) : Queues :=
  if q.service = .closed then q else q.push lane pod

variable {ε : Type}

/-- A host answers every call, one way or another, and settles every submission at once. Time
may go by, but nobody else works on the agent meanwhile. -/
structure Host.Prompt (host : Host Agent ε) : Prop where
  /-- Every call is answered. -/
  call : ∀ world (a : Agent) c, ∃ clock world' r,
    host.call world a c = .resumed { a with clock } world' r
  /-- A queue takes every pod unless it is closed. -/
  submit : ∀ world (a : Agent) lane pod, ∃ clock world',
    host.submit world a lane pod = .resumed { a with clock, queues := a.queues.placed lane pod }
      world' (decide (a.queues.service ≠ .closed))

namespace Host.Prompt

variable {host : Host Agent ε}

theorem answers (h : host.Prompt) : host.Answers where
  call world a c := by
    obtain ⟨clock, world', r, hcall⟩ := h.call world a c
    exact ⟨_, world', r, hcall⟩
  submit world a lane pod := by
    obtain ⟨clock, world', hsubmit⟩ := h.submit world a lane pod
    exact ⟨_, world', _, hsubmit⟩

/-- A host that lets nothing happen meanwhile keeps all but the clock and the queues. -/
theorem keeps {τ : Type} {view : Agent → τ} (h : host.Prompt)
    (hview : ∀ (a : Agent) clock queues, view { a with clock, queues } = view a) :
    host.Keeps view where
  call world a c := by
    obtain ⟨clock, world', r, hcall⟩ := h.call world a c
    rw [hcall]
    exact hview a clock a.queues
  submit world a lane pod := by
    obtain ⟨clock, world', hsubmit⟩ := h.submit world a lane pod
    rw [hsubmit]
    exact hview a clock _

theorem keeps_ledger (h : host.Prompt) : host.Keeps Agent.ledger := h.keeps fun _ _ _ ↦ rfl

theorem keeps_poolAt (h : host.Prompt) (node : String) : host.Keeps (poolAt node) :=
  h.keeps fun _ _ _ ↦ rfl

/-! ### What is queued -/

/-- A task that submits nothing leaves the queues as they are. -/
theorem queues_of_tame {α : Type} {t : Task Agent α} {post : α → Prop} {s : Agent}
    (h : host.Prompt) (ht : t.Tame Agent.queues (fun _ _ ↦ False) post s) (world : ε) :
    (t.run host world s).state.queues = s.queues := by
  have htree : ∀ (p : Progress Agent α) (world : ε),
      p.Tame Agent.queues (fun _ _ ↦ False) post →
        (p.follow host world).state.queues = p.state.queues := by
    intro p
    induction p with
    | done s a => exact fun _ _ ↦ rfl
    | call s c resume ih =>
      intro world hp
      obtain ⟨clock, world', r, hcall⟩ := h.call world s c
      obtain ⟨hqueues, htame⟩ := hp { s with clock } r
      rw [Progress.follow, hcall]
      exact (ih _ r world' htame).trans hqueues
    | submit s lane pod resume ih => exact fun _ hp ↦ hp.1.elim
  exact (htree (t s) world ht.2).trans ht.1

/-- A submission, and what follows it, place the pod. -/
theorem queues_enqueue_then (h : host.Prompt) (world : ε) (s : Agent) (lane : Lane) (pod : Pod)
    (result : Except Fault Unit) :
    ((enqueue lane pod >>= fun _ ↦ ExceptT.mk (pure result) : Action Unit).run.run host world
      s).state.queues = s.queues.placed lane pod := by
  obtain ⟨clock, world', hsubmit⟩ := h.submit world s lane pod
  show (Progress.follow host world (.submit s lane pod _)).state.queues = _
  rw [Progress.follow, hsubmit]
  cases decide (s.queues.service ≠ .closed) <;> rfl

/-- A pod is settled, and what is made of it is submitted. -/
theorem queues_settled_then (h : host.Prompt) (world : ε) {s : Agent}
    {task : Task Agent (Pod × Except Fault Unit)} {settled : Agent × Pod}
    {post : Pod × Except Fault Unit → Prop}
    (htask : Task.Ensures Agent.ledger task s fun ledger result ↦
      ledger = settled.1.ledger ∧ ∀ outcome ∈ result, outcome.1 = settled.2)
    (htame : task.Tame Agent.queues (fun _ _ ↦ False) post s) (lane : Lane)
    (entry : Pod → Except Fault Unit → Pod) :
    ∃ result, ((Action.lift task >>= fun outcome ↦ enqueue lane (entry outcome.1 outcome.2) >>=
        fun _ ↦ ExceptT.mk (pure outcome.2) : Action Unit).run.run host world s).state.queues =
      s.queues.placed lane (entry settled.2 result) := by
  rw [Task.run_lift_bind]
  obtain ⟨outcome, houtcome, hbind⟩ := h.answers.run_bind world s task fun outcome ↦
    (enqueue lane (entry outcome.1 outcome.2) >>=
      fun _ ↦ ExceptT.mk (pure outcome.2) : Action Unit).run
  have hsettled := (htask ε host world h.keeps_ledger).2 outcome houtcome
  refine ⟨outcome.2, ?_⟩
  rw [hbind, h.queues_enqueue_then, h.queues_of_tame htame, hsettled]

/-- **What is queued for a reported pod** is the pod as it was settled, or at least a pod with
its node and address. -/
theorem queues_accept (h : host.Prompt) (world : ε) (s : Agent) (pod : Pod) :
    ∃ entry : Pod, entry.slip = (s.started pod).2.slip ∧
      ((accept pod).run.run host world s).state.queues = s.queues.placed .start entry := by
  obtain ⟨result, hqueues⟩ := h.queues_settled_then world
    (ensures_settled_startPod Agent.ledger pod s) (tame_startPod pod) .start (entryAfterStart pod)
  exact ⟨_, slip_entryAfterStart s pod result, hqueues⟩

/-- What is queued for a pod that is gone is the pod as it was stopped. -/
theorem queues_retire (h : host.Prompt) (world : ε) (s : Agent) (pod : Pod) :
    ∃ entry : Pod, entry.slip = (s.stopped pod).2.slip ∧
      ((retire pod).run.run host world s).state.queues = s.queues.placed .stop entry := by
  obtain ⟨_, hqueues⟩ := h.queues_settled_then world
    (ensures_settled_stopPod Agent.ledger pod s) (tame_stopPod pod) .stop fun stopped _ ↦ stopped
  exact ⟨_, rfl, hqueues⟩

end Host.Prompt

namespace Agent

/-- The pod of an event as it is settled. -/
def settled (a : Agent) (e : Event Pod) : Pod :=
  if e.op = .deleted then (a.stopped e.object).2 else (a.started e.object).2

/-- The queue that the pod of an event goes to. -/
def laneOf (e : Event Pod) : Lane := if e.op = .deleted then .stop else .start

end Agent

namespace Host.Prompt

variable {host : Host Agent ε}

theorem queues_handleNode (h : host.Prompt) (world : ε) (s : Agent) (e : Event Node) :
    ((handleNode e).run host world s).state.queues = s.queues :=
  h.queues_of_tame (tame_handleNode e) world

/-- The event of a pod queues one entry, with the slip of the pod as it is settled. -/
theorem queues_handlePod (h : host.Prompt) (world : ε) (s : Agent) (e : Event Pod) :
    ∃ entry : Pod, entry.slip = (s.settled e).slip ∧
      ((handlePod e).run host world s).state.queues = s.queues.placed (laneOf e) entry := by
  obtain ⟨op, pod⟩ := e
  have hwarn : ∀ (a : Agent) w, (a.warn w).queues = a.queues := fun _ _ ↦ rfl
  have hstart : ∀ (world : ε) (s : Agent), ∃ entry : Pod, entry.slip = (s.started pod).2.slip ∧
      ((handlePod ⟨.updated, pod⟩).run host world s).state.queues =
        s.queues.placed .start entry := by
    intro world s
    obtain ⟨entry, hentry, hqueues⟩ := h.queues_accept world s pod
    refine ⟨entry, hentry, ?_⟩
    obtain ⟨u, -, hbind⟩ := h.answers.run_bind world s ((accept pod).orWarn .startFailed)
      fun _ ↦ (chargePod pod).orWarn .chargeFailed
    show (((accept pod).orWarn .startFailed >>= _).run host world s).state.queues = _
    rw [hbind, h.queues_of_tame (tame_chargePod pod _), Task.view_run_orWarn hwarn, hqueues]
  cases op with
  | added =>
    -- at most two warnings come before the start
    let view (a : Agent) := ((a.started pod).2.slip, a.queues)
    have hview : ∀ a w, view (Agent.warn a w) = view a := fun a w ↦ by
      simp only [view, slip_started_eq]
      rfl
    obtain ⟨s', fitting, hdone, hs'⟩ := fits_eq_done hview pod s
    have hrun : (handlePod ⟨.added, pod⟩).run host world s = (handlePod ⟨.updated, pod⟩).run host
        world (if fitting then s' else s'.warn .overcommitted) := by
      show ((fits pod s).bind _).follow host world = _
      rw [hdone]
      cases fitting <;> rfl
    have hafter : view (if fitting then s' else s'.warn .overcommitted) = view s := by
      split
      · exact hs'
      · rw [hview, hs']
    obtain ⟨hslip, hqueues⟩ := Prod.mk.inj hafter
    obtain ⟨entry, hentry, hplaced⟩ := hstart world (if fitting then s' else s'.warn .overcommitted)
    exact ⟨entry, hentry.trans hslip, by rw [hrun, hplaced, hqueues]; rfl⟩
  | updated => exact hstart world s
  | deleted =>
    obtain ⟨entry, hentry, hqueues⟩ := h.queues_retire world s pod
    refine ⟨entry, hentry, ?_⟩
    obtain ⟨u, -, hbind⟩ := h.answers.run_bind world s ((retire pod).orWarn .stopFailed)
      fun _ ↦ dischargePod pod
    show (((retire pod).orWarn .stopFailed >>= _).run host world s).state.queues = _
    rw [hbind]
    show _ = s.queues.placed .stop entry
    rw [← hqueues, ← Task.view_run_orWarn hwarn host world s _ .stopFailed]
    rfl

end Host.Prompt

/-! ### Agents that agree -/

/-- Two queues hold pods of the same nodes and addresses, in the same order. -/
structure Queues.Alike (q q' : Queues) : Prop where
  /-- What waits agrees pod by pod. -/
  waiting : ∀ lane, (q.lane lane).map Pod.slip = (q'.lane lane).map Pod.slip
  /-- They are served by the same kind of worker. -/
  service : q.service = q'.service

namespace Queues

theorem lane_push (q : Queues) (lane lane' : Lane) (pod : Pod) :
    (q.push lane pod).lane lane' = q.lane lane' ++ if lane = lane' then [pod] else [] := by
  cases lane <;> cases lane' <;> simp [push, Queues.lane]

/-- To place pods of one slip keeps queues alike, also where a closed queue turns both down. -/
theorem Alike.placed {q q' : Queues} (h : q.Alike q') {pod pod' : Pod}
    (hslip : pod.slip = pod'.slip) (lane : Lane) :
    (q.placed lane pod).Alike (q'.placed lane pod') := by
  have hpush : (q.push lane pod).Alike (q'.push lane pod') := by
    refine ⟨fun lane' ↦ ?_, ?_⟩
    · rw [lane_push, lane_push, List.map_append, List.map_append, h.waiting]
      split <;> simp [hslip]
    · cases lane <;> exact h.service
  rw [Queues.placed, Queues.placed, h.service]
  split
  · exact h
  · exact hpush

/-- The queues with one of them replaced. -/
def withLane (q : Queues) (lane : Lane) (pods : List Pod) : Queues :=
  match lane with
  | .start => { q with starts := pods }
  | .stop => { q with stops := pods }

theorem lane_withLane (q : Queues) (lane lane' : Lane) (pods : List Pod) :
    (q.withLane lane pods).lane lane' = if lane = lane' then pods else q.lane lane' := by
  cases lane <;> cases lane' <;> rfl

/-- To take a pod off a queue is to look at the first one and leave the others. -/
theorem pop?_eq (q : Queues) (lane : Lane) :
    q.pop? lane = (q.lane lane).head?.map fun pod ↦ (pod, q.withLane lane (q.lane lane).tail) := by
  cases lane with
  | start => cases hstarts : q.starts <;> simp [pop?, Queues.lane, withLane, hstarts]
  | stop => cases hstops : q.stops <;> simp [pop?, Queues.lane, withLane, hstops]

theorem Alike.withLane {q q' : Queues} (h : q.Alike q') (lane : Lane) {pods pods' : List Pod}
    (hpods : pods.map Pod.slip = pods'.map Pod.slip) :
    (q.withLane lane pods).Alike (q'.withLane lane pods') where
  waiting lane' := by
    rw [lane_withLane, lane_withLane]
    split
    · exact hpods
    · exact h.waiting lane'
  service := by cases lane <;> exact h.service

end Queues

namespace Agent

/-- Two agents agree in their books, their pools and, as far as it matters to the pools, in what
they have queued. -/
structure Alike (a b : Agent) : Prop where
  /-- The accounts are the same. -/
  ledger : a.ledger = b.ledger
  /-- The pools are the same. -/
  pool : ∀ node, poolAt node a = poolAt node b
  /-- The queues agree. -/
  queues : a.queues.Alike b.queues

theorem Alike.refl (a : Agent) : a.Alike a := ⟨rfl, fun _ ↦ rfl, fun _ ↦ rfl, rfl⟩

/-- Pods of one node and address are started alike. -/
theorem Alike.slip_started {a b : Agent} (h : a.Alike b) {pod pod' : Pod}
    (hslip : pod.slip = pod'.slip) : (a.started pod).2.slip = (b.started pod').2.slip := by
  obtain ⟨hnode, haddress⟩ := Prod.mk.inj hslip
  have hpool : (fun node ↦ poolAt node a) = fun node ↦ poolAt node b := funext h.pool
  rw [slip_started_eq, slip_started_eq, hnode, haddress, hpool]

theorem Alike.slip_settled {a b : Agent} (h : a.Alike b) (e : Event Pod) :
    (a.settled e).slip = (b.settled e).slip := by
  rw [settled, settled]
  split
  · rw [slip_stopped, slip_stopped]
  · exact h.slip_started rfl

/-! ### Jobs -/

/-- A job of the agent. -/
inductive Job where
  /-- An event is handled. -/
  | event (notice : Notice)
  /-- The oldest pod of a queue is seen to, if there is one. -/
  | entry (lane : Lane)

/-- Does a job. -/
def work : Job → Task Agent Unit
  | .event notice => handle notice
  | .entry lane => do
    let agent ← Task.get
    match agent.takeEntry? lane with
    | none => return ()
    | some (pod, rest) =>
      Task.modify fun _ ↦ rest
      drain lane pod

/-- What a pod of a queue does to the pools. -/
def actOf (lane : Lane) (pod : Pod) : Act :=
  match lane with
  | .start => .start .queued pod
  | .stop => .stop .queued pod

/-- To the pools, pods of one node and address are the same. -/
theorem effect_actOf_congr {pod pod' : Pod} (hslip : pod.slip = pod'.slip) (lane : Lane)
    (node : String) (slot : Option Pool) :
    (actOf lane pod).effect node slot = (actOf lane pod').effect node slot := by
  obtain ⟨hnode, haddress⟩ := Prod.mk.inj hslip
  cases lane <;> simp only [actOf, Act.effect, Act.request?, hnode, haddress]

variable {ε₁ ε₂ : Type} {host₁ : Host Agent ε₁} {host₂ : Host Agent ε₂} {a b : Agent}

/-- **One event** keeps agents alike. -/
theorem Alike.run_handle (h : a.Alike b) (h₁ : host₁.Prompt) (h₂ : host₂.Prompt) (world₁ : ε₁)
    (world₂ : ε₂) (notice : Notice) :
    ((handle notice).run host₁ world₁ a).state.Alike
      ((handle notice).run host₂ world₂ b).state where
  ledger := by
    rw [(leaves_ledger_handle notice a).view_run h₁.keeps_ledger h₁.answers,
      (leaves_ledger_handle notice b).view_run h₂.keeps_ledger h₂.answers, h.ledger]
  pool node := by
    rw [(leaves_pool_handle node notice a).view_run (h₁.keeps_poolAt node) h₁.answers,
      (leaves_pool_handle node notice b).view_run (h₂.keeps_poolAt node) h₂.answers, h.pool]
  queues := by
    cases notice with
    | node e =>
      have hqueues₁ := h₁.queues_handleNode world₁ a e
      have hqueues₂ := h₂.queues_handleNode world₂ b e
      rw [handle, hqueues₁, hqueues₂]
      exact h.queues
    | pod e =>
      obtain ⟨entry₁, hentry₁, hqueues₁⟩ := h₁.queues_handlePod world₁ a e
      obtain ⟨entry₂, hentry₂, hqueues₂⟩ := h₂.queues_handlePod world₂ b e
      rw [handle, hqueues₁, hqueues₂]
      exact h.queues.placed (hentry₁.trans ((h.slip_settled e).trans hentry₂.symm)) _

theorem tame_noteOutcome (w : Fault → Warning) (outcome : Pod × Except Fault Unit) (s : Agent) :
    Task.Tame Agent.queues (fun _ _ ↦ False) (noteOutcome w outcome) (fun _ ↦ True) s := by
  obtain ⟨pod, - | fault⟩ := outcome
  · exact .modify rfl trivial
  · exact .pure trivial

/-- The worker submits nothing, so what it takes off a queue is not queued again. -/
theorem tame_drain (lane : Lane) (pod : Pod) (s : Agent) :
    Task.Tame Agent.queues (fun _ _ ↦ False) (drain lane pod) (fun _ ↦ True) s := by
  cases lane with
  | start =>
    exact (tame_startPod pod).bind fun s' outcome _ ↦ tame_noteOutcome .restartFailed outcome s'
  | stop =>
    exact (tame_stopPod pod).bind fun s' outcome _ ↦ tame_noteOutcome .restopFailed outcome s'

/-- What the worker does about a pod is to the pools a start or a stop of it. -/
theorem leaves_pool_drain (node : String) (lane : Lane) (pod : Pod) (s : Agent) :
    Task.Leaves (poolAt node) (drain lane pod) s
      ((actOf lane pod).effect node (poolAt node s)) := by
  cases lane with
  | start => exact (ensures_perform node (.start .queued pod) s).leaves
  | stop => exact (ensures_perform node (.stop .queued pod) s).leaves

/-- **One queued pod** keeps agents alike, also if the two of them have different pods of one slip.
-/
theorem Alike.run_drain (h : a.Alike b) (h₁ : host₁.Prompt) (h₂ : host₂.Prompt) (world₁ : ε₁)
    (world₂ : ε₂) {pod pod' : Pod} (hslip : pod.slip = pod'.slip) (lane : Lane) :
    ((drain lane pod).run host₁ world₁ a).state.Alike
      ((drain lane pod').run host₂ world₂ b).state where
  ledger := by
    rw [(keeps_ledger_drain lane pod a).leaves.view_run h₁.keeps_ledger h₁.answers,
      (keeps_ledger_drain lane pod' b).leaves.view_run h₂.keeps_ledger h₂.answers, h.ledger]
  pool node := by
    rw [(leaves_pool_drain node lane pod a).view_run (h₁.keeps_poolAt node) h₁.answers,
      (leaves_pool_drain node lane pod' b).view_run (h₂.keeps_poolAt node) h₂.answers, h.pool,
      effect_actOf_congr hslip]
  queues := by
    rw [h₁.queues_of_tame (tame_drain lane pod a), h₂.queues_of_tame (tame_drain lane pod' b)]
    exact h.queues

/-- The worker does nothing for an empty queue, else it takes the oldest pod and sees to it. -/
theorem work_entry (lane : Lane) (a : Agent) :
    work (.entry lane) a =
      match a.takeEntry? lane with
      | none => .done a ()
      | some (pod, rest) => drain lane pod rest := by
  show (match a.takeEntry? lane with
    | none => pure ()
    | some (pod, rest) => Task.modify (fun _ ↦ rest) >>= fun _ ↦ drain lane pod :
      Task Agent Unit) a = _
  cases a.takeEntry? lane <;> rfl

theorem run_entry_of_nil {ε : Type} {host : Host Agent ε} {world : ε} {lane : Lane}
    (h : a.queues.lane lane = []) :
    ((work (.entry lane)).run host world a).state = a := by
  rw [Task.run, work_entry, takeEntry?, Queues.pop?_eq, h]
  rfl

theorem run_entry_of_cons {ε : Type} {host : Host Agent ε} {world : ε} {lane : Lane} {pod : Pod}
    {rest : List Pod} (h : a.queues.lane lane = pod :: rest) :
    (work (.entry lane)).run host world a = (drain lane pod).run host world
      { a with queues := a.queues.withLane lane rest } := by
  rw [Task.run, work_entry, takeEntry?, Queues.pop?_eq, h]
  rfl

/-- **Agents that agree still do after any job**, whatever the clusters answer. -/
theorem Alike.run_work (h : a.Alike b) (h₁ : host₁.Prompt) (h₂ : host₂.Prompt) (world₁ : ε₁)
    (world₂ : ε₂) (job : Job) :
    ((work job).run host₁ world₁ a).state.Alike ((work job).run host₂ world₂ b).state := by
  cases job with
  | event notice => exact h.run_handle h₁ h₂ world₁ world₂ notice
  | entry lane =>
    have hwaiting := h.queues.waiting lane
    cases hlane : a.queues.lane lane with
    | nil =>
      rw [hlane, List.map_nil, eq_comm, List.map_eq_nil_iff] at hwaiting
      rw [run_entry_of_nil hlane, run_entry_of_nil hwaiting]
      exact h
    | cons pod rest =>
      rw [hlane, List.map_cons, eq_comm, List.map_eq_cons_iff] at hwaiting
      obtain ⟨pod', rest', hlane', hslip, hrest⟩ := hwaiting
      rw [run_entry_of_cons hlane, run_entry_of_cons hlane']
      have htaken : Alike { a with queues := a.queues.withLane lane rest }
          { b with queues := b.queues.withLane lane rest' } :=
        ⟨h.ledger, h.pool, h.queues.withLane lane hrest.symm⟩
      exact htaken.run_drain h₁ h₂ world₁ world₂ hslip.symm lane

/-- The agent after some jobs. -/
def toil {ε : Type} (host : Host Agent ε) (world : ε) (a : Agent) (jobs : List Job) : Agent :=
  (Task.runAll host world a (jobs.map Agent.work)).1

theorem Alike.run_toil (h : a.Alike b) (h₁ : host₁.Prompt) (h₂ : host₂.Prompt) (world₁ : ε₁)
    (world₂ : ε₂) (jobs : List Job) :
    (toil host₁ world₁ a jobs).Alike (toil host₂ world₂ b jobs) := by
  induction jobs generalizing a b world₁ world₂ with
  | nil => exact h
  | cons job rest ih =>
    exact ih (h.run_work h₁ h₂ world₁ world₂ job) _ _

/-- **The books do not depend on the cluster.** One agent does the same jobs with two clusters,
each of which answers every call, one way or another. Then the accounts are the same after all
of them, and so is the pool of every node: its hosts in use, its hosts given back, and the one
that is next. The clocks may differ. -/
theorem bookkeeping_eq (h₁ : host₁.Prompt) (h₂ : host₂.Prompt) (world₁ : ε₁)
    (world₂ : ε₂) (a : Agent) (jobs : List Job) :
    (toil host₁ world₁ a jobs).ledger = (toil host₂ world₂ a jobs).ledger ∧
      ∀ node, poolAt node (toil host₁ world₁ a jobs) = poolAt node (toil host₂ world₂ a jobs) := by
  have h := (Alike.refl a).run_toil h₁ h₂ world₁ world₂ jobs
  exact ⟨h.ledger, h.pool⟩

/-! ### A cluster that is there and one that is not -/

/-- A host with one answer to each call. -/
def answering (reply : (c : Call) → c.Reply) : Host Agent Unit where
  call _ a c := .resumed a () (reply c)
  submit _ a lane pod := .resumed { a with queues := a.queues.placed lane pod } ()
    (decide (a.queues.service ≠ .closed))

theorem prompt_answering (reply : (c : Call) → c.Reply) : (answering reply).Prompt where
  call _ a c := ⟨a.clock, (), reply c, rfl⟩
  submit _ a _ _ := ⟨a.clock, (), rfl⟩

/-- A node is added, a pod is added, what is queued for it is seen to, and it is deleted as it
was added. -/
def comingAndGoing : List Job :=
  [.event (.node ⟨.added, nodeWithBlock⟩), .event (.pod ⟨.added, podWith "web" none⟩),
    .entry .start, .event (.pod ⟨.deleted, podWith "web" none⟩), .entry .stop]

/-- Without any answer of the cluster a pod gets the address that it gets with every answer. -/
theorem bookkeeping_eq_of_unanswered :
    let before := Agent.initial {} ⟨0, false⟩
    (toil (answering Call.granted) () before comingAndGoing).ledger =
        (toil (answering fun _ ↦ .error .unanswered) () before comingAndGoing).ledger ∧
      poolAt "mock-node-0" (toil (answering fun _ ↦ .error .unanswered) () before
        comingAndGoing) = some (newPool.handOut 1).2 := by
  intro before
  obtain ⟨hledger, hpool⟩ := bookkeeping_eq (prompt_answering Call.granted)
    (prompt_answering fun _ ↦ .error .unanswered) () () before comingAndGoing
  refine ⟨hledger, ?_⟩
  rw [← hpool]
  decide +kernel

end Agent

end HollowFleet
