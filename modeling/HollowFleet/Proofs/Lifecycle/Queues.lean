import HollowFleet.Agent.Dispatch
import HollowFleet.Proofs.Cluster.Interleaving

/-!
# What is queued

The queues take pods from reports and from nowhere else, and a report submits the pod that it is
about, under its identity (`tame_handle`). A pod that is taken off a queue costs at most one
call, and is not queued again (`brief_drain`).

Both statements are about tasks between their pauses, so they hold while other tasks work on the
same agent. The first one follows the handling of an event from part to part: most parts leave the
queues alone and submit nothing, for whatever notion of a pod that is fine (`tame_trackNode`,
`tame_addPool`, `tame_chargePod`), and the start or the stop of a reported pod ends in a submission
(`tame_enqueue_then`). What is submitted has the metadata of the pod that was reported, as neither a
start nor a stop touches them, and so has the entry for another attempt
(`metadata_entryAfterStart`).

For the second one the tree of a start is given in full: it is over at once if the status does not
change (`startPod_of_eq`), and else it is one call with the rest after the answer
(`startPod_of_ne`). What the worker does about the outcome is a warning at most (`noteOutcome`). So
the trees of the worker's tasks are known exactly (`drain_start_of_eq`, `drain_start_of_ne`,
`drain_stop`), and later proofs can tell the calls of the worker without unfolding it.
-/

namespace HollowFleet

open Agent Watch

/-- What tells a pod from all others: its namespace and name, and that it is this one of them. -/
def Pod.identity (pod : Pod) : Option String × String × Option String :=
  (pod.metadata.space, pod.metadata.displayName, pod.metadata.uid)

/-- The pods that may be queued when an event is handled. -/
def Agent.Notice.Submits (lane : Lane) (pod : Pod) : Notice → Prop
  | .node _ => False
  | .pod e =>
    pod.identity = e.object.identity ∧ lane = if e.op = .deleted then .stop else .start

namespace Agent

theorem queues_started (a : Agent) (pod : Pod) : (a.started pod).1.queues = a.queues := by
  rw [started, assignAddress]
  split
  · rfl
  · split
    · rfl
    · split <;> rfl

theorem queues_stopped (a : Agent) (pod : Pod) : (a.stopped pod).1.queues = a.queues := by
  simp only [stopped, releaseAddress]
  split
  · split <;> rfl
  · rfl

section Tame

variable {fine : Lane → Pod → Prop} {s : Agent}

/-! ### Nodes -/

/-- A renewal has nothing to do with the queues, at whichever of its calls it pauses. -/
theorem tame_renewLease (node : String) :
    Task.Tame Agent.queues fine (renewLease node).run (fun _ ↦ True) s := by
  refine (Task.Tame.call fun _ ↦ trivial).bind fun s' reply _ ↦ ?_
  rcases reply with fault | - | lease
  · exact .pure trivial
  · exact .call fun _ ↦ trivial
  · exact .call fun _ ↦ trivial

theorem tame_capacity (node : Node) :
    Task.Tame Agent.queues fine (capacity node) (fun _ ↦ True) s := by
  rw [capacity]
  cases Amounts.ofNode node with
  | ok amounts => exact .pure trivial
  | error fault => exact .modify_bind rfl (.pure trivial)

theorem tame_newAccount (node : Node) :
    Task.Tame Agent.queues fine (newAccount node) (fun _ ↦ True) s :=
  (tame_capacity node).bind fun _ _ _ ↦ .pure trivial

/-- To track a node queues nothing, and neither does the renewal that may come with it. -/
theorem tame_trackNode (node : Node) :
    Task.Tame Agent.queues fine (trackNode node) (fun _ ↦ True) s := by
  refine .get_bind ?_
  split
  · exact .pure trivial
  · refine (tame_newAccount node).bind fun s' account _ ↦ .modify_bind rfl ?_
    exact .orWarn (fun _ _ ↦ rfl) (tame_renewLease _) _

theorem tame_updateNode (node : Node) :
    Task.Tame Agent.queues fine (updateNode node) (fun _ ↦ True) s := by
  refine (tame_capacity node).bind fun s' reported _ ↦ .get_bind ?_
  cases s'.ledger.find? node.name with
  | some account => exact .modify rfl trivial
  | none => exact (tame_newAccount node).bind fun _ _ _ ↦ .modify rfl trivial

theorem tame_addPool (node : Node) :
    Task.Tame Agent.queues fine (addPool node).run (fun _ ↦ True) s := by
  refine .action_get_bind ?_
  split
  · exact .pure trivial
  · split
    · exact .pure trivial
    · split
      · exact .lift (.modify rfl trivial)
      · exact .pure trivial

theorem tame_handleNode (e : Event Node) :
    Task.Tame Agent.queues fine (handleNode e) (fun _ ↦ True) s := by
  obtain ⟨op, node⟩ := e
  cases op with
  | added =>
    exact (tame_trackNode node).bind fun _ _ _ ↦ .orWarn (fun _ _ ↦ rfl) (tame_addPool node) _
  | updated => exact tame_updateNode node
  | deleted => exact .modify_bind rfl (.modify rfl trivial)

/-! ### Pods -/

/-- A start queues nothing, and hands back a pod of the same metadata. -/
theorem tame_startPod (pod : Pod) :
    Task.Tame Agent.queues fine (startPod pod) (fun r ↦ r.1.metadata = pod.metadata) s := by
  refine .get_bind (.modify_bind (queues_started s pod) ?_)
  split
  · exact .pure rfl
  · exact (Task.Tame.call fun _ ↦ trivial).bind fun _ _ _ ↦ .pure rfl

/-- A stop queues nothing, and hands back a pod of the same metadata. -/
theorem tame_stopPod (pod : Pod) :
    Task.Tame Agent.queues fine (stopPod pod) (fun r ↦ r.1.metadata = pod.metadata) s := by
  refine .get_bind (.modify_bind (queues_stopped s pod) ?_)
  exact (Task.Tame.call fun _ ↦ trivial).bind fun _ _ _ ↦ .pure rfl

/-- Queueing a pod and then passing on how its sequence went. -/
theorem tame_enqueue_then {lane : Lane} {pod : Pod} (hfine : fine lane pod)
    (result : Except Fault Unit) :
    Task.Tame Agent.queues fine
      (enqueue lane pod >>= fun _ ↦ ExceptT.mk (pure result) : Action Unit).run
      (fun _ ↦ True) s := by
  refine .action_bind (.lift_bind (.submit hfine fun _ ↦ trivial) fun s' taken _ ↦ ?_)
    fun _ _ ↦ .pure trivial
  cases taken <;> exact .pure trivial

/-- What is queued after a start goes by the metadata of the pod that was given, whatever the
outcome. -/
theorem metadata_entryAfterStart {given started : Pod} (h : started.metadata = given.metadata)
    (result : Except Fault Unit) :
    (entryAfterStart given started result).metadata = given.metadata := by
  cases result with
  | ok => exact h
  | error fault =>
    simp only [entryAfterStart, retryEntry]
    split
    · split <;> rfl
    · exact h

/-- A reported pod is queued once, for a start, under its own metadata. -/
theorem tame_accept {pod : Pod} (hfine : ∀ p : Pod, p.metadata = pod.metadata → fine .start p) :
    Task.Tame Agent.queues fine (accept pod).run (fun _ ↦ True) s :=
  .lift_bind (tame_startPod pod) fun _ (_, result) hmetadata ↦
    tame_enqueue_then (hfine _ (metadata_entryAfterStart hmetadata result)) result

/-- A pod that is gone is queued once, for a stop, under its own metadata. -/
theorem tame_retire {pod : Pod} (hfine : ∀ p : Pod, p.metadata = pod.metadata → fine .stop p) :
    Task.Tame Agent.queues fine (retire pod).run (fun _ ↦ True) s :=
  .lift_bind (tame_stopPod pod) fun _ (_, result) hmetadata ↦
    tame_enqueue_then (hfine _ hmetadata) result

theorem tame_chargePod (pod : Pod) (w : Fault → Warning) :
    Task.Tame Agent.queues fine ((chargePod pod).orWarn w) (fun _ ↦ True) s := by
  refine .orWarn (fun _ _ ↦ rfl) (.action_get_bind ?_) _
  cases s.ledger.charge pod with
  | ok ledger => exact .lift (.modify rfl trivial)
  | error fault => exact .pure trivial

theorem tame_fits (pod : Pod) : Task.Tame Agent.queues fine (fits pod) (fun _ ↦ True) s := by
  refine .get_bind ?_
  cases s.ledger.accountOf? pod with
  | none => exact .pure trivial
  | some found =>
    simp only
    cases Amounts.ofPod pod with
    | ok needed => exact .pure trivial
    | error fault => exact .modify_bind rfl (.pure trivial)

/-- The event of a pod queues that pod, and no other one. -/
theorem tame_handlePod {e : Event Pod}
    (hfine : ∀ lane p, Notice.Submits lane p (.pod e) → fine lane p) :
    Task.Tame Agent.queues fine (handlePod e) (fun _ ↦ True) s := by
  obtain ⟨op, pod⟩ := e
  have hidentity : ∀ p : Pod, p.metadata = pod.metadata → p.identity = pod.identity := fun p h ↦ by
    rw [Pod.identity, h, ← Pod.identity]
  have halive : (op ≠ .deleted) → ∀ s, Task.Tame Agent.queues fine
      ((accept pod).orWarn .startFailed >>= fun _ ↦ (chargePod pod).orWarn .chargeFailed)
      (fun _ ↦ True) s := by
    intro hop s
    refine Task.Tame.bind (.orWarn (fun _ _ ↦ rfl) (tame_accept fun p h ↦ ?_) _)
      fun _ _ _ ↦ tame_chargePod pod _
    exact hfine _ _ ⟨hidentity p h, (if_neg hop).symm⟩
  cases op with
  | added =>
    refine (tame_fits pod).bind fun s' fitting _ ↦ ?_
    cases fitting with
    | true => exact halive nofun s'
    | false => exact .modify_bind rfl (halive nofun _)
  | updated => exact halive nofun s
  | deleted =>
    refine Task.Tame.bind (.orWarn (fun _ _ ↦ rfl) (tame_retire fun p h ↦ ?_) _)
      fun _ _ _ ↦ .modify rfl trivial
    exact hfine _ _ ⟨hidentity p h, rfl⟩

/-- **What is queued when an event is handled**, at whatever times its calls are answered. -/
theorem tame_handle {notice : Notice} (hfine : ∀ lane p, notice.Submits lane p → fine lane p) :
    Task.Tame Agent.queues fine (handle notice) (fun _ ↦ True) s := by
  cases notice with
  | node e => exact tame_handleNode e
  | pod e => exact tame_handlePod hfine

end Tame

/-! ### The worker -/

/-- A start that changes nothing to be written is over at once. -/
theorem startPod_of_eq {a : Agent} {pod : Pod} (h : (a.started pod).2.status = pod.status) :
    startPod pod a = .done (a.started pod).1 ((a.started pod).2, .ok ()) := by
  show (ite ((a.started pod).2.status = pod.status) _ _ : Task Agent _) (a.started pod).1 = _
  rw [if_pos h]
  rfl

/-- Any other start is one call, and over with its answer. -/
theorem startPod_of_ne {a : Agent} {pod : Pod} (h : (a.started pod).2.status ≠ pod.status) :
    startPod pod a = .call (a.started pod).1 (.updatePodStatus (a.started pod).2)
      fun s reply ↦ .done s ((a.started pod).2, reply) := by
  show (ite ((a.started pod).2.status = pod.status) _ _ : Task Agent _) (a.started pod).1 = _
  rw [if_neg h]
  rfl

/-- What the worker does about the outcome of a sequence: it warns of a fault. -/
def noteOutcome (w : Fault → Warning) (outcome : Pod × Except Fault Unit) : Task Agent Unit :=
  match outcome.2 with
  | .ok _ => pure ()
  | .error fault => Task.warn (w fault)

/-- A pod that a start leaves as it is costs no call. -/
theorem drain_start_of_eq {a : Agent} {pod : Pod} (h : (a.started pod).2.status = pod.status) :
    drain .start pod a = .done (a.started pod).1 () := by
  show (startPod pod a).bind (noteOutcome .restartFailed) = _
  rw [startPod_of_eq h]
  rfl

/-- Of any other pod the status is written. -/
theorem drain_start_of_ne {a : Agent} {pod : Pod} (h : (a.started pod).2.status ≠ pod.status) :
    drain .start pod a = .call (a.started pod).1 (.updatePodStatus (a.started pod).2)
      fun s reply ↦ noteOutcome .restartFailed ((a.started pod).2, reply) s := by
  show (startPod pod a).bind (noteOutcome .restartFailed) = _
  rw [startPod_of_ne h]
  rfl

/-- Either way the agent is settled before the call. -/
theorem state_drain_start (a : Agent) (pod : Pod) :
    (drain .start pod a).state = (a.started pod).1 := by
  by_cases h : (a.started pod).2.status = pod.status
  · rw [drain_start_of_eq h]
    rfl
  · rw [drain_start_of_ne h]
    rfl

/-- A pod that is to be stopped is deleted. -/
theorem drain_stop (a : Agent) (pod : Pod) :
    drain .stop pod a = .call (a.stopped pod).1 (.deletePod (a.stopped pod).2 0)
      fun s reply ↦ noteOutcome .restopFailed ((a.stopped pod).2, reply) s := rfl

theorem noteOutcome_over (w : Fault → Warning) (outcome : Pod × Except Fault Unit) (s : Agent) :
    (noteOutcome w outcome s).state.queues = s.queues ∧
      (noteOutcome w outcome s).isOver = true := by
  obtain ⟨pod, - | -⟩ := outcome <;> exact ⟨rfl, rfl⟩

/-- **Whatever is queued takes at most one call**, and the queues are left alone. -/
theorem brief_drain (lane : Lane) (pod : Pod) (a : Agent) :
    (drain lane pod a).state.queues = a.queues ∧ (drain lane pod a).Brief Agent.queues := by
  cases lane with
  | start =>
    by_cases h : (a.started pod).2.status = pod.status
    · rw [drain_start_of_eq h]
      exact ⟨queues_started a pod, trivial⟩
    · rw [drain_start_of_ne h]
      exact ⟨queues_started a pod, fun s _ ↦ noteOutcome_over _ _ s⟩
  | stop =>
    rw [drain_stop]
    exact ⟨queues_stopped a pod, fun s _ ↦ noteOutcome_over _ _ s⟩

end Agent

end HollowFleet
