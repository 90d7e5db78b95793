import HollowFleet.Agent.State
import HollowFleet.Lifecycle.Status

/-!
# Starting and stopping pods

Each of the two sequences has a total half, which settles the pod's status and the pools
(`started`, `stopped`), and at most one call: the status is written if it changed, and a
stopped pod is deleted. The state is settled before the call and does not depend on its
answer, so an address that was handed out stays handed out if the status could not be written.

## Addresses

A pod that shows an address keeps it, and the pool is not asked. Only a pod without one gets an
address of its node's pool. A stop takes back the address that the pod at hand shows, whoever it
was given to; the pools do not know which pod has which address.

## The second pass

A pod that is reported to the agent goes through its sequence at once (`accept`, `retire`) and
is then queued, to go through it once more (`drain`). Queued is the pod as the sequence left it; but
if its status could not be written for now, the pod as it was given with its address (`retryEntry`),
for which a second start writes the status, unless the address was all there was to write. A pod
that is deleted is not taken off the queue of starts.

The worker serves two queues. Which one it turns to when pods wait in both is not settled here:
`nextEntry?` is told, and `takeEntry?_of_nextEntry?` says that whatever it was told, it takes the
oldest pod of one of them, and `nextEntry?_eq_none_iff` that it never overlooks one.
-/

namespace HollowFleet.Agent

/-! ### Addresses -/

/-- Gives a pod an address: the one that it has, else one of its node's pool. Without a pool,
or with an exhausted one, it gets none. -/
def assignAddress (a : Agent) (pod : Pod) (status : PodStatus) : Agent × PodStatus :=
  match status.address? with
  | some ip => (a, status.withAddress ip)
  | none =>
    match a.poolOf? pod with
    | none => (a, status)
    | some (node, pool) =>
      match pool.allocate with
      | .ok (ip, rest) => (a.setPool node rest, status.withAddress ip.text)
      | .error fault => (a.warn (.noAddress fault), status)

/-- Takes the address of a pod back into its node's pool. -/
def releaseAddress (a : Agent) (pod : Pod) (status : PodStatus) : Agent :=
  match status.address?, a.poolOf? pod with
  | some ip, some (node, pool) =>
    match pool.release ip with
    | .ok rest => a.setPool node rest
    | .error fault => a.warn (.addressKept fault)
  | _, _ => a

/-! ### The sequences -/

/-- The agent and the pod after the pod was started, before the cluster knows of it. -/
def started (a : Agent) (pod : Pod) : Agent × Pod :=
  let assigned := a.assignAddress pod (Lifecycle.prepared a.clock pod)
  (assigned.1, { pod with status := some (Lifecycle.running a.clock assigned.2) })

/-- Starts a pod: its status is written if it is not the one that was given. -/
def startPod (pod : Pod) : Task Agent (Pod × Except Fault Unit) := do
  let agent ← Task.get
  let settled := agent.started pod
  Task.modify fun _ ↦ settled.1
  if settled.2.status = pod.status then return (settled.2, .ok ())
  else return (settled.2, ← Task.call (.updatePodStatus settled.2))

/-- The agent and the pod after the pod was stopped, before the cluster knows of it. -/
def stopped (a : Agent) (pod : Pod) : Agent × Pod :=
  let completed := Lifecycle.completed a.clock (pod.status.getD {})
  (a.releaseAddress pod completed, { pod with status := some (Lifecycle.succeeded completed) })

/-- Stops a pod and deletes it without grace. -/
def stopPod (pod : Pod) : Task Agent (Pod × Except Fault Unit) := do
  let agent ← Task.get
  let settled := agent.stopped pod
  Task.modify fun _ ↦ settled.1
  return (settled.2, ← Task.call (.deletePod settled.2 0))

/-! ### Queued pods -/

/-- Queues a pod for another pass. -/
def enqueue (lane : Lane) (pod : Pod) : Action Unit := do
  if ← Action.lift (Task.submit lane pod) then return ()
  else throw (.internal .queueClosed)

/-- What is queued when the status of a pod could not be written for now: the pod as it was
given with the address that it got, so that the status is written in the second pass. -/
def retryEntry (given started : Pod) : Pod :=
  match started.status.bind PodStatus.address? with
  | some ip => { given with status := some ((given.status.getD {}).withAddress ip) }
  | none => given

/-- The pod that is queued after a start. -/
def entryAfterStart (given started : Pod) (result : Except Fault Unit) : Pod :=
  match result with
  | .ok _ => started
  | .error fault => if fault.retryable then retryEntry given started else started

/-- Starts a pod and queues it for another start. A pod that could not be queued is a fault
before all others. -/
def accept (pod : Pod) : Action Unit := do
  let (started, result) ← Action.lift (startPod pod)
  enqueue .start (entryAfterStart pod started result)
  ExceptT.mk (pure result)

/-- Stops a pod and queues it for another stop. -/
def retire (pod : Pod) : Action Unit := do
  let (stopped, result) ← Action.lift (stopPod pod)
  enqueue .stop stopped
  ExceptT.mk (pure result)

/-! ### The worker -/

/-- Claims the queues for a worker, which can be done once. -/
def claimQueues (a : Agent) : Except Fault Agent :=
  match a.queues.service with
  | .unclaimed => .ok { a with queues := { a.queues with service := .claimed } }
  | _ => .error (.internal .queuesTaken)

/-- Closes the queues: what waits in them is dropped and nothing is taken any more. -/
def closeQueues (a : Agent) : Agent :=
  { a with queues := { a.queues with starts := [], stops := [], service := .closed } }

/-- Takes the oldest pod of a queue off it. -/
def takeEntry? (a : Agent) (lane : Lane) : Option (Pod × Agent) :=
  (a.queues.pop? lane).map fun r ↦ (r.1, { a with queues := r.2 })

/-- Takes the next pod that the worker has to see to. If pods wait in both queues, the worker may
turn to either of them, and `first` says which one it is; if pods wait in one of them only, it
makes no difference. -/
def nextEntry? (a : Agent) (first : Lane) : Option (Lane × Pod × Agent) :=
  match a.takeEntry? first with
  | some (pod, rest) => some (first, pod, rest)
  | none => (a.takeEntry? first.other).map fun r ↦ (first.other, r.1, r.2)

/-- Whichever queue it turns to, the worker takes the oldest pod of that queue. -/
theorem takeEntry?_of_nextEntry? {a rest : Agent} {first lane : Lane} {pod : Pod}
    (h : a.nextEntry? first = some (lane, pod, rest)) : a.takeEntry? lane = some (pod, rest) := by
  unfold nextEntry? at h
  split at h
  · next htake =>
    cases h
    exact htake
  · obtain ⟨r, htake, heq⟩ := Option.map_eq_some_iff.1 h
    cases heq
    exact htake

/-- The worker is idle only if nothing waits in any queue. -/
theorem nextEntry?_eq_none_iff {a : Agent} {first : Lane} :
    a.nextEntry? first = none ↔ ∀ lane, a.takeEntry? lane = none := by
  rw [Lane.forall_iff first]
  unfold nextEntry?
  split
  · next htake => simp [htake]
  · next htake => simp [htake]

/-- Sees to a pod that was queued. -/
def drain (lane : Lane) (pod : Pod) : Task Agent Unit := do
  match lane with
  | .start =>
    match (← startPod pod).2 with
    | .ok _ => return ()
    | .error fault => Task.warn (.restartFailed fault)
  | .stop =>
    match (← stopPod pod).2 with
    | .ok _ => return ()
    | .error fault => Task.warn (.restopFailed fault)

end HollowFleet.Agent
