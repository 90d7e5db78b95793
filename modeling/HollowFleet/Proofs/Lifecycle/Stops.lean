import HollowFleet.Proofs.Lifecycle.Restart
import Mathlib.Data.List.Forall2
import Mathlib.Data.Option.Basic

/-!
# Stopping a pod again

A stopped pod reports that its containers completed and that it has no address any more. A second
stop finds every finish, every start and every transition already told, so it tells them again as
they are, and it finds no address to hand back, whoever may have got that address meanwhile. So it
changes neither the pod nor the agent, and is no more than a second call to delete the pod
(`stopPod_again`).

## What the theorem rests on

* A report that a container completed is its own source (`completedStatus_completedStatus`), as one
  that it runs is for a start, and conditions of the value that a stop settles keep their times
  (`conditions_conditions`). So a status that was settled by a stop is settled by the next one as it
  is, at any clock (`succeeded_completed_succeeded`).
* The address is taken off the status before the call, so the second stop has nothing to give back
  and does not so much as look for a pool. This is where it matters that the pod in hand is the one
  that the first stop handed back, and not the one that it was given.
* Unlike a start, a stop makes its call in any case. There is nothing to compare, and the tree of a
  stop is one call with the pod behind it (`stopPod_eq`); the theorem is an equation between two
  such trees, so it holds on every host and for every answer.
-/

namespace HollowFleet

open Agent Lifecycle

/-! ### Statuses -/

/-- A container is reported as completed, after an earlier report on it. -/
structure ContainerStatus.Completes (earlier r : ContainerStatus) : Prop where
  /-- It is the same container. -/
  name : r.name = earlier.name
  /-- It ran the same image. -/
  image : r.image = earlier.image
  /-- The identity of the image is kept. -/
  imageID : r.imageID = earlier.imageID
  /-- The identity of the container is kept. -/
  containerID : r.containerID = earlier.containerID
  /-- The restarts are kept. -/
  restartCount : r.restartCount = earlier.restartCount
  /-- It takes no requests. -/
  ready : r.ready = false
  /-- It is not up. -/
  started : r.started = some false
  /-- It ended well, and is in no other state. -/
  state : ∃ ended : Terminated,
    r.state = some { waiting := none, running := none, terminated := some ended } ∧
      ended.exitCode = 0 ∧ ended.reason = some "Completed"
  /-- Nothing else is said of it, even if it was before. -/
  terse : r.Terse

/-- What is reported on a pod that was stopped, after what was reported before. -/
structure PodStatus.CompletesAfter (earlier s : PodStatus) : Prop where
  /-- The pod succeeded. -/
  phase : s.phase = some "Succeeded"
  /-- It has no address, neither alone nor in the list. -/
  address : s.podIP = none ∧ s.podIPs = none
  /-- The four standard conditions do not hold, and there are no others. -/
  conditions : ∃ cs, s.conditions = some cs ∧ cs.map (fun c ↦ (c.type, c.status)) =
    [("Initialized", "False"), ("Ready", "False"), ("ContainersReady", "False"),
      ("PodScheduled", "False")]
  /-- The init containers that were reported completed, one by one. -/
  init : Option.Rel (List.Forall₂ ContainerStatus.Completes) earlier.initContainerStatuses
    s.initContainerStatuses
  /-- So did the regular ones. -/
  regular : Option.Rel (List.Forall₂ ContainerStatus.Completes) earlier.containerStatuses
    s.containerStatuses
  /-- So did the ephemeral ones. -/
  ephemeral : Option.Rel (List.Forall₂ ContainerStatus.Completes)
    earlier.ephemeralContainerStatuses s.ephemeralContainerStatuses

namespace Lifecycle

/-- The report that a container completed keeps what identifies it, and resets the rest. -/
theorem completes_completedStatus (finish : Timestamp) (r : ContainerStatus) :
    r.Completes (completedStatus finish r) where
  name := rfl
  image := rfl
  imageID := rfl
  containerID := rfl
  restartCount := rfl
  ready := rfl
  started := rfl
  state := ⟨_, rfl, rfl, rfl⟩
  terse := ⟨rfl, rfl, rfl, rfl, rfl, rfl⟩

/-- A list of reports keeps its length and its order. -/
theorem rel_completes (finish : Timestamp) (list : Option (List ContainerStatus)) :
    Option.Rel (List.Forall₂ ContainerStatus.Completes) list
      (list.map (List.map (completedStatus finish))) := by
  cases list with
  | none => exact .none
  | some rs =>
    refine .some ?_
    rw [List.forall₂_map_right_iff, List.forall₂_same]
    exact fun r _ ↦ completes_completedStatus finish r

/-- A stop settles a status by which all containers completed and the pod succeeded. -/
theorem completesAfter_succeeded (now : Timestamp) (earlier : PodStatus) :
    earlier.CompletesAfter (succeeded (completed now earlier)) where
  phase := rfl
  address := ⟨rfl, rfl⟩
  conditions := ⟨_, rfl, rfl⟩
  init := rel_completes (now.addSeconds finishDelay) earlier.initContainerStatuses
  regular := rel_completes (now.addSeconds finishDelay) earlier.containerStatuses
  ephemeral := rel_completes (now.addSeconds finishDelay) earlier.ephemeralContainerStatuses

/-- A report that a container completed stays as it is. -/
theorem completedStatus_completedStatus (finish finish' : Timestamp) (r : ContainerStatus) :
    completedStatus finish' (completedStatus finish r) = completedStatus finish r := rfl

/-- Containers that completed are completed as they are, at any clock. -/
theorem completeContainers_completeContainers (now now' : Timestamp) (s : PodStatus) :
    completeContainers now' (completeContainers now s) = completeContainers now s := by
  simp only [completeContainers, Option.map_map, Function.comp_def, List.map_map,
    completedStatus_completedStatus]

/-- A status that is completed stays as it is; the address and the phase do not matter. -/
theorem succeeded_completed_succeeded (now now' : Timestamp) (s : PodStatus) :
    succeeded (completed now' (succeeded (completed now s))) = succeeded (completed now s) := by
  have hcontainers := completeContainers_completeContainers now now' s
  simp only [completeContainers, PodStatus.mk.injEq] at hcontainers
  simp only [succeeded, completed, completeContainers, withConditions, PodStatus.withoutAddress,
    Option.getD_some, conditions_conditions, hcontainers]

end Lifecycle

/-! ### Pods -/

namespace Agent

/-- **A pod that was stopped is left alone by every further stop**, and so is the agent. -/
theorem stopped_stopped (a b : Agent) (pod : Pod) :
    b.stopped (a.stopped pod).2 = (b, (a.stopped pod).2) := by
  have hstatus : (a.stopped pod).2.status =
      some (succeeded (completed a.clock (pod.status.getD {}))) := rfl
  rw [stopped, hstatus, Option.getD_some, succeeded_completed_succeeded, ← hstatus]
  rfl

/-- A stop is a call to delete the pod, without grace, once the pod and the pools are settled. -/
theorem stopPod_eq (a : Agent) (pod : Pod) :
    stopPod pod a = .call (a.stopped pod).1 (.deletePod (a.stopped pod).2 0)
      fun s reply ↦ .done s ((a.stopped pod).2, reply) := rfl

/-- **A second stop is only a second call.** A stop settles a status, by which the pod succeeded,
and calls for the pod to be deleted, with this status and without grace. Whatever the answer is,
and whatever has become of the agent and its pools by then, a second stop leaves this status and
the agent as they are and makes the same call again. -/
theorem stopPod_again (a : Agent) (pod : Pod) :
    ∃ (settled : Agent) (s : PodStatus), (pod.status.getD {}).CompletesAfter s ∧
      let stopped : Pod := { pod with status := some s }
      stopPod pod a = .call settled (.deletePod stopped 0)
        (fun agent reply ↦ .done agent (stopped, reply)) ∧
      ∀ b : Agent, stopPod stopped b = .call b (.deletePod stopped 0)
        fun agent reply ↦ .done agent (stopped, reply) := by
  refine ⟨(a.stopped pod).1, succeeded (completed a.clock (pod.status.getD {})),
    completesAfter_succeeded a.clock _, stopPod_eq a pod, fun b ↦ ?_⟩
  have hagain := stopped_stopped a b pod
  rw [stopPod_eq]
  show Progress.call (b.stopped (a.stopped pod).2).1
    (.deletePod (b.stopped (a.stopped pod).2).2 0) (fun agent reply ↦
      .done agent ((b.stopped (a.stopped pod).2).2, reply)) = _
  rw [hagain]
  rfl

end Agent

end HollowFleet
