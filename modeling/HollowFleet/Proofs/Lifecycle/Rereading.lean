import HollowFleet.Proofs.Lifecycle.Queues
import HollowFleet.Proofs.Lifecycle.Pairing
import HollowFleet.Proofs.Lifecycle.Restart

/-!
# Started pods that are read back

A started pod whose status was written is reported again by its watch, under a new version and
with its times as the cluster keeps them, in whole seconds. Then it is started once more, and if
that start found anything to write, the two would go on for ever.

A start reads the times of a status, but it only copies them. So the same map may be applied to
all times before a start or after it (`started_reread`): a pod that was started and read back is a
pod that was read back and then started. The second start finds it as a start left it
(`started_started`).

## What the main theorem rests on

* For each part of a start there is one lemma by which it commutes with a map of times, from the
  report on one container (`runningStatus_retimed`) up to the whole status (`running_retimed`). The
  proofs are by computation, since no part of a start compares two times.
* The pool enters by the address alone, and neither the version of a pod nor any time has to do with
  which address it gets (`assignAddress_reread`).
* With the two together, the pod that comes back is a started one in its own right, at a clock that
  was put through the same map. So the theorem on second starts applies as it stands, and needs only
  that the pod has an address or that there is still no pool for it.
* `startPod_reread` takes this to the calls: the second start makes none, whoever makes it.
-/

namespace HollowFleet

open Agent

/-! ### Times of a status -/

/-- The report on a container that ended, with its times put through a map. -/
def Terminated.retimed (f : Timestamp → Timestamp) (t : Terminated) : Terminated :=
  { t with startedAt := t.startedAt.map f, finishedAt := t.finishedAt.map f }

/-- The state of a container, with its times put through a map. -/
def ContainerState.retimed (f : Timestamp → Timestamp) (s : ContainerState) : ContainerState :=
  { s with
    running := s.running.map fun since ↦ since.map f
    terminated := s.terminated.map (Terminated.retimed f) }

/-- The report on a container, with its times put through a map. -/
def ContainerStatus.retimed (f : Timestamp → Timestamp) (s : ContainerStatus) : ContainerStatus :=
  { s with
    state := s.state.map (ContainerState.retimed f)
    lastState := s.lastState.map (ContainerState.retimed f) }

/-- A condition, with its times put through a map. -/
def Condition.retimed (f : Timestamp → Timestamp) (c : Condition) : Condition :=
  { c with
    lastProbeTime := c.lastProbeTime.map f
    lastTransitionTime := c.lastTransitionTime.map f }

/-- What is reported on a pod, with all times put through a map. -/
def PodStatus.retimed (f : Timestamp → Timestamp) (s : PodStatus) : PodStatus :=
  { s with
    startTime := s.startTime.map f
    conditions := s.conditions.map (List.map (Condition.retimed f))
    initContainerStatuses := s.initContainerStatuses.map (List.map (ContainerStatus.retimed f))
    containerStatuses := s.containerStatuses.map (List.map (ContainerStatus.retimed f))
    ephemeralContainerStatuses :=
      s.ephemeralContainerStatuses.map (List.map (ContainerStatus.retimed f)) }

/-- A pod as it is read back: under some version, and with all times of its status put through a
map, such as the identity or `Timestamp.truncate`. -/
def Pod.reread (version : Option String) (f : Timestamp → Timestamp) (pod : Pod) : Pod :=
  { pod with
    metadata := { pod.metadata with resourceVersion := version }
    status := pod.status.map (PodStatus.retimed f) }

/-! ### Starts and times -/

namespace Lifecycle

variable (f : Timestamp → Timestamp) (now : Timestamp)

/-- When a container began to run is one of the times that are put through the map. -/
theorem runningSince?_retimed (s : ContainerStatus) :
    runningSince? (s.retimed f) = (runningSince? s).map f := by
  rw [runningSince?, runningSince?, ContainerStatus.retimed]
  rcases s.state with - | ⟨-, - | - | since, -⟩ <;> rfl

/-- To report on a container that runs commutes with the map. -/
theorem runningStatus_retimed (c : Container) (previous : Option ContainerStatus) :
    runningStatus (f now) c (previous.map (ContainerStatus.retimed f)) =
      (runningStatus now c previous).retimed f := by
  cases previous with
  | none => rfl
  | some s =>
    simp only [runningStatus, Option.map_some, Option.bind_some, runningSince?_retimed,
      Option.getD_map]
    rfl

/-- Which report is the last of its name does not depend on times. -/
theorem lastReport?_retimed (xs : List ContainerStatus) (name : String) :
    lastReport? (xs.map (ContainerStatus.retimed f)) name =
      (lastReport? xs name).map (ContainerStatus.retimed f) := by
  rw [lastReport?, lastReport?, ← List.map_reverse, List.find?_map]
  rfl

theorem runningList_retimed (previous : List ContainerStatus) (declared : List Container) :
    runningList (f now) (previous.map (ContainerStatus.retimed f)) declared =
      (runningList now previous declared).map (List.map (ContainerStatus.retimed f)) := by
  rw [runningList, runningList]
  split
  · rfl
  · simp only [Option.map_some, List.map_map, Function.comp_def, lastReport?_retimed,
      runningStatus_retimed]

theorem reports_retimed (s : PodStatus) :
    reports (s.retimed f) = (reports s).map (ContainerStatus.retimed f) := by
  have hlist : ∀ xs : Option (List ContainerStatus),
      (xs.map (List.map (ContainerStatus.retimed f))).getD [] =
        (xs.getD []).map (ContainerStatus.retimed f) := fun xs ↦ by cases xs <;> rfl
  simp only [reports, PodStatus.retimed, hlist, List.map_append]

/-- To start the containers of a pod commutes with the map. -/
theorem startContainers_retimed (spec : PodSpec) (s : PodStatus) :
    startContainers (f now) spec (s.retimed f) = (startContainers now spec s).retimed f := by
  rw [startContainers, reports_retimed, runningList_retimed, runningList_retimed,
    runningList_retimed]
  rfl

theorem transitionTime_retimed (previous : List Condition) (value type : String) :
    transitionTime (previous.map (Condition.retimed f)) value type (f now) =
      f (transitionTime previous value type now) := by
  have hfind : (previous.map (Condition.retimed f)).find?
      (fun c ↦ decide (c.type = type ∧ c.status = value)) =
        (previous.find? fun c ↦ decide (c.type = type ∧ c.status = value)).map
          (Condition.retimed f) := List.find?_map ..
  rw [transitionTime, transitionTime, hfind]
  cases previous.find? fun c ↦ decide (c.type = type ∧ c.status = value) with
  | none => rfl
  | some c => exact Option.getD_map f now c.lastTransitionTime

/-- To settle the conditions commutes with the map, for the time of a transition is copied or is the
clock. -/
theorem conditions_retimed (previous : List Condition) (value : String) :
    conditions (previous.map (Condition.retimed f)) value (f now) =
      (conditions previous value now).map (Condition.retimed f) := by
  simp only [conditions, List.map_map, Function.comp_def, transitionTime_retimed]
  rfl

/-- **A status that is settled by a start** is put through the map as a whole. -/
theorem running_retimed (s : PodStatus) :
    running (f now) (s.retimed f) = (running now s).retimed f := by
  have hprevious : (s.conditions.map (List.map (Condition.retimed f))).getD [] =
      (s.conditions.getD []).map (Condition.retimed f) := by cases s.conditions <;> rfl
  have hstart : (s.startTime.map f).getD (f now) = f (s.startTime.getD now) :=
    Option.getD_map f now s.startTime
  simp only [running, withConditions, PodStatus.retimed, hprevious, conditions_retimed, hstart]
  rfl

/-- The version under which a pod is read has nothing to do with its containers, and its times are
put through the map. -/
theorem prepared_reread (version : Option String) (pod : Pod) :
    prepared (f now) (pod.reread version f) = (prepared now pod).retimed f := by
  have hstatus : (pod.status.map (PodStatus.retimed f)).getD {} =
      (pod.status.getD {}).retimed f := by cases pod.status <;> rfl
  cases hspec : pod.spec with
  | none => simp only [prepared, Pod.reread, hspec, hstatus]
  | some spec => simp only [prepared, Pod.reread, hspec, hstatus, startContainers_retimed]

end Lifecycle

namespace Agent

variable (f : Timestamp → Timestamp)

/-- Which address a pod gets has nothing to do with its version, and nothing with times. -/
theorem assignAddress_reread (a : Agent) (clock : Timestamp) (version : Option String) (pod : Pod)
    (s : PodStatus) :
    (({ a with clock } : Agent).assignAddress (pod.reread version f) (s.retimed f)).2 =
      (a.assignAddress pod s).2.retimed f := by
  have haddress : (s.retimed f).address? = s.address? := rfl
  have hpool : ({ a with clock } : Agent).poolOf? (pod.reread version f) = a.poolOf? pod := rfl
  rw [assignAddress, assignAddress, haddress, hpool]
  cases s.address? with
  | some ip => rfl
  | none =>
    cases a.poolOf? pod with
    | none => rfl
    | some found =>
      simp only
      cases found.2.allocate <;> rfl

/-- A pod that was started and read back is the pod that was read back, started when the clock
was put through the same map. -/
theorem started_reread (a : Agent) (version : Option String) (pod : Pod) :
    (({ a with clock := f a.clock } : Agent).started (pod.reread version f)).2 =
      (a.started pod).2.reread version f := by
  simp only [started, Lifecycle.prepared_reread, assignAddress_reread, Lifecycle.running_retimed]
  rfl

/-! ### Starts of pods that were read back -/

/-- What a start hands back does not depend on who answers the call. -/
theorem eq_started_of_run {ε : Type} {host : Host Agent ε} {world : ε} {a : Agent}
    {pod started : Pod} {reply : Except Fault Unit}
    (h : ((startPod pod).run host world a).result = some (started, reply)) :
    started = (a.started pod).2 := by
  have hkeeps : host.Keeps fun _ ↦ () := ⟨fun _ _ _ ↦ rfl, fun _ _ _ _ ↦ rfl⟩
  exact (ensures_settled_startPod _ pod a ε host world hkeeps).2 _ h

/-- **A started pod that is read back is left alone.** A pod was started, whatever the cluster
answered, and is started again as it is read back, by any agent at any time. If it has an address,
or if its node has no pool then, the second start makes no call, changes nothing about the agent,
and leaves the pod as it was read. -/
theorem startPod_reread {ε : Type} (host : Host Agent ε) (world : ε) (a : Agent)
    (pod started : Pod) (reply : Except Fault Unit)
    (hstarted : ((startPod pod).run host world a).result = some (started, reply)) (b : Agent)
    (h : started.address? ≠ none ∨ b.poolOf? started = none) (version : Option String)
    (f : Timestamp → Timestamp) :
    startPod (started.reread version f) b = .done b (started.reread version f, .ok ()) := by
  obtain rfl := eq_started_of_run hstarted
  have hread := started_reread f a version pod
  -- neither the address nor the node is lost by reading the pod back
  have haddress : ((a.started pod).2.reread version f).address? = (a.started pod).2.address? := rfl
  have hpool : b.poolOf? ((a.started pod).2.reread version f) = b.poolOf? (a.started pod).2 := rfl
  have hagain := started_started { a with clock := f a.clock } b (pod.reread version f)
  rw [hread, haddress, hpool] at hagain
  rw [startPod_of_eq (congrArg (·.2.status) (hagain h)), hagain h]

/-- An agent with a pool, whose clock stands within a second. -/
def withinSecond : Agent := { withPool with clock := ⟨1500000000, false⟩ }

/-- A pod that it started. -/
def startedWithinSecond : Pod := (withinSecond.started (podWith "web" none)).2

/-- The pod comes back a day later, in whole seconds and under another version. It still has the
address that it got, and its start goes back to the whole second. -/
theorem startPod_reread_of_truncate :
    let read := startedWithinSecond.reread (some "2") Timestamp.truncate
    let later : Agent := { withinSecond with clock := ⟨86400000000000, false⟩ }
    (read.address? = some "10.244.1.1" ∧
        read.status.bind PodStatus.startTime = some ⟨1000000000, false⟩) ∧
      startPod read later = .done later (read, .ok ()) := by
  intro read later
  have haddress : startedWithinSecond.address? ≠ none := by decide +kernel
  have hread := startPod_reread obliging () withinSecond (podWith "web" none) startedWithinSecond
    (.ok ()) rfl later (.inl haddress) (some "2") Timestamp.truncate
  exact ⟨by decide +kernel, hread⟩

end Agent

end HollowFleet
