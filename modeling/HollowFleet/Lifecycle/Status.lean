import HollowFleet.Object.Pod

/-!
# Statuses of hollow pods

What is reported on a pod whose containers never run. A started pod reports every declared
container running and ready and the four standard conditions true; a stopped one reports
every container completed and the conditions false. Whatever an earlier status knows of a
container or a condition is kept as far as it still holds, so a status that is started again
does not change.

## Reports on containers

A report on a container is made anew each time. It takes over the identities of the image and
of the container and the count of restarts; everything else that was reported of the container,
such as its resources, its user, its mounted volumes or its last state, is dropped.

What was reported before is looked up by the name of the container among the reports of all three
lists, and the last report of a name counts (`lastReport?`). So a container that was declared among
the initial ones before and among the regular ones now keeps its start. A list without containers is
absent, even if it was there and empty.

Stopping goes by the reports and not by the declaration: a container that was never reported is not
reported as completed either. Its end lies `finishDelay` seconds ahead of the clock, unless an
earlier report told another one.

## Whole statuses

`prepared` and `running` are the two halves of a start, before and after the pod has its address;
`completed` and `succeeded` are the halves of a stop, before and after the address is taken back.
Fields that neither of them mentions stay as they were.
-/

namespace HollowFleet

/-! ### Addresses -/

namespace PodStatus

/-- The address of the pod: the one reported alone, else the first of the list; an empty one
is none. -/
def address? (s : PodStatus) : Option String :=
  match s.podIP.filter fun ip ↦ decide (ip ≠ "") with
  | some ip => some ip
  | none => (s.podIPs.getD []).head?.filter fun ip ↦ decide (ip ≠ "")

/-- Reports an address, alone and as the only one of the list. -/
def withAddress (s : PodStatus) (ip : String) : PodStatus :=
  { s with podIP := some ip, podIPs := some [ip] }

/-- Reports no address. -/
def withoutAddress (s : PodStatus) : PodStatus := { s with podIP := none, podIPs := none }

theorem address?_withAddress (s : PodStatus) {ip : String} (h : ip ≠ "") :
    (s.withAddress ip).address? = some ip := by
  simp [address?, withAddress, Option.filter, h]

@[simp]
theorem address?_withoutAddress (s : PodStatus) : s.withoutAddress.address? = none := rfl

@[simp]
theorem withAddress_withAddress (s : PodStatus) (ip ip' : String) :
    (s.withAddress ip).withAddress ip' = s.withAddress ip' := rfl

end PodStatus

namespace Lifecycle

/-! ### Conditions -/

/-- The conditions that a pod reports, in order. -/
def conditionTypes : List String := ["Initialized", "Ready", "ContainersReady", "PodScheduled"]

/-- When a condition took its value, if an earlier report of that value knows. -/
def transitionTime (previous : List Condition) (value type : String) (now : Timestamp) :
    Timestamp :=
  ((previous.find? fun c ↦ decide (c.type = type ∧ c.status = value)).bind
    Condition.lastTransitionTime).getD now

/-- The standard conditions, all of one value. -/
def conditions (previous : List Condition) (value : String) (now : Timestamp) : List Condition :=
  conditionTypes.map fun type ↦
    { type, status := value, lastTransitionTime := some (transitionTime previous value type now) }

/-- Reports the standard conditions, all of one value. -/
def withConditions (s : PodStatus) (value : String) (now : Timestamp) : PodStatus :=
  { s with conditions := some (conditions (s.conditions.getD []) value now) }

/-! ### Running containers -/

/-- When a container started, if the report says that it is running. -/
def runningSince? (s : ContainerStatus) : Option Timestamp :=
  (s.state.bind ContainerState.running).bind id

/-- The report on a container that runs; `previous` is the last report of its name. -/
def runningStatus (now : Timestamp) (c : Container) (previous : Option ContainerStatus) :
    ContainerStatus where
  name := c.name
  image := c.image.getD ""
  imageID := (previous.map ContainerStatus.imageID).getD ""
  containerID := previous.bind ContainerStatus.containerID
  restartCount := (previous.map ContainerStatus.restartCount).getD 0
  ready := true
  started := some true
  state := some { running := some (some ((previous.bind runningSince?).getD now)) }

/-- The last report of a name. -/
def lastReport? (reports : List ContainerStatus) (name : String) : Option ContainerStatus :=
  reports.reverse.find? fun s ↦ decide (s.name = name)

/-- Every report of a status, the lists in the order init, regular, ephemeral. -/
def reports (s : PodStatus) : List ContainerStatus :=
  s.initContainerStatuses.getD [] ++ s.containerStatuses.getD [] ++
    s.ephemeralContainerStatuses.getD []

/-- Reports on declared containers that run; without containers there is no list. -/
def runningList (now : Timestamp) (previous : List ContainerStatus) (declared : List Container) :
    Option (List ContainerStatus) :=
  if declared = [] then none
  else some (declared.map fun c ↦ runningStatus now c (lastReport? previous c.name))

/-- Reports every declared container running. -/
def startContainers (now : Timestamp) (spec : PodSpec) (s : PodStatus) : PodStatus :=
  let previous := reports s
  { s with
    initContainerStatuses := runningList now previous (spec.initContainers.getD [])
    containerStatuses := runningList now previous spec.containers
    ephemeralContainerStatuses := runningList now previous (spec.ephemeralContainers.getD []) }

/-! ### Completed containers -/

/-- Seconds from the end of a pod to the finish that its containers report. -/
def finishDelay : Int := 30

/-- The report on a container that completed; a finish that was reported before is kept. -/
def completedStatus (finish : Timestamp) (previous : ContainerStatus) : ContainerStatus where
  name := previous.name
  image := previous.image
  imageID := previous.imageID
  containerID := previous.containerID
  restartCount := previous.restartCount
  ready := false
  started := some false
  state := some {
    terminated := some {
      exitCode := 0
      reason := some "Completed"
      startedAt := match runningSince? previous with
        | some t => some t
        | none => (previous.state.bind ContainerState.terminated).bind Terminated.startedAt
      finishedAt := some
        (((previous.state.bind ContainerState.terminated).bind Terminated.finishedAt).getD
          finish) } }

/-- Reports every reported container completed. -/
def completeContainers (now : Timestamp) (s : PodStatus) : PodStatus :=
  let completed := Option.map (List.map (completedStatus (now.addSeconds finishDelay)))
  { s with
    initContainerStatuses := completed s.initContainerStatuses
    containerStatuses := completed s.containerStatuses
    ephemeralContainerStatuses := completed s.ephemeralContainerStatuses }

/-! ### Whole statuses -/

/-- The status of a pod before it got an address: a pod without a declaration keeps its
status. -/
def prepared (now : Timestamp) (pod : Pod) : PodStatus :=
  match pod.spec with
  | some spec => startContainers now spec (pod.status.getD {})
  | none => pod.status.getD {}

/-- The status of a pod that has its address and is started. -/
def running (now : Timestamp) (s : PodStatus) : PodStatus :=
  { withConditions { s with startTime := some (s.startTime.getD now) } "True" now with
    phase := some "Running" }

/-- The status of a pod that is stopped and still has its address. -/
def completed (now : Timestamp) (s : PodStatus) : PodStatus :=
  withConditions (completeContainers now s) "False" now

/-- The status of a pod that is stopped. -/
def succeeded (s : PodStatus) : PodStatus := { s.withoutAddress with phase := some "Succeeded" }

end Lifecycle

end HollowFleet
