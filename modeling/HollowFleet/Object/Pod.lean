import HollowFleet.Object.Metadata

/-!
# Pods

A pod declares containers of three kinds and is bound to a node; its status reports on each
container, on a few conditions and on its addresses. In a status an absent list and an empty
one are different things, and two statuses are compared in full: a status is written when it
is not the one that was read, so a field that a start resets counts as much as one that it
sets. Therefore statuses have all the fields that a cluster may fill in, down to the mounted
volumes of a container, although the agent asks for the contents of few of them.

Of what a pod declares only the parts are kept that the agent reads: the node, the containers
with their images, and the amounts that they ask for.
-/

namespace HollowFleet

open Json

/-! ### Declared content -/

/-- A declared container. -/
structure Container where
  /-- The name, unique among containers of its kind. -/
  name : String := ""
  /-- The image to run. -/
  image : Option String := none
  /-- Amounts that the container asks for. -/
  requests : Option (List (String × String)) := none
  /-- Amounts that the container may not pass. -/
  limits : Option (List (String × String)) := none
deriving DecidableEq, Repr, Inhabited

/-- What a pod declares. -/
structure PodSpec where
  /-- The node that the pod is bound to. -/
  nodeName : Option String := none
  /-- Containers that run to completion before the others. -/
  initContainers : Option (List Container) := none
  /-- The regular containers. -/
  containers : List Container := []
  /-- Containers added later for inspection. -/
  ephemeralContainers : Option (List Container) := none
deriving DecidableEq, Repr, Inhabited

/-! ### Reported content -/

/-- The report on a container that ended. -/
structure Terminated where
  /-- The exit code. -/
  exitCode : Int := 0
  /-- The signal that ended it. -/
  signal : Option Int := none
  /-- Why it ended, for programs. -/
  reason : Option String := none
  /-- Why it ended, for people. -/
  message : Option String := none
  /-- When it started. -/
  startedAt : Option Timestamp := none
  /-- When it ended. -/
  finishedAt : Option Timestamp := none
  /-- The container that ended. -/
  containerID : Option String := none
deriving DecidableEq, Repr, Inhabited

/-- The report on a container that was not started yet. -/
structure Waiting where
  /-- Why it waits, for programs. -/
  reason : Option String := none
  /-- Why it waits, for people. -/
  message : Option String := none
deriving DecidableEq, Repr, Inhabited

/-- The state of a container; at most one of the three reports is meant to be there. -/
structure ContainerState where
  /-- Not started yet. -/
  waiting : Option Waiting := none
  /-- Running, with the start. -/
  running : Option (Option Timestamp) := none
  /-- Ended. -/
  terminated : Option Terminated := none
deriving DecidableEq, Repr, Inhabited

/-- A claim on resources of the pod that a container makes use of. -/
structure ResourceClaim where
  /-- The name of the claim. -/
  name : String := ""
  /-- The part of the claim, if not all of it. -/
  request : Option String := none
deriving DecidableEq, Repr, Inhabited

/-- The resources that a running container was given. -/
structure Resources where
  /-- The claims that it makes use of. -/
  claims : Option (List ResourceClaim) := none
  /-- Amounts that it may not pass. -/
  limits : Option (List (String × String)) := none
  /-- Amounts that it asked for. -/
  requests : Option (List (String × String)) := none
deriving DecidableEq, Repr, Inhabited

/-- The health of a single device. -/
structure DeviceHealth where
  /-- The device. -/
  resourceID : String := ""
  /-- Its health, if it is known. -/
  health : Option String := none
deriving DecidableEq, Repr, Inhabited

/-- The health of the devices of one resource. -/
structure ResourceHealth where
  /-- The name of the resource. -/
  name : String := ""
  /-- Its devices. -/
  resources : Option (List DeviceHealth) := none
deriving DecidableEq, Repr, Inhabited

/-- Whom a container runs as, where users have numbers. -/
structure LinuxUser where
  /-- The user. -/
  uid : Int := 0
  /-- The user's first group. -/
  gid : Int := 0
  /-- The user's other groups. -/
  supplementalGroups : Option (List Int) := none
deriving DecidableEq, Repr, Inhabited

/-- Whom a container runs as; there is one system that has something to say about it. -/
structure ContainerUser where
  /-- The user there. -/
  linux : Option LinuxUser := none
deriving DecidableEq, Repr, Inhabited

/-- A volume as it is mounted in a container. -/
structure VolumeMount where
  /-- The name of the volume. -/
  name : String := ""
  /-- Where it is mounted. -/
  mountPath : String := ""
  /-- Whether it can only be read. -/
  readOnly : Option Bool := none
  /-- Whether that goes for what is mounted below it as well. -/
  recursiveReadOnly : Option String := none
deriving DecidableEq, Repr, Inhabited

/-- The report on a container. -/
structure ContainerStatus where
  /-- The container's name. -/
  name : String := ""
  /-- The image that it runs. -/
  image : String := ""
  /-- The identity of that image. -/
  imageID : String := ""
  /-- The identity of the container. -/
  containerID : Option String := none
  /-- Whether it takes requests. -/
  ready : Bool := false
  /-- Whether it has passed its start. -/
  started : Option Bool := none
  /-- How often it was started again. -/
  restartCount : Int := 0
  /-- The current state. -/
  state : Option ContainerState := none
  /-- The state before the last start. -/
  lastState : Option ContainerState := none
  /-- The amounts that the node has set aside for the container. -/
  allocatedResources : Option (List (String × String)) := none
  /-- The health of its devices. -/
  allocatedResourcesStatus : Option (List ResourceHealth) := none
  /-- The resources that it was given when it started or was last resized. -/
  resources : Option Resources := none
  /-- Whom it runs as. -/
  user : Option ContainerUser := none
  /-- The volumes that are mounted in it. -/
  volumeMounts : Option (List VolumeMount) := none
deriving DecidableEq, Repr, Inhabited

/-- A condition of a pod. -/
structure Condition where
  /-- Which condition. -/
  type : String := ""
  /-- Whether it holds: `True`, `False` or `Unknown`. -/
  status : String := ""
  /-- When it was last looked at. -/
  lastProbeTime : Option Timestamp := none
  /-- When it last changed. -/
  lastTransitionTime : Option Timestamp := none
  /-- Why, for programs. -/
  reason : Option String := none
  /-- Why, for people. -/
  message : Option String := none
deriving DecidableEq, Repr, Inhabited

/-- What was made for a claim of the pod on resources. -/
structure ResourceClaimStatus where
  /-- The name under which the pod goes by the claim. -/
  name : String := ""
  /-- The name of the claim that was made. -/
  resourceClaimName : Option String := none
deriving DecidableEq, Repr, Inhabited

/-- What is reported on a pod. -/
structure PodStatus where
  /-- Where the pod is in its life. -/
  phase : Option String := none
  /-- Why, for programs. -/
  reason : Option String := none
  /-- Why, for people. -/
  message : Option String := none
  /-- The address of the pod's node. -/
  hostIP : Option String := none
  /-- All addresses of that node. -/
  hostIPs : Option (List String) := none
  /-- The node that pods were evicted from to make room for this one. -/
  nominatedNodeName : Option String := none
  /-- How far a change of the pod's resources has come. -/
  resize : Option String := none
  /-- What was made for the pod's claims on resources. -/
  resourceClaimStatuses : Option (List ResourceClaimStatus) := none
  /-- The quality of service. -/
  qosClass : Option String := none
  /-- When the node took the pod on. -/
  startTime : Option Timestamp := none
  /-- The pod's address. -/
  podIP : Option String := none
  /-- All addresses of the pod, the first one being `podIP`. -/
  podIPs : Option (List String) := none
  /-- The conditions. -/
  conditions : Option (List Condition) := none
  /-- Reports on the init containers. -/
  initContainerStatuses : Option (List ContainerStatus) := none
  /-- Reports on the regular containers. -/
  containerStatuses : Option (List ContainerStatus) := none
  /-- Reports on the ephemeral containers. -/
  ephemeralContainerStatuses : Option (List ContainerStatus) := none
deriving DecidableEq, Repr, Inhabited

/-- A pod. -/
structure Pod where
  /-- Names and versions. -/
  metadata : Metadata := {}
  /-- What the pod declares. -/
  spec : Option PodSpec := none
  /-- What is reported on it. -/
  status : Option PodStatus := none
deriving DecidableEq, Repr, Inhabited

namespace Pod

/-- Namespace and name in one text. -/
def key (pod : Pod) : String := pod.metadata.qualifiedName

/-- The node that the pod is bound to; an empty name is none. -/
def node? (pod : Pod) : Option String :=
  (pod.spec.bind PodSpec.nodeName).filter fun name ↦ decide (name ≠ "")

end Pod

/-! ### Reading -/

/-- Reads a container; amounts stand one level down. -/
def Container.ofJson? (j : Json) : Option Container := do
  let ms ← j.object?
  let name ← defaulted? text? "" ms "name"
  let image ← optional? text? ms "image"
  let resources ← defaulted? object? [] ms "resources"
  let requests ← optional? (dictionary? text?) resources "requests"
  let limits ← optional? (dictionary? text?) resources "limits"
  return { name, image, requests, limits }

/-- Reads what a pod declares. -/
def PodSpec.ofJson? (j : Json) : Option PodSpec := do
  let ms ← j.object?
  let nodeName ← optional? text? ms "nodeName"
  let initContainers ← optional? (list? Container.ofJson?) ms "initContainers"
  let containers ← defaulted? (list? Container.ofJson?) [] ms "containers"
  let ephemeralContainers ← optional? (list? Container.ofJson?) ms "ephemeralContainers"
  return { nodeName, initContainers, containers, ephemeralContainers }

/-- Reads the report on a container that ended. -/
def Terminated.ofJson? (j : Json) : Option Terminated := do
  let ms ← j.object?
  let exitCode ← defaulted? int32? 0 ms "exitCode"
  let signal ← optional? int32? ms "signal"
  let reason ← optional? text? ms "reason"
  let message ← optional? text? ms "message"
  let startedAt ← optional? timestamp? ms "startedAt"
  let finishedAt ← optional? timestamp? ms "finishedAt"
  let containerID ← optional? text? ms "containerID"
  return { exitCode, signal, reason, message, startedAt, finishedAt, containerID }

/-- Reads the report on a container that was not started yet. -/
def Waiting.ofJson? (j : Json) : Option Waiting := do
  let ms ← j.object?
  let reason ← optional? text? ms "reason"
  let message ← optional? text? ms "message"
  return { reason, message }

/-- Reads a state. -/
def ContainerState.ofJson? (j : Json) : Option ContainerState := do
  let ms ← j.object?
  let waiting ← optional? Waiting.ofJson? ms "waiting"
  let running ←
    optional? (fun r ↦ r.object?.bind fun rs ↦ optional? timestamp? rs "startedAt") ms "running"
  let terminated ← optional? Terminated.ofJson? ms "terminated"
  return { waiting, running, terminated }

/-- Reads a claim that a container makes use of. -/
def ResourceClaim.ofJson? (j : Json) : Option ResourceClaim := do
  let ms ← j.object?
  let name ← defaulted? text? "" ms "name"
  let request ← optional? text? ms "request"
  return { name, request }

/-- Reads the resources of a container. -/
def Resources.ofJson? (j : Json) : Option Resources := do
  let ms ← j.object?
  let claims ← optional? (list? ResourceClaim.ofJson?) ms "claims"
  let limits ← optional? (dictionary? text?) ms "limits"
  let requests ← optional? (dictionary? text?) ms "requests"
  return { claims, limits, requests }

/-- Reads the health of a device. -/
def DeviceHealth.ofJson? (j : Json) : Option DeviceHealth := do
  let ms ← j.object?
  let resourceID ← defaulted? text? "" ms "resourceID"
  let health ← optional? text? ms "health"
  return { resourceID, health }

/-- Reads the health of the devices of a resource. -/
def ResourceHealth.ofJson? (j : Json) : Option ResourceHealth := do
  let ms ← j.object?
  let name ← defaulted? text? "" ms "name"
  let resources ← optional? (list? DeviceHealth.ofJson?) ms "resources"
  return { name, resources }

/-- Reads a user with a number. -/
def LinuxUser.ofJson? (j : Json) : Option LinuxUser := do
  let ms ← j.object?
  let uid ← defaulted? int64? 0 ms "uid"
  let gid ← defaulted? int64? 0 ms "gid"
  let supplementalGroups ← optional? (list? int64?) ms "supplementalGroups"
  return { uid, gid, supplementalGroups }

/-- Reads whom a container runs as. -/
def ContainerUser.ofJson? (j : Json) : Option ContainerUser := do
  let ms ← j.object?
  let linux ← optional? LinuxUser.ofJson? ms "linux"
  return { linux }

/-- Reads a mounted volume. -/
def VolumeMount.ofJson? (j : Json) : Option VolumeMount := do
  let ms ← j.object?
  let name ← defaulted? text? "" ms "name"
  let mountPath ← defaulted? text? "" ms "mountPath"
  let readOnly ← optional? bool? ms "readOnly"
  let recursiveReadOnly ← optional? text? ms "recursiveReadOnly"
  return { name, mountPath, readOnly, recursiveReadOnly }

/-- Reads the report on a container. -/
def ContainerStatus.ofJson? (j : Json) : Option ContainerStatus := do
  let ms ← j.object?
  let name ← defaulted? text? "" ms "name"
  let image ← defaulted? text? "" ms "image"
  let imageID ← defaulted? text? "" ms "imageID"
  let containerID ← optional? text? ms "containerID"
  let ready ← defaulted? bool? false ms "ready"
  let started ← optional? bool? ms "started"
  let restartCount ← defaulted? int32? 0 ms "restartCount"
  let state ← optional? ContainerState.ofJson? ms "state"
  let lastState ← optional? ContainerState.ofJson? ms "lastState"
  let allocatedResources ← optional? (dictionary? text?) ms "allocatedResources"
  let allocatedResourcesStatus ←
    optional? (list? ResourceHealth.ofJson?) ms "allocatedResourcesStatus"
  let resources ← optional? Resources.ofJson? ms "resources"
  let user ← optional? ContainerUser.ofJson? ms "user"
  let volumeMounts ← optional? (list? VolumeMount.ofJson?) ms "volumeMounts"
  return {
    name, image, imageID, containerID, ready, started, restartCount, state, lastState,
    allocatedResources, allocatedResourcesStatus, resources, user, volumeMounts }

/-- Reads a condition. -/
def Condition.ofJson? (j : Json) : Option Condition := do
  let ms ← j.object?
  let type ← defaulted? text? "" ms "type"
  let status ← defaulted? text? "" ms "status"
  let lastProbeTime ← optional? timestamp? ms "lastProbeTime"
  let lastTransitionTime ← optional? timestamp? ms "lastTransitionTime"
  let reason ← optional? text? ms "reason"
  let message ← optional? text? ms "message"
  return { type, status, lastProbeTime, lastTransitionTime, reason, message }

/-- Reads one of the addresses of a pod or of its node. -/
def podAddress? (j : Json) : Option String := do
  let ms ← j.object?
  defaulted? text? "" ms "ip"

/-- Reads what was made for a claim of the pod. -/
def ResourceClaimStatus.ofJson? (j : Json) : Option ResourceClaimStatus := do
  let ms ← j.object?
  let name ← defaulted? text? "" ms "name"
  let resourceClaimName ← optional? text? ms "resourceClaimName"
  return { name, resourceClaimName }

/-- Reads what is reported on a pod. -/
def PodStatus.ofJson? (j : Json) : Option PodStatus := do
  let ms ← j.object?
  let phase ← optional? text? ms "phase"
  let reason ← optional? text? ms "reason"
  let message ← optional? text? ms "message"
  let hostIP ← optional? text? ms "hostIP"
  let hostIPs ← optional? (list? podAddress?) ms "hostIPs"
  let nominatedNodeName ← optional? text? ms "nominatedNodeName"
  let resize ← optional? text? ms "resize"
  let resourceClaimStatuses ←
    optional? (list? ResourceClaimStatus.ofJson?) ms "resourceClaimStatuses"
  let qosClass ← optional? text? ms "qosClass"
  let startTime ← optional? timestamp? ms "startTime"
  let podIP ← optional? text? ms "podIP"
  let podIPs ← optional? (list? podAddress?) ms "podIPs"
  let conditions ← optional? (list? Condition.ofJson?) ms "conditions"
  let reports := optional? (list? ContainerStatus.ofJson?) ms
  let initContainerStatuses ← reports "initContainerStatuses"
  let containerStatuses ← reports "containerStatuses"
  let ephemeralContainerStatuses ← reports "ephemeralContainerStatuses"
  return {
    phase, reason, message, hostIP, hostIPs, nominatedNodeName, resize, resourceClaimStatuses,
    qosClass, startTime, podIP, podIPs, conditions, initContainerStatuses, containerStatuses,
    ephemeralContainerStatuses }

/-- Reads a pod. -/
def Pod.ofJson? (j : Json) : Option Pod := do
  let ms ← j.object?
  let metadata ← Metadata.ofMembers? "v1" "Pod" ms
  let spec ← optional? PodSpec.ofJson? ms "spec"
  let status ← optional? PodStatus.ofJson? ms "status"
  return { metadata, spec, status }

/-! ### Writing -/

/-- The report on a container that ended, with its exit code always. -/
def Terminated.toJson (t : Terminated) : Json :=
  object <|
    [("exitCode", integer t.exitCode)] ++
    optional "signal" (t.signal.map integer) ++
    optional "reason" (t.reason.map text) ++
    optional "message" (t.message.map text) ++
    optional "startedAt" (t.startedAt.map Timestamp.toJson) ++
    optional "finishedAt" (t.finishedAt.map Timestamp.toJson) ++
    optional "containerID" (t.containerID.map text)

/-- The report on a container that was not started yet. -/
def Waiting.toJson (w : Waiting) : Json :=
  object <| optional "reason" (w.reason.map text) ++ optional "message" (w.message.map text)

/-- A state. -/
def ContainerState.toJson (s : ContainerState) : Json :=
  object <|
    optional "waiting" (s.waiting.map Waiting.toJson) ++
    optional "running"
      (s.running.map fun t ↦ object (optional "startedAt" (t.map Timestamp.toJson))) ++
    optional "terminated" (s.terminated.map Terminated.toJson)

/-- A claim that a container makes use of, with its name always. -/
def ResourceClaim.toJson (c : ResourceClaim) : Json :=
  object <| [("name", text c.name)] ++ optional "request" (c.request.map text)

/-- The resources of a container. -/
def Resources.toJson (r : Resources) : Json :=
  object <|
    optional "claims" (r.claims.map fun l ↦ array (l.map ResourceClaim.toJson)) ++
    optional "limits" (r.limits.map dictionary) ++
    optional "requests" (r.requests.map dictionary)

/-- The health of a device, with its name always. -/
def DeviceHealth.toJson (d : DeviceHealth) : Json :=
  object <| [("resourceID", text d.resourceID)] ++ optional "health" (d.health.map text)

/-- The health of the devices of a resource, with its name always. -/
def ResourceHealth.toJson (r : ResourceHealth) : Json :=
  object <|
    [("name", text r.name)] ++
    optional "resources" (r.resources.map fun l ↦ array (l.map DeviceHealth.toJson))

/-- A user with a number, and the number of the first group. -/
def LinuxUser.toJson (u : LinuxUser) : Json :=
  object <|
    [("uid", integer u.uid), ("gid", integer u.gid)] ++
    optional "supplementalGroups" (u.supplementalGroups.map fun l ↦ array (l.map integer))

/-- Whom a container runs as. -/
def ContainerUser.toJson (u : ContainerUser) : Json :=
  object (optional "linux" (u.linux.map LinuxUser.toJson))

/-- A mounted volume, with its name and its place always. -/
def VolumeMount.toJson (v : VolumeMount) : Json :=
  object <|
    [("name", text v.name), ("mountPath", text v.mountPath)] ++
    optional "readOnly" (v.readOnly.map bool) ++
    optional "recursiveReadOnly" (v.recursiveReadOnly.map text)

/-- The report on a container, with its names, readiness and restarts always. -/
def ContainerStatus.toJson (s : ContainerStatus) : Json :=
  object <|
    [("name", text s.name), ("image", text s.image), ("imageID", text s.imageID),
      ("ready", bool s.ready), ("restartCount", integer s.restartCount)] ++
    optional "containerID" (s.containerID.map text) ++
    optional "started" (s.started.map bool) ++
    optional "state" (s.state.map ContainerState.toJson) ++
    optional "lastState" (s.lastState.map ContainerState.toJson) ++
    optional "allocatedResources" (s.allocatedResources.map dictionary) ++
    optional "allocatedResourcesStatus"
      (s.allocatedResourcesStatus.map fun l ↦ array (l.map ResourceHealth.toJson)) ++
    optional "resources" (s.resources.map Resources.toJson) ++
    optional "user" (s.user.map ContainerUser.toJson) ++
    optional "volumeMounts" (s.volumeMounts.map fun l ↦ array (l.map VolumeMount.toJson))

/-- A condition, with its type and status always. -/
def Condition.toJson (c : Condition) : Json :=
  object <|
    [("type", text c.type), ("status", text c.status)] ++
    optional "lastProbeTime" (c.lastProbeTime.map Timestamp.toJson) ++
    optional "lastTransitionTime" (c.lastTransitionTime.map Timestamp.toJson) ++
    optional "reason" (c.reason.map text) ++
    optional "message" (c.message.map text)

/-- What was made for a claim of the pod, with the name of the claim always. -/
def ResourceClaimStatus.toJson (c : ResourceClaimStatus) : Json :=
  object <|
    [("name", text c.name)] ++ optional "resourceClaimName" (c.resourceClaimName.map text)

/-- What is reported on a pod; what is absent is left out. -/
def PodStatus.toJson (s : PodStatus) : Json :=
  let reports (list : Option (List ContainerStatus)) : Option Json :=
    list.map fun l ↦ array (l.map ContainerStatus.toJson)
  let addresses (list : Option (List String)) : Option Json :=
    list.map fun l ↦ array (l.map fun ip ↦ object [("ip", text ip)])
  object <|
    optional "phase" (s.phase.map text) ++
    optional "reason" (s.reason.map text) ++
    optional "message" (s.message.map text) ++
    optional "hostIP" (s.hostIP.map text) ++
    optional "hostIPs" (addresses s.hostIPs) ++
    optional "nominatedNodeName" (s.nominatedNodeName.map text) ++
    optional "resize" (s.resize.map text) ++
    optional "resourceClaimStatuses"
      (s.resourceClaimStatuses.map fun l ↦ array (l.map ResourceClaimStatus.toJson)) ++
    optional "qosClass" (s.qosClass.map text) ++
    optional "startTime" (s.startTime.map Timestamp.toJson) ++
    optional "podIP" (s.podIP.map text) ++
    optional "podIPs" (addresses s.podIPs) ++
    optional "conditions" (s.conditions.map fun l ↦ array (l.map Condition.toJson)) ++
    optional "initContainerStatuses" (reports s.initContainerStatuses) ++
    optional "containerStatuses" (reports s.containerStatuses) ++
    optional "ephemeralContainerStatuses" (reports s.ephemeralContainerStatuses)

end HollowFleet
