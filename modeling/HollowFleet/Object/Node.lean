import HollowFleet.Object.Metadata

/-!
# Nodes

A node declares the blocks from which its pods take their addresses and reports its capacity,
its own addresses and its health. `Node.healthy` is the node that the fleet registers: a
machine of four cores and sixteen gibibytes with nothing to complain about.

Nodes are created and read, but never changed: a node that the cluster knows is taken as it is. So
of a node that is read only the parts are kept that the agent looks at, which are the metadata, the
blocks, the capacity, and the addresses, and the parts that a registered node has.

The block of a node's pods is the one that is declared alone (`podBlock?`). Only if there is none
the first of the declared list counts; a block that is declared alone and empty is none, and the
list is not asked then. The index of a node in the fleet settles its name, its address and its block
(`fleetName`, `fleetAddress`, `fleetBlock`), so that a fleet that is registered again is the same
fleet.
-/

namespace HollowFleet

open Json

/-- What a node declares. -/
structure NodeSpec where
  /-- The block of its pods' addresses. -/
  podCIDR : Option String := none
  /-- All blocks of its pods' addresses. -/
  podCIDRs : Option (List String) := none
deriving DecidableEq, Repr, Inhabited

/-- An address of a node. -/
structure NodeAddress where
  /-- What the address is for. -/
  type : String := ""
  /-- The address. -/
  address : String := ""
deriving DecidableEq, Repr, Inhabited

/-- A condition of a node. -/
structure NodeCondition where
  /-- Which condition. -/
  type : String
  /-- Whether it holds. -/
  status : String
  /-- When it was last confirmed. -/
  lastHeartbeatTime : Option Timestamp
  /-- When it last changed. -/
  lastTransitionTime : Option Timestamp
  /-- Why, for programs. -/
  reason : Option String
  /-- Why, for people. -/
  message : Option String
deriving DecidableEq, Repr, Inhabited

/-- The machine behind a node. -/
structure Machine where
  /-- The identity of the machine. -/
  machineID : String
  /-- The identity of the hardware. -/
  systemUUID : String
  /-- The identity of the last start. -/
  bootID : String
  /-- The version of the kernel. -/
  kernelVersion : String
  /-- The operating system's release. -/
  osImage : String
  /-- What runs the containers. -/
  containerRuntimeVersion : String
  /-- The version of the node agent. -/
  kubeletVersion : String
  /-- The version of the service proxy. -/
  kubeProxyVersion : String
  /-- The operating system. -/
  operatingSystem : String
  /-- The processor. -/
  architecture : String
deriving DecidableEq, Repr, Inhabited

/-- What is reported on a node. -/
structure NodeStatus where
  /-- All amounts of the node. -/
  capacity : Option (List (String × String)) := none
  /-- The amounts left for pods. -/
  allocatable : Option (List (String × String)) := none
  /-- Its addresses. -/
  addresses : Option (List NodeAddress) := none
  /-- Its conditions. -/
  conditions : Option (List NodeCondition) := none
  /-- Its machine. -/
  nodeInfo : Option Machine := none
deriving DecidableEq, Repr, Inhabited

/-- A node. -/
structure Node where
  /-- Names and versions. -/
  metadata : Metadata := {}
  /-- What the node declares. -/
  spec : Option NodeSpec := none
  /-- What is reported on it. -/
  status : Option NodeStatus := none
deriving DecidableEq, Repr, Inhabited

namespace Node

/-- The name under which the node goes. -/
def name (node : Node) : String := node.metadata.displayName

/-- The first address that the node reports for traffic inside the cluster. -/
def internalAddress? (node : Node) : Option String := do
  let status ← node.status
  let addresses ← status.addresses
  let found ← addresses.find? fun a ↦ decide (a.type = "InternalIP")
  return found.address

/-- The block of the node's pods: the one declared alone, else the first of the declared
list; an empty one is none. -/
def podBlock? (node : Node) : Option String := do
  let spec ← node.spec
  let block ← match spec.podCIDR with
    | some block => some block
    | none => (spec.podCIDRs.getD []).head?
  if block = "" then none else some block

/-! ### The registered node -/

/-- The label that carries the host name. -/
def hostnameLabel : String := "kubernetes.io/hostname"

/-- A condition that was confirmed and last changed at `now`. -/
def settledCondition (now : Timestamp) (type status reason message : String) : NodeCondition :=
  ⟨type, status, some now, some now, some reason, some message⟩

/-- The conditions of a node without complaints. -/
def healthyConditions (now : Timestamp) : List NodeCondition :=
  [settledCondition now "Ready" "True" "KubeletReady" "kubelet is posting ready status",
    settledCondition now "MemoryPressure" "False" "KubeletHasSufficientMemory"
      "kubelet has sufficient memory available",
    settledCondition now "DiskPressure" "False" "KubeletHasNoDiskPressure"
      "kubelet has no disk pressure",
    settledCondition now "PIDPressure" "False" "KubeletHasSufficientPID"
      "kubelet has sufficient PID available"]

/-- The machine that every registered node claims to be. -/
def standardMachine : Machine where
  machineID := "machine-id-123"
  systemUUID := "system-uuid-456"
  bootID := "boot-id-789"
  kernelVersion := "5.4.0"
  osImage := "Ubuntu 20.04"
  containerRuntimeVersion := "docker://19.3.12"
  kubeletVersion := "v1.20.0"
  kubeProxyVersion := "v1.20.0"
  operatingSystem := "linux"
  architecture := "amd64"

/-- A node without complaints, with an internal address and a block for its pods. -/
def healthy (now : Timestamp) (name address block : String) : Node where
  metadata := { name := some name, labels := some [(hostnameLabel, name)] }
  spec := some { podCIDR := some block, podCIDRs := some [block] }
  status := some {
    capacity := some
      [("cpu", "4"), ("memory", "16Gi"), ("ephemeral-storage", "100Gi"), ("pods", "110")]
    allocatable := some
      [("cpu", "3800m"), ("memory", "15.5Gi"), ("ephemeral-storage", "95Gi"), ("pods", "110")]
    addresses := some [⟨"InternalIP", address⟩, ⟨"Hostname", name⟩]
    conditions := some (healthyConditions now)
    nodeInfo := some standardMachine }

/-- The name of the node of an index in the fleet. -/
def fleetName (index : Nat) : String := "mock-node-" ++ toString index

/-- The address of the node of an index in the fleet. -/
def fleetAddress (index : Nat) : String := "10.10.10." ++ toString (index + 1)

/-- The block for the pods of the node of an index in the fleet. -/
def fleetBlock (index : Nat) : String := "10.244." ++ toString (index + 1) ++ ".0/24"

end Node

/-! ### Reading -/

/-- Reads what a node declares. -/
def NodeSpec.ofJson? (j : Json) : Option NodeSpec := do
  let ms ← j.object?
  let podCIDR ← optional? text? ms "podCIDR"
  let podCIDRs ← optional? (list? text?) ms "podCIDRs"
  return { podCIDR, podCIDRs }

/-- Reads an address of a node. -/
def NodeAddress.ofJson? (j : Json) : Option NodeAddress := do
  let ms ← j.object?
  let type ← defaulted? text? "" ms "type"
  let address ← defaulted? text? "" ms "address"
  return { type, address }

/-- Reads a condition of a node. -/
def NodeCondition.ofJson? (j : Json) : Option NodeCondition := do
  let ms ← j.object?
  let type ← defaulted? text? "" ms "type"
  let status ← defaulted? text? "" ms "status"
  let lastHeartbeatTime ← optional? timestamp? ms "lastHeartbeatTime"
  let lastTransitionTime ← optional? timestamp? ms "lastTransitionTime"
  let reason ← optional? text? ms "reason"
  let message ← optional? text? ms "message"
  return { type, status, lastHeartbeatTime, lastTransitionTime, reason, message }

/-- Reads the machine behind a node. -/
def Machine.ofJson? (j : Json) : Option Machine := do
  let ms ← j.object?
  let read := defaulted? text? "" ms
  let machineID ← read "machineID"
  let systemUUID ← read "systemUUID"
  let bootID ← read "bootID"
  let kernelVersion ← read "kernelVersion"
  let osImage ← read "osImage"
  let containerRuntimeVersion ← read "containerRuntimeVersion"
  let kubeletVersion ← read "kubeletVersion"
  let kubeProxyVersion ← read "kubeProxyVersion"
  let operatingSystem ← read "operatingSystem"
  let architecture ← read "architecture"
  return {
    machineID, systemUUID, bootID, kernelVersion, osImage, containerRuntimeVersion,
    kubeletVersion, kubeProxyVersion, operatingSystem, architecture }

/-- Reads what is reported on a node. -/
def NodeStatus.ofJson? (j : Json) : Option NodeStatus := do
  let ms ← j.object?
  let capacity ← optional? (dictionary? text?) ms "capacity"
  let allocatable ← optional? (dictionary? text?) ms "allocatable"
  let addresses ← optional? (list? NodeAddress.ofJson?) ms "addresses"
  let conditions ← optional? (list? NodeCondition.ofJson?) ms "conditions"
  let nodeInfo ← optional? Machine.ofJson? ms "nodeInfo"
  return { capacity, allocatable, addresses, conditions, nodeInfo }

/-- Reads a node. -/
def Node.ofJson? (j : Json) : Option Node := do
  let ms ← j.object?
  let metadata ← Metadata.ofMembers? "v1" "Node" ms
  let spec ← optional? NodeSpec.ofJson? ms "spec"
  let status ← optional? NodeStatus.ofJson? ms "status"
  return { metadata, spec, status }

/-! ### Writing -/

/-- What a node declares. -/
def NodeSpec.toJson (s : NodeSpec) : Json :=
  object <|
    optional "podCIDR" (s.podCIDR.map text) ++
    optional "podCIDRs" (s.podCIDRs.map fun l ↦ array (l.map text))

/-- An address of a node. -/
def NodeAddress.toJson (a : NodeAddress) : Json :=
  object [("type", text a.type), ("address", text a.address)]

/-- A condition of a node. -/
def NodeCondition.toJson (c : NodeCondition) : Json :=
  object <|
    [("type", text c.type), ("status", text c.status)] ++
    optional "lastHeartbeatTime" (c.lastHeartbeatTime.map fun t ↦ text t.seconds) ++
    optional "lastTransitionTime" (c.lastTransitionTime.map fun t ↦ text t.seconds) ++
    optional "reason" (c.reason.map text) ++
    optional "message" (c.message.map text)

/-- The machine behind a node. -/
def Machine.toJson (m : Machine) : Json :=
  object
    [("machineID", text m.machineID), ("systemUUID", text m.systemUUID),
      ("bootID", text m.bootID), ("kernelVersion", text m.kernelVersion),
      ("osImage", text m.osImage), ("containerRuntimeVersion", text m.containerRuntimeVersion),
      ("kubeletVersion", text m.kubeletVersion), ("kubeProxyVersion", text m.kubeProxyVersion),
      ("operatingSystem", text m.operatingSystem), ("architecture", text m.architecture)]

/-- What is reported on a node. -/
def NodeStatus.toJson (s : NodeStatus) : Json :=
  object <|
    optional "capacity" (s.capacity.map dictionary) ++
    optional "allocatable" (s.allocatable.map dictionary) ++
    optional "addresses" (s.addresses.map fun l ↦ array (l.map NodeAddress.toJson)) ++
    optional "conditions" (s.conditions.map fun l ↦ array (l.map NodeCondition.toJson)) ++
    optional "nodeInfo" (s.nodeInfo.map Machine.toJson)

/-- A node; what is absent is left out. -/
def Node.toJson (node : Node) : Json :=
  object <|
    [("apiVersion", text "v1"), ("kind", text "Node"), ("metadata", node.metadata.toJson)] ++
    optional "spec" (node.spec.map NodeSpec.toJson) ++
    optional "status" (node.status.map NodeStatus.toJson)

end HollowFleet
