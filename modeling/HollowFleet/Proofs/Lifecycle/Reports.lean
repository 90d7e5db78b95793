import HollowFleet.Proofs.Cluster.Transcript
import HollowFleet.Proofs.Lifecycle.Queues
import HollowFleet.Proofs.Lifecycle.Restart
import Mathlib.Data.List.Forall2

/-!
# What is reported on a started pod

A start reports on every declared container, and on no other. What it does not know from the
declaration it takes from the last earlier report of the container's name, wherever that stood
(`runsAfter_runningStatus`); a container without one is new. So containers may have moved from one
list to another, may share a name, or may be gone. Together with the conditions, the address and
what a start leaves alone, that is the status of a started pod in full, and it is written exactly
if it is not the status that the pod came with (`startPod_runs`).

## What the main theorem rests on

* The reports are looked at one by one. `runsAfter_runningStatus` is about one container and the
  last earlier report of its name; `listsRunning_runningList` goes through a list of containers, and
  the three lists of a pod are three cases of it.
* A start makes a report anew and copies into it what is to be kept. So whatever is not copied is
  absent afterwards (`ContainerStatus.Terse`), also where an earlier report or the cluster had
  filled it in; and since statuses are compared in full, such a field is a reason to write.
* The address is the only thing in the status that the node's pool has a part in.
  `runsAfter_running` takes the two ways in which it can turn out.
* That the status is written exactly if it changed is a statement about the calls of a start, on any
  host (`transcript_startPod`).
-/

namespace HollowFleet

open Agent Lifecycle

/-! ### Reports on containers -/

/-- A report is the last one of a name. -/
def Latest (name : String) (reports : List ContainerStatus) (r : ContainerStatus) : Prop :=
  ∃ before after, reports = before ++ r :: after ∧ r.name = name ∧ ∀ q ∈ after, q.name ≠ name

/-- The report on a declared container that runs, after some earlier reports. -/
structure Container.RunsAfter (earlier : List ContainerStatus) (now : Timestamp) (c : Container)
    (r : ContainerStatus) : Prop where
  /-- It goes by the name of the container. -/
  name : r.name = c.name
  /-- The image is the declared one. -/
  image : r.image = c.image.getD ""
  /-- The container takes requests. -/
  ready : r.ready = true
  /-- It has passed its start. -/
  started : r.started = some true
  /-- It runs, and is in no other state. -/
  state : ∃ since,
    r.state = some { waiting := none, running := some (some since), terminated := none }
  /-- Nothing else is said of it, even if it was before. -/
  terse : r.Terse
  /-- What the last earlier report of the name knows is kept. -/
  kept : ∀ p, Latest c.name earlier p → r.imageID = p.imageID ∧ r.containerID = p.containerID ∧
    r.restartCount = p.restartCount ∧ runningSince? r = some ((runningSince? p).getD now)
  /-- Without an earlier report of the name the container is new. -/
  new : (∀ p ∈ earlier, p.name ≠ c.name) → r.imageID = "" ∧ r.containerID = none ∧
    r.restartCount = 0 ∧ runningSince? r = some now

/-- The reports on the containers of a kind: one for each, in the order in which they are declared.
Without containers there is no list. -/
structure ListsRunning (earlier : List ContainerStatus) (now : Timestamp)
    (declared : List Container) (list : Option (List ContainerStatus)) : Prop where
  /-- There is a list exactly if there are containers. -/
  absent : list = none ↔ declared = []
  /-- It reports on the containers one by one. -/
  each : List.Forall₂ (Container.RunsAfter earlier now) declared (list.getD [])

namespace Lifecycle

/-- The report that a start goes back to is the last one of the name, in the order of the lists. -/
theorem lastReport?_eq_some_iff {xs : List ContainerStatus} {name : String} {r : ContainerStatus} :
    lastReport? xs name = some r ↔ Latest name xs r := by
  rw [lastReport?, List.find?_eq_some_iff_append]
  constructor
  · rintro ⟨hname, after, before, heq, hafter⟩
    refine ⟨before.reverse, after.reverse, ?_, by simpa using hname, by simpa using hafter⟩
    rw [← List.reverse_reverse xs, heq]
    simp
  · rintro ⟨before, after, rfl, hname, hafter⟩
    exact ⟨by simpa using hname, after.reverse, before.reverse, by simp, by simpa using hafter⟩

/-- A container without a report of its name is new to the agent. -/
theorem lastReport?_eq_none_iff {xs : List ContainerStatus} {name : String} :
    lastReport? xs name = none ↔ ∀ r ∈ xs, r.name ≠ name := by
  simp [lastReport?]

/-- **The report on one container** has what is declared, what is known, and nothing besides. -/
theorem runsAfter_runningStatus (earlier : List ContainerStatus) (now : Timestamp) (c : Container) :
    c.RunsAfter earlier now (runningStatus now c (lastReport? earlier c.name)) where
  name := rfl
  image := rfl
  ready := rfl
  started := rfl
  state := ⟨_, rfl⟩
  terse := ⟨rfl, rfl, rfl, rfl, rfl, rfl⟩
  kept p hp := by
    rw [lastReport?_eq_some_iff.2 hp]
    exact ⟨rfl, rfl, rfl, rfl⟩
  new h := by
    rw [lastReport?_eq_none_iff.2 h]
    exact ⟨rfl, rfl, rfl, rfl⟩

/-- The containers of a kind are reported one by one, in the order of the declaration. -/
theorem listsRunning_runningList (earlier : List ContainerStatus) (now : Timestamp)
    (declared : List Container) :
    ListsRunning earlier now declared (runningList now earlier declared) where
  absent := by
    rw [runningList]
    split
    · next h => exact iff_of_true rfl h
    · next h => exact iff_of_false (Option.some_ne_none _) h
  each := by
    rw [runningList_getD, List.forall₂_map_right_iff, List.forall₂_same]
    exact fun c _ ↦ runsAfter_runningStatus earlier now c

end Lifecycle

/-! ### Reports on pods -/

/-- What is reported on a pod that was started, after what was reported before. -/
structure PodStatus.RunsAfter (earlier : PodStatus) (now : Timestamp) (spec : PodSpec)
    (s : PodStatus) : Prop where
  /-- The init containers run. -/
  init : ListsRunning (reports earlier) now (spec.initContainers.getD []) s.initContainerStatuses
  /-- The regular containers run. -/
  regular : ListsRunning (reports earlier) now spec.containers s.containerStatuses
  /-- The ephemeral containers run. -/
  ephemeral : ListsRunning (reports earlier) now (spec.ephemeralContainers.getD [])
    s.ephemeralContainerStatuses
  /-- The four standard conditions hold, and there are no others. -/
  conditions : ∃ cs, s.conditions = some cs ∧ cs.map (fun c ↦ (c.type, c.status)) =
    [("Initialized", "True"), ("Ready", "True"), ("ContainersReady", "True"),
      ("PodScheduled", "True")]
  /-- The pod is running. -/
  phase : s.phase = some "Running"
  /-- An address stands alone, and as the only one of the list. -/
  address : ∀ ip, s.address? = some ip → s.podIP = some ip ∧ s.podIPs = some [ip]
  /-- An address that was there is kept. -/
  kept : ∀ ip, earlier.address? = some ip → s.address? = some ip
  /-- So is the time at which the node took the pod on. -/
  startTime : s.startTime = some (earlier.startTime.getD now)
  /-- The rest is left alone. -/
  rest : s.reason = earlier.reason ∧ s.message = earlier.message ∧ s.hostIP = earlier.hostIP ∧
    s.hostIPs = earlier.hostIPs ∧ s.nominatedNodeName = earlier.nominatedNodeName ∧
    s.resize = earlier.resize ∧ s.resourceClaimStatuses = earlier.resourceClaimStatuses ∧
    s.qosClass = earlier.qosClass

namespace Lifecycle

/-- Whether or not the started containers are given an address, the status is as it should be. -/
theorem runsAfter_running {now : Timestamp} {spec : PodSpec} {earlier s : PodStatus}
    (h : (∃ ip, s = (startContainers now spec earlier).withAddress ip ∧ ip ≠ "" ∧
        ∀ ip', earlier.address? = some ip' → ip' = ip) ∨
      s = startContainers now spec earlier ∧ earlier.address? = none) :
    earlier.RunsAfter now spec (running now s) := by
  have hinit := listsRunning_runningList (reports earlier) now (spec.initContainers.getD [])
  have hregular := listsRunning_runningList (reports earlier) now spec.containers
  have hephemeral :=
    listsRunning_runningList (reports earlier) now (spec.ephemeralContainers.getD [])
  rcases h with ⟨ip, rfl, hne, hkept⟩ | ⟨rfl, hnone⟩
  · refine ⟨hinit, hregular, hephemeral, ⟨_, rfl, rfl⟩, rfl, fun ip' hip' ↦ ?_, fun ip' hip' ↦ ?_,
      rfl, rfl, rfl, rfl, rfl, rfl, rfl, rfl, rfl⟩
    · rw [address?_running, PodStatus.address?_withAddress _ hne] at hip'
      obtain rfl := Option.some.inj hip'
      exact ⟨rfl, rfl⟩
    · rw [address?_running, PodStatus.address?_withAddress _ hne, hkept ip' hip']
  · have hbare : (running now (startContainers now spec earlier)).address? = none := hnone
    refine ⟨hinit, hregular, hephemeral, ⟨_, rfl, rfl⟩, rfl, fun ip' hip' ↦ ?_, fun ip' hip' ↦ ?_,
      rfl, rfl, rfl, rfl, rfl, rfl, rfl, rfl, rfl⟩
    · rw [hbare] at hip'
      cases hip'
    · rw [hnone] at hip'
      cases hip'

end Lifecycle

namespace Agent

variable {ε : Type}

/-- The status of a started pod. -/
theorem runsAfter_started (a : Agent) {pod : Pod} {spec : PodSpec} (hspec : pod.spec = some spec) :
    ∃ s, (a.started pod).2 = { pod with status := some s } ∧
      (pod.status.getD {}).RunsAfter a.clock spec s := by
  refine ⟨_, rfl, runsAfter_running ?_⟩
  have hprepared := prepared_of_spec hspec a.clock
  rw [hprepared, pod.address?_getD]
  rcases assignAddress_cases a pod (startContainers a.clock spec (pod.status.getD {})) with
    ⟨ip, hgiven, hne⟩ | ⟨hsame, hnone⟩
  · refine .inl ⟨ip, hgiven, hne, fun ip' hip' ↦ ?_⟩
    have hstarted := address?_started_of_some (a := a) hip'
    rw [address?_started, hprepared, hgiven, PodStatus.address?_withAddress _ hne] at hstarted
    exact (Option.some.inj hstarted).symm
  · rw [← hprepared, address?_prepared] at hnone
    exact .inr ⟨hsame, hnone⟩

/-- A start calls for nothing but the status to be written, and only if it changed. -/
theorem transcript_startPod (host : Host Agent ε) (world : ε) (a : Agent) (pod : Pod) :
    ((a.started pod).2.status = pod.status → (startPod pod).transcript host world a = []) ∧
      ((a.started pod).2.status ≠ pod.status → ∃ reply,
        (startPod pod).transcript host world a =
          [.call (.updatePodStatus (a.started pod).2) reply]) := by
  constructor
  · intro h
    rw [Task.transcript, startPod_of_eq h]
    rfl
  · intro h
    rw [Task.transcript, startPod_of_ne h, Progress.transcript]
    cases host.call world (a.started pod).1 (.updatePodStatus (a.started pod).2) with
    | resumed s' world' r => exact ⟨some r, rfl⟩
    | abandoned s' world' => exact ⟨none, rfl⟩

/-- **What a start makes of a pod.** Whatever was reported on a pod with a declaration, and
whatever its node's pool is, the start settles a status, which reports every declared container
running, the standard conditions, and the address, and keeps what was known. This status is
written exactly if it is not the one that the pod came with. -/
theorem startPod_runs (a : Agent) (pod : Pod) (spec : PodSpec) (hspec : pod.spec = some spec) :
    ∃ s, (pod.status.getD {}).RunsAfter a.clock spec s ∧
      ∀ {ε : Type} (host : Host Agent ε) (world : ε),
        (host.Answers → ∃ reply, ((startPod pod).run host world a).result =
          some ({ pod with status := some s }, reply)) ∧
        (some s = pod.status → (startPod pod).transcript host world a = []) ∧
        (some s ≠ pod.status → ∃ reply, (startPod pod).transcript host world a =
          [.call (.updatePodStatus { pod with status := some s }) reply]) := by
  obtain ⟨s, hstarted, hruns⟩ := runsAfter_started a hspec
  refine ⟨s, hruns, fun host world ↦ ?_⟩
  obtain ⟨hsame, hchanged⟩ := transcript_startPod host world a pod
  rw [hstarted] at hsame hchanged
  refine ⟨fun hanswers ↦ ?_, hsame, hchanged⟩
  rw [← hstarted]
  exact exists_reply hanswers world (ensures_settled_startPod _ pod a)

/-! ### A container that moved -/

/-- A pod with one container, `app`. -/
def movedSpec : PodSpec where
  containers := [{ name := "app", image := some "nginx" }]

/-- The last report on `app`. -/
def lastSeen : ContainerStatus where
  name := "app"
  imageID := "sha256:0"
  restartCount := 3
  state := some { running := some (some ⟨5, false⟩) }
  volumeMounts := some [{ name := "data", mountPath := "/data" }]

/-- The container is a regular one by now, but was reported as an init container and, last in the
order of the lists, as an ephemeral one. -/
def movedPod : Pod where
  metadata := { name := some "web", space := some "default" }
  spec := some movedSpec
  status := some {
    podIPs := some ["10.244.1.7"]
    initContainerStatuses := some [{ name := "app", restartCount := 1 }]
    ephemeralContainerStatuses := some [lastSeen, { name := "gone" }] }

/-- The last one of its reports is carried on, in the list of the regular containers; that a volume
was mounted is not. -/
theorem startPod_runs_of_moved :
    movedPod.spec = some movedSpec ∧ ∃ s r reply,
      ((startPod movedPod).run obliging () (.initial {} ⟨9, false⟩)).result =
        some ({ movedPod with status := some s }, reply) ∧
      s.initContainerStatuses = none ∧ s.containerStatuses.getD [] = [r] ∧
      r.imageID = "sha256:0" ∧ r.restartCount = 3 ∧ runningSince? r = some ⟨5, false⟩ ∧
      r.volumeMounts = none ∧ s.podIP = some "10.244.1.7" := by
  obtain ⟨s, hruns, hhost⟩ :=
    startPod_runs (.initial {} ⟨9, false⟩) movedPod movedSpec rfl
  obtain ⟨hresult, -⟩ := hhost obliging ()
  obtain ⟨reply, hreply⟩ := hresult answers_obliging
  have heach := hruns.regular.each
  rcases hlist : s.containerStatuses.getD [] with - | ⟨r, - | ⟨r', rest⟩⟩
  · rw [hlist] at heach
    cases heach
  · rw [hlist] at heach
    have happ := (List.forall₂_cons.1 heach).1
    obtain ⟨himage, -, hrestarts, hsince⟩ := happ.kept lastSeen
      ⟨[{ name := "app", restartCount := 1 }], [{ name := "gone" }], rfl, rfl, by decide⟩
    exact ⟨rfl, s, r, reply, hreply, hruns.init.absent.2 rfl, hlist, himage, hrestarts, hsince,
      happ.terse.volumeMounts, (hruns.address _ (hruns.kept "10.244.1.7" (by decide))).1⟩
  · rw [hlist] at heach
    cases (List.forall₂_cons.1 heach).2

end Agent

end HollowFleet
