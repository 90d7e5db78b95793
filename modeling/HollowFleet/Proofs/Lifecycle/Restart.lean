import HollowFleet.Proofs.Lifecycle.Pools

/-!
# Starting a pod again

A status that a start has made says all that a start has to say: every declared container runs,
every condition has its time, and the pod has its address. So the next start changes nothing,
at whatever time it comes (`started_started`). The exception is a pod that got no address and
whose node has a pool by then: it asks for one again.

## What the theorem rests on

* A report that a start has made is its own source: made again from itself, with another clock, it
  is the same (`runningStatus_runningStatus`). A start that looks for the last report of a name may
  find that of another container of the same name, but all of these were made from one earlier
  report, so nothing changes (`lastReport?_map`, `runningList_again`).
* Conditions of the value that a start settles keep their times (`conditions_conditions`).
* The containers and the conditions do not depend on the address, so the three parts of a status can
  be treated one after the other, and the address is kept or asked for as `assignAddress_cases`
  says.

A pod that no start changes any more is said to be at rest (`AtRest`). This is about every agent, as
it is used for pods that wait in a queue while the agent goes on.
-/

namespace HollowFleet

/-! ### Statuses -/

/-- A report says no more of a container than what it is and how it fares: it knows of no state
before, and of no resources, user or mounted volumes. Reports that the agent makes are of this
kind, whatever an earlier report said in these places. -/
structure ContainerStatus.Terse (r : ContainerStatus) : Prop where
  /-- There is no state before. -/
  lastState : r.lastState = none
  /-- No amounts are set aside. -/
  allocatedResources : r.allocatedResources = none
  /-- Nothing is known of devices. -/
  allocatedResourcesStatus : r.allocatedResourcesStatus = none
  /-- No limits and no claims are in force. -/
  resources : r.resources = none
  /-- The container runs as nobody in particular. -/
  user : r.user = none
  /-- Nothing is mounted. -/
  volumeMounts : r.volumeMounts = none

namespace Lifecycle

/-- A report on a running container is the next report's source of all that is not declared. -/
theorem runningStatus_runningStatus (now now' : Timestamp) (c c' : Container)
    (previous : Option ContainerStatus) :
    runningStatus now' c (some (runningStatus now c' previous)) = runningStatus now c previous :=
  rfl

/-- A list of reports that is absent is as good as an empty one. -/
theorem runningList_getD (now : Timestamp) (previous : List ContainerStatus)
    (declared : List Container) :
    (runningList now previous declared).getD [] =
      declared.map fun c ↦ runningStatus now c (lastReport? previous c.name) := by
  rw [runningList]
  split
  · next h => rw [h]; rfl
  · rfl

/-- The containers that a pod declares, in the order of the reports. -/
def declared (spec : PodSpec) : List Container :=
  spec.initContainers.getD [] ++ spec.containers ++ spec.ephemeralContainers.getD []

/-- All reports on a started pod, in the order in which the next start reads them. -/
theorem reports_startContainers (now : Timestamp) (spec : PodSpec) (s : PodStatus) :
    reports (startContainers now spec s) =
      (declared spec).map fun c ↦ runningStatus now c (lastReport? (reports s) c.name) := by
  simp only [reports, startContainers, runningList_getD, declared, List.map_append]

/-- In a list of named things, the first of a name that occurs has that name. -/
theorem exists_find?_eq_some {α : Type} (name : α → String) {xs : List α} {x : α} (hx : x ∈ xs) :
    ∃ y, xs.find? (fun y ↦ decide (name y = name x)) = some y ∧ name y = name x := by
  cases hfound : xs.find? fun y ↦ decide (name y = name x) with
  | none =>
    have hnone := List.find?_eq_none.1 hfound x hx
    simp at hnone
  | some y => exact ⟨y, rfl, by simpa using List.find?_some hfound⟩

/-- The last report of a declared container comes from one that goes by the same name. -/
theorem lastReport?_map (report : Container → ContainerStatus)
    (hname : ∀ c, (report c).name = c.name) {cs : List Container} {c : Container} (hc : c ∈ cs) :
    ∃ c', lastReport? (cs.map report) c.name = some (report c') ∧ c'.name = c.name := by
  obtain ⟨c', hfound, hc'⟩ := exists_find?_eq_some Container.name (List.mem_reverse.2 hc)
  refine ⟨c', ?_, hc'⟩
  rw [lastReport?, ← List.map_reverse, List.find?_map]
  simp only [Function.comp_def, hname, hfound, Option.map_some]

/-- Lists of reports that a start made are made again as they are. -/
theorem runningList_again {now now' : Timestamp} {all cs : List Container}
    {previous : List ContainerStatus} (hcs : cs ⊆ all) :
    runningList now' (all.map fun c ↦ runningStatus now c (lastReport? previous c.name)) cs =
      runningList now previous cs := by
  have hreport : ∀ c ∈ cs, runningStatus now' c (lastReport?
      (all.map fun c ↦ runningStatus now c (lastReport? previous c.name)) c.name) =
        runningStatus now c (lastReport? previous c.name) := by
    intro c hc
    obtain ⟨c', hlast, hname⟩ := lastReport?_map
      (fun c ↦ runningStatus now c (lastReport? previous c.name)) (fun _ ↦ rfl) (hcs hc)
    rw [hlast, hname, runningStatus_runningStatus]
  rw [runningList, runningList, List.map_congr_left hreport]

/-- Containers that run are started without a change. -/
theorem startContainers_startContainers (now now' : Timestamp) (spec : PodSpec) (s : PodStatus) :
    startContainers now' spec (startContainers now spec s) = startContainers now spec s := by
  have hinit : spec.initContainers.getD [] ⊆ declared spec := by simp [declared]
  have hregular : spec.containers ⊆ declared spec :=
    List.subset_append_of_subset_left _ (List.subset_append_right _ _)
  have hephemeral : spec.ephemeralContainers.getD [] ⊆ declared spec := by simp [declared]
  rw [startContainers, reports_startContainers, runningList_again hinit,
    runningList_again hregular, runningList_again hephemeral]
  rfl

/-- Conditions that hold are found to hold, with the times at which they came to do so. -/
theorem conditions_conditions (now now' : Timestamp) (previous : List Condition) (value : String) :
    conditions (conditions previous value now) value now' = conditions previous value now := by
  have htime : ∀ type ∈ conditionTypes, transitionTime (conditions previous value now) value type
      now' = transitionTime previous value type now := by
    intro type htype
    obtain ⟨t, hfound, rfl⟩ := exists_find?_eq_some id htype
    rw [transitionTime, conditions, List.find?_map]
    simp only [id] at hfound
    simp only [Function.comp_def, and_true, id, hfound, Option.map_some, Option.bind_some,
      Option.getD_some]
  rw [conditions, conditions]
  exact List.map_congr_left fun type htype ↦ by rw [← conditions, htime type htype]

/-- Of a pod with a declaration the containers are started. -/
theorem prepared_of_spec {pod : Pod} {spec : PodSpec} (h : pod.spec = some spec) (now : Timestamp) :
    prepared now pod = startContainers now spec (pod.status.getD {}) := by
  rw [prepared, h]

/-- A status that is running stays as it is. -/
theorem running_running (now now' : Timestamp) (s : PodStatus) :
    running now' (running now s) = running now s := by
  simp only [running, withConditions, Option.getD_some, conditions_conditions]

end Lifecycle

namespace Agent

/-! ### Pods -/

/-- A pod is at rest if another start changes neither the pod nor the agent. -/
def AtRest (pod : Pod) : Prop := ∀ a : Agent, a.started pod = (a, pod)

/-- A status is given an address, or it stays as it is and has none. -/
theorem assignAddress_cases (a : Agent) (pod : Pod) (s : PodStatus) :
    (∃ ip, (a.assignAddress pod s).2 = s.withAddress ip ∧ ip ≠ "") ∨
      (a.assignAddress pod s).2 = s ∧ s.address? = none := by
  rw [assignAddress]
  cases hip : s.address? with
  | some ip => exact .inl ⟨ip, rfl, PodStatus.ne_empty_of_address? hip⟩
  | none =>
    cases a.poolOf? pod with
    | none => exact .inr ⟨rfl, rfl⟩
    | some found =>
      simp only
      cases found.2.allocate with
      | ok handed => exact .inl ⟨_, rfl, Quad.text_ne_empty _⟩
      | error fault => exact .inr ⟨rfl, trivial⟩

/-- The containers of a pod that was started run, so starting them again changes nothing. -/
theorem prepared_started (a : Agent) (pod : Pod) (now : Timestamp) :
    Lifecycle.prepared now (a.started pod).2 = (a.started pod).2.status.getD {} := by
  cases hspec : pod.spec with
  | none => simp [started, Lifecycle.prepared, hspec]
  | some spec =>
    have hprepared := Lifecycle.prepared_of_spec hspec a.clock
    -- neither the address nor the conditions have to do with the containers
    have hsettled : Lifecycle.startContainers now spec
        (a.assignAddress pod (Lifecycle.prepared a.clock pod)).2 =
          (a.assignAddress pod (Lifecycle.prepared a.clock pod)).2 := by
      have hagain := Lifecycle.startContainers_startContainers a.clock now spec
        (pod.status.getD {})
      rw [hprepared]
      rcases assignAddress_cases a pod
        (Lifecycle.startContainers a.clock spec (pod.status.getD {})) with ⟨ip, hip, -⟩ | ⟨hsame, -⟩
      · rw [hip]
        exact congrArg (·.withAddress ip) hagain
      · rw [hsame, hagain]
    have hrunning := congrArg (Lifecycle.running a.clock) hsettled
    simp only [Lifecycle.prepared, hspec] at hrunning
    simp only [started, Lifecycle.prepared, hspec, Option.getD_some]
    exact hrunning

/-- **A second start changes nothing**, if the first one left the pod with an address or if there
is no pool that it could ask for one. -/
theorem started_started (a b : Agent) (pod : Pod)
    (h : (a.started pod).2.address? ≠ none ∨ b.poolOf? (a.started pod).2 = none) :
    b.started (a.started pod).2 = (b, (a.started pod).2) := by
  have hassigned := assignAddress_cases a pod (Lifecycle.prepared a.clock pod)
  have haddress := address?_started a pod
  have hstatus : (a.started pod).2.status = some (Lifecycle.running a.clock
      (a.assignAddress pod (Lifecycle.prepared a.clock pod)).2) := rfl
  generalize hs : (a.assignAddress pod (Lifecycle.prepared a.clock pod)).2 = s at *
  have hkept : b.assignAddress (a.started pod).2 (Lifecycle.running a.clock s) =
      (b, Lifecycle.running a.clock s) := by
    rw [assignAddress, Lifecycle.address?_running]
    rcases hassigned with ⟨ip, rfl, hip⟩ | ⟨rfl, hnone⟩
    · rw [PodStatus.address?_withAddress _ hip]
      rfl
    · have hpool : b.poolOf? (a.started pod).2 = none :=
        h.resolve_left fun hne ↦ hne (haddress.trans hnone)
      rw [hnone, hpool]
  rw [started, prepared_started, hstatus, Option.getD_some, hkept, Lifecycle.running_running,
    ← hstatus]

/-- A pod that was started is at rest if it has an address or is bound to no node. -/
theorem atRest_started (a : Agent) (pod : Pod)
    (h : (a.started pod).2.address? ≠ none ∨ pod.node? = none) : AtRest (a.started pod).2 := by
  intro b
  refine started_started a b pod (h.imp_right fun hnode ↦ ?_)
  refine poolOf?_eq_none_iff.2 fun node hbound ↦ ?_
  rw [show (a.started pod).2.node? = pod.node? from rfl, hnode] at hbound
  cases hbound

/-- A pod whose status one start left as it was is left alone by every start. -/
theorem atRest_of_status_eq {a : Agent} {pod : Pod} (h : (a.started pod).2.status = pod.status)
    (hasks : pod.address? ≠ none ∨ pod.node? = none) : AtRest pod := by
  have hsame : (a.started pod).2 = pod := by
    show { pod with status := (a.started pod).2.status } = pod
    rw [h]
  have hrest := atRest_started a pod
  rw [hsame] at hrest
  exact hrest hasks

end Agent

end HollowFleet
