import HollowFleet.Proofs.Lifecycle.Reports
import HollowFleet.Proofs.Lifecycle.Stops
import Mathlib.Data.List.DropRight

/-!
# The times that a pod reports

A pod that is started and stopped again and again reports four kinds of times: those at which its
conditions changed, at which its containers began and ended, and at which it was taken on. All of
them are settled by the chronicle of the calls and their clocks. A call dates what the call before
it was not about, and what a run of like calls dated at first is kept to the end of the run
(`tended_times`).

One step is `Dated.settled`. It goes back to the status for what is not settled by the call itself:
to the conditions of the same value, to the reports that say running, to those that say completed.

## What the main theorem rests on

* `Dated` is the invariant: each kind of time in the status is a function of the chronicle. For a
  condition it is the beginning of the run of like calls with which the chronicle ends (`since?`),
  for a container that ended it is the run of starts before the last stops (`beforeStops`).
* How these functions change with one more call is said by the lemmas with `concat`, one for a call
  of the same kind and one for a call of the other kind.
* A start and a stop read different reports. `Dated.concat_start` and `Dated.concat_stop` are the
  two cases of the step, and `Dated.settled` puts them together with the pod and the agent.
* `dated_tended` is the induction on the calls. The clock is not asked to go forward: the times are
  copies of what it showed, in whatever order.
-/

namespace HollowFleet

open Agent Lifecycle

/-! ### Chronicles -/

/-- What is done to a pod. -/
inductive Deed where
  /-- It is started. -/
  | start
  /-- It is stopped. -/
  | stop
deriving DecidableEq, Repr

/-- What was done to a pod, and what the clock showed each time. -/
abbrev Chronicle := List (Deed × Timestamp)

namespace Chronicle

/-- When the unbroken run of like calls began with which the chronicle ends. -/
def since? (calls : Chronicle) (d : Deed) : Option Timestamp :=
  (calls.rtakeWhile fun c ↦ decide (c.1 = d)).head?.map Prod.snd

/-- When it was done for the first time. -/
def first? (calls : Chronicle) (d : Deed) : Option Timestamp :=
  (calls.find? fun c ↦ decide (c.1 = d)).map Prod.snd

/-- The chronicle up to the stops with which it ends. -/
def beforeStops (calls : Chronicle) : Chronicle :=
  calls.rdropWhile fun c ↦ decide (c.1 = .stop)

variable (calls : Chronicle) (d : Deed) (t : Timestamp)

/-- A call goes on with a run of its own kind, or it begins one. -/
theorem since?_concat_self : since? (calls ++ [(d, t)]) d = some ((since? calls d).getD t) := by
  rw [since?, List.rtakeWhile_concat_pos _ _ _ (by simp), since?]
  cases calls.rtakeWhile fun c ↦ decide (c.1 = d) <;> rfl

variable {d} in
/-- A call breaks off a run of the other kind. -/
theorem since?_concat_ne {d' : Deed} (h : d ≠ d') : since? (calls ++ [(d, t)]) d' = none := by
  rw [since?, List.rtakeWhile_concat_neg _ _ _ (by simp [h])]
  rfl

/-- Only the first call of a kind counts as the first, however many follow. -/
theorem first?_concat_self : first? (calls ++ [(d, t)]) d = some ((first? calls d).getD t) := by
  rw [first?, first?, List.find?_append]
  cases calls.find? fun c ↦ decide (c.1 = d) <;> simp

variable {d} in
theorem first?_concat_ne {d' : Deed} (h : d ≠ d') :
    first? (calls ++ [(d, t)]) d' = first? calls d' := by
  simp [first?, List.find?_append, h]

theorem beforeStops_concat_start :
    beforeStops (calls ++ [(.start, t)]) = calls ++ [(.start, t)] :=
  List.rdropWhile_concat_neg _ _ _ (by simp)

theorem beforeStops_concat_stop : beforeStops (calls ++ [(.stop, t)]) = beforeStops calls :=
  List.rdropWhile_concat_pos _ _ _ (by simp)

variable {calls}

/-- What was never done has not been going on since any time. -/
theorem since?_eq_none_of_first? (h : first? calls d = none) : since? calls d = none := by
  rw [first?, Option.map_eq_none_iff, List.find?_eq_none] at h
  rw [since?, Option.map_eq_none_iff, List.head?_eq_none_iff, List.eq_nil_iff_forall_not_mem]
  intro c hc
  exact h c ((List.rtakeWhile_suffix _ _).subset hc) (by simpa using List.mem_rtakeWhile_imp hc)

/-- After the first start there is always a run of starts, perhaps with stops after it. -/
theorem exists_since?_beforeStops (h : first? calls .start ≠ none) :
    ∃ began, since? (beforeStops calls) .start = some began := by
  induction calls using List.reverseRecOn with
  | nil => exact absurd rfl h
  | append_singleton calls call ih =>
    obtain ⟨- | -, t⟩ := call
    · rw [beforeStops_concat_start, since?_concat_self]
      exact ⟨_, rfl⟩
    · rw [first?_concat_ne _ _ (by decide)] at h
      rw [beforeStops_concat_stop]
      exact ih h

end Chronicle

/-! ### Calls -/

namespace Deed

/-- The call. -/
def task : Deed → Pod → Task Agent (Pod × Except Fault Unit)
  | start => startPod
  | stop => stopPod

/-- The pod that a call settles. -/
def settled : Deed → Agent → Pod → Pod
  | start, a, pod => (a.started pod).2
  | stop, a, pod => (a.stopped pod).2

/-- The value that the conditions take. -/
def value : Deed → String
  | start => "True"
  | stop => "False"

theorem value_inj {d d' : Deed} : d.value = d'.value ↔ d = d' := by
  cases d <;> cases d' <;> decide

end Deed

/-- A call on a pod, and the agent that makes it. -/
structure PodCall where
  /-- What is done. -/
  deed : Deed
  /-- The agent, with its clock and its pools. -/
  agent : Agent

/-- What the chronicle says of a call. -/
def PodCall.dated (e : PodCall) : Deed × Timestamp := (e.deed, e.agent.clock)

section

variable {ε : Type}

/-- Makes a call on a pod. -/
def PodCall.run (host : Host Agent ε) (here : Pod × ε) (e : PodCall) : Pod × ε :=
  let run := (e.deed.task here.1).run host here.2 e.agent
  ((run.result.map Prod.fst).getD here.1, run.world)

/-- Makes some calls on a pod, each on the pod as the one before it left it. -/
def Pod.tended (host : Host Agent ε) (world : ε) (pod : Pod) (podCalls : List PodCall) : Pod × ε :=
  podCalls.foldl (PodCall.run host) (pod, world)

/-- One more call is made on the pod as the calls before left it. -/
theorem Pod.tended_concat (host : Host Agent ε) (world : ε) (pod : Pod) (podCalls : List PodCall)
    (e : PodCall) :
    pod.tended host world (podCalls ++ [e]) = e.run host (pod.tended host world podCalls) := by
  rw [tended, List.foldl_append]
  rfl

/-- A call that is answered leaves the pod that it settled. -/
theorem PodCall.run_fst {host : Host Agent ε} (hanswers : host.Answers) (here : Pod × ε)
    (e : PodCall) : (e.run host here).1 = e.deed.settled e.agent here.1 := by
  obtain ⟨reply, hresult⟩ : ∃ reply, ((e.deed.task here.1).run host here.2 e.agent).result =
      some (e.deed.settled e.agent here.1, reply) := by
    rcases e with ⟨- | -, a⟩
    · exact exists_reply hanswers here.2 (ensures_settled_startPod _ here.1 a)
    · exact exists_reply hanswers here.2 (ensures_settled_stopPod _ here.1 a)
  rw [run, hresult]
  rfl

end

/-! ### What the status tells -/

namespace Lifecycle

/-- When a container began, if the report says that it is running or that it completed. -/
def startedAt? (r : ContainerStatus) : Option Timestamp :=
  (runningSince? r).or ((r.state.bind ContainerState.terminated).bind Terminated.startedAt)

/-- When a container ended, if the report says that it completed. -/
def finishedAt? (r : ContainerStatus) : Option Timestamp :=
  (r.state.bind ContainerState.terminated).bind Terminated.finishedAt

/-- A report that a container completed knows when it began, as the report before did. -/
theorem startedAt?_completedStatus (finish : Timestamp) (r : ContainerStatus) :
    startedAt? (completedStatus finish r) = startedAt? r := by
  rw [startedAt?, startedAt?, completedStatus]
  cases runningSince? r <;> rfl

/-- The standard conditions, all of one value since one time. -/
def standard (value : String) (since : Timestamp) : List Condition :=
  conditionTypes.map fun type ↦ { type, status := value, lastTransitionTime := some since }

/-- Conditions that agree on the time of a value go on with it. -/
theorem conditions_eq_standard {previous : List Condition} {value : String} (now : Timestamp)
    {since? : Option Timestamp} (h : ∀ type ∈ conditionTypes,
      (previous.find? fun c ↦ decide (c.type = type ∧ c.status = value)).bind
        Condition.lastTransitionTime = since?) :
    conditions previous value now = standard value (since?.getD now) :=
  List.map_congr_left fun type htype ↦ by rw [transitionTime, h type htype]

/-- The time of a value is that of the standard conditions, if it is their value. -/
theorem transition_standard (value value' : String) (since : Timestamp) {type : String}
    (htype : type ∈ conditionTypes) :
    ((standard value since).find? fun c ↦ decide (c.type = type ∧ c.status = value')).bind
      Condition.lastTransitionTime = if value = value' then some since else none := by
  obtain ⟨found, hfound, -⟩ := exists_find?_eq_some id htype
  simp only [id] at hfound
  rw [standard, List.find?_map]
  split
  · next h =>
    subst h
    simp only [Function.comp_def, and_true, hfound, Option.map_some, Option.bind_some]
  · next h =>
    have hnone : conditionTypes.find? (fun _ ↦ false) = none := rfl
    simp only [Function.comp_def, h, and_false, decide_false, hnone, Option.map_none,
      Option.bind_none]

end Lifecycle

namespace Agent

/-- What a start tells of times does not depend on the address that it assigns. -/
theorem exists_started (a : Agent) {pod : Pod} {spec : PodSpec} (hspec : pod.spec = some spec) :
    ∃ s, (a.started pod).2 = { pod with status := some s } ∧
      reports s = (declared spec).map (fun c ↦
        runningStatus a.clock c (lastReport? (reports (pod.status.getD {})) c.name)) ∧
      s.conditions =
        some (conditions ((pod.status.getD {}).conditions.getD []) Deed.start.value a.clock) ∧
      s.startTime = some ((pod.status.getD {}).startTime.getD a.clock) := by
  refine ⟨_, rfl, ?_⟩
  have hprepared := prepared_of_spec hspec a.clock
  rw [← reports_startContainers]
  rcases assignAddress_cases a pod (prepared a.clock pod) with ⟨ip, hgiven, -⟩ | ⟨hsame, -⟩
  · rw [hgiven, hprepared]
    exact ⟨rfl, rfl, rfl⟩
  · rw [hsame, hprepared]
    exact ⟨rfl, rfl, rfl⟩

/-- What a stop tells of times: the conditions, the ends of the containers, and nothing about when
the pod was taken on. -/
theorem exists_stopped (a : Agent) (pod : Pod) :
    ∃ s, (a.stopped pod).2 = { pod with status := some s } ∧
      reports s = (reports (pod.status.getD {})).map
        (completedStatus (a.clock.addSeconds finishDelay)) ∧
      s.conditions =
        some (conditions ((pod.status.getD {}).conditions.getD []) Deed.stop.value a.clock) ∧
      s.startTime = (pod.status.getD {}).startTime := by
  refine ⟨_, rfl, ?_, rfl, rfl⟩
  simp only [reports, List.map_append,
    ← Option.getD_map (List.map (completedStatus (a.clock.addSeconds finishDelay)))]
  rfl

end Agent

/-- The status of a pod tells the times of its chronicle. -/
structure Dated (spec : PodSpec) (calls : Chronicle) (s : PodStatus) : Prop where
  /-- A condition changed when the run of calls of its value began. -/
  transition : ∀ d : Deed, ∀ type ∈ conditionTypes, ((s.conditions.getD []).find? fun c ↦
    decide (c.type = type ∧ c.status = d.value)).bind Condition.lastTransitionTime =
      Chronicle.since? calls d
  /-- From the first start on there is a report on every declared container. -/
  names : (reports s).map ContainerStatus.name =
    if Chronicle.first? calls .start = none then [] else (declared spec).map Container.name
  /-- A container runs since the run of starts began. -/
  runs : ∀ r ∈ reports s, runningSince? r = Chronicle.since? calls .start
  /-- Through the stops it is told since when it ran. -/
  started : ∀ r ∈ reports s,
    startedAt? r = Chronicle.since? (Chronicle.beforeStops calls) .start
  /-- It ended some time after the run of stops began. -/
  finished : ∀ r ∈ reports s, finishedAt? r =
    (Chronicle.since? calls .stop).map fun t ↦ t.addSeconds finishDelay
  /-- The pod was taken on by the first start. -/
  startTime : s.startTime = Chronicle.first? calls .start

namespace Dated

variable {spec : PodSpec} {calls : Chronicle} {s : PodStatus}

/-- Nothing is told of a pod to which nothing was done. -/
theorem nil (spec : PodSpec) : Dated spec [] {} := by
  refine ⟨fun _ _ _ ↦ rfl, rfl, ?_, ?_, ?_, rfl⟩ <;> exact fun r hr ↦ nomatch hr

/-- What was reported last on a declared container knows since when it runs, if it runs. -/
theorem runningSince?_lastReport? (h : Dated spec calls s) {c : Container}
    (hc : c ∈ declared spec) :
    (lastReport? (reports s) c.name).bind runningSince? = Chronicle.since? calls .start := by
  cases hlast : lastReport? (reports s) c.name with
  | some r =>
    obtain ⟨before, after, heq, -⟩ := lastReport?_eq_some_iff.1 hlast
    exact h.runs r (by rw [heq]; simp)
  | none =>
    -- no report means no start so far
    have hfirst : Chronicle.first? calls .start = none := by
      by_contra hstarted
      have hnames := h.names
      rw [if_neg hstarted] at hnames
      obtain ⟨r, hr, hname⟩ := List.mem_map.1 (hnames ▸ List.mem_map_of_mem hc)
      exact lastReport?_eq_none_iff.1 hlast r hr hname
    exact (Chronicle.since?_eq_none_of_first? .start hfirst).symm

/-- A call leaves the standard conditions, of its value since its run began. -/
theorem conditions_eq (h : Dated spec calls s) (d : Deed) (now : Timestamp) :
    conditions (s.conditions.getD []) d.value now =
      standard d.value ((Chronicle.since? calls d).getD now) :=
  conditions_eq_standard now (h.transition d)

/-- Such conditions tell when they changed. -/
theorem transition_concat (calls : Chronicle) (d : Deed) (now : Timestamp) (d' : Deed)
    {type : String} (htype : type ∈ conditionTypes) :
    ((standard d.value ((Chronicle.since? calls d).getD now)).find? fun c ↦
      decide (c.type = type ∧ c.status = d'.value)).bind Condition.lastTransitionTime =
        Chronicle.since? (calls ++ [(d, now)]) d' := by
  rw [transition_standard _ _ _ htype]
  by_cases hd : d = d'
  · subst hd
    rw [if_pos rfl, Chronicle.since?_concat_self]
  · rw [if_neg (Deed.value_inj.not.2 hd), Chronicle.since?_concat_ne _ _ hd]

/-- A start reads the reports that say running, and leaves only such reports. -/
theorem concat_start {s' : PodStatus} {now : Timestamp} (h : Dated spec calls s)
    (hreports : reports s' = (declared spec).map fun c ↦
      runningStatus now c (lastReport? (reports s) c.name))
    (hconditions : s'.conditions = some (conditions (s.conditions.getD []) Deed.start.value now))
    (hstartTime : s'.startTime = some (s.startTime.getD now)) :
    Dated spec (calls ++ [(.start, now)]) s' := by
  have hrunning : ∀ r ∈ reports s', ∃ c previous, r = runningStatus now c previous ∧
      previous.bind runningSince? = Chronicle.since? calls .start := by
    intro r hr
    rw [hreports] at hr
    obtain ⟨c, hc, rfl⟩ := List.mem_map.1 hr
    exact ⟨c, _, rfl, h.runningSince?_lastReport? hc⟩
  refine { transition := fun d type htype ↦ ?transition, names := ?names,
           runs := fun r hr ↦ ?runs, started := fun r hr ↦ ?started,
           finished := fun r hr ↦ ?finished, startTime := ?startTime }
  case transition =>
    rw [hconditions, Option.getD_some, h.conditions_eq, transition_concat _ _ _ _ htype]
  case names =>
    rw [hreports, Chronicle.first?_concat_self, if_neg nofun, List.map_map]
    rfl
  case runs =>
    obtain ⟨c, previous, rfl, hsince⟩ := hrunning r hr
    rw [Chronicle.since?_concat_self, ← hsince]
    rfl
  case started =>
    obtain ⟨c, previous, rfl, hsince⟩ := hrunning r hr
    rw [Chronicle.beforeStops_concat_start, Chronicle.since?_concat_self, ← hsince]
    rfl
  case finished =>
    obtain ⟨c, previous, rfl, -⟩ := hrunning r hr
    rw [Chronicle.since?_concat_ne _ _ (by decide)]
    rfl
  case startTime => rw [hstartTime, h.startTime, Chronicle.first?_concat_self]

/-- A stop carries the starts on, from the reports that say running or from those that say
completed, and keeps the finishes of the latter. -/
theorem concat_stop {s' : PodStatus} {now : Timestamp} (h : Dated spec calls s)
    (hreports : reports s' = (reports s).map (completedStatus (now.addSeconds finishDelay)))
    (hconditions : s'.conditions = some (conditions (s.conditions.getD []) Deed.stop.value now))
    (hstartTime : s'.startTime = s.startTime) :
    Dated spec (calls ++ [(.stop, now)]) s' := by
  have hcompleted : ∀ r ∈ reports s', ∃ previous ∈ reports s,
      r = completedStatus (now.addSeconds finishDelay) previous := by
    intro r hr
    rw [hreports] at hr
    obtain ⟨previous, hprevious, rfl⟩ := List.mem_map.1 hr
    exact ⟨previous, hprevious, rfl⟩
  refine { transition := fun d type htype ↦ ?transition, names := ?names,
           runs := fun r hr ↦ ?runs, started := fun r hr ↦ ?started,
           finished := fun r hr ↦ ?finished, startTime := ?startTime }
  case transition =>
    rw [hconditions, Option.getD_some, h.conditions_eq, transition_concat _ _ _ _ htype]
  case names =>
    rw [hreports, Chronicle.first?_concat_ne _ _ (by decide), ← h.names, List.map_map]
    rfl
  case runs =>
    obtain ⟨previous, -, rfl⟩ := hcompleted r hr
    rw [Chronicle.since?_concat_ne _ _ (by decide)]
    rfl
  case started =>
    obtain ⟨previous, hprevious, rfl⟩ := hcompleted r hr
    rw [Chronicle.beforeStops_concat_stop, startedAt?_completedStatus,
      h.started previous hprevious]
  case finished =>
    obtain ⟨previous, hprevious, rfl⟩ := hcompleted r hr
    have hfinish : finishedAt? (completedStatus (now.addSeconds finishDelay) previous) =
        some ((finishedAt? previous).getD (now.addSeconds finishDelay)) := rfl
    rw [hfinish, h.finished previous hprevious, Chronicle.since?_concat_self, Option.map_some]
    cases Chronicle.since? calls .stop <;> rfl
  case startTime => rw [hstartTime, h.startTime, Chronicle.first?_concat_ne _ _ (by decide)]

/-- **One step.** A call on a pod whose status tells the times of its chronicle leaves a status
that tells them too, and the standard conditions. -/
theorem settled (pod : Pod) (hspec : pod.spec = some spec)
    (h : Dated spec calls (pod.status.getD {})) (e : PodCall) :
    ∃ s, e.deed.settled e.agent pod = { pod with status := some s } ∧
      Dated spec (calls ++ [e.dated]) s ∧ s.conditions =
        some (standard e.deed.value ((Chronicle.since? calls e.deed).getD e.agent.clock)) := by
  rw [← h.conditions_eq]
  obtain ⟨- | -, a⟩ := e
  · obtain ⟨s, hs, hreports, hconditions, hstartTime⟩ := exists_started a hspec
    exact ⟨s, hs, h.concat_start hreports hconditions hstartTime, hconditions⟩
  · obtain ⟨s, hs, hreports, hconditions, hstartTime⟩ := exists_stopped a pod
    exact ⟨s, hs, h.concat_stop hreports hconditions hstartTime, hconditions⟩

/-- What is reported of the end of a container, while it does not run. -/
theorem exists_ended (h : Dated spec calls s) (hstart : Chronicle.since? calls .start = none)
    {since began : Timestamp} (hsince : Chronicle.since? calls .stop = some since)
    (hbegan : Chronicle.since? (Chronicle.beforeStops calls) .start = some began)
    {r : ContainerStatus} (hr : r ∈ reports s) :
    ∃ ended : Terminated, r.state.bind ContainerState.terminated = some ended ∧
      ended.startedAt = some began ∧ ended.finishedAt = some (since.addSeconds finishDelay) := by
  have hfinished := h.finished r hr
  rw [hsince, Option.map_some] at hfinished
  obtain ⟨ended, hended, hfinish⟩ := Option.bind_eq_some_iff.1 hfinished
  have hstarted := h.started r hr
  rw [startedAt?, h.runs r hr, hstart, Option.none_or, hended, Option.bind_some, hbegan]
    at hstarted
  exact ⟨ended, hended, hstarted, hfinish⟩

end Dated

/-! ### Runs -/

section

variable {ε : Type} {host : Host Agent ε} {pod : Pod} {spec : PodSpec}

/-- **Any run.** A pod to which nothing was done before tells the times of what is done to it. -/
theorem dated_tended (hanswers : host.Answers) (world : ε) (hspec : pod.spec = some spec)
    (hnew : pod.status = none) (podCalls : List PodCall) :
    ∃ status, (pod.tended host world podCalls).1 = { pod with status } ∧
      Dated spec (podCalls.map PodCall.dated) (status.getD {}) := by
  induction podCalls using List.reverseRecOn with
  | nil => exact ⟨none, by rw [← hnew]; rfl, .nil spec⟩
  | append_singleton podCalls e ih =>
    obtain ⟨status, hbefore, hdated⟩ := ih
    obtain ⟨s, hs, hdated', -⟩ := Dated.settled { pod with status } hspec hdated e
    refine ⟨some s, ?_, ?_⟩
    · rw [Pod.tended_concat, PodCall.run_fst hanswers, hbefore, hs]
    · rw [List.map_append]
      exact hdated'

/-- **Times move only when something changes.** A pod with a declaration and without a status is
started and stopped as one likes, at any times, and whatever the answers are. After the last call

* every condition has the value of this call, since the first one of the run of like calls;
* the pod was taken on by the first start;
* there is a report on every declared container if there was a start, and else on none;
* after a start, every container runs since the run of starts began;
* after a stop, every container ran since the run of starts before began, and ended some time after
  the run of stops began. -/
theorem tended_times (hanswers : host.Answers) (world : ε) (hspec : pod.spec = some spec)
    (hnew : pod.status = none) (podCalls : List PodCall) (last : PodCall) :
    let calls : Chronicle := (podCalls ++ [last]).map PodCall.dated
    ∃ s since, (pod.tended host world (podCalls ++ [last])).1 = { pod with status := some s } ∧
      calls.since? last.deed = some since ∧
      s.conditions = some (standard last.deed.value since) ∧
      s.startTime = calls.first? .start ∧
      (reports s).map ContainerStatus.name =
        (if calls.first? .start = none then [] else (declared spec).map Container.name) ∧
      (last.deed = .start → ∀ r ∈ reports s, runningSince? r = some since) ∧
      (last.deed = .stop → calls.first? .start ≠ none →
        ∃ began, calls.beforeStops.since? .start = some began ∧ ∀ r ∈ reports s,
          ∃ ended : Terminated, r.state.bind ContainerState.terminated = some ended ∧
            ended.startedAt = some began ∧
            ended.finishedAt = some (since.addSeconds finishDelay)) := by
  intro calls
  obtain ⟨status, hbefore, hdated⟩ := dated_tended hanswers world hspec hnew podCalls
  obtain ⟨s, hs, hdated', hconditions⟩ :=
    Dated.settled { pod with status } hspec hdated last
  have hcalls : calls = podCalls.map PodCall.dated ++ [last.dated] := List.map_append
  have hsince : calls.since? last.deed =
      some ((Chronicle.since? (podCalls.map PodCall.dated) last.deed).getD last.agent.clock) := by
    rw [hcalls]
    exact Chronicle.since?_concat_self _ _ _
  rw [← hcalls] at hdated'
  refine ⟨s, _, ?_, hsince, hconditions, hdated'.startTime, hdated'.names, fun hstart r hr ↦ ?_,
    fun hstop hstarted ↦ ?_⟩
  · rw [Pod.tended_concat, PodCall.run_fst hanswers, hbefore, hs]
  · rw [hstart] at hsince
    rw [hdated'.runs r hr, hsince, hstart]
  · obtain ⟨began, hbegan⟩ := Chronicle.exists_since?_beforeStops hstarted
    rw [hstop] at hsince ⊢
    have hnone : calls.since? .start = none := by
      rw [hcalls]
      exact Chronicle.since?_concat_ne _ _ (by rw [hstop]; decide)
    exact ⟨began, hbegan, fun r hr ↦ hdated'.exists_ended hnone hsince hbegan hr⟩

end

/-! ### A pod that is started and stopped twice -/

/-- The declaration of one container. -/
def oneContainer : PodSpec where
  containers := [{ name := "app" }]

/-- A pod of one container to which nothing was done so far. -/
def freshPod : Pod where
  metadata := { name := some "web", space := some "default" }
  spec := some oneContainer

/-- A call of a new agent, some seconds after the clock began. -/
def PodCall.after (deed : Deed) (seconds : ℕ) : PodCall :=
  ⟨deed, .initial {} (.ofMillis (1000 * seconds))⟩

/-- It ran from the first start on and ended thirty seconds after the first stop. -/
theorem tended_times_of_twice :
    freshPod.spec = some oneContainer ∧ freshPod.status = none ∧ ∃ s r ended,
      (freshPod.tended obliging () [.after .start 1, .after .start 2, .after .stop 3,
        .after .stop 4]).1 = { freshPod with status := some s } ∧
      s.conditions = some (standard "False" (.ofMillis 3000)) ∧
      s.startTime = some (.ofMillis 1000) ∧ reports s = [r] ∧ r.name = "app" ∧
      r.state.bind ContainerState.terminated = some ended ∧
      ended.startedAt = some (.ofMillis 1000) ∧ ended.finishedAt = some (.ofMillis 33000) := by
  have hspec : freshPod.spec = some oneContainer := rfl
  obtain ⟨s, since, hs, hsince, hconditions, hstartTime, hnames, -, hstop⟩ :=
    tended_times answers_obliging () hspec rfl
      [.after .start 1, .after .start 2, .after .stop 3] (.after .stop 4)
  obtain rfl : since = .ofMillis 3000 := (Option.some.inj hsince).symm
  obtain ⟨began, hbegan, hreports⟩ := hstop rfl nofun
  obtain rfl : began = .ofMillis 1000 := (Option.some.inj hbegan).symm
  rw [if_neg nofun] at hnames
  obtain ⟨r, hlist, hname⟩ := List.map_eq_singleton_iff.1 hnames
  obtain ⟨ended, hended, hstarted, hfinished⟩ := hreports r (by rw [hlist]; exact .head _)
  exact ⟨rfl, rfl, s, r, ended, hs, hconditions, hstartTime, hlist, hname, hended, hstarted,
    hfinished⟩

end HollowFleet
