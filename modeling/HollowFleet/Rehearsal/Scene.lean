import HollowFleet.Agent.Dispatch
import HollowFleet.Rehearsal.Stage

/-!
# Scenes

A scene is an agent on a stage whose parts are played one by one: single events for the
accounts or for the pods, whole sequences, the renewal loop, the worker, the start of the
fleet, and dispatch. A step ends with an answer, a fault, or, if it took longer than the
patience of the audience, without either.

A step plays one task to its end, or until it is abandoned, and then lets the worker do what it can
do without more time. What a step did to the agent stays done, so steps build on each other, and
nodes and pods of a later step may be those that an earlier one wrote (`PodSource`). Between steps
the clock can be moved and the cluster changed.

The parts are those of the agent itself. A scene adds nothing to what they do; it only decides which
of them is played next, and how dispatch is fed: each event is handled before the next one is sent.
-/

namespace HollowFleet.Rehearsal

open Watch

/-! ### Steps -/

/-- Where a node in a step comes from. -/
inductive NodeSource where
  /-- It is given. -/
  | given (node : Node)
  /-- It is a healthy node, made when the step is played. -/
  | made (name address block : String)

/-- Where a pod in a step comes from. -/
inductive PodSource where
  /-- It is given. -/
  | given (pod : Pod)
  /-- It is the pod whose status was last written, perhaps under another version. -/
  | written (key : String) (version : Option String)

/-- The part of the agent that an event is for. -/
inductive Sink where
  | ledger
  | lifecycle
deriving DecidableEq, Repr

/-- What is done to dispatch while it runs. -/
inductive Cue where
  | node (op : Op) (source : NodeSource)
  | pod (op : Op) (source : PodSource)
  | closeNodes
  | closePods

/-- A step. -/
inductive Step where
  | node (sink : Sink) (op : Op) (source : NodeSource)
  | pod (sink : Sink) (op : Op) (source : PodSource)
  | startPod (source : PodSource)
  | stopPod (source : PodSource)
  | fits (source : PodSource)
  | renewLease (node : String)
  /-- The renewal loop runs for some milliseconds. -/
  | renewFor (ms : Nat)
  /-- The worker starts. -/
  | startWorker
  /-- The worker is stopped. -/
  | stopWorker
  | allocate (node : String)
  | release (node address : String)
  | bootstrap
  /-- Dispatch runs on two fresh channels; at the end it is cancelled, or the channels are
  closed. -/
  | dispatch (cues : List Cue) (cancelled : Bool)
  /-- The wall clock is moved. -/
  | moveClock (ms : Int)
  /-- The cluster is changed behind the agent's back. -/
  | change (nodes : List NodeSource) (leases : List Lease) (drop : List String)
      (rules : Option (List Rule))

/-- What a step ends with when it does not fail. -/
inductive Answer where
  | done
  | truth (value : Bool)
  | address (text : String)
  | running
  | notRunning

/-- How a step ends. -/
inductive Verdict where
  | answer (a : Answer)
  | fault (f : Fault)
  | blocked

/-- A step that was played. -/
structure Played where
  /-- How the step ended. -/
  verdict : Verdict
  /-- The pod as the step left it, if the step was about what it does to a pod. -/
  pod : Option Pod := none

/-! ### Scenes -/

/-- An agent on a stage. -/
structure Scene where
  /-- The agent. -/
  agent : Agent
  /-- The stage. -/
  stage : Stage

namespace Scene

/-- The node of a source. -/
def node (s : Scene) : NodeSource → Node
  | .given node => node
  | .made name address block => .healthy s.agent.clock name address block

/-- The pod of a source. -/
def pod (s : Scene) : PodSource → Pod
  | .given pod => pod
  | .written key version =>
    let pod := (s.stage.script.written.find? key).getD {}
    match version with
    | some v => { pod with metadata := { pod.metadata with resourceVersion := some v } }
    | none => pod

/-- How a result ends a step. -/
def verdict {α : Type} (answer : α → Answer) : Option (Except Fault α) → Verdict
  | some (.ok a) => .answer (answer a)
  | some (.error f) => .fault f
  | none => .blocked

/-- Plays a task that may fail. -/
def play {α : Type} (s : Scene) (answer : α → Answer) (t : Task Agent (Except Fault α)) :
    Scene × Played :=
  let run := s.stage.play (s.stage.now + Stage.patience) t s.agent
  (⟨run.state, run.world⟩, { verdict := verdict answer run.result })

/-- Plays an action. -/
def act (s : Scene) (action : Action Unit) : Scene × Played := s.play (fun _ ↦ .done) action.run

/-- Plays a task that cannot fail. -/
def work (s : Scene) (t : Task Agent Unit) : Scene × Played := s.act (Action.lift t)

/-- Plays a sequence that changes a pod; `settled` is the pod from the moment on at which the
sequence waits. -/
def sequence (s : Scene) (settled : Pod) (t : Task Agent (Pod × Except Fault Unit)) :
    Scene × Played :=
  let run := s.stage.play (s.stage.now + Stage.patience) t s.agent
  let played : Played := match run.result with
    | some (pod, result) => ⟨verdict (fun _ ↦ .done) (some result), some pod⟩
    | none => ⟨.blocked, some settled⟩
  (⟨run.state, run.world⟩, played)

/-- What is done with an event of a node. -/
def nodeTask (sink : Sink) (op : Op) (node : Node) : Action Unit :=
  match sink, op with
  | .ledger, .added => Action.lift (Agent.trackNode node)
  | .ledger, .updated => Action.lift (Agent.updateNode node)
  | .ledger, .deleted => Action.lift (Agent.untrackNode node)
  | .lifecycle, .added => Agent.addPool node
  | .lifecycle, .updated => pure ()
  | .lifecycle, .deleted => Action.lift (Agent.dropPool node)

/-- What is done with an event of a pod. -/
def podTask (sink : Sink) (op : Op) (pod : Pod) : Action Unit :=
  match sink, op with
  | .ledger, .deleted => Action.lift (Agent.dischargePod pod)
  | .ledger, _ => Agent.chargePod pod
  | .lifecycle, .deleted => Agent.retire pod
  | .lifecycle, _ => Agent.accept pod

/-! ### The worker -/

/-- Starts the worker. -/
def startWorker (s : Scene) : Scene × Played :=
  match s.agent.claimQueues with
  | .error f => (s, { verdict := .fault f })
  | .ok agent =>
    let after := { s.stage with worker := some (.over ()) }.catchUp s.stage.now agent
    (⟨after.1, after.2⟩, { verdict := .answer .running })

/-- Stops the worker, whatever it waits for. -/
def stopWorker (s : Scene) : Scene × Played :=
  match s.stage.worker with
  | none => (s, { verdict := .answer .notRunning })
  | some _ =>
    (⟨s.agent.closeQueues, { s.stage with worker := none }⟩, { verdict := .answer .done })

/-! ### Pools -/

/-- Hands out an address of a node's pool. -/
def allocate (s : Scene) (node : String) : Scene × Played :=
  match s.agent.pools.find? node with
  | none => (s, { verdict := .answer .done })
  | some pool =>
    match pool.allocate with
    | .ok (ip, rest) =>
      ({ s with agent := s.agent.setPool node rest }, { verdict := .answer (.address ip.text) })
    | .error f => (s, { verdict := .fault f })

/-- Takes an address back into a node's pool. -/
def release (s : Scene) (node address : String) : Scene × Played :=
  match s.agent.pools.find? node with
  | none => (s, { verdict := .answer .done })
  | some pool =>
    match pool.release address with
    | .ok rest => ({ s with agent := s.agent.setPool node rest }, { verdict := .answer .done })
    | .error f => (s, { verdict := .fault f })

/-! ### Dispatch -/

/-- What a cue is to dispatch. -/
def move (s : Scene) : Cue → Agent.Move
  | .node op source => .send (.node ⟨op, s.node source⟩)
  | .pod op source => .send (.pod ⟨op, s.pod source⟩)
  | .closeNodes => .close .nodes
  | .closePods => .close .pods

/-- How dispatch plays the handling of an event. -/
def playUntil (deadline : Nat) (agent : Agent) (stage : Stage) (t : Task Agent Unit) :
    Run Agent Stage Unit :=
  stage.play deadline t agent

/-- A cue, and two turns of the loop: one to handle the event or to find the channel closed, and
one to find both closed. So every event is handled before the next cue. -/
def playCue (deadline : Nat) (d : Agent.Dispatcher Stage) (c : Cue) : Agent.Dispatcher Stage :=
  d.run (playUntil deadline)
    [(⟨d.agent, d.world⟩ : Scene).move c, .turn (.receive .nodes), .turn (.receive .nodes)]

/-- How dispatch is brought to its end. -/
def ending (cancelled : Bool) : List Agent.Move :=
  if cancelled then [.cancel, .turn .cancelled]
  else
    [.close .nodes, .close .pods, .turn (.receive .nodes), .turn (.receive .nodes),
      .turn (.receive .nodes)]

/-- Runs dispatch on fresh channels. -/
def dispatch (s : Scene) (cues : List Cue) (cancelled : Bool) : Scene × Played :=
  let deadline := s.stage.now + Stage.patience
  let played := cues.foldl (playCue deadline) { agent := s.agent, world := s.stage }
  let d := played.run (playUntil deadline) (ending cancelled)
  let verdict : Verdict := match d.halt with
    | some (.over fault) => .fault fault
    | _ => .blocked
  (⟨d.agent, d.world⟩, { verdict })

/-! ### Steps -/

/-- Changes the cluster. -/
def change (s : Scene) (nodes : List NodeSource) (leases : List Lease) (drop : List String)
    (rules : Option (List Rule)) : Scene :=
  let script := (s.stage.script.addObjects (nodes.map s.node) leases).dropLeases drop
  { s with stage := { s.stage with script := { script with rules := rules.getD script.rules } } }

/-- Plays a step. -/
def step (s : Scene) : Step → Scene × Played
  | .node sink op source => s.act (nodeTask sink op (s.node source))
  | .pod sink op source => s.act (podTask sink op (s.pod source))
  | .startPod source =>
    s.sequence (s.agent.started (s.pod source)).2 (Agent.startPod (s.pod source))
  | .stopPod source => s.sequence (s.agent.stopped (s.pod source)).2 (Agent.stopPod (s.pod source))
  | .fits source => s.play .truth (Action.lift (Agent.fits (s.pod source))).run
  | .renewLease node => s.act (Agent.renewLease node)
  | .renewFor ms =>
    let beat := Beat.startingAt s.agent.settings.renewInterval s.stage.now
    let after := s.stage.renewFor ms beat s.agent
    (⟨after.2.1, after.2.2⟩, { verdict := .answer .done })
  | .startWorker => s.startWorker
  | .stopWorker => s.stopWorker
  | .allocate node => s.allocate node
  | .release node address => s.release node address
  | .bootstrap => s.act Agent.bootstrap
  | .dispatch cues cancelled => s.dispatch cues cancelled
  | .moveClock ms =>
    ({ s with agent := { s.agent with clock := s.agent.clock.addMillis ms } },
      { verdict := .answer .done })
  | .change nodes leases drop rules =>
    (s.change nodes leases drop rules, { verdict := .answer .done })

/-- Forgets the calls and the warnings so far. -/
def cleared (s : Scene) : Scene :=
  ⟨{ s.agent with journal := [] }, { s.stage with records := [] }⟩

end Scene

end HollowFleet.Rehearsal
