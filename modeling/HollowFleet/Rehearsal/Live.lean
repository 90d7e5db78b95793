import HollowFleet.Agent.Dispatch
import HollowFleet.Rehearsal.Feed
import HollowFleet.Rehearsal.Stage

/-!
# Live agents

A live agent runs as a whole: it registers its fleet, then follows two watches, one for nodes
and one for pods, while the worker serves its queues and the renewal loop keeps its beat. The
steps are what happens around it: a watch reports something or has to begin anew, and time
goes by.

Three tasks go on beside the worker's: the registration, in its place then dispatch, and the
renewal of leases. Each waits for its own calls only. At one moment everything is done that
need not wait (`settle`); then the next moment is the earliest at which something is due.

Many orders are possible for what goes on at one moment, and a live agent goes by one of them:
nodes before pods, events before the worker, and everything that is due before time goes on. So a
live agent is one run among those that the agent can have. It shows what the agent does on a given
day and proves nothing about the others.

`settle` and `pass` are recursion on a number that bounds what can happen, at one moment by the
events that can still come of what is there (`turns`), and over a time by its milliseconds.
-/

namespace HollowFleet.Rehearsal

open Watch

/-- How far a live agent is. -/
inductive Phase where
  /-- It registers its fleet. -/
  | starting (task : BackgroundTask (Except Fault Unit))
  /-- It follows the watches; dispatch is at something, or done with it. -/
  | following (task : BackgroundTask Unit)
  /-- It could not start. -/
  | ended (fault : Fault)

/-- When the phase goes on, if it waits for an answer. -/
def Phase.due? : Phase → Option Nat
  | starting task => task.due?
  | following task => task.due?
  | ended _ => none

/-- A live agent. -/
structure Live where
  /-- The agent. -/
  agent : Agent
  /-- The stage. -/
  stage : Stage
  /-- How far it is. -/
  phase : Phase
  /-- The beat of the renewal loop. -/
  beat : Beat
  /-- What the renewal loop is at. -/
  renewal : BackgroundTask Unit := .over ()
  /-- The pods that are there when the watches begin. -/
  listed : List Pod := []
  /-- The watch for nodes. -/
  nodes : Feed Node
  /-- The watch for pods. -/
  pods : Feed Pod

/-- What happens around a live agent. -/
inductive Happening where
  /-- The watch for nodes reports something or fails. -/
  | node (item : Item Node)
  /-- The watch for pods reports something or fails. -/
  | pod (item : Item Pod)
  /-- A watch is cut off and taken up again where it was. -/
  | reconnect
  /-- The watch for nodes begins anew with a list. -/
  | relistNodes (nodes : List Node)
  /-- The watch for pods begins anew with a list. -/
  | relistPods (pods : List Pod)
  /-- Time goes by. -/
  | wait (ms : Nat)
  /-- The cluster is changed behind the agent's back. -/
  | change (nodes : List Node) (leases : List Lease) (drop : List String)
      (rules : Option (List Rule))

namespace Live

/-! ### One moment -/

/-- Writes down that items of a watch failed. -/
def warnFailures (l : Live) : Nat → Live
  | 0 => l
  | n + 1 => warnFailures { l with agent := l.agent.warn .watchFailed } n

/-- The number of items that failed so far. -/
def failures (l : Live) : Nat := l.nodes.pipe.failures + l.pods.pipe.failures

/-- Both watches go on as far as they can. -/
def flow (l : Live) : Live :=
  let after := { l with nodes := l.nodes.flow l.stage.now, pods := l.pods.flow l.stage.now }
  after.warnFailures (after.failures - l.failures)

/-- The worker does what it can do by now. -/
def serve (l : Live) : Live :=
  let after := l.stage.catchUp l.stage.now l.agent
  { l with agent := after.1, stage := after.2 }

/-- The nodes of the cluster, in the order of their names. -/
def knownNodes (s : Script) : List Node :=
  (s.nodes.entries.mergeSort fun a b ↦ decide (a.1 ≤ b.1)).map Prod.snd

/-- The fleet is registered: the watches begin with a list each, the worker serves the queues,
and the renewal loop begins its beat. -/
def follow (l : Live) : Live :=
  match l.agent.claimQueues with
  | .ok agent =>
    { l with
      agent
      stage := { l.stage with worker := some (.over ()) }
      phase := .following (.over ())
      beat := .startingAt agent.settings.renewInterval l.stage.now
      nodes := l.nodes.beginWith (knownNodes l.stage.script)
      pods := l.pods.beginWith l.listed }
  | .error f => { l with phase := .ended f }

/-- The next event for dispatch, nodes first. -/
def receive? (l : Live) : Option (Agent.Notice × Live) :=
  match l.nodes.receive? with
  | some (event, nodes) => some (.node event, { l with nodes })
  | none => l.pods.receive?.map fun r ↦ (.pod r.1, { l with pods := r.2 })

/-- Registration goes on. -/
def startFrom (l : Live) (task : BackgroundTask (Except Fault Unit)) : Live :=
  let after := l.stage.resume l.agent task
  let l := { l with agent := after.1, stage := after.2.1 }
  match after.2.2 with
  | .over (.ok _) => l.follow
  | .over (.error f) => { l with phase := .ended f }
  | task => { l with phase := .starting task }

/-- Dispatch goes on with what it is at. -/
def dispatchFrom (l : Live) (task : BackgroundTask Unit) : Live :=
  let after := l.stage.resume l.agent task
  { l with agent := after.1, stage := after.2.1, phase := .following after.2.2 }

/-- Dispatch handles an event. -/
def handle (l : Live) (notice : Agent.Notice) : Live :=
  let after := l.stage.pursue (Agent.handle notice l.agent)
  { l with agent := after.1, stage := after.2.1, phase := .following after.2.2 }

/-- Everything is done that need not wait, in at most `turns` turns of dispatch. -/
def settleIn : Nat → Live → Live
  | 0, l => l
  | turns + 1, l =>
    match l.phase with
    | .ended _ => l
    | .starting task =>
      if l.stage.isReady l.agent task then settleIn turns (l.startFrom task) else l
    | .following (.over _) =>
      let l := l.flow
      match l.receive? with
      | some (notice, l) => settleIn turns (l.handle notice)
      | none => l.serve
    | .following task =>
      let l := l.flow.serve
      if l.stage.isReady l.agent task then settleIn turns (l.dispatchFrom task) else l

/-- The number of objects in the lists with which the watches begin, at most. -/
def firstListed (l : Live) : Nat :=
  l.listed.length + l.stage.script.nodes.size + l.agent.settings.nodeCount

/-- The number of turns that can be taken now, at most: one to start, and for every event one
to handle it and one for room in a queue. -/
def turns (l : Live) : Nat := 2 * (l.nodes.load + l.pods.load + 2 * (l.firstListed + 4)) + 1

/-- Everything is done that need not wait. -/
def settle (l : Live) : Live := l.settleIn l.turns

/-- The renewal loop goes on if something of it is due. -/
def renew (l : Live) : Live :=
  match l.phase, l.renewal with
  | .following _, .over _ =>
    if l.beat.due ≤ l.stage.now then
      let after := l.stage.pursue (Agent.renewTracked l.agent)
      { l with
        agent := after.1
        stage := after.2.1
        beat := l.beat.after l.stage.now
        renewal := after.2.2 }
    else l
  | .following _, task =>
    let after := l.stage.resume l.agent task
    { l with agent := after.1, stage := after.2.1, renewal := after.2.2 }
  | _, _ => l

/-! ### Time -/

/-- The times at which something is due. -/
def dues (l : Live) : List Nat :=
  let common := l.phase.due?.toList ++ (l.stage.worker.bind BackgroundTask.due?).toList
  match l.phase with
  | .following _ =>
    let renewal := match l.renewal with
      | .over _ => some l.beat.due
      | task => task.due?
    common ++ renewal.toList ++ l.nodes.due?.toList ++ l.pods.due?.toList
  | _ => common

/-- A time has come. -/
def arrive (l : Live) (time : Nat) : Live :=
  let after := l.stage.passUntil time l.agent
  ({ l with agent := after.1, stage := after.2 }).renew.settle

/-- Time goes by until `stop`, in which at most `moments` moments are worth a look. -/
def advance (stop : Nat) : Nat → Live → Live
  | 0, l => { l with stage := { l.stage with now := max l.stage.now stop } }
  | moments + 1, l =>
    match (l.dues.filter fun time ↦ decide (time ≤ stop)).min? with
    | some time => advance stop moments (l.arrive time)
    | none => { l with stage := { l.stage with now := max l.stage.now stop } }

/-- Time goes by. Something is due at every millisecond at most, and at one of them a few ticks
may come late. -/
def pass (ms : Nat) (l : Live) : Live := l.advance (l.stage.now + ms) (8 * (ms + 1))

/-- Milliseconds that go by while a watch begins anew. -/
def relistTime : Nat := 120000

/-! ### Steps -/

/-- Something happens. -/
def step (l : Live) (h : Happening) : Live :=
  match h with
  | .node item => ({ l with nodes := l.nodes.push [item] }).settle
  | .pod item => ({ l with pods := l.pods.push [item] }).settle
  | .reconnect => l
  | .relistNodes nodes =>
    (({ l with nodes := l.nodes.push (Feed.relisting nodes) }).settle).pass relistTime
  | .relistPods pods =>
    (({ l with pods := l.pods.push (Feed.relisting pods) }).settle).pass relistTime
  | .wait ms =>
    let after := ({ l with stage := l.stage.followTime l.agent }).pass ms
    let held := after.stage.holdClock after.agent
    { after with agent := held.1, stage := held.2 }
  | .change nodes leases drop rules =>
    let script := (l.stage.script.addObjects nodes leases).dropLeases drop
    { l with
      stage := { l.stage with script := { script with rules := rules.getD script.rules } } }

/-- The agent starts. -/
def start (settings : Settings) (clock : Timestamp) (script : Script) (pods : List Pod) : Live :=
  let stage : Stage := { script, remote := true }
  let begun := stage.pursue (Agent.bootstrap.run (.initial settings clock))
  let l : Live :=
    { agent := begun.1
      stage := begun.2.1
      phase := .starting begun.2.2
      beat := .startingAt settings.renewInterval 0
      listed := pods
      nodes := .ofBuffer settings.eventBuffer
      pods := .ofBuffer settings.eventBuffer }
  match begun.2.2 with
  | .over (.ok _) => l.follow.settle
  | .over (.error f) => { l with phase := .ended f }
  | _ => l

/-- Forgets the calls and the warnings so far. -/
def cleared (l : Live) : Live :=
  { l with agent := { l.agent with journal := [] }, stage := { l.stage with records := [] } }

/-! ### The end -/

/-- How a live agent ends that is cancelled. -/
inductive Finish where
  /-- It stopped. -/
  | stopped
  /-- It had not started, or could not. -/
  | failed (fault : Fault)
  /-- It waits for an answer that does not come. -/
  | blocked

/-- The agent is cancelled. The loops end at once and the queues are closed, but what dispatch
or registration is at goes on to its end. -/
def cancel (l : Live) : Live × Finish :=
  let limit := l.stage.now + Stage.patience
  match l.phase with
  | .ended f => (l, .failed f)
  | .starting task =>
    let after := l.stage.proceedFrom limit l.agent task
    ({ l with agent := after.1, stage := after.2.1 },
      match after.2.2 with
      | .over (.ok _) => .stopped
      | .over (.error f) => .failed f
      | _ => .blocked)
  | .following task =>
    let stage := { l.stage with worker := none }
    let after := stage.proceedFrom limit l.agent.closeQueues task
    ({ l with agent := after.1, stage := after.2.1 },
      match after.2.2 with
      | .over _ => .stopped
      | _ => .blocked)

end Live

end HollowFleet.Rehearsal
