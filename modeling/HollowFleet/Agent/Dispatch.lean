import HollowFleet.Agent.Leases
import HollowFleet.Agent.Pods
import HollowFleet.Watch.Filter

/-!
# Dispatch

Every event goes to the accounts and to the pods' addresses. A new node gets an account, a
lease and a pool; a new pod is started and charged. What fails is a warning: the agent goes on
with the next event.

Events arrive on two channels, one for nodes and one for pods. Dispatch is a loop that takes one
event after the other off them; if both have one, either may be next. It ends when both are closed
and empty, or when it is cancelled.

## How an event is handled

`handle` is a task: it pauses at every call and at every submission to a queue, and what is around
it decides how it goes on. The parts of an event are independent. A pod whose start failed is
charged all the same, a node whose block cannot be read is tracked, and a pod that does not fit is
admitted with a warning.

## The loop

`Dispatcher.turn` is one turn of the loop. What is ready may be more than one thing; the turn is
told which one it would rather take, and goes by that only among what is ready. So a statement on
all lists of moves is one on all schedules, with events, closings and a cancellation arriving at any
time between turns. How an event is handled is left to a parameter (`play`), for a host may never
answer a call, and then dispatch never comes back (`Halt.blocked`).

The fleet is registered before that, node by node (`registerAll`). There a node that can neither be
found nor created, or whose block cannot be read, is not a warning: it ends the registration, with
the nodes before it in place.
-/

namespace HollowFleet.Agent

open Watch

/-! ### Pools of nodes -/

/-- Gives a node a pool for the block of its pods, unless it has one or declares no block. -/
def addPool (node : Node) : Action Unit := do
  let agent ← Action.get
  if agent.pools.contains node.name then return ()
  else match node.podBlock? with
    | none => return ()
    | some block =>
      match Pool.parse block with
      | .ok pool => Action.lift (Task.modify fun a ↦ a.setPool node.name pool)
      | .error fault => throw fault

/-- Drops the pool of a node. -/
def dropPool (node : Node) : Task Agent Unit :=
  Task.modify fun a ↦ { a with pools := a.pools.erase node.name }

/-! ### Events -/

/-- Handles an event of a node. -/
def handleNode (event : Event Node) : Task Agent Unit := do
  match event.op with
  | .added =>
    trackNode event.object
    (addPool event.object).orWarn .nodeRefused
  | .updated => updateNode event.object
  | .deleted =>
    untrackNode event.object
    dropPool event.object

/-- Handles an event of a pod. -/
def handlePod (event : Event Pod) : Task Agent Unit := do
  let pod := event.object
  match event.op with
  | .added =>
    unless ← fits pod do Task.warn .overcommitted
    (accept pod).orWarn .startFailed
    (chargePod pod).orWarn .chargeFailed
  | .updated =>
    (accept pod).orWarn .startFailed
    (chargePod pod).orWarn .chargeFailed
  | .deleted =>
    (retire pod).orWarn .stopFailed
    dischargePod pod

/-- An event of either kind. -/
inductive Notice where
  | node (event : Event Node)
  | pod (event : Event Pod)
deriving DecidableEq

/-- Handles an event. -/
def handle : Notice → Task Agent Unit
  | .node event => handleNode event
  | .pod event => handlePod event

/-- Handles events in order. -/
def handleAll : List Notice → Task Agent Unit
  | [] => pure ()
  | n :: rest => do
    handle n
    handleAll rest

/-! ### Channels -/

/-- The kinds of events, each with a channel of its own. -/
inductive Channel where
  | nodes
  | pods
deriving DecidableEq, Repr

/-- The two channels. -/
structure Inbox where
  /-- Node events that wait. -/
  nodes : List (Event Node) := []
  /-- Pod events that wait. -/
  pods : List (Event Pod) := []
  /-- Whether node events may still arrive. -/
  nodesOpen : Bool := true
  /-- Whether pod events may still arrive. -/
  podsOpen : Bool := true

namespace Inbox

/-- Whether events may still arrive on a channel. -/
def isOpen (inbox : Inbox) : Channel → Bool
  | .nodes => inbox.nodesOpen
  | .pods => inbox.podsOpen

/-- An event arrives; a closed channel takes none. -/
def deliver (inbox : Inbox) : Notice → Inbox
  | .node event =>
    if inbox.nodesOpen then { inbox with nodes := inbox.nodes ++ [event] } else inbox
  | .pod event => if inbox.podsOpen then { inbox with pods := inbox.pods ++ [event] } else inbox

/-- A channel is closed; what waits in it stays there. -/
def close (inbox : Inbox) : Channel → Inbox
  | .nodes => { inbox with nodesOpen := false }
  | .pods => { inbox with podsOpen := false }

/-- Takes the oldest event off a channel. -/
def receive? (inbox : Inbox) : Channel → Option (Notice × Inbox)
  | .nodes =>
    match inbox.nodes with
    | event :: rest => some (.node event, { inbox with nodes := rest })
    | [] => none
  | .pods =>
    match inbox.pods with
    | event :: rest => some (.pod event, { inbox with pods := rest })
    | [] => none

/-- How dispatch ends when both channels are closed and empty. -/
def closedFault : Fault := .watch "dispatch" .allChannelsClosed

/-- How dispatch ends when it is cancelled. -/
def cancelledFault : Fault := .cancelled "dispatch"

end Inbox

/-! ### The loop -/

/-- What dispatch waits for. -/
inductive Branch where
  /-- It was cancelled. -/
  | cancelled
  /-- An event of a channel, or the end of the channel. -/
  | receive (channel : Channel)
deriving DecidableEq, Repr

/-- How dispatch came to a halt. -/
inductive Halt where
  /-- It is over. -/
  | over (fault : Fault)
  /-- It is at an event that it will never be done with. -/
  | blocked

/-- Dispatch under way. -/
structure Dispatcher (ω : Type) where
  /-- The agent that handles the events. -/
  agent : Agent
  /-- What is around it. -/
  world : ω
  /-- The channels. -/
  inbox : Inbox := {}
  /-- Whether the channel of nodes was not found closed yet. -/
  heedsNodes : Bool := true
  /-- Whether the channel of pods was not found closed yet. -/
  heedsPods : Bool := true
  /-- Whether it was cancelled. -/
  cancelled : Bool := false
  /-- How it came to a halt, if it did. -/
  halt : Option Halt := none

namespace Dispatcher

variable {ω : Type} (play : Agent → ω → Task Agent Unit → Run Agent ω Unit)

/-- Whether a channel was not found closed yet. -/
def heeds (d : Dispatcher ω) : Channel → Bool
  | .nodes => d.heedsNodes
  | .pods => d.heedsPods

/-- A channel was found closed. -/
def ignore (d : Dispatcher ω) : Channel → Dispatcher ω
  | .nodes => { d with heedsNodes := false }
  | .pods => { d with heedsPods := false }

/-- Whether something is there that dispatch waits for. -/
def isReady (d : Dispatcher ω) : Branch → Bool
  | .cancelled => d.cancelled
  | .receive channel =>
    d.heeds channel && ((d.inbox.receive? channel).isSome || !d.inbox.isOpen channel)

/-- Handles an event. -/
def handle (d : Dispatcher ω) (notice : Notice) : Dispatcher ω :=
  let run := play d.agent d.world (Agent.handle notice)
  { d with
    agent := run.state
    world := run.world
    halt := if run.result.isSome then none else some .blocked }

/-- Goes on with something that is there. -/
def take (d : Dispatcher ω) : Branch → Dispatcher ω
  | .cancelled => { d with halt := some (.over Inbox.cancelledFault) }
  | .receive channel =>
    match d.inbox.receive? channel with
    | some (notice, inbox) => handle play { d with inbox } notice
    | none => d.ignore channel

/-- One turn of the loop. It is over when both channels were found closed. Else dispatch goes on
with what it prefers, if that is there, or with something else that is there, or waits. -/
def turn (d : Dispatcher ω) (preferred : Branch) : Dispatcher ω :=
  if d.halt.isSome then d
  else if !d.heedsNodes && !d.heedsPods then { d with halt := some (.over Inbox.closedFault) }
  else
    match [preferred, .cancelled, .receive .nodes, .receive .pods].find? d.isReady with
    | some branch => d.take play branch
    | none => d

end Dispatcher

/-- What happens while dispatch is under way. -/
inductive Move where
  /-- An event is sent. -/
  | send (notice : Notice)
  /-- A channel is closed. -/
  | close (channel : Channel)
  /-- Dispatch is cancelled. -/
  | cancel
  /-- The loop makes a turn. -/
  | turn (preferred : Branch)
deriving DecidableEq

namespace Dispatcher

variable {ω : Type} (play : Agent → ω → Task Agent Unit → Run Agent ω Unit)

/-- Dispatch after something happened. -/
def step (d : Dispatcher ω) : Move → Dispatcher ω
  | .send notice => { d with inbox := d.inbox.deliver notice }
  | .close channel => { d with inbox := d.inbox.close channel }
  | .cancel => { d with cancelled := true }
  | .turn preferred => d.turn play preferred

/-- Dispatch after several things happened. -/
def run (d : Dispatcher ω) (moves : List Move) : Dispatcher ω := moves.foldl (step play) d

end Dispatcher

/-! ### Start -/

/-- Registers the node of an index: one that the cluster knows is taken as it is. -/
def registerNode (index : Nat) : Action Unit := do
  let name := Node.fleetName index
  let node ← match ← Action.call (.getNode name) with
    | some existing => pure existing
    | none => do
      let agent ← Action.get
      let node :=
        Node.healthy agent.clock name (Node.fleetAddress index) (Node.fleetBlock index)
      Action.call (.createNode node)
      pure node
  Action.lift (trackNode node)
  addPool node

/-- Registers the nodes of some indices in order and stops at the first fault. -/
def registerAll : List Nat → Action Unit
  | [] => pure ()
  | index :: rest => do
    registerNode index
    registerAll rest

/-- Registers the whole fleet. -/
def bootstrap : Action Unit := do
  let agent ← Action.get
  registerAll (List.range agent.settings.nodeCount)

end HollowFleet.Agent
