import HollowFleet.Agent.Heartbeat
import HollowFleet.Agent.Pods
import HollowFleet.Cluster.Reply
import HollowFleet.Rehearsal.Script

/-!
# Stages

A stage is where an agent rehearses: a scripted cluster, a clock that moves only when
everything waits, and the worker that serves the agent's queues. Two things go on at a time:
the task that is played (`play`) and the worker. The worker works while the task waits for the
cluster or for room in a queue, and after the task is over. Where more than one task goes on
beside the worker, each is a background task that goes on for as long as it need not wait
(`pursue`).

When pods wait in both queues the worker may turn to either of them. The stage decides, by a
choice for each pod that the worker sees to (`Stage.turn`): it is a parameter of a rehearsal, and
what the agent guarantees does not depend on it.

A task that is not over by its deadline is abandoned where it stands; what it did to the agent
until then stays done.
-/

namespace HollowFleet.Rehearsal

/-- Where a task stands that goes on beside others. -/
inductive BackgroundTask (α : Type) where
  /-- It is over. -/
  | over (result : α)
  /-- It waits for the answer to a call, which is due at a time. -/
  | waiting (due : Nat) (request : Call) (fault : Option Fault)
      (resume : Agent → request.Reply → Progress Agent α)
  /-- It waits for room in a queue. -/
  | queueing (lane : Lane) (pod : Pod) (resume : Agent → Bool → Progress Agent α)
  /-- It waits for an answer that never comes. -/
  | stuck

namespace BackgroundTask

variable {α : Type}

/-- When the answer that it waits for is due. -/
def due? : BackgroundTask α → Option Nat
  | waiting due _ _ _ => some due
  | _ => none

end BackgroundTask

/-- A stage. -/
structure Stage where
  /-- The cluster. -/
  script : Script
  /-- The calls so far, the oldest first. -/
  records : List Record := []
  /-- Milliseconds since the start. -/
  now : Nat := 0
  /-- When the task that is played is abandoned. -/
  deadline : Nat := 0
  /-- Since when the wall clock goes along with the time, and what it showed then. -/
  wall : Option (Nat × Timestamp) := none
  /-- What the worker is at, if there is one. -/
  worker : Option (BackgroundTask Unit) := none
  /-- Which queue the worker turns to if pods wait in both, each time that it takes one. -/
  turn : Nat → Lane := fun n ↦ if n % 2 = 0 then .start else .stop
  /-- How many pods the worker has taken. -/
  taken : Nat := 0
  /-- Whether calls travel over a connection. Then the cluster's answers are taken as a client
  takes them, and the worker gets its turn during each call. -/
  remote : Bool := false

namespace Stage

/-! ### Calls -/

/-- The steps in which the wall clock is seen to move. -/
def clockStep : Nat := 100

/-- The agent with the wall clock as it is now. -/
def observe (s : Stage) (agent : Agent) : Agent :=
  match s.wall with
  | none => agent
  | some (since, shown) =>
    let elapsed := (s.now - since + clockStep / 2) / clockStep * clockStep
    { agent with clock := shown.addMillis elapsed }

/-- Whether a call does not even leave the agent: an object without a name has no path. -/
def refuses (s : Stage) (c : Call) : Bool := s.remote && c.needsName && decide (c.target = "")

/-- A call begins: it is recorded, and the rules say what becomes of it. -/
def begin (s : Stage) (c : Call) : Stage × Rule :=
  if s.refuses c then (s, { kind := c.kind, fault := some .unanswered })
  else
    let found := consult c s.script.rules
    let rule := found.2.getD { kind := c.kind }
    let ending : Ending :=
      if rule.stall then .stalled else if rule.fault.isSome then .failed else .answered
    ({ s with
      script := { s.script with rules := found.1 }
      records := s.records ++ [⟨c, ending⟩] }, rule)

/-- A call is answered. -/
def answer (s : Stage) (c : Call) (fault : Option Fault) : Stage × c.Reply :=
  match fault with
  | some f =>
    if s.remote then (s, c.settle f.acrossConnection) else (s, .error f)
  | none =>
    let done := s.script.perform c
    ({ s with script := done.1 }, .ok done.2)

/-! ### The worker -/

/-- A task goes on until it is over or waits past `limit`. It finds no room in the queues. -/
def proceed {α : Type} (limit : Nat) :
    Progress Agent α → Stage → Agent × Stage × BackgroundTask α
  | .done agent result, s => (agent, s, .over result)
  | .submit agent _ _ resume, s => proceed limit (resume agent false) s
  | .call agent c resume, s =>
    let agent := s.observe agent
    let begun := s.begin c
    let due := s.now + begun.2.delay
    if begun.2.stall then (agent, begun.1, .stuck)
    else if due ≤ limit then
      let s := { begun.1 with now := due }
      let answered := s.answer c begun.2.fault
      proceed limit (resume (s.observe agent) answered.2) answered.1
    else (agent, begun.1, .waiting due c begun.2.fault resume)

/-- A task that waits goes on as far as it can until `limit`. It finds no room in the queues. -/
def proceedFrom {α : Type} (limit : Nat) (agent : Agent) (s : Stage) :
    BackgroundTask α → Agent × Stage × BackgroundTask α
  | .waiting due c fault resume =>
    if due ≤ limit then
      let s := { s with now := max s.now due }
      let answered := s.answer c fault
      proceed limit (resume (s.observe agent) answered.2) answered.1
    else (agent, s, .waiting due c fault resume)
  | .queueing _ _ resume => proceed limit (resume agent false) s
  | e => (agent, s, e)

/-- The worker sees to at most `pods` pods, until it waits past `limit`. -/
def serve (limit : Nat) : Nat → Agent → Stage → Agent × Stage
  | 0, agent, s => (agent, s)
  | pods + 1, agent, s =>
    match s.worker, agent.nextEntry? (s.turn s.taken) with
    | some (.over _), some (lane, pod, rest) =>
      let after := proceed limit (Agent.drain lane pod rest) { s with taken := s.taken + 1 }
      serve limit pods after.1 { after.2.1 with worker := some after.2.2 }
    | _, _ => (agent, s)

/-- The worker does what it can do until `limit`. -/
def catchUp (limit : Nat) (agent : Agent) (s : Stage) : Agent × Stage :=
  match s.worker with
  | none => (agent, s)
  | some e =>
    let after := proceedFrom limit agent s e
    serve limit after.1.queues.waiting after.1 { after.2.1 with worker := some after.2.2 }

/-- Time goes by until `time`, and the worker goes on. -/
def passUntil (time : Nat) (agent : Agent) (s : Stage) : Agent × Stage :=
  let after := s.catchUp time agent
  (after.1, { after.2 with now := max after.2.now time })

/-! ### The task -/

/-- The task is abandoned at its deadline. -/
def abandon {α : Type} (agent : Agent) (s : Stage) : Outcome Agent Stage α :=
  let after := s.passUntil s.deadline agent
  .abandoned after.1 after.2

/-- The task calls the cluster. -/
def callFor (s : Stage) (agent : Agent) (c : Call) : Outcome Agent Stage c.Reply :=
  let agent := s.observe agent
  let begun := s.begin c
  let due := s.now + begun.2.delay
  if begun.2.stall || decide (s.deadline < due) then begun.1.abandon agent
  else
    let waited := if begun.2.delay = 0 then (agent, begun.1) else begun.1.passUntil due agent
    let answered := waited.2.answer c begun.2.fault
    let yielded :=
      if s.remote then answered.1.catchUp due waited.1 else (waited.1, answered.1)
    .resumed (yielded.2.observe yielded.1) yielded.2 answered.2

/-- The task submits a pod; if the queue is full it waits until the worker made room, which
takes at most `rounds` waits of the worker. -/
def submitFor (lane : Lane) (pod : Pod) : Nat → Stage → Agent → Outcome Agent Stage Bool
  | 0, s, agent => s.abandon agent
  | rounds + 1, s, agent =>
    let push (agent : Agent) : Agent := { agent with queues := agent.queues.push lane pod }
    if agent.queues.service = .closed then .resumed agent s false
    else if agent.queues.hasRoom lane then .resumed (push agent) s true
    else
      let after := s.catchUp s.now agent
      if after.1.queues.hasRoom lane then .resumed (push after.1) after.2 true
      else match after.2.worker.bind BackgroundTask.due? with
        | some due =>
          if due ≤ s.deadline then
            let later := after.2.passUntil due after.1
            submitFor lane pod rounds later.2 later.1
          else after.2.abandon after.1
        | none => after.2.abandon after.1

/-- The stage as the host of a task. -/
def host : Host Agent Stage where
  call s agent c := s.callFor agent c
  submit s agent lane pod := submitFor lane pod (agent.queues.waiting + 2) s agent

/-- Plays a task until `deadline`, and lets the worker finish what it can do without more
time. -/
def play {α : Type} (deadline : Nat) (t : Task Agent α) (agent : Agent) (s : Stage) :
    Run Agent Stage α :=
  let run := t.run host { s with deadline } agent
  let after := run.world.catchUp run.world.now run.state
  ⟨after.1, after.2, run.result⟩

/-- Milliseconds after which a task counts as blocked. -/
def patience : Nat := 100000000

/-! ### Background tasks -/

/-- A task goes on beside the worker until it is over or has to wait; the worker gets its turn
during each call. -/
def pursue {α : Type} : Progress Agent α → Stage → Agent × Stage × BackgroundTask α
  | .done agent result, s => (agent, s, .over result)
  | .submit agent lane pod resume, s =>
    if agent.queues.service = .closed then pursue (resume agent false) s
    else if agent.queues.hasRoom lane then
      pursue (resume { agent with queues := agent.queues.push lane pod } true) s
    else
      let after := s.catchUp s.now agent
      if after.1.queues.hasRoom lane then
        pursue (resume { after.1 with queues := after.1.queues.push lane pod } true) after.2
      else (after.1, after.2, .queueing lane pod resume)
  | .call agent c resume, s =>
    let agent := s.observe agent
    let begun := s.begin c
    if begun.2.stall then (agent, begun.1, .stuck)
    else if begun.2.delay = 0 then
      let answered := begun.1.answer c begun.2.fault
      let after := answered.1.catchUp s.now agent
      pursue (resume (after.2.observe after.1) answered.2) after.2
    else (agent, begun.1, .waiting (s.now + begun.2.delay) c begun.2.fault resume)

/-- Whether a background task can go on. -/
def isReady {α : Type} (agent : Agent) (s : Stage) : BackgroundTask α → Bool
  | .over _ => false
  | .waiting due _ _ _ => decide (due ≤ s.now)
  | .queueing lane _ _ =>
    decide (agent.queues.service = .closed) || agent.queues.hasRoom lane
  | .stuck => false

/-- A background task that can go on does so. -/
def resume {α : Type} (agent : Agent) (s : Stage) :
    BackgroundTask α → Agent × Stage × BackgroundTask α
  | .waiting due c fault resume =>
    if due ≤ s.now then
      let answered := s.answer c fault
      let after := answered.1.catchUp s.now agent
      pursue (resume (after.2.observe after.1) answered.2) after.2
    else (agent, s, .waiting due c fault resume)
  | .queueing lane pod resume =>
    if agent.queues.service = .closed then pursue (resume agent false) s
    else if agent.queues.hasRoom lane then
      pursue (resume { agent with queues := agent.queues.push lane pod } true) s
    else (agent, s, .queueing lane pod resume)
  | e => (agent, s, e)

/-! ### The beat -/

/-- A stage on which the leases of the tracked nodes are renewed until `stop`. -/
def renewals (stop : Nat) : Timeline (Agent × Stage) where
  time w := w.2.now
  waitUntil w time := w.2.passUntil time w.1
  pass w :=
    let run := w.2.play stop Agent.renewTracked w.1
    ((run.state, run.world), run.result.isSome)

/-- The agent renews its leases until `stop`. -/
def renewUntil (stop : Nat) (beat : Beat) (agent : Agent) (s : Stage) : Beat × Agent × Stage :=
  let driven := (renewals stop).run stop beat (agent, s)
  (driven.1, driven.2.2.passUntil stop driven.2.1)

/-- The wall clock goes along with the time from now on. -/
def followTime (agent : Agent) (s : Stage) : Stage := { s with wall := some (s.now, agent.clock) }

/-- The wall clock stands still again; it shows by how much the time moved since. -/
def holdClock (agent : Agent) (s : Stage) : Agent × Stage :=
  match s.wall with
  | some (since, shown) =>
    ({ agent with clock := shown.addMillis (s.now - since : Nat) }, { s with wall := none })
  | none => (agent, s)

/-- The agent renews its leases for a while, and the wall clock goes along. -/
def renewFor (ms : Nat) (beat : Beat) (agent : Agent) (s : Stage) : Beat × Agent × Stage :=
  let after := (s.followTime agent).renewUntil (s.now + ms) beat agent
  (after.1, after.2.2.holdClock after.2.1)

end Stage

end HollowFleet.Rehearsal
