import HollowFleet.Accounting.Ledger
import HollowFleet.Address.Pool
import HollowFleet.Agent.Warning
import HollowFleet.Cluster.Task
import HollowFleet.Settings

/-!
# The agent

The state of an agent: its settings, the clock as it last saw it, the accounts and the address
pools of its nodes, the work queues, and the journal of its warnings. The queues are served
by one worker, which claims them once; when it is stopped they take nothing any more.

## One state for all tasks

The accounts, the pools and the queues are shared by whatever the agent is at, so there is one
record of them, and work on it is a `Task`: between two pauses a task has the record to itself, and
what it finds after a pause is what the others left there. An `Action` is a task that may fail, with
the fault as its result and the state kept, so a failed action may have changed the state. This is
why `ExceptT` stands outside of the task and not within it. `Action.orWarn` is how a failure ends in
most places: in the journal.

Nothing in the record is reserved to one part of the agent. That a part leaves another one alone is
said of the tasks, where it is true.

## Queues

A queue has a capacity, and the task that submits a pod waits for room; that is a pause, so the
operations here only say what is so when there is room (`hasRoom`, `push`, `pop?`). A queue that
was asked for a capacity of zero has room for one pod.
-/

namespace HollowFleet

/-! ### Work queues -/

/-- Who serves the queues. -/
inductive Service where
  /-- Nobody yet. -/
  | unclaimed
  /-- A worker. -/
  | claimed
  /-- Nobody any more. -/
  | closed
deriving DecidableEq, Repr

/-- The work queues. -/
structure Queues where
  /-- The number of pods that each queue holds, at least one. -/
  capacity : Nat
  /-- Pods to be started again, the oldest first. -/
  starts : List Pod := []
  /-- Pods to be stopped again, the oldest first. -/
  stops : List Pod := []
  /-- Who serves the queues. -/
  service : Service := .unclaimed
deriving DecidableEq

namespace Queues

/-- The pods of a queue. -/
def lane (q : Queues) : Lane → List Pod
  | .start => q.starts
  | .stop => q.stops

/-- Whether a queue can take a pod. -/
def hasRoom (q : Queues) (l : Lane) : Bool := decide ((q.lane l).length < q.capacity)

/-- Puts a pod at the end of a queue. -/
def push (q : Queues) (l : Lane) (pod : Pod) : Queues :=
  match l with
  | .start => { q with starts := q.starts ++ [pod] }
  | .stop => { q with stops := q.stops ++ [pod] }

/-- Takes the oldest pod of a queue. -/
def pop? (q : Queues) (l : Lane) : Option (Pod × Queues) :=
  match l with
  | .start =>
    match q.starts with
    | pod :: rest => some (pod, { q with starts := rest })
    | [] => none
  | .stop =>
    match q.stops with
    | pod :: rest => some (pod, { q with stops := rest })
    | [] => none

/-- The number of pods that wait. -/
def waiting (q : Queues) : Nat := q.starts.length + q.stops.length

theorem waiting_of_pop? {q q' : Queues} {l : Lane} {pod : Pod} (h : q.pop? l = some (pod, q')) :
    q'.waiting + 1 = q.waiting := by
  cases l with
  | start =>
    simp only [pop?] at h
    split at h
    · next heq =>
      simp only [Option.some.injEq, Prod.mk.injEq] at h
      obtain ⟨-, rfl⟩ := h
      simp only [waiting, heq, List.length_cons]
      omega
    · simp at h
  | stop =>
    simp only [pop?] at h
    split at h
    · next heq =>
      simp only [Option.some.injEq, Prod.mk.injEq] at h
      obtain ⟨-, rfl⟩ := h
      simp only [waiting, heq, List.length_cons]
      omega
    · simp at h

end Queues

/-! ### State and actions -/

/-- The state of an agent. -/
structure Agent where
  /-- The settings. -/
  settings : Settings
  /-- The wall clock as last seen. -/
  clock : Timestamp
  /-- The accounts of the tracked nodes. -/
  ledger : Ledger := ∅
  /-- The address pools, by node. -/
  pools : Table Pool := ∅
  /-- The work queues. -/
  queues : Queues
  /-- The warnings, the oldest first. -/
  journal : List Warning := []

/-- Work of the agent that may fail. -/
abbrev Action (α : Type) := ExceptT Fault (Task Agent) α

namespace Agent

/-- An agent at its start. -/
def initial (settings : Settings) (clock : Timestamp) : Agent where
  settings
  clock
  queues := { capacity := max settings.queueCapacity 1 }

/-- Writes a warning into the journal. -/
def warn (a : Agent) (w : Warning) : Agent := { a with journal := a.journal ++ [w] }

/-- The pool of the node that a pod is bound to. -/
def poolOf? (a : Agent) (pod : Pod) : Option (String × Pool) := do
  let node ← pod.node?
  let pool ← a.pools.find? node
  return (node, pool)

/-- Files a node's pool. -/
def setPool (a : Agent) (node : String) (pool : Pool) : Agent :=
  { a with pools := a.pools.insert node pool }

end Agent

namespace Action

/-- Calls the cluster and goes on only with an answer. -/
def call (c : Call) : Action c.Answer := ExceptT.mk (Task.call c)

/-- The state as it is. -/
def get : Action Agent := ExceptT.lift Task.get

/-- Does work that cannot fail. -/
def lift {α : Type} (t : Task Agent α) : Action α := ExceptT.lift t

end Action

/-- Writes a warning into the journal. -/
def Task.warn (w : Warning) : Task Agent Unit := Task.modify fun a ↦ a.warn w

/-- Does work that may fail, and turns a fault into a warning. -/
def Action.orWarn (action : Action Unit) (w : Fault → Warning) : Task Agent Unit := do
  match ← action.run with
  | .ok _ => return ()
  | .error fault => Task.warn (w fault)

end HollowFleet
