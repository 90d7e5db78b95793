import HollowFleet.Cluster.Call

/-!
# Tasks

A task is work on a shared state that pauses in two ways: it calls the cluster, or it submits
a pod to a work queue. While it pauses, others may change the state, so it is resumed on the
state as it then is. A task that was started is a tree of such pauses (`Progress`), and a
host decides what happens at each of them.

## Why a tree

Between two pauses a task has the state to itself; that is all that is relied on. A node of the
tree has the state in which the task paused and a function from the state and the answer with which
it is resumed, so the same tree serves a run against a fixed host, a run in which two tasks take
turns on one state, and one that is broken off while a call is out. Nothing in a tree says how a
call is answered, and a statement on all ways to go through a tree is one on all answers and on all
that others do meanwhile.

## Runs against a host

`Progress.follow` runs a task against a host: every call is answered, or the run is abandoned.
It is recursion on the tree, so it needs no bound, and the laws `follow_bind` and `run_bind`
take a run of two tasks in a row apart. An abandoned run has a state and no result; a host may give
up on a call that is never answered, and then the rest of the task does not happen.
-/

namespace HollowFleet

/-- The two work queues: pods to be started again and pods to be stopped again. -/
inductive Lane where
  | start
  | stop
deriving DecidableEq, Repr

namespace Lane

/-- The other queue. -/
def other : Lane → Lane
  | start => stop
  | stop => start

/-- There are no more queues than one and the other. -/
theorem forall_iff {p : Lane → Prop} (l : Lane) : (∀ l', p l') ↔ p l ∧ p l.other := by
  constructor
  · exact fun h ↦ ⟨h l, h l.other⟩
  · rintro ⟨hl, hother⟩ l'
    cases l <;> cases l' <;> assumption

end Lane

/-- A task under way, on states of type `σ` and with results of type `α`. -/
inductive Progress (σ α : Type) where
  /-- The task is over. -/
  | done (state : σ) (result : α)
  /-- The task waits for the answer to a call. -/
  | call (state : σ) (request : Call) (resume : σ → request.Reply → Progress σ α)
  /-- The task waits for room in a queue; it learns whether the queue took the pod. -/
  | submit (state : σ) (lane : Lane) (pod : Pod) (resume : σ → Bool → Progress σ α)

namespace Progress

variable {σ α β ε : Type}

/-- Goes on with another task. -/
def bind (p : Progress σ α) (next : α → σ → Progress σ β) : Progress σ β :=
  match p with
  | done s a => next a s
  | call s c resume => call s c fun s' r ↦ (resume s' r).bind next
  | submit s lane pod resume => submit s lane pod fun s' taken ↦ (resume s' taken).bind next

end Progress

/-- Work on a shared state that may pause. -/
def Task (σ α : Type) : Type := σ → Progress σ α

namespace Task

variable {σ α β : Type}

/-- A task that is over at once. -/
protected def pure (a : α) : Task σ α := fun s ↦ .done s a

/-- One task after the other. -/
protected def bind (t : Task σ α) (next : α → Task σ β) : Task σ β := fun s ↦ (t s).bind next

instance : Monad (Task σ) where
  pure := Task.pure
  bind := Task.bind

/-- The state as it is. -/
def get : Task σ σ := fun s ↦ .done s s

/-- Changes the state. -/
def modify (f : σ → σ) : Task σ Unit := fun s ↦ .done (f s) ()

/-- Calls the cluster. -/
def call (c : Call) : Task σ c.Reply := fun s ↦ .call s c .done

/-- Submits a pod to a queue. -/
def submit (lane : Lane) (pod : Pod) : Task σ Bool := fun s ↦ .submit s lane pod .done

end Task

/-! ### Hosts -/

/-- What a host makes of a pause: it resumes the task with an answer, or never. -/
inductive Outcome (σ ε α : Type) where
  | resumed (state : σ) (world : ε) (answer : α)
  | abandoned (state : σ) (world : ε)

/-- What is around a task: a world that answers its calls and runs its queues, and that may
change the state meanwhile. -/
structure Host (σ ε : Type) where
  /-- Answers a call. -/
  call : ε → σ → (c : Call) → Outcome σ ε c.Reply
  /-- Puts a pod into a queue. -/
  submit : ε → σ → Lane → Pod → Outcome σ ε Bool

/-- Where a run of a task ended: the state, the world, and the result unless the run was
abandoned. -/
structure Run (σ ε α : Type) where
  /-- The state at the end. -/
  state : σ
  /-- The world at the end. -/
  world : ε
  /-- The result. -/
  result : Option α

namespace Progress

variable {σ α β ε : Type}

/-- Runs a task that was started. -/
def follow (host : Host σ ε) (world : ε) : Progress σ α → Run σ ε α
  | done s a => ⟨s, world, some a⟩
  | call s c resume =>
    match host.call world s c with
    | .resumed s' world' r => (resume s' r).follow host world'
    | .abandoned s' world' => ⟨s', world', none⟩
  | submit s lane pod resume =>
    match host.submit world s lane pod with
    | .resumed s' world' taken => (resume s' taken).follow host world'
    | .abandoned s' world' => ⟨s', world', none⟩

/-- A run of two tasks in a row is a run of the first and, if it was not abandoned, a run of
the second from where the first ended. -/
theorem follow_bind (host : Host σ ε) (world : ε) (p : Progress σ α)
    (next : α → σ → Progress σ β) :
    (p.bind next).follow host world =
      match p.follow host world with
      | ⟨s, world', some a⟩ => (next a s).follow host world'
      | ⟨s, world', none⟩ => ⟨s, world', none⟩ := by
  induction p generalizing world with
  | done s a => rfl
  | call s c resume ih =>
    simp only [bind, follow]
    split
    · exact ih _ _ _
    · rfl
  | submit s lane pod resume ih =>
    simp only [bind, follow]
    split
    · exact ih _ _ _
    · rfl

end Progress

namespace Task

variable {σ α β ε : Type}

/-- Runs a task. -/
def run (host : Host σ ε) (world : ε) (state : σ) (t : Task σ α) : Run σ ε α :=
  (t state).follow host world

@[simp]
theorem run_pure (host : Host σ ε) (world : ε) (state : σ) (a : α) :
    (pure a : Task σ α).run host world state = ⟨state, world, some a⟩ := rfl

@[simp]
theorem run_get (host : Host σ ε) (world : ε) (state : σ) :
    (get : Task σ σ).run host world state = ⟨state, world, some state⟩ := rfl

@[simp]
theorem run_modify (host : Host σ ε) (world : ε) (state : σ) (f : σ → σ) :
    (modify f).run host world state = ⟨f state, world, some ()⟩ := rfl

theorem run_bind (host : Host σ ε) (world : ε) (state : σ) (t : Task σ α)
    (next : α → Task σ β) :
    (t >>= next).run host world state =
      match t.run host world state with
      | ⟨s, world', some a⟩ => (next a).run host world' s
      | ⟨s, world', none⟩ => ⟨s, world', none⟩ :=
  Progress.follow_bind host world (t state) next

end Task

end HollowFleet
