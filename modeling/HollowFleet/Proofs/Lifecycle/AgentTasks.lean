import HollowFleet.Proofs.Lifecycle.Queues

/-!
# The agent at work

Two tasks work on one agent. The front handles events, one at a time; the worker takes pods off
the queues, in any order of the two queues, and sees to them. Each goes from one pause to the
next while the other one waits, so anything may happen between a call and its answer. What the
calls are answered with, when a queue has room, and when the worker is cancelled, is left open:
`AgentTasks.step?` says what may happen next, and a run is any sequence of such moves.

A move is a function of the state and not a relation, so that a run on fixed moves can be computed;
`AgentTasks.Step` has the same content as one case for each kind of move, guards included, and is
what proofs go by (`step_of_step?`). Which queue the worker takes from is part of the move, and
nothing prefers one of the two, so a statement about all runs is one about every order.

`AgentTasks.Orderly` is the invariant for what waits to be started: some property holds of every pod
in the queue of starts, and the front, wherever it pauses, will submit only such pods from there on.
The second half is what makes it inductive, since a pod may be settled long before it is queued. It
is kept by every move (`Orderly.step`), provided that every report that arrives has the property,
and so by every run (`Orderly.run`). The worker cannot break it: it submits nothing.
-/

namespace HollowFleet

open Agent Watch

/-- The two tasks. -/
inductive Party where
  /-- The one that handles events. -/
  | front
  /-- The one that sees to queued pods. -/
  | worker
deriving DecidableEq, Repr

/-- An agent with its two tasks. -/
structure AgentTasks where
  /-- The agent. -/
  agent : Agent
  /-- The event that is handled, as far as it is. -/
  front : Progress Agent Unit
  /-- The queued pod that is seen to, as far as it is. -/
  worker : Progress Agent Unit

/-- What happens next. -/
inductive Move where
  /-- An event arrives, and the front begins to handle it. -/
  | receive (notice : Notice)
  /-- The worker takes the oldest pod off a queue and begins to see to it. -/
  | take (lane : Lane)
  /-- A call is answered. -/
  | answer (who : Party) (reply : (c : Call) → c.Reply)
  /-- A queue takes a pod that was submitted, or turns it down because it is closed. -/
  | place (who : Party)
  /-- A worker claims the queues. -/
  | claim
  /-- The worker is cancelled. -/
  | cancel
  /-- The clock moves. -/
  | elapse (clock : Timestamp)

namespace AgentTasks

/-- An agent at its start. -/
def initial (settings : Settings) (clock : Timestamp) : AgentTasks :=
  let agent := Agent.initial settings clock
  ⟨agent, .done agent (), .done agent ()⟩

/-- What a party is at. -/
def task (d : AgentTasks) : Party → Progress Agent Unit
  | .front => d.front
  | .worker => d.worker

/-- A party goes on to its next pause. -/
def proceed (d : AgentTasks) (who : Party) (p : Progress Agent Unit) : AgentTasks :=
  match who with
  | .front => { d with agent := p.state, front := p }
  | .worker => { d with agent := p.state, worker := p }

/-- The agent and its tasks after a move, if the move can be made. -/
def step? (d : AgentTasks) : Move → Option AgentTasks
  | .receive notice =>
    if d.front.isOver then some (d.proceed .front (handle notice d.agent)) else none
  | .take lane =>
    if d.worker.isOver ∧ d.agent.queues.service = .claimed then
      (d.agent.takeEntry? lane).map fun entry ↦ d.proceed .worker (drain lane entry.1 entry.2)
    else none
  | .answer who reply =>
    match d.task who with
    | .call _ c resume => some (d.proceed who (resume d.agent (reply c)))
    | _ => none
  | .place who =>
    match d.task who with
    | .submit _ lane pod resume =>
      if d.agent.queues.service = .closed then some (d.proceed who (resume d.agent false))
      else if d.agent.queues.hasRoom lane then
        some (d.proceed who
          (resume { d.agent with queues := d.agent.queues.push lane pod } true))
      else none
    | _ => none
  | .claim => d.agent.claimQueues.toOption.map fun agent ↦ { d with agent }
  | .cancel =>
    if d.agent.queues.service = .claimed then
      some { d with agent := d.agent.closeQueues, worker := .done d.agent.closeQueues () }
    else none
  | .elapse clock => some { d with agent := { d.agent with clock } }

/-- The agent and its tasks after some moves, if they can be made. -/
def run? (d : AgentTasks) : List Move → Option AgentTasks
  | [] => some d
  | m :: rest => (d.step? m).bind fun d' ↦ d'.run? rest

/-- Moves can be made in two parts, the second from where the first one led. -/
theorem run?_append (d : AgentTasks) (moves moves' : List Move) :
    d.run? (moves ++ moves') = (d.run? moves).bind fun d' ↦ d'.run? moves' := by
  induction moves generalizing d with
  | nil => rfl
  | cons m rest ih =>
    rw [List.cons_append, run?, run?, Option.bind_assoc]
    exact Option.bind_congr fun d' _ ↦ ih d'

/-! ### What a move does -/

/-- What a move does, one case for each kind. -/
inductive Step (d : AgentTasks) : Move → AgentTasks → Prop where
  | receive (notice : Notice) (hidle : d.front.isOver = true) :
    Step d (.receive notice) (d.proceed .front (handle notice d.agent))
  | take {lane : Lane} {pod : Pod} {queues : Queues} (hidle : d.worker.isOver = true)
    (hclaimed : d.agent.queues.service = .claimed)
    (hpop : d.agent.queues.pop? lane = some (pod, queues)) :
    Step d (.take lane) (d.proceed .worker (drain lane pod { d.agent with queues }))
  | answer (who : Party) (reply : (c : Call) → c.Reply) {s : Agent} {c : Call}
    {resume : Agent → c.Reply → Progress Agent Unit} (htask : d.task who = .call s c resume) :
    Step d (.answer who reply) (d.proceed who (resume d.agent (reply c)))
  | refuse (who : Party) {s : Agent} {lane : Lane} {pod : Pod}
    {resume : Agent → Bool → Progress Agent Unit} (htask : d.task who = .submit s lane pod resume)
    (hclosed : d.agent.queues.service = .closed) :
    Step d (.place who) (d.proceed who (resume d.agent false))
  | place (who : Party) {s : Agent} {lane : Lane} {pod : Pod}
    {resume : Agent → Bool → Progress Agent Unit} (htask : d.task who = .submit s lane pod resume)
    (hopen : d.agent.queues.service ≠ .closed) :
    Step d (.place who) (d.proceed who
      (resume { d.agent with queues := d.agent.queues.push lane pod } true))
  | claim (hunclaimed : d.agent.queues.service = .unclaimed) :
    Step d .claim
      { d with agent := { d.agent with queues := { d.agent.queues with service := .claimed } } }
  | cancel (hclaimed : d.agent.queues.service = .claimed) :
    Step d .cancel { d with agent := d.agent.closeQueues, worker := .done d.agent.closeQueues () }
  | elapse (clock : Timestamp) : Step d (.elapse clock) { d with agent := { d.agent with clock } }

/-- **A move that can be made is one of these cases**, each with what was asked for it and all that
it changes. -/
theorem step_of_step? {d d' : AgentTasks} {m : Move} (h : d.step? m = some d') : d.Step m d' := by
  cases m with
  | receive notice =>
    simp only [step?] at h
    split at h
    · next hidle =>
      cases h
      exact .receive notice hidle
    · cases h
  | take lane =>
    simp only [step?, takeEntry?, Option.map_map] at h
    split at h
    · next hidle =>
      obtain ⟨⟨pod, queues⟩, hpop, rfl⟩ := Option.map_eq_some_iff.1 h
      exact .take hidle.1 hidle.2 hpop
    · cases h
  | answer who reply =>
    simp only [step?] at h
    split at h
    · next htask =>
      cases h
      exact .answer who reply htask
    · cases h
  | place who =>
    simp only [step?] at h
    split at h
    · next htask =>
      split at h
      · next hclosed =>
        cases h
        exact .refuse who htask hclosed
      · next hopen =>
        split at h
        · cases h
          exact .place who htask hopen
        · cases h
    · cases h
  | claim =>
    simp only [step?, claimQueues] at h
    split at h
    · next hunclaimed =>
      cases h
      exact .claim hunclaimed
    · cases h
  | cancel =>
    simp only [step?] at h
    split at h
    · next hclaimed =>
      cases h
      exact .cancel hclaimed
    · cases h
  | elapse clock =>
    cases h
    exact .elapse clock

end AgentTasks

/-! ### Queued pods -/

namespace Queues

variable {q q' : Queues} {pod : Pod}

theorem eq_of_pop?_start (h : q.pop? .start = some (pod, q')) :
    q.starts = pod :: q'.starts ∧ q'.service = q.service := by
  simp only [pop?] at h
  split at h
  · next heq =>
    cases h
    exact ⟨heq, rfl⟩
  · cases h

theorem eq_of_pop?_stop (h : q.pop? .stop = some (pod, q')) :
    q'.starts = q.starts ∧ q'.service = q.service := by
  simp only [pop?] at h
  split at h
  · cases h
    exact ⟨rfl, rfl⟩
  · cases h

/-- Whatever queue a pod is taken off, nothing comes into the queue of starts by it. -/
theorem mem_starts_of_pop? {lane : Lane} (h : q.pop? lane = some (pod, q')) {e : Pod}
    (he : e ∈ q'.starts) : e ∈ q.starts := by
  cases lane with
  | start => rw [(eq_of_pop?_start h).1]; exact List.mem_cons_of_mem _ he
  | stop => rwa [← (eq_of_pop?_stop h).1]

theorem service_of_pop? {lane : Lane} (h : q.pop? lane = some (pod, q')) :
    q'.service = q.service := by
  cases lane with
  | start => exact (eq_of_pop?_start h).2
  | stop => exact (eq_of_pop?_stop h).2

/-- What is in the queue of starts after a pod was submitted was there before, or is that pod. -/
theorem mem_starts_push {lane : Lane} {e : Pod} (he : e ∈ (q.push lane pod).starts) :
    e ∈ q.starts ∨ lane = .start ∧ e = pod := by
  cases lane with
  | start =>
    rcases List.mem_append.1 he with he | he
    · exact .inl he
    · exact .inr ⟨rfl, List.mem_singleton.1 he⟩
  | stop => exact .inl he

theorem service_push (q : Queues) (lane : Lane) (pod : Pod) :
    (q.push lane pod).service = q.service := by
  cases lane <;> rfl

end Queues

namespace AgentTasks

/-- Every pod that is queued for a start, or that the front may still queue for one, is as it
should be. -/
structure Orderly (ok : Pod → Prop) (d : AgentTasks) : Prop where
  /-- The pods that wait are as they should be. -/
  waiting : ∀ e ∈ d.agent.queues.starts, ok e
  /-- Nothing waits in closed queues. -/
  closed : d.agent.queues.service = .closed → d.agent.queues.starts = []
  /-- The front leaves the queues alone, but for what it submits. -/
  front : d.front.Tame Agent.queues (fun lane e ↦ lane = .start → ok e) fun _ ↦ True
  /-- The worker leaves the queues alone. -/
  worker : d.worker.Brief Agent.queues

variable {ok : Pod → Prop} {d d' : AgentTasks} {m : Move}

theorem orderly_initial (settings : Settings) (clock : Timestamp) (ok : Pod → Prop) :
    (initial settings clock).Orderly ok where
  waiting := fun _ he ↦ by cases he
  closed := fun _ ↦ rfl
  front := trivial
  worker := trivial

/-- The queues are told apart from the rest of the agent, so a stretch of work that leaves them
alone can be looked through. -/
theorem Orderly.of_queues {a : Agent} {front worker : Progress Agent Unit} (h : d.Orderly ok)
    (hqueues : a.queues = d.agent.queues)
    (hfront : front.Tame Agent.queues (fun lane e ↦ lane = .start → ok e) fun _ ↦ True)
    (hworker : worker.Brief Agent.queues) : Orderly ok ⟨a, front, worker⟩ where
  waiting := hqueues ▸ h.waiting
  closed := hqueues ▸ h.closed
  front := hfront
  worker := hworker

/-! An orderly party that is at a call or at a submission goes on as follows. -/

section Task

variable {s : Agent}

/-- The stretch of the front after an answer leaves the queues alone, and what it may submit later
on is as it should be. -/
theorem Orderly.answered_front (h : d.Orderly ok) {c : Call}
    {resume : Agent → c.Reply → Progress Agent Unit} (htask : d.task .front = .call s c resume)
    (a : Agent) (r : c.Reply) : (resume a r).state.queues = a.queues ∧
      (resume a r).Tame Agent.queues (fun lane e ↦ lane = .start → ok e) fun _ ↦ True := by
  have hfront := h.front
  rw [show d.front = _ from htask] at hfront
  exact hfront a r

/-- The stretch of the worker after an answer leaves the queues alone, and the worker is over then.
-/
theorem Orderly.answered_worker (h : d.Orderly ok) {c : Call}
    {resume : Agent → c.Reply → Progress Agent Unit} (htask : d.task .worker = .call s c resume)
    (a : Agent) (r : c.Reply) :
    (resume a r).state.queues = a.queues ∧ (resume a r).isOver = true := by
  have hworker := h.worker
  rw [show d.worker = _ from htask] at hworker
  exact hworker a r

variable {lane : Lane} {pod : Pod} {resume : Agent → Bool → Progress Agent Unit}

/-- Only the front submits pods. -/
theorem Orderly.eq_front_of_submit (h : d.Orderly ok) {who : Party}
    (htask : d.task who = .submit s lane pod resume) : who = .front := by
  cases who with
  | front => rfl
  | worker =>
    have hworker := h.worker
    rw [show d.worker = _ from htask] at hworker
    cases hworker

/-- What the front submits for a start is as it should be, and so is what it may submit after that.
-/
theorem Orderly.placed_front (h : d.Orderly ok)
    (htask : d.task .front = .submit s lane pod resume) : (lane = .start → ok pod) ∧
      ∀ (a : Agent) (taken : Bool), (resume a taken).state.queues = a.queues ∧
        (resume a taken).Tame Agent.queues (fun lane e ↦ lane = .start → ok e) fun _ ↦ True := by
  have hfront := h.front
  rw [show d.front = _ from htask] at hfront
  exact hfront

end Task

/-- **What waits is as it should be** if all that is reported is. -/
theorem Orderly.step (h : d.Orderly ok) (hstep : d.Step m d')
    (hreceive : ∀ notice, m = .receive notice → ∀ e, notice.Submits .start e → ok e) :
    d'.Orderly ok := by
  cases hstep with
  | receive notice =>
    have hhandle : Task.Tame Agent.queues (fun lane e ↦ lane = .start → ok e) (handle notice)
        (fun _ ↦ True) d.agent :=
      tame_handle fun lane e he hlane ↦ hreceive notice rfl e (hlane ▸ he)
    exact h.of_queues hhandle.1 hhandle.2 h.worker
  | @take lane pod queues hidle hclaimed hpop =>
    obtain ⟨hqueues, hbrief⟩ := brief_drain lane pod { d.agent with queues }
    have hservice := (congrArg Queues.service hqueues).trans
      ((Queues.service_of_pop? hpop).trans hclaimed)
    refine ⟨fun e he ↦ h.waiting e ?_, fun hclosed ↦ ?_, h.front, hbrief⟩
    · have hmem : e ∈ (drain lane pod { d.agent with queues }).state.queues.starts := he
      rw [hqueues] at hmem
      exact Queues.mem_starts_of_pop? hpop hmem
    · exact absurd (hservice.symm.trans hclosed) nofun
  | answer who reply htask =>
    cases who with
    | front =>
      obtain ⟨hqueues, htame⟩ := h.answered_front htask d.agent (reply _)
      exact h.of_queues hqueues htame h.worker
    | worker =>
      obtain ⟨hqueues, hover⟩ := h.answered_worker htask d.agent (reply _)
      exact h.of_queues hqueues h.front (.of_isOver hover)
  | refuse who htask hclosed =>
    obtain rfl := h.eq_front_of_submit htask
    obtain ⟨hqueues, htame⟩ := (h.placed_front htask).2 d.agent false
    exact h.of_queues hqueues htame h.worker
  | @place who s lane pod resume htask hopen =>
    obtain rfl := h.eq_front_of_submit htask
    obtain ⟨hok, hresume⟩ := h.placed_front htask
    obtain ⟨hqueues, htame⟩ := hresume { d.agent with queues := d.agent.queues.push lane pod } true
    refine ⟨fun e he ↦ ?_, fun hclosed ↦ ?_, htame, h.worker⟩
    · rcases Queues.mem_starts_push (hqueues ▸ he) with he | ⟨hlane, rfl⟩
      · exact h.waiting e he
      · exact hok hlane
    · have hservice := (congrArg Queues.service hqueues).trans (Queues.service_push ..)
      exact absurd (hservice.symm.trans hclosed) hopen
  | claim hunclaimed => exact ⟨h.waiting, nofun, h.front, h.worker⟩
  | cancel => exact ⟨fun _ he ↦ (List.not_mem_nil he).elim, fun _ ↦ rfl, h.front, trivial⟩
  | elapse clock => exact h.of_queues rfl h.front h.worker

theorem Orderly.run {moves : List Move} (h : d.Orderly ok) (hrun : d.run? moves = some d')
    (hreceive : ∀ m ∈ moves, ∀ notice, m = .receive notice →
      ∀ e, notice.Submits .start e → ok e) :
    d'.Orderly ok := by
  induction moves generalizing d with
  | nil =>
    cases hrun
    exact h
  | cons m rest ih =>
    obtain ⟨d₁, hstep, hrest⟩ := Option.bind_eq_some_iff.1 hrun
    exact ih (h.step (step_of_step? hstep) (hreceive m List.mem_cons_self)) hrest
      fun m' hm' ↦ hreceive m' (List.mem_cons_of_mem _ hm')

end AgentTasks

end HollowFleet
