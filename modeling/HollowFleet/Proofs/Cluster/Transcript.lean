import HollowFleet.Agent.State

/-!
# What others see of a run

Whoever looks at a run from outside sees the calls that it makes, each with the answer that it
gets, and the pods that it submits to the queues. That is its transcript. The transcript of one
task after the other is the first transcript and then the second one (`transcript_bind`), so work
without pauses leaves no trace in it.

A transcript is defined on the tree of a task, by recursion on its pauses, next to the run and with
the same host. So what is said of it, such as that a status is written exactly once, is about the
order and the number of the calls and not only about where the run ends. A call that is abandoned
is seen too, without an answer, and is the last mark of its transcript.

`transcript_bind` is by induction on the tree of the first task. The other two lemmas are what is
used of it: what follows a task without pausing adds nothing (`transcript_bind_of_silent`), and so
a fault that becomes a warning is not seen (`transcript_orWarn`).
-/

namespace HollowFleet

variable {σ ε α β : Type}

/-- What others see of a run. -/
inductive Mark where
  /-- A call, with the answer unless the run was abandoned over it. -/
  | call (c : Call) (reply : Option c.Reply)
  /-- A pod is submitted to a queue. -/
  | submit (lane : Lane) (pod : Pod)

/-- The pod whose status is written. -/
def Mark.written? : Mark → Option Pod
  | call (.updatePodStatus pod) _ => some pod
  | _ => none

namespace Progress

/-- What others see of a run, in order. -/
def transcript (host : Host σ ε) (world : ε) : Progress σ α → List Mark
  | done _ _ => []
  | call s c resume =>
    match host.call world s c with
    | .resumed s' world' r => .call c (some r) :: (resume s' r).transcript host world'
    | .abandoned _ _ => [.call c none]
  | submit s lane pod resume =>
    .submit lane pod ::
      match host.submit world s lane pod with
      | .resumed s' world' taken => (resume s' taken).transcript host world'
      | .abandoned _ _ => []

end Progress

namespace Task

/-- What others see of a run, in order. -/
def transcript (host : Host σ ε) (world : ε) (s : σ) (t : Task σ α) : List Mark :=
  (t s).transcript host world

variable {host : Host σ ε} {world : ε} {s : σ} {t : Task σ α} {next : α → Task σ β}

/-- **Of two tasks in a row** the first is seen and then, if it was not abandoned, the second. -/
theorem transcript_bind (host : Host σ ε) (world : ε) (s : σ) (t : Task σ α)
    (next : α → Task σ β) :
    (t >>= next).transcript host world s = t.transcript host world s ++
      match t.run host world s with
      | ⟨s', world', some a⟩ => (next a).transcript host world' s'
      | ⟨_, _, none⟩ => [] := by
  have htree : ∀ (p : Progress σ α) (world : ε), (p.bind next).transcript host world =
      p.transcript host world ++ match p.follow host world with
        | ⟨s', world', some a⟩ => (next a).transcript host world' s'
        | ⟨_, _, none⟩ => [] := by
    intro p
    induction p with
    | done s a => exact fun world ↦ rfl
    | call s c resume ih =>
      intro world
      simp only [Progress.bind, Progress.transcript, Progress.follow]
      cases host.call world s c with
      | resumed s' world' r => exact congrArg (_ :: ·) (ih s' r world')
      | abandoned s' world' => rfl
    | submit s lane pod resume ih =>
      intro world
      simp only [Progress.bind, Progress.transcript, Progress.follow]
      cases host.submit world s lane pod with
      | resumed s' world' taken => exact congrArg (_ :: ·) (ih s' taken world')
      | abandoned s' world' => rfl
  exact htree (t s) world

/-- What follows without a pause is not seen. -/
theorem transcript_bind_of_silent (h : ∀ a s', ∃ s'' b, next a s' = .done s'' b) :
    (t >>= next).transcript host world s = t.transcript host world s := by
  rw [transcript_bind]
  rcases t.run host world s with ⟨s', world', - | a⟩
  · exact List.append_nil _
  · obtain ⟨s'', b, hdone⟩ := h a s'
    simp only [transcript, hdone]
    exact List.append_nil _

/-- A fault that is turned into a warning is not seen. -/
theorem transcript_orWarn {host : Host Agent ε} {s : Agent} (action : Action Unit)
    (w : Fault → Warning) :
    (action.orWarn w).transcript host world s = action.run.transcript host world s := by
  refine transcript_bind_of_silent fun result s' ↦ ?_
  cases result with
  | ok => exact ⟨s', (), rfl⟩
  | error fault => exact ⟨s'.warn (w fault), (), rfl⟩

end Task

end HollowFleet
