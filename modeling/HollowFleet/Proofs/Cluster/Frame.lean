import HollowFleet.Agent.State

/-!
# What tasks leave alone

A host may answer calls as it likes, late or never, and change the state meanwhile. Often only
a part of the state matters, and the host keeps that part as it is (`Host.Keeps`). Then what a
task does to the part can be told without looking at the host: `Task.Ensures` states what holds
of the part, and of the result unless the run was abandoned, and follows the task from one step
to the next.

A host that answers everything (`Host.Answers`) abandons nothing, so there what a task does if it
comes to its end (`Task.Leaves`) is what it does.

## What the lemmas rest on

* There is one lemma for each way to build a task, `pure`, `modify`, `call`, `submit`, and `bind`,
  and each is proved from the run of that task by every host that keeps the part. Nothing that is
  said of a composed task looks at a host again.
* `Keeps` is the special case of a part that stays as it is. It is closed under `bind` without a
  condition on the states in between, so the work of a handler that does not concern the part is
  passed over in one step (`Ensures.andThen`).
* Work that may fail is a task with a result that tells of the fault; `action_bind`, `lift` and
  `orWarn` are the same lemmas for it. A warning changes the journal only, hence the hypothesis
  that the part does not see it.
* `view_runAll` is by induction on a list of tasks, from what each of them ensures.
-/

namespace HollowFleet

variable {σ τ ε α β : Type}

/-- The state in which a host leaves a task. -/
def Outcome.state : Outcome σ ε α → σ
  | resumed s _ _ => s
  | abandoned s _ => s

/-- A host answers calls and takes pods in without touching a part of the state. -/
structure Host.Keeps (host : Host σ ε) (view : σ → τ) : Prop where
  /-- A call leaves the part as it is. -/
  call : ∀ world s c, view (host.call world s c).state = view s
  /-- A submission leaves the part as it is. -/
  submit : ∀ world s lane pod, view (host.submit world s lane pod).state = view s

/-- What keeps a part keeps every part of it. -/
theorem Host.Keeps.part {ω : Type} {host : Host σ ε} {view : σ → τ} (h : host.Keeps view)
    (f : τ → ω) : host.Keeps fun s ↦ f (view s) where
  call world s c := congrArg f (h.call world s c)
  submit world s lane pod := congrArg f (h.submit world s lane pod)

/-- A host answers every call, and tells of every pod whether it was taken in. -/
structure Host.Answers (host : Host σ ε) : Prop where
  /-- Every call is answered. -/
  call : ∀ world s c, ∃ s' world' r, host.call world s c = .resumed s' world' r
  /-- Every submission is settled. -/
  submit : ∀ world s lane pod, ∃ s' world' taken,
    host.submit world s lane pod = .resumed s' world' taken

/-- What such a host runs comes to its end. -/
theorem Host.Answers.exists_result {host : Host σ ε} (h : host.Answers) (world : ε) (s : σ)
    (t : Task σ α) : ∃ a, (t.run host world s).result = some a := by
  have htree : ∀ (p : Progress σ α) (world : ε), ∃ a, (p.follow host world).result = some a := by
    intro p
    induction p with
    | done s a => exact fun _ ↦ ⟨a, rfl⟩
    | call s c resume ih =>
      intro world
      obtain ⟨s', world', r, hcall⟩ := h.call world s c
      rw [Progress.follow, hcall]
      exact ih s' r world'
    | submit s lane pod resume ih =>
      intro world
      obtain ⟨s', world', taken, hsubmit⟩ := h.submit world s lane pod
      rw [Progress.follow, hsubmit]
      exact ih s' taken world'
  exact htree (t s) world

/-- Of two tasks in a row it runs the first to its end, and then the second. -/
theorem Host.Answers.run_bind {host : Host σ ε} (h : host.Answers) (world : ε) (s : σ)
    (t : Task σ α) (next : α → Task σ β) : ∃ a, (t.run host world s).result = some a ∧
      (t >>= next).run host world s =
        (next a).run host (t.run host world s).world (t.run host world s).state := by
  obtain ⟨a, ha⟩ := h.exists_result world s t
  refine ⟨a, ha, ?_⟩
  rw [Task.run_bind]
  rcases hrun : t.run host world s with ⟨s', world', - | a'⟩
  · rw [hrun] at ha
    cases ha
  · rw [hrun] at ha
    cases ha
    rfl

namespace Task

/-- What holds of a part of the state, and of the result if there is one, after a task was run
by any host that keeps the part. -/
def Ensures (view : σ → τ) (t : Task σ α) (s : σ) (post : τ → Option α → Prop) : Prop :=
  ∀ (ε : Type) (host : Host σ ε) (world : ε), host.Keeps view →
    post (view (t.run host world s).state) (t.run host world s).result

/-- A task leaves a part of the state as it is. -/
def Keeps (view : σ → τ) (t : Task σ α) : Prop := ∀ s, Ensures view t s fun v _ ↦ v = view s

namespace Ensures

variable {view : σ → τ} {s : σ} {post : τ → Option α → Prop}

/-- Without a pause or a change, what is asked for has to hold at once. -/
theorem pure {a : α} (h : post (view s) (some a)) : Ensures view (pure a) s post :=
  fun _ _ _ _ ↦ h

/-- A change is carried out on the spot, whatever the host is. -/
theorem modify {f : σ → σ} {post : τ → Option Unit → Prop} (h : post (view (f s)) (some ())) :
    Ensures view (modify f) s post :=
  fun _ _ _ _ ↦ h

/-- A call may be abandoned or answered by anything; the part is the same in both cases. -/
theorem call {c : Call} {post : τ → Option c.Reply → Prop} (habandoned : post (view s) none)
    (hanswered : ∀ r, post (view s) (some r)) : Ensures view (call c) s post := by
  intro ε host world hhost
  have hkept := hhost.call world s c
  show post (view ((Progress.call s c .done).follow host world).state)
    ((Progress.call s c .done).follow host world).result
  rw [Progress.follow]
  cases h : host.call world s c with
  | resumed s' world' r =>
    rw [h] at hkept
    exact hkept ▸ hanswered r
  | abandoned s' world' =>
    rw [h] at hkept
    exact hkept ▸ habandoned

/-- A pod that is submitted may be taken or turned down, and the wait may be abandoned. -/
theorem submit {lane : Lane} {pod : Pod} {post : τ → Option Bool → Prop}
    (habandoned : post (view s) none) (htaken : ∀ taken, post (view s) (some taken)) :
    Ensures view (submit lane pod) s post := by
  intro ε host world hhost
  have hkept := hhost.submit world s lane pod
  show post (view ((Progress.submit s lane pod .done).follow host world).state)
    ((Progress.submit s lane pod .done).follow host world).result
  rw [Progress.follow]
  cases h : host.submit world s lane pod with
  | resumed s' world' taken =>
    rw [h] at hkept
    exact hkept ▸ htaken taken
  | abandoned s' world' =>
    rw [h] at hkept
    exact hkept ▸ habandoned

/-- A task and then another: what the first ensures is what the second starts from. -/
theorem bind {t : Task σ α} {next : α → Task σ β} {mid : τ → Option α → Prop}
    {post : τ → Option β → Prop} (ht : Ensures view t s mid)
    (hnext : ∀ s' a, mid (view s') (some a) → Ensures view (next a) s' post)
    (habandoned : ∀ v, mid v none → post v none) : Ensures view (t >>= next) s post := by
  intro ε host world hhost
  have hmid := ht ε host world hhost
  rw [run_bind]
  rcases h : t.run host world s with ⟨s', world', - | a⟩
  · rw [h] at hmid
    exact habandoned _ hmid
  · rw [h] at hmid
    exact hnext s' a hmid ε host world' hhost

/-- A look at the state is no step of its own, so the rest may use the state at hand. -/
theorem get_bind {next : σ → Task σ α} (h : Ensures view (next s) s post) :
    Ensures view (get >>= next) s post := h

/-- The rest of a task starts on the state as it was changed. -/
theorem modify_bind {f : σ → σ} {next : Unit → Task σ α}
    (h : Ensures view (next ()) (f s) post) : Ensures view (Task.modify f >>= next) s post := h

end Ensures

namespace Keeps

variable {view : σ → τ}

theorem pure (a : α) : Keeps view (pure a : Task σ α) := fun _ ↦ .pure rfl

theorem modify {f : σ → σ} (h : ∀ s, view (f s) = view s) : Keeps view (modify f) :=
  fun s ↦ .modify (h s)

theorem call (c : Call) : Keeps view (call c : Task σ c.Reply) :=
  fun _ ↦ .call rfl fun _ ↦ rfl

theorem submit (lane : Lane) (pod : Pod) : Keeps view (submit lane pod : Task σ Bool) :=
  fun _ ↦ .submit rfl fun _ ↦ rfl

theorem bind {t : Task σ α} {next : α → Task σ β} (ht : Keeps view t)
    (hnext : ∀ a, Keeps view (next a)) : Keeps view (t >>= next) :=
  fun s ↦ (ht s).bind (fun s' a h ↦ h ▸ hnext a s') fun _ h ↦ h

end Keeps

/-- Once a part of the state is settled, it stays so while the rest of the work keeps it. -/
theorem Ensures.andThen {view : σ → τ} {t : Task σ α} {s : σ} {v : τ} {next : α → Task σ β}
    (h : Ensures view t s fun v' _ ↦ v' = v) (hnext : ∀ a, Keeps view (next a)) :
    Ensures view (t >>= next) s fun v' _ ↦ v' = v :=
  h.bind (fun s' a heq ↦ heq ▸ hnext a s') fun _ heq ↦ heq

/-! ### Tasks that come to their end -/

/-- What a task makes of a part of the state, if it comes to its end. -/
def Leaves (view : σ → τ) (t : Task σ α) (s : σ) (v : τ) : Prop :=
  Ensures view t s fun v' result ↦ result.isSome = true → v' = v

/-- What holds of every run holds of those that come to their end. -/
theorem Ensures.leaves {view : σ → τ} {t : Task σ α} {s : σ} {v : τ}
    (h : Ensures view t s fun v' _ ↦ v' = v) : Leaves view t s v :=
  fun ε host world hhost _ ↦ h ε host world hhost

/-- A task and then another, where the second starts from what the first leaves. -/
theorem Leaves.bind {view : σ → τ} {t : Task σ α} {s : σ} {v₁ v : τ} {next : α → Task σ β}
    (h : Leaves view t s v₁) (hnext : ∀ s' a, view s' = v₁ → Leaves view (next a) s' v) :
    Leaves view (t >>= next) s v := by
  refine Ensures.bind h (fun s' a hmid ↦ hnext s' a (hmid rfl)) fun v' _ hnone ↦ ?_
  cases hnone

/-- On a host that answers, the part after the run is the one that the task leaves. -/
theorem Leaves.view_run {view : σ → τ} {t : Task σ α} {s : σ} {v : τ} (h : Leaves view t s v)
    {host : Host σ ε} (hhost : host.Keeps view) (hanswers : host.Answers) (world : ε) :
    view (t.run host world s).state = v := by
  obtain ⟨a, ha⟩ := hanswers.exists_result world s t
  exact h ε host world hhost (by rw [ha]; rfl)

/-! ### Tasks in a row -/

/-- Runs tasks one after the other; one that was abandoned is followed by the next one all the
same. -/
def runAll (host : Host σ ε) (world : ε) (s : σ) (tasks : List (Task σ α)) : σ × ε :=
  tasks.foldl (fun here t ↦
    let run := t.run host here.2 here.1
    (run.state, run.world)) (s, world)

/-- What each task of a kind does to a part of the state, several of them do one after the
other. -/
theorem view_runAll {γ : Type} {view : σ → τ} {task : γ → Task σ α} {effect : τ → γ → τ}
    (heffect : ∀ c s, Ensures view (task c) s fun v _ ↦ v = effect (view s) c)
    {host : Host σ ε} (hhost : host.Keeps view) (world : ε) (s : σ) (cs : List γ) :
    view (runAll host world s (cs.map task)).1 = cs.foldl effect (view s) := by
  induction cs generalizing s world with
  | nil => rfl
  | cons c rest ih =>
    have hfirst := heffect c s ε host world hhost
    have hrest := ih ((task c).run host world s).world ((task c).run host world s).state
    rw [hfirst] at hrest
    exact hrest

/-! ### Work that may fail -/

section Agent

variable {τ : Type} {view : Agent → τ}

/-- Of work that cannot fail, what it ensures of the state is all there is to say. -/
theorem Ensures.lift {α : Type} {t : Task Agent α} {s : Agent} {post : τ → Prop}
    (h : Ensures view t s fun v _ ↦ post v) :
    Ensures view (Action.lift t).run s fun v _ ↦ post v :=
  h.bind (fun _ _ hpost ↦ .pure hpost) fun _ hpost ↦ hpost

/-- Work that cannot fail and then more of it, as one task after the other. -/
theorem run_lift_bind {α β : Type} (t : Task Agent α) (next : α → Action β) :
    (Action.lift t >>= next).run = t >>= fun a ↦ (next a).run := by
  have htree : ∀ p : Progress Agent α,
      (p.bind fun a ↦ (pure (Except.ok a) : Task Agent (Except Fault α))).bind
        (ExceptT.bindCont next) = p.bind fun a ↦ (next a).run := by
    intro p
    induction p with
    | done s a => rfl
    | call s c resume ih => exact congrArg _ (funext fun s' ↦ funext fun r ↦ ih s' r)
    | submit s lane pod resume ih =>
      exact congrArg _ (funext fun s' ↦ funext fun taken ↦ ih s' taken)
  exact funext fun s ↦ htree (t s)

theorem Ensures.action_get_bind {α : Type} {next : Agent → Action α} {s : Agent}
    {post : τ → Option (Except Fault α) → Prop} (h : Ensures view (next s).run s post) :
    Ensures view (Action.get >>= next).run s post := h

/-- Work that may fail and then more of it: as `Ensures.andThen`. -/
theorem Ensures.action_andThen {α β : Type} {action : Action α} {s : Agent} {v : τ}
    {next : α → Action β} (h : Ensures view action.run s fun v' _ ↦ v' = v)
    (hnext : ∀ a, Keeps view (next a).run) :
    Ensures view (action >>= next).run s fun v' _ ↦ v' = v := by
  refine h.andThen fun result ↦ ?_
  cases result with
  | ok a => exact hnext a
  | error fault => exact .pure _

/-- A fault ends the work early, which keeps the part all the more. -/
theorem Keeps.action_bind {α β : Type} {action : Action α} {next : α → Action β}
    (h : Keeps view action.run) (hnext : ∀ a, Keeps view (next a).run) :
    Keeps view (action >>= next).run :=
  fun s ↦ (h s).action_andThen hnext

/-- To take work that cannot fail for work that may does not change what it keeps. -/
theorem Keeps.lift {α : Type} {t : Task Agent α} (h : Keeps view t) :
    Keeps view (Action.lift t).run :=
  fun s ↦ (h s).lift

/-- A warning goes to the journal, which the part does not show. -/
theorem Keeps.warn (h : ∀ a w, view (Agent.warn a w) = view a) (w : Warning) :
    Keeps view (Task.warn w) :=
  .modify fun a ↦ h a w

/-- What is settled by work that may fail stays settled if its fault becomes a warning. -/
theorem Ensures.orWarn (h : ∀ a w, view (Agent.warn a w) = view a) {action : Action Unit}
    {s : Agent} {v : τ} (haction : Ensures view action.run s fun v' _ ↦ v' = v)
    (w : Fault → Warning) : Ensures view (action.orWarn w) s fun v' _ ↦ v' = v := by
  refine haction.andThen fun result ↦ ?_
  cases result with
  | ok => exact .pure ()
  | error fault => exact .warn h _

/-- What keeps the part if it may fail also keeps it with a warning in place of the fault. -/
theorem Keeps.orWarn (h : ∀ a w, view (Agent.warn a w) = view a) {action : Action Unit}
    (haction : Keeps view action.run) (w : Fault → Warning) :
    Keeps view (action.orWarn w) :=
  fun s ↦ (haction s).orWarn h w

/-- A fault changes no more than the journal when it is turned into a warning. -/
theorem view_run_orWarn (h : ∀ a w, view (Agent.warn a w) = view a) {ε : Type}
    (host : Host Agent ε) (world : ε) (s : Agent) (action : Action Unit) (w : Fault → Warning) :
    view ((action.orWarn w).run host world s).state =
      view (action.run.run host world s).state := by
  rw [Action.orWarn, run_bind]
  rcases action.run.run host world s with ⟨s', world', - | fault | -⟩
  · rfl
  · exact h s' (w fault)
  · rfl

end Agent

end Task

end HollowFleet
