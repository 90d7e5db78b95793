import HollowFleet.Agent.State

/-!
# Tasks between their pauses

Several tasks may work on one state, each from one of its pauses to the next. What a task does to
a part of the state on such a stretch, which pods it submits, and what it ends with can be told
from its tree alone (`Progress.Tame`), so it holds however the stretches of several tasks
follow each other.

This differs from what a run ensures in two ways. A run by a host knows only the state in which it
ends, while here every pause counts, as another task may work from there. And the state after a
pause is any state at all, since the other tasks have changed it meanwhile; so `Progress.Tame`
asks for the stretch after a pause to keep the part of whatever state it is resumed on.

The lemmas follow the ways to build a task, as those on runs do. `Task.Tame.bind` is by recursion
on the tree of the first task: its last stretch goes on as the first stretch of the second one
without a pause in between, which is why `Task.Tame` speaks of the stretch before the first pause
as well. `Progress.Brief` is for tasks that are over with the answer to one call, such as the start
of a pod.
-/

namespace HollowFleet

variable {σ τ α β : Type}

namespace Progress

/-- The state in which a task pauses, or in which it is over. -/
def state : Progress σ α → σ
  | done s _ => s
  | call s _ _ => s
  | submit s _ _ _ => s

/-- Whether a task is over. -/
def isOver : Progress σ α → Bool
  | done _ _ => true
  | call _ _ _ => false
  | submit _ _ _ _ => false

/-- The call that a task waits for. -/
def pending? : Progress σ α → Option Call
  | done _ _ => none
  | call _ c _ => some c
  | submit _ _ _ _ => none

/-- The queue and the pod that a task waits to submit. -/
def submitted? : Progress σ α → Option (Lane × Pod)
  | done _ _ => none
  | call _ _ _ => none
  | submit _ lane pod _ => some (lane, pod)

/-- A task after the call that it waits for was answered, on the state as it then is. -/
def answer (s : σ) (reply : (c : Call) → c.Reply) : Progress σ α → Progress σ α
  | done s' a => done s' a
  | call _ c resume => resume s (reply c)
  | submit s' lane pod resume => submit s' lane pod resume

theorem pending?_of_isOver {p : Progress σ α} (h : p.isOver = true) : p.pending? = none := by
  cases p with
  | done => rfl
  | call => cases h
  | submit => cases h

/-- From each of its pauses to the next a task leaves a part of the state as it is; it submits
only pods that are fine, and what it ends with is as it should be. -/
def Tame (view : σ → τ) (fine : Lane → Pod → Prop) (post : α → Prop) : Progress σ α → Prop
  | done _ a => post a
  | call _ _ resume => ∀ s r,
    view (resume s r).state = view s ∧ (resume s r).Tame view fine post
  | submit _ lane pod resume => fine lane pod ∧ ∀ s taken,
    view (resume s taken).state = view s ∧ (resume s taken).Tame view fine post

/-- A task makes no more than one call and submits nothing, and after the answer it leaves a part
of the state as it is. -/
def Brief (view : σ → τ) : Progress σ α → Prop
  | done _ _ => True
  | call _ _ resume => ∀ s r, view (resume s r).state = view s ∧ (resume s r).isOver = true
  | submit _ _ _ _ => False

theorem Brief.of_isOver {view : σ → τ} {p : Progress σ α} (h : p.isOver = true) :
    p.Brief view := by
  cases p with
  | done => trivial
  | call => cases h
  | submit => cases h

/-- A task that is over has no stretches left that could touch the part. -/
theorem Tame.of_isOver {view : σ → τ} {fine : Lane → Pod → Prop} {post : α → Prop}
    {p : Progress σ α} (h : p.isOver = true) (hpost : ∀ a, post a) : p.Tame view fine post := by
  cases p with
  | done s a => exact hpost a
  | call => cases h
  | submit => cases h

end Progress

namespace Task

/-- A task is tame if it is started on a state, up to its first pause and from then on. -/
def Tame (view : σ → τ) (fine : Lane → Pod → Prop) (t : Task σ α) (post : α → Prop) (s : σ) :
    Prop :=
  view (t s).state = view s ∧ (t s).Tame view fine post

namespace Tame

variable {view : σ → τ} {fine : Lane → Pod → Prop} {post : α → Prop} {s : σ}

/-- What makes no pause and no change is tame if its value is as it should be. -/
theorem pure {a : α} (h : post a) : Tame view fine (pure a) post s := ⟨rfl, h⟩

/-- A change of the state is tame if the part does not see it. -/
theorem modify {f : σ → σ} {post : Unit → Prop} (hview : view (f s) = view s) (h : post ()) :
    Tame view fine (modify f) post s :=
  ⟨hview, h⟩

/-- A call changes nothing by itself; any answer must do. -/
theorem call {c : Call} {post : c.Reply → Prop} (h : ∀ r, post r) :
    Tame view fine (call c) post s :=
  ⟨rfl, fun _ r ↦ ⟨rfl, h r⟩⟩

/-- Only pods that are fine may be submitted, and it must not matter whether they are taken. -/
theorem submit {lane : Lane} {pod : Pod} {post : Bool → Prop} (hfine : fine lane pod)
    (h : ∀ taken, post taken) : Tame view fine (submit lane pod) post s :=
  ⟨rfl, hfine, fun _ taken ↦ ⟨rfl, h taken⟩⟩

/-- Work that begins with a look at the state is tame if it is for the state at hand. -/
theorem get_bind {next : σ → Task σ α} (h : Tame view fine (next s) post s) :
    Tame view fine (get >>= next) post s := h

/-- A change that the part does not see may come first; the rest starts on its outcome. -/
theorem modify_bind {f : σ → σ} {next : Unit → Task σ α} (hview : view (f s) = view s)
    (h : Tame view fine (next ()) post (f s)) : Tame view fine (Task.modify f >>= next) post s :=
  ⟨h.1.trans hview, h.2⟩

/-- A task and then another: by recursion on the tree of the first. -/
theorem bind {t : Task σ α} {next : α → Task σ β} {mid : α → Prop} {post : β → Prop}
    (ht : Tame view fine t mid s) (hnext : ∀ s' a, mid a → Tame view fine (next a) post s') :
    Tame view fine (t >>= next) post s := by
  have htree : ∀ p : Progress σ α, p.Tame view fine mid →
      view (p.bind next).state = view p.state ∧ (p.bind next).Tame view fine post := by
    intro p hp
    induction p with
    | done s' a => exact hnext s' a hp
    | call s' c resume ih =>
      refine ⟨rfl, fun s'' r ↦ ?_⟩
      obtain ⟨hview, htame⟩ := ih s'' r (hp s'' r).2
      exact ⟨hview.trans (hp s'' r).1, htame⟩
    | submit s' lane pod resume ih =>
      refine ⟨rfl, hp.1, fun s'' taken ↦ ?_⟩
      obtain ⟨hview, htame⟩ := ih s'' taken (hp.2 s'' taken).2
      exact ⟨hview.trans (hp.2 s'' taken).1, htame⟩
  obtain ⟨hview, htame⟩ := htree (t s) ht.2
  exact ⟨hview.trans ht.1, htame⟩

end Tame

/-! ### Work that may fail -/

namespace Tame

variable {view : Agent → τ} {fine : Lane → Pod → Prop} {s : Agent}

/-- Work that cannot fail is as tame as the task that it is made of. -/
theorem lift {t : Task Agent α} (h : Tame view fine t (fun _ ↦ True) s) :
    Tame view fine (Action.lift t).run (fun _ ↦ True) s :=
  h.bind fun _ _ _ ↦ .pure trivial

/-- What comes after work that cannot fail may rely on what the work ended with. -/
theorem lift_bind {t : Task Agent α} {next : α → Action β} {mid : α → Prop}
    {post : Except Fault β → Prop} (h : Tame view fine t mid s)
    (hnext : ∀ s' a, mid a → Tame view fine (next a).run post s') :
    Tame view fine (Action.lift t >>= next).run post s := by
  have hresult : Tame view fine (Action.lift t).run
      (fun result ↦ ∃ a, result = .ok a ∧ mid a) s :=
    h.bind fun _ a ha ↦ .pure ⟨a, rfl, ha⟩
  refine hresult.bind fun s' result hmid ↦ ?_
  obtain ⟨a, rfl, ha⟩ := hmid
  exact hnext s' a ha

theorem action_get_bind {next : Agent → Action α} {post : Except Fault α → Prop}
    (h : Tame view fine (next s).run post s) : Tame view fine (Action.get >>= next).run post s := h

/-- If the first part fails, the second one is left out, and the whole is over. -/
theorem action_bind {action : Action α} {next : α → Action β}
    (h : Tame view fine action.run (fun _ ↦ True) s)
    (hnext : ∀ s' a, Tame view fine (next a).run (fun _ ↦ True) s') :
    Tame view fine (action >>= next).run (fun _ ↦ True) s := by
  refine h.bind fun s' result _ ↦ ?_
  cases result with
  | ok a => exact hnext s' a
  | error fault => exact .pure trivial

/-- To turn a fault into a warning is a change of the journal, after which the task is over. -/
theorem orWarn {action : Action Unit} (hwarn : ∀ a w, view (Agent.warn a w) = view a)
    (h : Tame view fine action.run (fun _ ↦ True) s) (w : Fault → Warning) :
    Tame view fine (action.orWarn w) (fun _ ↦ True) s := by
  refine h.bind fun s' result _ ↦ ?_
  cases result with
  | ok => exact .pure trivial
  | error fault => exact .modify (hwarn s' _) trivial

end Tame

end Task

end HollowFleet
