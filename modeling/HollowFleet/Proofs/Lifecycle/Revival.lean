import HollowFleet.Proofs.Lifecycle.AgentTasks
import HollowFleet.Proofs.Lifecycle.Pairing
import HollowFleet.Proofs.Lifecycle.Restart

/-!
# Pods that come back

A pod that was reported is queued for a second start, and stays queued when it is deleted. If it
is at rest the worker finds nothing to do about it. If it is not, the worker writes its status
or asks for an address, although the pod is gone. So the worker leaves a deleted pod alone
exactly if what is still queued for it is at rest (`quiet_iff`).

This is said for the front and the worker at work on one agent, with their stretches in any order,
with any answers, and with either queue before the other one.

## What the condition rests on

* That pods at rest are left alone is an invariant: what waits for a start under the identity of the
  pod is at rest, and until the pod is reported again nothing else comes to wait there
  (`restores_of_submits`, `Orderly.run`). The worker is done with such a pod at once, without a call
  and with nothing of a pool (`drain_of_atRest`).
* For the converse, moves have to be found by which a pod that is not at rest is revived. The worker
  finishes what it is at (`exists_idle`), claims the queues if nobody has (`exists_claimed`), and
  comes to the pod through all that waits before it (`exists_next`). If the pod wants an address and
  its node has no pool, the node is reported anew, so that there is one (`exists_renewed`).
* None of these moves reports the pod (`Leads`), so it is revived while it ought to be gone.
-/

namespace HollowFleet

open Agent Watch

namespace Move

/-- A pod is reported as being there. -/
def Restores (identity : Option String × String × Option String) : Move → Prop
  | .receive (.pod e) => e.op ≠ .deleted ∧ e.object.identity = identity
  | _ => False

/-- Whether a move is one of the worker's. -/
def isDrain : Move → Bool
  | .take _ => true
  | .answer .worker _ => true
  | .place .worker => true
  | _ => false

end Move

namespace AgentTasks

/-- By a move the worker calls for the status of a pod to be written, or takes the pod off the
queue and has something of a pool for it. -/
def Revives (identity : Option String × String × Option String) (d : AgentTasks) (m : Move)
    (d' : AgentTasks) : Prop :=
  (m.isDrain = true ∧ ∃ pod, d'.worker.pending? = some (.updatePodStatus pod) ∧
    pod.identity = identity) ∨
  (m = .take .start ∧ ∃ pod ∈ d.agent.queues.starts.head?, pod.identity = identity ∧
    d'.agent.pools ≠ d.agent.pools)

/-- One state may come after another one without the pod being reported as being there. -/
def Leads (identity : Option String × String × Option String) (d d' : AgentTasks) : Prop :=
  ∃ moves, d.run? moves = some d' ∧ ∀ m ∈ moves, ¬ m.Restores identity

/-- From now on, until the pod is reported as being there, the worker does not revive it. -/
def Quiet (identity : Option String × String × Option String) (d : AgentTasks) : Prop :=
  ∀ d' m d'', Leads identity d d' → d'.step? m = some d'' → ¬ Revives identity d' m d''

variable {identity : Option String × String × Option String} {d d' : AgentTasks} {m : Move}

/-- A pod is queued for a start only when it is reported as being there. -/
theorem restores_of_submits {notice : Notice} {e : Pod} (h : notice.Submits .start e)
    (hidentity : e.identity = identity) : (Move.receive notice).Restores identity := by
  cases notice with
  | node event => cases h
  | pod event =>
    obtain ⟨hsame, hlane⟩ := h
    refine ⟨fun hdeleted ↦ ?_, hsame.symm.trans hidentity⟩
    rw [if_pos hdeleted] at hlane
    cases hlane

/-! ### Pods at rest are left alone -/

/-- The worker is done with a pod that is at rest at once, and the agent is as it was. -/
theorem drain_of_atRest {pod : Pod} (h : AtRest pod) (a : Agent) :
    drain .start pod a = .done a () := by
  have hstatus : (a.started pod).2.status = pod.status := by rw [h a]
  rw [drain_start_of_eq hstatus, h a]

/-- What the worker takes off the queue of starts, and all that waits there, is as it should be. -/
theorem Orderly.ok_of_pop? {ok : Pod → Prop} (h : d.Orderly ok) {pod : Pod} {queues : Queues}
    (hpop : d.agent.queues.pop? .start = some (pod, queues)) : ok pod :=
  h.waiting pod (by rw [(Queues.eq_of_pop?_start hpop).1]; exact List.mem_cons_self)

/-- **The worker does nothing about a pod that is queued at rest.** -/
theorem not_revives_of_orderly (h : d.Orderly fun e ↦ e.identity = identity → AtRest e)
    (hstep : d.Step m d') : ¬ Revives identity d m d' := by
  rintro (⟨hdrain, pod, hpending, hpod⟩ | ⟨rfl, pod, hhead, hpod, hpools⟩)
  · cases hstep with
    | @take lane entry queues hidle hclaimed hpop =>
      have hcall : (drain lane entry { d.agent with queues }).pending? =
          some (.updatePodStatus pod) := hpending
      cases lane with
      | start =>
        by_cases hstatus : (Agent.started { d.agent with queues } entry).2.status = entry.status
        · rw [drain_start_of_eq hstatus] at hcall
          cases hcall
        · -- the status that is written is one of the entry's own identity
          rw [drain_start_of_ne hstatus] at hcall
          cases hcall
          have hrest := h.ok_of_pop? hpop hpod
          rw [hrest] at hstatus
          exact hstatus rfl
      | stop =>
        rw [drain_stop] at hcall
        cases hcall
    | answer who reply htask =>
      cases who with
      | front => cases hdrain
      | worker =>
        have hnone := Progress.pending?_of_isOver (h.answered_worker htask d.agent (reply _)).2
        exact absurd (hnone.symm.trans hpending) nofun
    | refuse who htask hclosed =>
      obtain rfl := h.eq_front_of_submit htask
      cases hdrain
    | place who htask hopen =>
      obtain rfl := h.eq_front_of_submit htask
      cases hdrain
    | receive => cases hdrain
    | claim => cases hdrain
    | cancel => cases hdrain
    | elapse => cases hdrain
  · cases hstep with
    | @take lane entry queues hidle hclaimed hpop =>
      have hentry : entry = pod := by
        rw [(Queues.eq_of_pop?_start hpop).1] at hhead
        exact Option.some.inj hhead
      subst hentry
      rw [drain_of_atRest (h.ok_of_pop? hpop hpod)] at hpools
      exact hpools rfl

/-! ### Pods that are not at rest are revived -/

theorem Leads.refl (d : AgentTasks) : Leads identity d d := ⟨[], rfl, by simp⟩

theorem Leads.trans {d'' : AgentTasks} (h : Leads identity d d') (h' : Leads identity d' d'') :
    Leads identity d d'' := by
  obtain ⟨moves, hrun, hquiet⟩ := h
  obtain ⟨moves', hrun', hquiet'⟩ := h'
  refine ⟨moves ++ moves', by rw [run?_append, hrun, Option.bind_some, hrun'], fun m hm ↦ ?_⟩
  rcases List.mem_append.1 hm with hm | hm
  · exact hquiet m hm
  · exact hquiet' m hm

theorem Leads.of_step? (h : d.step? m = some d') (hm : ¬ m.Restores identity) :
    Leads identity d d' :=
  ⟨[m], by rw [run?, h]; rfl, by simpa using hm⟩

/-- The call that the worker waits for may be answered. -/
theorem exists_idle (identity : Option String × String × Option String) {d : AgentTasks}
    (h : d.worker.Brief Agent.queues) :
    ∃ d', Leads identity d d' ∧ d'.worker.isOver = true ∧ d'.front = d.front ∧
      d'.agent.queues = d.agent.queues := by
  cases hworker : d.worker with
  | done s u => exact ⟨d, .refl d, by rw [hworker]; rfl, rfl, rfl⟩
  | submit s lane pod resume =>
    rw [hworker] at h
    cases h
  | call s c resume =>
    rw [hworker] at h
    obtain ⟨hqueues, hover⟩ := h d.agent (.error .unanswered)
    have hstep : d.step? (.answer .worker fun _ ↦ .error .unanswered) =
        some (d.proceed .worker (resume d.agent (.error .unanswered))) := by
      simp only [step?, task, hworker]
    exact ⟨_, .of_step? hstep not_false, hover, rfl, hqueues⟩

/-- Open queues may be claimed. -/
theorem exists_claimed (identity : Option String × String × Option String) {d : AgentTasks}
    (hopen : d.agent.queues.service ≠ .closed) :
    ∃ d', Leads identity d d' ∧ d'.worker = d.worker ∧ d'.front = d.front ∧
      d'.agent.queues.starts = d.agent.queues.starts ∧ d'.agent.queues.service = .claimed := by
  cases hservice : d.agent.queues.service with
  | claimed => exact ⟨d, .refl d, rfl, rfl, rfl, hservice⟩
  | closed => exact absurd hservice hopen
  | unclaimed =>
    have hstep : d.step? .claim = some { d with agent := { d.agent with
        queues := { d.agent.queues with service := .claimed } } } := by
      simp only [step?, claimQueues, hservice]
      rfl
    exact ⟨_, .of_step? hstep not_false, rfl, rfl, rfl, rfl⟩

/-- An idle worker that has claimed the queues may take the oldest pod that waits for a start. -/
theorem step?_take {pod : Pod} {starts : List Pod} (hidle : d.worker.isOver = true)
    (hclaimed : d.agent.queues.service = .claimed)
    (hstarts : d.agent.queues.starts = pod :: starts) :
    d.step? (.take .start) = some (d.proceed .worker (drain .start pod
      { d.agent with queues := { d.agent.queues with starts } })) := by
  simp only [step?, hidle, hclaimed, and_self, if_true, takeEntry?, Queues.pop?, hstarts,
    Option.map_some]

/-- The worker may come to any pod that waits for a start. -/
theorem exists_next (identity : Option String × String × Option String) {d : AgentTasks} {e : Pod}
    {before after : List Pod} (hidle : d.worker.isOver = true)
    (hclaimed : d.agent.queues.service = .claimed)
    (hstarts : d.agent.queues.starts = before ++ e :: after) :
    ∃ d', Leads identity d d' ∧ d'.worker.isOver = true ∧ d'.front = d.front ∧
      d'.agent.queues.service = .claimed ∧ d'.agent.queues.starts = e :: after := by
  induction before generalizing d with
  | nil => exact ⟨d, .refl d, hidle, rfl, hclaimed, hstarts⟩
  | cons pod before ih =>
    -- the worker sees to the first pod, and then to the others before `e`
    let seen := d.proceed .worker (drain .start pod
      { d.agent with queues := { d.agent.queues with starts := before ++ e :: after } })
    obtain ⟨hqueues, hbrief⟩ := brief_drain .start pod
      { d.agent with queues := { d.agent.queues with starts := before ++ e :: after } }
    have hseen : Leads identity d seen := .of_step? (step?_take hidle hclaimed hstarts) not_false
    obtain ⟨d₁, hleads₁, hidle₁, hfront₁, hqueues₁⟩ :
        ∃ d', Leads identity seen d' ∧ d'.worker.isOver = true ∧ d'.front = seen.front ∧
          d'.agent.queues = seen.agent.queues := exists_idle identity hbrief
    have hleft := hqueues₁.trans hqueues
    obtain ⟨d₂, hleads₂, hidle₂, hfront₂, hclaimed₂, hstarts₂⟩ :=
      ih hidle₁ (by rw [hleft]; exact hclaimed) (by rw [hleft])
    exact ⟨d₂, (hseen.trans hleads₁).trans hleads₂, hidle₂, hfront₂.trans hfront₁, hclaimed₂,
      hstarts₂⟩

/-! A node may be given a new pool. -/

/-- A node of some name, with a block. -/
def renewedNode (node : String) : Node where
  metadata := { name := some node }
  spec := some { podCIDR := some "10.244.1.0/24" }

/-- To handle the deletion of a node is to forget its account and its pool, with no pause. -/
theorem handle_deleted_renewed (node : String) (a : Agent) :
    handle (.node ⟨.deleted, renewedNode node⟩) a =
      .done { a with ledger := a.ledger.erase node, pools := a.pools.erase node } () := rfl

/-- A node that is not tracked is tracked from its update on, without a call. -/
theorem handle_updated_renewed {node : String} {a : Agent} (h : a.ledger.find? node = none) :
    ∃ account, handle (.node ⟨.updated, renewedNode node⟩) a =
      .done { a with ledger := a.ledger.insert node account } () := by
  have hcapacity : capacity (renewedNode node) = pure {} := rfl
  have hname : (renewedNode node).name = node := rfl
  simp only [handle, handleNode, updateNode, hcapacity, hname, bind, pure, Task.bind, Task.pure,
    Task.get, Progress.bind, h]
  exact ⟨_, rfl⟩

/-- A tracked node without a pool is given one, without a call. -/
theorem handle_added_renewed {node : String} {a : Agent} (htracked : a.ledger.contains node = true)
    (hpool : a.pools.contains node = false) :
    handle (.node ⟨.added, renewedNode node⟩) a = .done (a.setPool node newPool) () := by
  have htrack : trackNode (renewedNode node) a = .done a () := by
    show (ite (a.ledger.contains node = true) _ _ : Task Agent Unit) a = _
    rw [if_pos htracked]
    rfl
  have hadd : (addPool (renewedNode node)).run a = .done (a.setPool node newPool) (.ok ()) := by
    show (ite (a.pools.contains node = true) _ _ : Action Unit).run a = _
    rw [if_neg (by simp [hpool])]
    rfl
  show (trackNode (renewedNode node) a).bind _ = _
  rw [htrack]
  show ((addPool (renewedNode node)).run a).bind _ = _
  rw [hadd]
  rfl

/-- An idle front may be told that a node is gone and there again, so that its pool is a new
one. -/
theorem exists_renewed (identity : Option String × String × Option String) {d : AgentTasks}
    (node : String) (hfront : d.front.isOver = true) :
    ∃ d', Leads identity d d' ∧ d'.worker = d.worker ∧ d'.agent.queues = d.agent.queues ∧
      poolAt node d'.agent = some newPool := by
  let gone : Agent :=
    { d.agent with ledger := d.agent.ledger.erase node, pools := d.agent.pools.erase node }
  obtain ⟨account, hupdated⟩ : ∃ account, handle (.node ⟨.updated, renewedNode node⟩) gone =
      .done { gone with ledger := gone.ledger.insert node account } () :=
    handle_updated_renewed (Table.find?_erase_self _ _)
  let tracked : Agent := { gone with ledger := gone.ledger.insert node account }
  have hadded : handle (.node ⟨.added, renewedNode node⟩) tracked =
      .done (tracked.setPool node newPool) () := by
    refine handle_added_renewed ?_ ?_
    · simp [tracked, Table.contains]
    · simp [tracked, gone, Table.contains]
  let d₁ : AgentTasks := ⟨gone, .done gone (), d.worker⟩
  let d₂ : AgentTasks := ⟨tracked, .done tracked (), d.worker⟩
  let d₃ : AgentTasks :=
    ⟨tracked.setPool node newPool, .done (tracked.setPool node newPool) (), d.worker⟩
  have h₁ : d.step? (.receive (.node ⟨.deleted, renewedNode node⟩)) = some d₁ := by
    rw [step?, if_pos hfront, handle_deleted_renewed]
    rfl
  have h₂ : d₁.step? (.receive (.node ⟨.updated, renewedNode node⟩)) = some d₂ := by
    show some (d₁.proceed .front (handle _ gone)) = _
    rw [hupdated]
    rfl
  have h₃ : d₂.step? (.receive (.node ⟨.added, renewedNode node⟩)) = some d₃ := by
    show some (d₂.proceed .front (handle _ tracked)) = _
    rw [hadded]
    rfl
  have hleads : Leads identity d d₃ :=
    ((Leads.of_step? h₁ not_false).trans (.of_step? h₂ not_false)).trans (.of_step? h₃ not_false)
  refine ⟨d₃, hleads, rfl, rfl, ?_⟩
  rw [poolAt_setPool, if_pos rfl]

/-! The worker comes to the pod, and does something about it. -/

/-- A pod that is not at rest is not left alone. -/
theorem exists_revives {ok : Pod → Prop} (h : d.Orderly ok) (hfront : d.front.isOver = true)
    {e : Pod} (he : e ∈ d.agent.queues.starts) (hidentity : e.identity = identity)
    (hrest : ¬ AtRest e) :
    ∃ d₁ m d₂, Leads identity d d₁ ∧ d₁.step? m = some d₂ ∧ Revives identity d₁ m d₂ := by
  have hopen : d.agent.queues.service ≠ .closed := fun hclosed ↦ by
    rw [h.closed hclosed] at he
    cases he
  obtain ⟨before, after, hstarts⟩ := List.append_of_mem he
  obtain ⟨d₁, hleads₁, hidle₁, hfront₁, hqueues₁⟩ := exists_idle identity h.worker
  rw [← hqueues₁] at hopen hstarts
  obtain ⟨d₂, hleads₂, hworker₂, hfront₂, hstarts₂, hclaimed₂⟩ := exists_claimed identity hopen
  rw [← hworker₂] at hidle₁
  rw [← hstarts₂] at hstarts
  obtain ⟨d₃, hleads₃, hidle₃, hfront₃, hclaimed₃, hstarts₃⟩ :=
    exists_next identity hidle₁ hclaimed₂ hstarts
  have hleads : Leads identity d d₃ := (hleads₁.trans hleads₂).trans hleads₃
  by_cases hasks : e.address? ≠ none ∨ e.node? = none
  · -- whatever the start is for, it is not for an address, so the status is written
    refine ⟨d₃, _, _, hleads, step?_take hidle₃ hclaimed₃ hstarts₃, .inl ⟨rfl, ?_⟩⟩
    let taken : Agent := { d₃.agent with queues := { d₃.agent.queues with starts := after } }
    have hchanged : (taken.started e).2.status ≠ e.status :=
      fun hsame ↦ hrest (atRest_of_status_eq hsame hasks)
    refine ⟨(taken.started e).2, ?_, hidentity⟩
    show (drain .start e taken).pending? = _
    rw [drain_start_of_ne hchanged]
    rfl
  · obtain ⟨haddress, hbound⟩ := not_or.1 hasks
    obtain ⟨node, hnode⟩ := Option.ne_none_iff_exists'.1 hbound
    rw [not_not] at haddress
    -- a new pool has an address to give
    obtain ⟨d₄, hleads₄, hworker₄, hqueues₄, hpool⟩ := exists_renewed identity node
      (show d₃.front.isOver = true by rw [hfront₃, hfront₂, hfront₁]; exact hfront)
    rw [← hworker₄] at hidle₃
    rw [← hqueues₄] at hclaimed₃ hstarts₃
    refine ⟨d₄, _, _, hleads.trans hleads₄, step?_take hidle₃ hclaimed₃ hstarts₃,
      .inr ⟨rfl, e, by rw [hstarts₃]; rfl, hidentity, fun hsame ↦ ?_⟩⟩
    have hasked : poolAt node (Agent.started { d₄.agent with
        queues := { d₄.agent.queues with starts := after } } e).1 =
          some (newPool.asked (some .allocate)) := by
      rw [poolAt_started node _ .queued e]
      show (poolAt node d₄.agent).map _ = _
      rw [hpool]
      simp [Act.request?, hnode, haddress]
    rw [← state_drain_start] at hasked
    have hkept : poolAt node d₄.agent = some (newPool.asked (some .allocate)) :=
      (congrArg (fun t : Table Pool ↦ t.find? node) hsame).symm.trans hasked
    rw [hpool] at hkept
    exact absurd hkept (by decide +kernel)

/-- **When the worker leaves a deleted pod alone.** At any moment after a pod was reported as
deleted at which the front is idle, the worker will not write the status of the pod or have an
address for it, until the pod is reported again, exactly if all that is queued under the identity
of the pod for another start is at rest. -/
theorem quiet_iff (settings : Settings) (clock : Timestamp) (pod : Pod) (before after : List Move)
    (d : AgentTasks)
    (hrun : (initial settings clock).run? (before ++ .receive (.pod ⟨.deleted, pod⟩) :: after) =
      some d)
    (hidle : d.front.isOver = true) :
    Quiet pod.identity d ↔
      ∀ e ∈ d.agent.queues.starts, e.identity = pod.identity → AtRest e := by
  have horderly : d.Orderly fun _ ↦ True :=
    (orderly_initial settings clock _).run hrun fun _ _ _ _ _ _ ↦ trivial
  constructor
  · intro hquiet e he hidentity
    by_contra hrest
    obtain ⟨d₁, m, d₂, hleads, hstep, hrevives⟩ :=
      exists_revives horderly hidle he hidentity hrest
    exact hquiet d₁ m d₂ hleads hstep hrevives
  · rintro hwaiting d₁ m d₂ ⟨moves, hmoves, hreported⟩ hstep
    have hrest : d.Orderly fun e ↦ e.identity = pod.identity → AtRest e :=
      ⟨hwaiting, horderly.closed, .of_isOver hidle fun _ ↦ trivial, horderly.worker⟩
    refine not_revives_of_orderly (hrest.run hmoves fun m' hm' notice hnotice e he hidentity ↦ ?_)
      (step_of_step? hstep)
    exact absurd (restores_of_submits he hidentity) (hnotice ▸ hreported m' hm')

/-! ### A status that was not written -/

/-- No call is answered by the cluster. -/
def unansweredReply (c : Call) : c.Reply := .error .unanswered

/-- A worker claims the queues, and a node gets a pool. -/
def opening : List Move :=
  [.claim, .receive (.node ⟨.updated, renewedNode "mock-node-0"⟩),
    .receive (.node ⟨.added, renewedNode "mock-node-0"⟩)]

/-- A pod is added, its status is written or not, and it is queued. -/
def adding (reply : (c : Call) → c.Reply) : List Move :=
  [.receive (.pod ⟨.added, podWith "web" none⟩), .answer .front reply, .place .front]

/-- The pod is deleted and queued. -/
def deleting : List Move :=
  [.receive (.pod ⟨.deleted, podWith "web" none⟩), .answer .front Call.granted, .place .front]

/-- What a pod that was added and deleted leaves behind. -/
def aftermath (reply : (c : Call) → c.Reply) : Option AgentTasks :=
  (initial {} ⟨0, false⟩).run? (opening ++ adding reply ++ deleting)

theorem isSome_aftermath_granted : (aftermath Call.granted).isSome = true := by decide +kernel

theorem isSome_aftermath_unanswered : (aftermath unansweredReply).isSome = true := by
  decide +kernel

/-- The status of the pod was written. -/
def afterWritten : AgentTasks := (aftermath Call.granted).get isSome_aftermath_granted

/-- The status of the pod was not written. -/
def afterUnwritten : AgentTasks := (aftermath unansweredReply).get isSome_aftermath_unanswered

theorem isSome_take_afterUnwritten : (afterUnwritten.step? (.take .start)).isSome = true := by
  decide +kernel

/-- If the status of a pod was written, what is queued is at rest, and the worker leaves the pod
alone. -/
theorem quiet_of_written :
    aftermath Call.granted = some afterWritten ∧
      Quiet (podWith "web" none).identity afterWritten := by
  have hrun : aftermath Call.granted = some afterWritten := (Option.some_get _).symm
  refine ⟨hrun, (quiet_iff {} ⟨0, false⟩ (podWith "web" none) (opening ++ adding Call.granted)
    [.answer .front Call.granted, .place .front] afterWritten hrun (by decide +kernel)).2 ?_⟩
  have hstarts : afterWritten.agent.queues.starts = [writtenFirst] := by decide +kernel
  rw [hstarts]
  intro e he _
  rw [List.mem_singleton.1 he]
  exact atRest_started _ _ (by decide +kernel)

/-- **A deleted pod can be revived**: if its status could not be written for now when it was
added, it waits to be written, and the worker does that after the pod is gone. -/
theorem not_quiet_of_unwritten :
    ¬ ∀ (settings : Settings) (clock : Timestamp) (pod : Pod) (before after : List Move)
      (d : AgentTasks),
      (initial settings clock).run? (before ++ .receive (.pod ⟨.deleted, pod⟩) :: after) =
        some d →
      d.front.isOver = true → Quiet pod.identity d := by
  intro h
  have hrun : aftermath unansweredReply = some afterUnwritten := (Option.some_get _).symm
  have hquiet := h {} ⟨0, false⟩ (podWith "web" none) (opening ++ adding unansweredReply)
    [.answer .front Call.granted, .place .front] afterUnwritten hrun (by decide +kernel)
  have htaken := (Option.some_get isSome_take_afterUnwritten).symm
  refine hquiet _ _ _ (.refl _) htaken (.inl ⟨rfl, writtenFirst, ?_, rfl⟩)
  decide +kernel

end AgentTasks

end HollowFleet
