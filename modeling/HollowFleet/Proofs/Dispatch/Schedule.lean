import HollowFleet.Proofs.Dispatch.Holding

/-!
# Dispatch does not depend on the schedule

Dispatch takes the events of two channels in turn, and which channel is next is not settled when
both have one. Whatever it chooses, it handles the events of each channel in the order in which they
were sent, and each of them once (`Trace`). So two schedules differ only in how the events of the
two channels are mixed. Where a node is tracked, has a pool and is not deleted, what a report of the
node does and what a pod does commute (`Holding.after_comm`). Then all events of nodes can be put
before all events of pods, and the mixture no longer matters.

## What the main theorem rests on

* `turn_cases` says all that a turn of the loop can do, and `Trace` what holds after any moves.
  There is one lemma for each move by which it keeps the trace (`Trace.send`, `Trace.close`,
  `Trace.turn`), and `Trace.run` is the induction.
* At a halt nothing waits, so what was handled is what was sent, channel by channel
  (`Trace.filter_eq_sent`).
* That the loop does come to its end once both channels are closed is by a measure: every turn takes
  away an event or notices a channel that is closed (`Trace.remaining_turn`).
* For one node, `afterAll_eq_sorted` moves its reports before the events of its pods, one swap at a
  time; two mixtures of the same channels have the same sorted run.
* Nodes are looked at one by one (`holding_eq_of_traces`), since an event is about one node at most.
-/

namespace HollowFleet

open Agent Watch

/-! ### Channels -/

/-- The channel of an event. -/
def Agent.Notice.channel : Notice → Channel
  | .node _ => .nodes
  | .pod _ => .pods

/-- Whether an event is one of a channel. -/
def Agent.Notice.isOn (channel : Channel) (notice : Notice) : Bool :=
  decide (notice.channel = channel)

namespace Agent.Inbox

/-- The events that wait in a channel. -/
def waiting (inbox : Inbox) : Channel → List Notice
  | .nodes => inbox.nodes.map .node
  | .pods => inbox.pods.map .pod

theorem waiting_deliver (inbox : Inbox) (notice : Notice) (channel : Channel) :
    (inbox.deliver notice).waiting channel =
      if notice.isOn channel && inbox.isOpen channel then inbox.waiting channel ++ [notice]
      else inbox.waiting channel := by
  cases notice <;> cases channel <;>
    simp [deliver, waiting, Notice.isOn, Notice.channel, isOpen] <;> split <;> simp

@[simp]
theorem isOpen_deliver (inbox : Inbox) (notice : Notice) (channel : Channel) :
    (inbox.deliver notice).isOpen channel = inbox.isOpen channel := by
  cases notice <;> cases channel <;> simp only [deliver] <;> split <;> rfl

/-- What waits in a channel is still there when it is closed. -/
@[simp]
theorem waiting_close (inbox : Inbox) (closed channel : Channel) :
    (inbox.close closed).waiting channel = inbox.waiting channel := by
  cases closed <;> cases channel <;> rfl

theorem isOpen_close (inbox : Inbox) (closed channel : Channel) :
    (inbox.close closed).isOpen channel = (inbox.isOpen channel && decide (channel ≠ closed)) := by
  cases closed <;> cases channel <;> simp [close, isOpen]

theorem receive?_eq_none_iff {inbox : Inbox} {channel : Channel} :
    inbox.receive? channel = none ↔ inbox.waiting channel = [] := by
  cases channel with
  | nodes => cases h : inbox.nodes <;> simp [receive?, waiting, h]
  | pods => cases h : inbox.pods <;> simp [receive?, waiting, h]

/-- What is received is the oldest event of its channel, and nothing else changes. -/
theorem waiting_of_receive? {inbox inbox' : Inbox} {channel : Channel} {notice : Notice}
    (h : inbox.receive? channel = some (notice, inbox')) :
    notice.channel = channel ∧ inbox.waiting channel = notice :: inbox'.waiting channel ∧
      (∀ other, other ≠ channel → inbox'.waiting other = inbox.waiting other) ∧
      ∀ other, inbox'.isOpen other = inbox.isOpen other := by
  cases channel with
  | nodes =>
    cases hnodes : inbox.nodes with
    | nil => simp [receive?, hnodes] at h
    | cons event rest =>
      simp only [receive?, hnodes, Option.some.injEq, Prod.mk.injEq] at h
      obtain ⟨rfl, rfl⟩ := h
      refine ⟨rfl, by simp [waiting, hnodes], fun other hother ↦ ?_, fun other ↦ ?_⟩ <;>
        cases other <;> first | rfl | exact absurd rfl hother
  | pods =>
    cases hpods : inbox.pods with
    | nil => simp [receive?, hpods] at h
    | cons event rest =>
      simp only [receive?, hpods, Option.some.injEq, Prod.mk.injEq] at h
      obtain ⟨rfl, rfl⟩ := h
      refine ⟨rfl, by simp [waiting, hpods], fun other hother ↦ ?_, fun other ↦ ?_⟩ <;>
        cases other <;> first | rfl | exact absurd rfl hother

end Agent.Inbox

/-! ### What is sent -/

namespace Agent

/-- The event of a channel that is sent, if this is what happens. -/
def Move.sent? (channel : Channel) : Move → Option Notice
  | .send notice => if notice.isOn channel then some notice else none
  | _ => none

/-- The events that are sent on a channel before it is closed. -/
def sent (channel : Channel) (moves : List Move) : List Notice :=
  (moves.takeWhile fun move ↦ decide (move ≠ .close channel)).filterMap (Move.sent? channel)

/-- What is sent after a channel was closed does not count. -/
theorem sent_concat (channel : Channel) (moves : List Move) (move : Move) :
    sent channel (moves ++ [move]) =
      if .close channel ∈ moves then sent channel moves
      else sent channel moves ++ (move.sent? channel).toList := by
  induction moves with
  | nil =>
    by_cases hmove : move = .close channel
    · simp [sent, hmove, Move.sent?]
    · cases hsent : move.sent? channel <;> simp [sent, hmove, hsent]
  | cons first rest ih =>
    by_cases hfirst : first = .close channel
    · simp [sent, hfirst]
    · have hmem : .close channel ∈ first :: rest ↔ .close channel ∈ rest := by
        simp [Ne.symm hfirst]
      have hcons (tail : List Move) :
          sent channel (first :: tail) = (first.sent? channel).toList ++ sent channel tail := by
        cases hsent : first.sent? channel <;> simp [sent, hfirst, hsent]
      simp only [List.cons_append, hcons, ih, hmem]
      split <;> simp

end Agent

/-! ### One turn -/

/-- A host plays a task by running it. -/
def Host.play {ε : Type} (host : Host Agent ε) (a : Agent) (world : ε) (t : Task Agent Unit) :
    Run Agent ε Unit :=
  t.run host world a

namespace Agent.Dispatcher

section

variable {ω : Type} (play : Agent → ω → Task Agent Unit → Run Agent ω Unit)

theorem heeds_ignore (d : Dispatcher ω) (ignored channel : Channel) :
    (d.ignore ignored).heeds channel = (d.heeds channel && decide (channel ≠ ignored)) := by
  cases ignored <;> cases channel <;> simp [ignore, heeds]

theorem ignore_eq (d : Dispatcher ω) (channel : Channel) :
    ∃ heedsNodes heedsPods, d.ignore channel = { d with heedsNodes, heedsPods } := by
  cases channel <;> exact ⟨_, _, rfl⟩

/-- **What a turn can do** when dispatch was not cancelled and did not come to a halt: find both
channels closed, handle the oldest event of a channel, find a channel closed, or wait. -/
theorem turn_cases (d : Dispatcher ω) (preferred : Branch) (hcancelled : d.cancelled = false)
    (hhalt : d.halt = none) :
    ((∀ channel, d.heeds channel = false) ∧
        d.turn play preferred = { d with halt := some (.over Inbox.closedFault) }) ∨
      (∃ channel notice inbox, d.heeds channel = true ∧
        d.inbox.receive? channel = some (notice, inbox) ∧
        d.turn play preferred = handle play { d with inbox } notice) ∨
      (∃ channel, d.heeds channel = true ∧ d.inbox.receive? channel = none ∧
        d.inbox.isOpen channel = false ∧ d.turn play preferred = d.ignore channel) ∨
      ((∃ channel, d.heeds channel = true ∧ d.inbox.isOpen channel = true) ∧
        d.turn play preferred = d) := by
  by_cases hover : d.heedsNodes = false ∧ d.heedsPods = false
  · refine .inl ⟨fun channel ↦ ?_, by simp [turn, hhalt, hover]⟩
    cases channel
    · exact hover.1
    · exact hover.2
  · have hturn : d.turn play preferred =
        ([preferred, .cancelled, .receive .nodes, .receive .pods].find? d.isReady).elim d
          (d.take play) := by
      have hover' : ¬ (!d.heedsNodes && !d.heedsPods) = true := by simpa using hover
      rw [turn, if_neg (by simp [hhalt])]
      refine (if_neg hover').trans ?_
      cases [preferred, .cancelled, .receive .nodes, .receive .pods].find? d.isReady <;> rfl
    cases hfound : [preferred, .cancelled, .receive .nodes, .receive .pods].find? d.isReady with
    | none =>
      -- a channel that is heeded and gives nothing is still open
      have hnodes := List.find?_eq_none.1 hfound (.receive .nodes) (by simp)
      have hpods := List.find?_eq_none.1 hfound (.receive .pods) (by simp)
      refine .inr (.inr (.inr ⟨?_, by rw [hturn, hfound, Option.elim_none]⟩))
      simp only [isReady, heeds] at hnodes hpods
      by_cases hheeds : d.heedsNodes = true
      · exact ⟨.nodes, hheeds, by simp_all⟩
      · exact ⟨.pods, by simp_all [heeds], by simp_all⟩
    | some branch =>
      have hready := List.find?_some hfound
      rw [hfound, Option.elim_some] at hturn
      cases branch with
      | cancelled =>
        rw [isReady, hcancelled] at hready
        cases hready
      | receive channel =>
        obtain ⟨hheeds, hthere⟩ := Bool.and_eq_true_iff.1 hready
        cases hreceived : d.inbox.receive? channel with
        | some received =>
          obtain ⟨notice, inbox⟩ := received
          refine .inr (.inl ⟨channel, notice, inbox, hheeds, hreceived, ?_⟩)
          simp only [hturn, take, hreceived]
        | none =>
          refine .inr (.inr (.inl ⟨channel, hheeds, hreceived, ?_, ?_⟩))
          · simpa [hreceived] using hthere
          · simp only [hturn, take, hreceived]

end

variable {ε : Type} {host : Host Agent ε}

/-- A host that answers every call comes to the end of an event. -/
theorem handle_play (h : host.Answers) (d : Dispatcher ε) (notice : Notice) :
    handle host.play d notice =
      let run := (Agent.handle notice).run host d.world d.agent
      { d with agent := run.state, world := run.world, halt := none } := by
  obtain ⟨_, hresult⟩ := h.exists_result d.world d.agent (Agent.handle notice)
  simp only [handle, Host.play, hresult, Option.isSome_some, if_true]

end Agent.Dispatcher

/-- One more event is handled after the others. -/
theorem Agent.run_handleAll_concat {ε : Type} {host : Host Agent ε} (h : host.Answers) (world : ε)
    (a : Agent) (handled : List Notice) (notice : Notice) :
    let before := (handleAll handled).run host world a
    let after := (handleAll (handled ++ [notice])).run host world a
    let last := (handle notice).run host before.world before.state
    after.state = last.state ∧ after.world = last.world := by
  induction handled generalizing world a with
  | nil =>
    obtain ⟨_, -, hrun⟩ := h.run_bind world a (handle notice) fun _ ↦ handleAll []
    have hstate := congrArg Run.state hrun
    have hworld := congrArg Run.world hrun
    exact ⟨hstate, hworld⟩
  | cons first rest ih =>
    obtain ⟨_, -, hshort⟩ := h.run_bind world a (handle first) fun _ ↦ handleAll rest
    obtain ⟨_, -, hlong⟩ :=
      h.run_bind world a (handle first) fun _ ↦ handleAll (rest ++ [notice])
    simp only [List.cons_append, handleAll, hshort, hlong]
    exact ih _ _

/-! ### Runs -/

namespace Agent.Dispatcher

variable {ε : Type} {host : Host Agent ε}

/-- What holds after some moves of a dispatcher that was not cancelled: the events that it
handled and those that wait are those that were sent, channel by channel and in order. -/
structure Trace (host : Host Agent ε) (world : ε) (a : Agent) (moves : List Move)
    (handled : List Notice) (d : Dispatcher ε) : Prop where
  /-- The events were handled one after the other. -/
  agent : d.agent = ((handleAll handled).run host world a).state
  /-- So they were for what is around the agent. -/
  world : d.world = ((handleAll handled).run host world a).world
  /-- Nothing was lost, made up, repeated or reordered. -/
  sent : ∀ channel,
    handled.filter (Notice.isOn channel) ++ d.inbox.waiting channel = sent channel moves
  /-- A channel is open until it is closed. -/
  isOpen : ∀ channel, d.inbox.isOpen channel = true ↔ .close channel ∉ moves
  /-- A channel that was found closed is closed and empty. -/
  heeds : ∀ channel, d.heeds channel = false →
    d.inbox.waiting channel = [] ∧ d.inbox.isOpen channel = false
  /-- It comes to a halt when both channels were found closed. -/
  halt : ∀ halt, d.halt = some halt →
    halt = .over Inbox.closedFault ∧ ∀ channel, d.heeds channel = false
  /-- It was not cancelled. -/
  cancelled : d.cancelled = false

namespace Trace

variable {world : ε} {a : Agent} {moves : List Move} {handled : List Notice} {d : Dispatcher ε}

theorem initial (host : Host Agent ε) (world : ε) (a : Agent) :
    Trace host world a [] [] { agent := a, world } where
  agent := rfl
  world := rfl
  sent channel := by cases channel <;> rfl
  isOpen channel := by cases channel <;> simp [Inbox.isOpen]
  heeds channel h := by cases channel <;> cases h
  halt _ h := by cases h
  cancelled := rfl

theorem send (h : Trace host world a moves handled d) (notice : Notice) :
    Trace host world a (moves ++ [.send notice]) handled
      { d with inbox := d.inbox.deliver notice } where
  agent := h.agent
  world := h.world
  sent channel := by
    rw [Inbox.waiting_deliver, sent_concat, ← h.sent]
    have hopen := h.isOpen channel
    by_cases hon : notice.isOn channel = true <;> by_cases hclosed : .close channel ∈ moves <;>
      simp_all [Move.sent?]
  isOpen channel := by simp [h.isOpen]
  heeds channel hheeds := by
    obtain ⟨hwaiting, hclosed⟩ := h.heeds channel hheeds
    simp [Inbox.waiting_deliver, hwaiting, hclosed]
  halt := h.halt
  cancelled := h.cancelled

theorem close (h : Trace host world a moves handled d) (closed : Channel) :
    Trace host world a (moves ++ [.close closed]) handled
      { d with inbox := d.inbox.close closed } where
  agent := h.agent
  world := h.world
  sent channel := by
    rw [Inbox.waiting_close, sent_concat, ← h.sent]
    simp [Move.sent?]
  isOpen channel := by
    simp [Inbox.isOpen_close, h.isOpen]
  heeds channel hheeds := by
    obtain ⟨hwaiting, hclosed⟩ := h.heeds channel hheeds
    exact ⟨by rw [Inbox.waiting_close, hwaiting], by rw [Inbox.isOpen_close, hclosed]; rfl⟩
  halt := h.halt
  cancelled := h.cancelled

/-- A turn is neither sent nor a close. -/
theorem wait (h : Trace host world a moves handled d) (preferred : Branch) :
    Trace host world a (moves ++ [.turn preferred]) handled d where
  agent := h.agent
  world := h.world
  sent channel := by
    rw [h.sent, sent_concat]
    simp [Move.sent?]
  isOpen channel := by simp [h.isOpen]
  heeds := h.heeds
  halt := h.halt
  cancelled := h.cancelled

/-- The oldest event of a channel is handled. -/
theorem handle (hanswers : host.Answers) (h : Trace host world a moves handled d)
    {channel : Channel} {notice : Notice} {inbox : Inbox} (hheeds : d.heeds channel = true)
    (hreceived : d.inbox.receive? channel = some (notice, inbox)) :
    Trace host world a moves (handled ++ [notice])
      (Dispatcher.handle host.play { d with inbox } notice) := by
  obtain ⟨hchannel, hwaiting, hothers, hopen⟩ := Inbox.waiting_of_receive? hreceived
  obtain ⟨hstate, hworld⟩ := run_handleAll_concat hanswers world a handled notice
  rw [handle_play hanswers]
  refine ⟨?_, ?_, fun other ↦ ?_, fun other ↦ ?_, fun other hother ↦ ?_, nofun, h.cancelled⟩
  · rw [hstate, ← h.agent, ← h.world]
  · rw [hworld, ← h.agent, ← h.world]
  · rw [← h.sent other]
    by_cases hother : other = channel
    · simp [hother, Notice.isOn, hchannel, hwaiting]
    · simp [Notice.isOn, hchannel, Ne.symm hother, hothers other hother]
  · rw [← h.isOpen other, ← hopen other]
  · -- the channel of the event is heeded, so the other one is meant
    have hignored : d.heeds other = false := by cases other <;> exact hother
    have hne : other ≠ channel := by
      rintro rfl
      exact Bool.noConfusion (hignored.symm.trans hheeds)
    exact ⟨(hothers other hne).trans (h.heeds other hignored).1,
      (hopen other).trans (h.heeds other hignored).2⟩

/-- A channel is found closed. -/
theorem ignore (h : Trace host world a moves handled d) {channel : Channel}
    (hreceived : d.inbox.receive? channel = none) (hclosed : d.inbox.isOpen channel = false)
    (hhalt : d.halt = none) : Trace host world a moves handled (d.ignore channel) := by
  have hheeds (other : Channel) (hother : (d.ignore channel).heeds other = false) :
      d.inbox.waiting other = [] ∧ d.inbox.isOpen other = false := by
    rw [heeds_ignore, Bool.and_eq_false_iff, decide_eq_false_iff_not, not_not] at hother
    rcases hother with hother | rfl
    · exact h.heeds other hother
    · exact ⟨Inbox.receive?_eq_none_iff.1 hreceived, hclosed⟩
  obtain ⟨heedsNodes, heedsPods, heq⟩ := d.ignore_eq channel
  rw [heq] at hheeds ⊢
  exact { h with heeds := hheeds, halt := fun halt hsome ↦ by cases hhalt.symm.trans hsome }

/-- **A turn keeps the trace**, whatever it prefers and whatever it finds. -/
theorem turn (hanswers : host.Answers) (h : Trace host world a moves handled d)
    (preferred : Branch) :
    ∃ handled', Trace host world a (moves ++ [.turn preferred]) handled'
      (d.turn host.play preferred) := by
  have hwait := h.wait preferred
  cases hhalt : d.halt with
  | some halt => exact ⟨handled, by rwa [Dispatcher.turn, if_pos (by rw [hhalt]; rfl)]⟩
  | none =>
    obtain ⟨hover, hturn⟩ | ⟨channel, notice, inbox, hheeds, hreceived, hturn⟩ |
      ⟨channel, hheeds, hreceived, hclosed, hturn⟩ | ⟨-, hturn⟩ :=
        turn_cases host.play d preferred h.cancelled hhalt
    · rw [hturn]
      refine ⟨handled, { hwait with halt := fun halt heq ↦ ?_ }⟩
      cases heq
      exact ⟨rfl, hover⟩
    · rw [hturn]
      exact ⟨_, hwait.handle hanswers hheeds hreceived⟩
    · rw [hturn]
      exact ⟨handled, hwait.ignore hreceived hclosed hhalt⟩
    · rw [hturn]
      exact ⟨handled, hwait⟩

/-- **What a run keeps**, whatever is sent meanwhile and whatever the loop prefers. -/
theorem run (hanswers : host.Answers) (h : Trace host world a moves handled d)
    (later : List Move) (hcancel : .cancel ∉ later) :
    ∃ handled', Trace host world a (moves ++ later) handled' (d.run host.play later) := by
  induction later generalizing moves handled d with
  | nil => exact ⟨handled, by rwa [List.append_nil]⟩
  | cons move rest ih =>
    have hrest : .cancel ∉ rest := fun hmem ↦ hcancel (List.mem_cons_of_mem _ hmem)
    obtain ⟨handled', hstep⟩ : ∃ handled', Trace host world a (moves ++ [move]) handled'
        (d.step host.play move) := by
      cases move with
      | send notice => exact ⟨handled, h.send notice⟩
      | close channel => exact ⟨handled, h.close channel⟩
      | cancel => exact absurd List.mem_cons_self hcancel
      | turn preferred => exact h.turn hanswers preferred
    obtain ⟨handled'', hrun⟩ := ih hstep hrest
    exact ⟨handled'', by rwa [List.append_assoc] at hrun⟩

/-! ### The end of the loop -/

theorem waiting_eq_nil (h : Trace host world a moves handled d) {halt : Halt}
    (hhalt : d.halt = some halt) (channel : Channel) : d.inbox.waiting channel = [] :=
  (h.heeds channel ((h.halt halt hhalt).2 channel)).1

/-- At a halt, what was handled of a channel is what was sent on it, in the same order. -/
theorem filter_eq_sent (h : Trace host world a moves handled d) {halt : Halt}
    (hhalt : d.halt = some halt) (channel : Channel) :
    handled.filter (Notice.isOn channel) = Agent.sent channel moves := by
  rw [← h.sent, h.waiting_eq_nil hhalt, List.append_nil]

end Trace

/-- What a channel still has in store: its events, and its end. -/
def load (d : Dispatcher ε) (channel : Channel) : ℕ :=
  (d.inbox.waiting channel).length + (d.heeds channel).toNat

/-- What both channels still have in store. -/
def remaining (d : Dispatcher ε) : ℕ := d.load .nodes + d.load .pods

/-- If one channel has less in store and the other one the same, both together have less. -/
theorem remaining_lt {d d' : Dispatcher ε} (channel : Channel)
    (hless : d'.load channel < d.load channel)
    (hothers : ∀ other, other ≠ channel → d'.load other = d.load other) :
    d'.remaining < d.remaining := by
  cases channel with
  | nodes =>
    have hpods := hothers .pods nofun
    simp only [remaining]
    omega
  | pods =>
    have hnodes := hothers .nodes nofun
    simp only [remaining]
    omega

/-- What is in store is no more than what was sent, and the two ends. -/
theorem Trace.remaining_le {world : ε} {a : Agent} {moves : List Move} {handled : List Notice}
    {d : Dispatcher ε} (h : Trace host world a moves handled d) :
    d.remaining ≤ (Agent.sent .nodes moves).length + (Agent.sent .pods moves).length + 2 := by
  have hload (channel : Channel) : d.load channel ≤ (Agent.sent channel moves).length + 1 := by
    have hheeds := Bool.toNat_le (d.heeds channel)
    rw [load, ← h.sent, List.length_append]
    omega
  have hnodes := hload .nodes
  have hpods := hload .pods
  rw [remaining]
  omega

theorem run_turns_of_halt {d : Dispatcher ε} (h : d.halt.isSome = true) (picks : List Branch) :
    d.run host.play (picks.map .turn) = d := by
  induction picks with
  | nil => rfl
  | cons preferred rest ih =>
    have hturn : d.step host.play (.turn preferred) = d := by rw [step, turn, if_pos h]
    rw [List.map_cons, run, List.foldl_cons, hturn]
    exact ih

/-- Once both channels are closed, no turn is in vain. -/
theorem Trace.remaining_turn {world : ε} {a : Agent} {moves : List Move} {handled : List Notice}
    {d : Dispatcher ε} (hanswers : host.Answers) (h : Trace host world a moves handled d)
    (hclosed : ∀ channel, .close channel ∈ moves) (hhalt : d.halt = none) (preferred : Branch) :
    (d.turn host.play preferred).halt = some (.over Inbox.closedFault) ∨
      (d.turn host.play preferred).remaining < d.remaining := by
  have hshut (channel : Channel) : d.inbox.isOpen channel = false :=
    Bool.eq_false_iff.2 fun hopen ↦ (h.isOpen channel).1 hopen (hclosed channel)
  obtain ⟨-, hturn⟩ | ⟨channel, notice, inbox, hheeds, hreceived, hturn⟩ |
    ⟨channel, hheeds, hreceived, -, hturn⟩ | ⟨⟨channel, -, hopen⟩, -⟩ :=
      turn_cases host.play d preferred h.cancelled hhalt
  · exact .inl (by rw [hturn])
  · obtain ⟨-, hwaiting, hothers, -⟩ := Inbox.waiting_of_receive? hreceived
    have hsame (other : Channel) :
        (d.turn host.play preferred).load other =
          (inbox.waiting other).length + (d.heeds other).toNat := by
      rw [hturn, handle_play hanswers]
      cases other <;> rfl
    refine .inr (remaining_lt channel ?_ fun other hother ↦ ?_)
    · rw [hsame, load, hwaiting, List.length_cons]
      omega
    · rw [hsame, hothers other hother, load]
  · have hsame (other : Channel) :
        (d.turn host.play preferred).load other = (d.inbox.waiting other).length +
          (d.heeds other && decide (other ≠ channel)).toNat := by
      rw [load, hturn, heeds_ignore]
      cases channel <;> rfl
    refine .inr (remaining_lt channel ?_ fun other hother ↦ ?_)
    · rw [hsame]
      simp [load, hheeds]
    · rw [hsame]
      simp [load, hother]
  · exact absurd (hshut channel) (by simp [hopen])

/-- **The loop comes to its end** when both channels are closed. -/
theorem Trace.halt_of_turns {world : ε} {a : Agent} {moves : List Move} {handled : List Notice}
    {d : Dispatcher ε} (hanswers : host.Answers) (h : Trace host world a moves handled d)
    (hclosed : ∀ channel, .close channel ∈ moves) (picks : List Branch)
    (hpicks : d.remaining < picks.length) :
    (d.run host.play (picks.map .turn)).halt = some (.over Inbox.closedFault) := by
  induction picks generalizing moves handled d with
  | nil => exact absurd hpicks (Nat.not_lt_zero _)
  | cons preferred rest ih =>
    cases hhalt : d.halt with
    | some halt =>
      rw [run_turns_of_halt (by rw [hhalt]; rfl), hhalt, (h.halt halt hhalt).1]
    | none =>
      have hcons : d.run host.play ((preferred :: rest).map .turn) =
          (d.turn host.play preferred).run host.play (rest.map .turn) := rfl
      rw [hcons]
      rcases h.remaining_turn hanswers hclosed hhalt preferred with hover | hless
      · rw [run_turns_of_halt (by rw [hover]; rfl), hover]
      · obtain ⟨handled', hturn⟩ := h.turn hanswers preferred
        rw [List.length_cons] at hpicks
        exact ih hturn (fun channel ↦ List.mem_append_left _ (hclosed channel)) (by omega)

end Agent.Dispatcher

/-! ### Reports of a node and its pods commute -/

namespace Holding

/-- A node is tracked and has a pool. -/
def Full (h : Holding) : Prop := h.account.isSome = true ∧ h.pool.isSome = true

/-- A node stays tracked and keeps its pool unless it is deleted. -/
theorem Full.after {h : Holding} (hfull : h.Full) {notice : Notice} (hkept : notice.ends = false) :
    (h.after notice).Full := by
  obtain ⟨haccount, hpool⟩ := hfull
  rcases notice with ⟨op, node⟩ | e
  · cases op with
    | added => exact ⟨by simp [Holding.after], by simp [Holding.after, hpool]⟩
    | updated => exact ⟨rfl, hpool⟩
    | deleted => cases hkept
  · exact ⟨by simpa [Holding.after] using haccount, by simpa [Holding.after] using hpool⟩

/-- **A report of a node and an event of one of its pods commute.** -/
theorem after_comm {h : Holding} (hfull : h.Full) (e : Event Pod) {notice : Notice}
    (hnode : notice.isOn .nodes = true) (hkept : notice.ends = false) :
    (h.after (.pod e)).after notice = (h.after notice).after (.pod e) := by
  obtain ⟨account, haccount⟩ := Option.isSome_iff_exists.1 hfull.1
  obtain ⟨pool, hpool⟩ := Option.isSome_iff_exists.1 hfull.2
  rcases notice with ⟨op, node⟩ | e'
  · cases op with
    | added => simp [after, haccount, hpool]
    | updated => simp [after, haccount, hpool, Account.report_enter]
    | deleted => cases hkept
  · cases hnode

/-- An event of a pod can be moved past any reports of its node. -/
theorem afterAll_after_comm {h : Holding} (hfull : h.Full) (e : Event Pod) {reports : List Notice}
    (hnodes : ∀ notice ∈ reports, notice.isOn .nodes = true)
    (hkept : ∀ notice ∈ reports, notice.ends = false) :
    (h.after (.pod e)).afterAll reports = (h.afterAll reports).after (.pod e) := by
  induction reports generalizing h with
  | nil => rfl
  | cons notice rest ih =>
    have hfirst := hkept notice List.mem_cons_self
    rw [afterAll_cons, after_comm hfull e (hnodes notice List.mem_cons_self) hfirst,
      ih (hfull.after hfirst) (fun n hmem ↦ hnodes n (List.mem_cons_of_mem _ hmem))
        fun n hmem ↦ hkept n (List.mem_cons_of_mem _ hmem), afterAll_cons]

/-- All reports of the node can be put before all events of its pods. -/
theorem afterAll_eq_sorted {h : Holding} (hfull : h.Full) {notices : List Notice}
    (hkept : ∀ notice ∈ notices, notice.ends = false) :
    h.afterAll notices =
      (h.afterAll (notices.filter (Notice.isOn .nodes))).afterAll
        (notices.filter (Notice.isOn .pods)) := by
  induction notices generalizing h with
  | nil => rfl
  | cons notice rest ih =>
    have hfirst := hkept notice List.mem_cons_self
    have hrest : ∀ n ∈ rest, n.ends = false := fun n hmem ↦ hkept n (List.mem_cons_of_mem _ hmem)
    rw [afterAll_cons, ih (hfull.after hfirst) hrest]
    cases notice with
    | node e => rfl
    | pod e =>
      rw [afterAll_after_comm hfull e (fun n hmem ↦ (List.mem_filter.1 hmem).2)
        fun n hmem ↦ hrest n (List.mem_of_mem_filter hmem)]
      rfl

/-- **How the channels are mixed does not matter** to a node without pod events, and to one that is
tracked, has a pool and is not deleted. -/
theorem afterAll_eq_of_channels {h : Holding} {notices notices' : List Notice}
    (hsame : ∀ channel, notices.filter (Notice.isOn channel) =
      notices'.filter (Notice.isOn channel))
    (hpods : notices.filter (Notice.isOn .pods) ≠ [] →
      h.Full ∧ ∀ notice ∈ notices, notice.ends = false) :
    h.afterAll notices = h.afterAll notices' := by
  by_cases hnone : notices.filter (Notice.isOn .pods) = []
  · -- without pod events both runs are those of the reports
    have hreports (l : List Notice) (hl : l.filter (Notice.isOn .pods) = []) :
        l.filter (Notice.isOn .nodes) = l := by
      refine List.filter_eq_self.2 fun notice hmem ↦ ?_
      have hoff := List.filter_eq_nil_iff.1 hl notice hmem
      cases notice with
      | node e => rfl
      | pod e => exact absurd rfl hoff
    rw [← hreports notices hnone, hsame, hreports notices' (hsame .pods ▸ hnone)]
  · obtain ⟨hfull, hkept⟩ := hpods hnone
    have hkept' : ∀ notice ∈ notices', notice.ends = false := by
      intro notice hmem
      cases notice with
      | node e =>
        refine hkept _ (List.mem_of_mem_filter (p := Notice.isOn .nodes) ?_)
        rw [hsame]
        exact List.mem_filter.2 ⟨hmem, rfl⟩
      | pod e => rfl
    rw [afterAll_eq_sorted hfull hkept, afterAll_eq_sorted hfull hkept', hsame, hsame]

end Holding

/-! ### Any schedule -/

namespace Agent

variable {ε ε' : Type} {host : Host Agent ε} {host' : Host Agent ε'}

/-- Two dispatchers that came to a halt after the same events hold the same of every node. -/
theorem holding_eq_of_traces (h : host.Discreet) (h' : host'.Discreet) {world : ε} {world' : ε'}
    {a : Agent} {moves moves' : List Move} {handled handled' : List Notice} {d : Dispatcher ε}
    {d' : Dispatcher ε'} (htrace : Dispatcher.Trace host world a moves handled d)
    (htrace' : Dispatcher.Trace host' world' a moves' handled' d')
    (hsame : ∀ channel, sent channel moves = sent channel moves')
    (hpods : ∀ e, .pod e ∈ sent .pods moves → ∃ name, e.object.node? = some name ∧
      a.ledger.contains name = true ∧ (poolAt name a).isSome = true ∧
      ∀ node, .node ⟨.deleted, node⟩ ∈ sent .nodes moves → node.name ≠ name)
    {halt halt' : Halt} (hhalt : d.halt = some halt) (hhalt' : d'.halt = some halt')
    (name : String) : holding name d.agent = holding name d'.agent := by
  have hhandled := htrace.filter_eq_sent hhalt
  have hhandled' := htrace'.filter_eq_sent hhalt'
  rw [htrace.agent, htrace'.agent, holding_handleAll h, holding_handleAll h']
  refine Holding.afterAll_eq_of_channels (fun channel ↦ ?_) fun hsome ↦ ?_
  · rw [List.filter_comm, hhandled, hsame, ← hhandled', List.filter_comm]
  · rw [List.filter_comm, hhandled] at hsome
    -- the node has a pod event, so it is one of those that are tracked and have a pool
    obtain ⟨notice, hmem⟩ := List.exists_mem_of_ne_nil _ hsome
    obtain ⟨hsent, hconcerns⟩ := List.mem_filter.1 hmem
    obtain ⟨e, rfl⟩ : ∃ e, notice = .pod e := by
      rw [← hhandled] at hsent
      have hon := (List.mem_filter.1 hsent).2
      cases notice with
      | node e => cases hon
      | pod e => exact ⟨e, rfl⟩
    obtain ⟨home, hnode, htracked, hpool, hkept⟩ := hpods e hsent
    obtain rfl : home = name := Option.some.inj (hnode.symm.trans (of_decide_eq_true hconcerns))
    refine ⟨⟨htracked, hpool⟩, fun notice hmem ↦ ?_⟩
    obtain ⟨hmem, hconcerns⟩ := List.mem_filter.1 hmem
    rcases notice with ⟨op, node⟩ | e
    · cases op with
      | added => rfl
      | updated => rfl
      | deleted =>
        have hdeleted : .node ⟨.deleted, node⟩ ∈ sent .nodes moves := by
          rw [← hhandled]
          exact List.mem_filter.2 ⟨hmem, rfl⟩
        exact absurd (Option.some.inj (of_decide_eq_true hconcerns)) (hkept node hdeleted)
    · rfl

/-- **Dispatch does not depend on the schedule.** An agent starts dispatch on two channels. Events
are sent and the channels are closed while the loop makes its turns, and whenever several things are
there, the loop goes on with any of them. It is not cancelled, and every call is answered and every
submission settled, one way or another. Then

* the events that were handled, and behind them those that wait, are those that were sent, channel
  by channel and in order;
* if dispatch came to a halt, it is with the fault of closed channels, both were closed, and nothing
  waits;
* once both channels are closed it comes to this halt, after a turn for every event that was sent,
  one for the end of each channel, and a last one.

Suppose that the pods of all pod events are bound to nodes which are tracked and have a pool at the
start, and that no such node is deleted. Then dispatch under any other schedule of the same events,
with a cluster that gives other answers, comes to a halt with the same accounts and pools. -/
theorem dispatch_of_schedules (h : host.Discreet) (h' : host'.Discreet) (world : ε) (world' : ε')
    (a : Agent) (moves moves' : List Move) (hcancel : .cancel ∉ moves)
    (hcancel' : .cancel ∉ moves') (hsame : ∀ channel, sent channel moves = sent channel moves')
    (hpods : ∀ e, .pod e ∈ sent .pods moves → ∃ name, e.object.node? = some name ∧
      a.ledger.contains name = true ∧ (poolAt name a).isSome = true ∧
      ∀ node, .node ⟨.deleted, node⟩ ∈ sent .nodes moves → node.name ≠ name) :
    let d := ({ agent := a, world } : Dispatcher ε).run host.play moves
    let d' := ({ agent := a, world := world' } : Dispatcher ε').run host'.play moves'
    (∃ handled, d.agent = ((handleAll handled).run host world a).state ∧
        d.world = ((handleAll handled).run host world a).world ∧
        ∀ channel, handled.filter (Notice.isOn channel) ++ d.inbox.waiting channel =
          sent channel moves) ∧
      (∀ halt, d.halt = some halt → halt = .over Inbox.closedFault ∧
        ∀ channel, .close channel ∈ moves ∧ d.inbox.waiting channel = []) ∧
      ((∀ channel, .close channel ∈ moves) → ∀ picks : List Branch,
        (sent .nodes moves).length + (sent .pods moves).length + 3 ≤ picks.length →
          (d.run host.play (picks.map .turn)).halt = some (.over Inbox.closedFault)) ∧
      (d.halt.isSome = true → d'.halt.isSome = true → ∀ name,
        d.agent.ledger.find? name = d'.agent.ledger.find? name ∧
          poolAt name d.agent = poolAt name d'.agent) := by
  intro d d'
  obtain ⟨handled, htrace⟩ : ∃ handled, Dispatcher.Trace host world a moves handled d :=
    (Dispatcher.Trace.initial host world a).run h.answers moves hcancel
  obtain ⟨handled', htrace'⟩ : ∃ handled', Dispatcher.Trace host' world' a moves' handled' d' :=
    (Dispatcher.Trace.initial host' world' a).run h'.answers moves' hcancel'
  refine ⟨⟨handled, htrace.agent, htrace.world, htrace.sent⟩, fun halt hhalt ↦ ?_,
    fun hclosed picks hpicks ↦ ?_, fun hhalted hhalted' name ↦ ?_⟩
  · obtain ⟨hfault, hfound⟩ := htrace.halt halt hhalt
    refine ⟨hfault, fun channel ↦ ⟨?_, htrace.waiting_eq_nil hhalt channel⟩⟩
    by_contra hopen
    exact Bool.noConfusion
      (((htrace.isOpen channel).2 hopen).symm.trans (htrace.heeds channel (hfound channel)).2)
  · have hremaining := htrace.remaining_le
    exact htrace.halt_of_turns h.answers hclosed picks (by omega)
  · obtain ⟨halt, hhalt⟩ := Option.isSome_iff_exists.1 hhalted
    obtain ⟨halt', hhalt'⟩ := Option.isSome_iff_exists.1 hhalted'
    have hheld := holding_eq_of_traces h h' htrace htrace' hsame hpods hhalt hhalt' name
    exact ⟨congrArg Holding.account hheld, congrArg Holding.pool hheld⟩

/-- A pod of a node is reported and the node is updated. Both wait until they are handled, the pod
first. -/
def podFirst : List Move :=
  [.send (.node ⟨.updated, nodeWithBlock⟩), .send (.pod ⟨.added, podWith "web" none⟩),
    .turn (.receive .pods), .close .pods, .close .nodes, .turn (.receive .nodes),
    .turn (.receive .nodes), .turn (.receive .nodes), .turn (.receive .nodes)]

/-- The same events, but the channel of nodes is closed before the pod is reported. -/
def nodeFirst : List Move :=
  [.send (.node ⟨.updated, nodeWithBlock⟩), .close .nodes, .turn (.receive .pods),
    .turn (.receive .nodes), .send (.pod ⟨.added, podWith "web" none⟩), .close .pods,
    .turn (.receive .pods), .turn (.receive .pods), .turn .cancelled]

/-- Both times the pod gets the first address, also if the cluster never answers. -/
theorem dispatch_of_podFirst :
    let a := ((handleNode ⟨.added, nodeWithBlock⟩).run obliging () (.initial {} ⟨0, false⟩)).state
    let d := ({ agent := a, world := () } : Dispatcher Unit).run
      (answering fun _ ↦ .error .unanswered).play podFirst
    let d' := ({ agent := a, world := () } : Dispatcher Unit).run
      (answering Call.granted).play nodeFirst
    (d.agent.ledger.find? "mock-node-0" = d'.agent.ledger.find? "mock-node-0" ∧
      poolAt "mock-node-0" d.agent = poolAt "mock-node-0" d'.agent) ∧
      poolAt "mock-node-0" d.agent = some (newPool.handOut 1).2 := by
  intro a
  dsimp only
  have hnodes : sent .nodes podFirst = [.node ⟨.updated, nodeWithBlock⟩] := by decide +kernel
  have hpods : sent .pods podFirst = [.pod ⟨.added, podWith "web" none⟩] := by decide +kernel
  obtain ⟨-, -, -, hsame⟩ := dispatch_of_schedules
    (prompt_answering fun _ ↦ .error .unanswered).discreet (prompt_answering Call.granted).discreet
    () () a podFirst nodeFirst (by decide +kernel)
    (by decide +kernel) (fun channel ↦ by cases channel <;> decide +kernel) fun e hmem ↦ by
      rw [hpods, List.mem_singleton] at hmem
      cases hmem
      refine ⟨"mock-node-0", rfl, by decide +kernel, by decide +kernel, fun node hdeleted ↦ ?_⟩
      rw [hnodes, List.mem_singleton] at hdeleted
      cases hdeleted
  exact ⟨hsame (by decide +kernel) (by decide +kernel) "mock-node-0", by decide +kernel⟩

end Agent

end HollowFleet
