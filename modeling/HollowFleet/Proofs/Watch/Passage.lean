import HollowFleet.Proofs.Watch.Yield

/-!
# Passage through a pipe

A pipe works through the items of a watch on its own: it sends what is pending, and else takes the
next item. How far it gets, when the receiver takes an event or goes away, and when the pipe is
cancelled is up to the schedule. What the items yield is settled beforehand (`Source.told`).

The invariant is an equation: what was sent and what is pending make up what the items taken so far
yield (`Passage.Sound`). All else follows from it, whatever the schedule (`Passage.lossless`), and
some schedule gets everything through (`Passage.exists_received`).

## What the main theorem rests on

* There is one lemma for each turn, by which it keeps all sound (`Sound.take`, `Sound.send`,
  `Sound.receive`, `Sound.hangUp`, `Sound.cancel`); `Sound.step` puts them together and `Sound.run`
  is the induction on the schedule.
* That order and completeness hold at any time is the equation. That all was sent when the items
  came to their end is the field `closed`, which only the turn that notices the end has to prove.
* A pipe that is over does nothing more, whatever it is over for (`Sound.run_of_ended`).
* Without a receiver there are three ways to work on, one lemma each: there is something to send and
  the pipe is over for want of a receiver (`Sound.work_of_pending`), the next item is taken
  (`Sound.work_of_settled`), or there is none (`Sound.work_of_over`). `Sound.run_of_hungUp` is the
  induction; by then all that was told is sent, so the first item that yields anything ends it.
-/

namespace HollowFleet.Watch

open Rehearsal (Item)

variable {κ : Type}

/-! ### Moves of a pipe -/

namespace Pipe

variable [Watched κ]

omit [Watched κ] in
/-- A pipe is idle if it is not over and has nothing left to send. -/
theorem idle_iff {p : Pipe κ} : p.idle = true ↔ p.ended = none ∧ p.pending = [] := by
  rw [idle, Bool.and_eq_true, Option.isNone_iff_eq_none, List.isEmpty_iff]

/-- What a pipe does that is to send. -/
theorem send_cases (p : Pipe κ) :
    p.send = p ∨
      (∃ event rest, p.ended = none ∧ p.pending = event :: rest ∧ p.listening = true ∧
        p.buffered.length < p.size ∧
        p.send = { p with pending := rest, buffered := p.buffered ++ [event] }) ∨
      (p.ended = none ∧ p.pending ≠ [] ∧ p.listening = false ∧
        p.send = { p with ended := some (.watch (Watched.kind κ) .receiverDropped) }) := by
  rw [send]
  split
  · next event rest hended hpending =>
    split
    · next hlistening =>
      split
      · next hroom => exact .inr (.inl ⟨event, rest, hended, hpending, hlistening, hroom, rfl⟩)
      · exact .inl rfl
    · next hgone =>
      exact .inr (.inr ⟨hended, by rw [hpending]; exact List.cons_ne_nil _ _, by simpa using hgone,
        rfl⟩)
  · exact .inl rfl

theorem send_of_hungUp {p : Pipe κ} (hended : p.ended = none) {event : Event κ}
    {rest : List (Event κ)} (hpending : p.pending = event :: rest) (hgone : p.listening = false) :
    p.send = { p with ended := some (.watch (Watched.kind κ) .receiverDropped) } := by
  rw [send]
  simp only [hended, hpending, hgone, Bool.false_eq_true, if_false]

/-- An event that is sent goes to the end of the channel, if there is room. -/
theorem send_of_room {p : Pipe κ} (hended : p.ended = none) {event : Event κ}
    {rest : List (Event κ)} (hpending : p.pending = event :: rest) (hlistening : p.listening = true)
    (hroom : p.buffered.length < p.size) :
    p.send = { p with pending := rest, buffered := p.buffered ++ [event] } := by
  rw [send]
  simp only [hended, hpending, hlistening, if_true, hroom]

/-- What a receiver does that is to take an event. -/
theorem receive_cases (p : Pipe κ) :
    p.step .receive = p ∨
      ∃ event rest, p.buffered = event :: rest ∧ p.listening = true ∧
        p.step .receive = { p with buffered := rest, received := p.received ++ [event] } := by
  rw [step]
  split
  · next event rest hbuffered =>
    split
    · next hlistening => exact .inr ⟨event, rest, hbuffered, hlistening, rfl⟩
    · exact .inl rfl
  · exact .inl rfl

end Pipe

/-! ### Passages -/

/-- A pipe that works through items on its own. -/
structure Passage (κ : Type) where
  /-- The pipe. -/
  pipe : Pipe κ
  /-- The number of items taken. -/
  taken : ℕ := 0
  /-- Events that were sent, and were still in the channel when the receiver went away. -/
  lost : List (Event κ) := []

/-- What happens next. -/
inductive Turn where
  /-- The pipe works. -/
  | work
  /-- The receiver takes an event. -/
  | receive
  /-- The receiver goes away. -/
  | hangUp
  /-- The pipe is cancelled. -/
  | cancel
deriving DecidableEq

namespace Passage

variable [Watched κ] (w : Source κ)

/-- The events that were sent so far. -/
def sent (s : Passage κ) : List (Event κ) := s.pipe.received ++ s.lost ++ s.pipe.buffered

/-- The next item is taken, or the end of the items is noticed. -/
def take (s : Passage κ) : Passage κ :=
  match w.items.get? s.taken with
  | some (.report r) =>
    let pipe := s.pipe.step (.report r)
    { s with
      pipe := { pipe with pending := (w.order s.taken).arrange pipe.pending }
      taken := s.taken + 1 }
  | some .failure => { s with pipe := s.pipe.step .failure, taken := s.taken + 1 }
  | none => { s with pipe := s.pipe.step .close }

/-- What a turn does. -/
def step (s : Passage κ) : Turn → Passage κ
  | .work => if s.pipe.idle then s.take w else { s with pipe := s.pipe.step .send }
  | .receive => { s with pipe := s.pipe.step .receive }
  | .hangUp => { s with pipe := s.pipe.step .hangUp, lost := s.lost ++ s.pipe.buffered }
  | .cancel => { s with pipe := s.pipe.step .cancel }

/-- The passage after a schedule. -/
def run (s : Passage κ) (schedule : List Turn) : Passage κ := schedule.foldl (step w) s

theorem run_cons (s : Passage κ) (turn : Turn) (rest : List Turn) :
    s.run w (turn :: rest) = (s.step w turn).run w rest := rfl

theorem run_append (s : Passage κ) (first second : List Turn) :
    s.run w (first ++ second) = (s.run w first).run w second := List.foldl_append

/-- The passage through a new pipe. -/
def start (buffer : ℕ) : Passage κ where
  pipe := .ofBuffer buffer

section

variable {w} {s : Passage κ}

/-- A report is put through the filter, and what it yields is pending from then on. -/
theorem take_of_report (hidle : s.pipe.idle = true) {r : Report κ}
    (hitem : w.items.get? s.taken = some (.report r)) :
    s.take w =
      { s with
        pipe := { s.pipe with
          filter := (s.pipe.filter.step r).1
          pending := (w.order s.taken).arrange (s.pipe.filter.step r).2 }
        taken := s.taken + 1 } := by
  have hstep : s.pipe.step (.report r) =
      { s.pipe with filter := (s.pipe.filter.step r).1, pending := (s.pipe.filter.step r).2 } :=
    if_pos hidle
  rw [take, hitem]
  simp only [hstep]

theorem take_of_failure (hidle : s.pipe.idle = true)
    (hitem : w.items.get? s.taken = some .failure) :
    s.take w =
      { s with
        pipe := { s.pipe with failures := s.pipe.failures + 1 }
        taken := s.taken + 1 } := by
  have hstep : s.pipe.step .failure = { s.pipe with failures := s.pipe.failures + 1 } :=
    if_pos hidle
  rw [take, hitem]
  simp only [hstep]

/-- Where there is no next item, the pipe is over because the stream ended. -/
theorem take_of_none (hidle : s.pipe.idle = true) (hitem : w.items.get? s.taken = none) :
    s.take w =
      { s with
        pipe := { s.pipe with ended := some (.watch (Watched.kind κ) .streamEnded) } } := by
  have hstep : s.pipe.step .close =
      { s.pipe with ended := some (.watch (Watched.kind κ) .streamEnded) } :=
    if_pos hidle
  rw [take, hitem]
  simp only [hstep]

/-- An item is taken without sending anything. -/
theorem take_of_some (hidle : s.pipe.idle = true) {item : Item κ}
    (hitem : w.items.get? s.taken = some item) :
    (s.take w).taken = s.taken + 1 ∧ (s.take w).sent = s.sent ∧
      (s.take w).pipe.listening = s.pipe.listening ∧ (s.take w).pipe.ended = s.pipe.ended ∧
      (s.take w).pipe.buffered = s.pipe.buffered := by
  cases item with
  | report r =>
    rw [take_of_report hidle hitem]
    exact ⟨rfl, rfl, rfl, rfl, rfl⟩
  | failure =>
    rw [take_of_failure hidle hitem]
    exact ⟨rfl, rfl, rfl, rfl, rfl⟩

end

/-- Without a change to the order of events, a passage is a run of moves of its pipe. -/
theorem exists_moves (h : ∀ n events, (w.order n).arrange events = events) (s : Passage κ)
    (schedule : List Turn) : ∃ moves, (s.run w schedule).pipe = s.pipe.run moves := by
  have hstep : ∀ (s : Passage κ) (turn : Turn),
      ∃ move, (s.step w turn).pipe = s.pipe.step move := by
    intro s turn
    cases turn with
    | work =>
      rw [step]
      split
      · rw [take]
        split
        · next r _ => exact ⟨.report r, by simp only [h]⟩
        · exact ⟨.failure, rfl⟩
        · exact ⟨.close, rfl⟩
      · exact ⟨.send, rfl⟩
    | receive => exact ⟨.receive, rfl⟩
    | hangUp => exact ⟨.hangUp, rfl⟩
    | cancel => exact ⟨.cancel, rfl⟩
  induction schedule generalizing s with
  | nil => exact ⟨[], rfl⟩
  | cons turn rest ih =>
    obtain ⟨move, hmove⟩ := hstep s turn
    obtain ⟨moves, hmoves⟩ := ih (s.step w turn)
    refine ⟨move :: moves, ?_⟩
    rw [run_cons, hmoves, hmove]
    rfl

/-- What was sent and what is pending is what the items taken so far yield, and the channel is in
order. -/
structure Sound (buffer : ℕ) (s : Passage κ) : Prop where
  /-- Nothing is lost or made up, and all is in order. -/
  whole : s.sent ++ s.pipe.pending = w.told s.taken
  /-- The filter has seen the reports among the items. -/
  filter : s.pipe.filter = w.filterAt s.taken
  /-- The channel is as large as asked for. -/
  size : s.pipe.size = max buffer 1
  /-- It does not hold more than that. -/
  room : s.pipe.buffered.length ≤ max buffer 1
  /-- Nothing is lost while somebody receives. -/
  kept : s.pipe.listening = true → s.lost = []
  /-- The channel is empty once nobody does. -/
  empty : s.pipe.listening = false → s.pipe.buffered = []
  /-- The end of the items is noticed when all was sent. -/
  closed : s.pipe.ended = some (.watch (Watched.kind κ) .streamEnded) →
    s.pipe.pending = [] ∧ w.items.get? s.taken = none

namespace Sound

variable {w} {buffer : ℕ} {s : Passage κ}

/-- Through a new pipe nothing has gone yet, so there is nothing to be out of order. -/
theorem start (w : Source κ) (buffer : ℕ) : (Passage.start buffer : Passage κ).Sound w buffer where
  whole := rfl
  filter := rfl
  size := rfl
  room := Nat.zero_le _
  kept _ := rfl
  empty _ := rfl
  closed h := by cases h

/-- Taking an item keeps all sound. -/
theorem take (h : s.Sound w buffer) (hidle : s.pipe.idle = true) : (s.take w).Sound w buffer := by
  obtain ⟨hended, hpending⟩ := Pipe.idle_iff.1 hidle
  have hsent : s.sent = w.told s.taken := by
    rw [← h.whole, hpending, List.append_nil]
  have hnot : s.pipe.ended ≠ some (.watch (Watched.kind κ) .streamEnded) := by
    rw [hended]
    exact nofun
  cases hitem : w.items.get? s.taken with
  | none =>
    rw [take_of_none hidle hitem]
    exact { h with closed := fun _ ↦ ⟨hpending, hitem⟩ }
  | some item =>
    have hreport : w.reportAt? s.taken = report? item := by
      rw [Source.reportAt?, hitem]
      rfl
    cases item with
    | report r =>
      rw [take_of_report hidle hitem]
      exact { h with
        whole := by
          show s.sent ++ (w.order s.taken).arrange (s.pipe.filter.step r).2 = _
          rw [hsent, Source.told_succ, Source.batch, hreport, h.filter]
          rfl
        filter := by
          show (s.pipe.filter.step r).1 = _
          rw [Source.filterAt_succ, hreport, h.filter]
          rfl
        closed := fun hclosed ↦ absurd hclosed hnot }
    | failure =>
      rw [take_of_failure hidle hitem]
      exact { h with
        whole := by
          show s.sent ++ s.pipe.pending = _
          rw [h.whole, Source.told_succ, Source.batch, hreport]
          exact (List.append_nil _).symm
        filter := by
          show s.pipe.filter = _
          rw [Source.filterAt_succ, hreport, h.filter]
          rfl
        closed := fun hclosed ↦ absurd hclosed hnot }

/-- Sending an event keeps all sound. -/
theorem send (h : s.Sound w buffer) : Sound w buffer { s with pipe := s.pipe.send } := by
  obtain hsend | ⟨event, rest, hended, hpending, hlistening, hroom, hsend⟩ |
    ⟨-, -, -, hsend⟩ := s.pipe.send_cases
  · rw [hsend]
    exact h
  · rw [hsend]
    exact { h with
      whole := by
        show s.pipe.received ++ s.lost ++ (s.pipe.buffered ++ [event]) ++ rest = _
        rw [← h.whole, hpending, sent]
        simp only [List.append_assoc, List.singleton_append]
      room := by
        rw [← h.size, List.length_append, List.length_singleton]
        exact hroom
      empty := fun hgone ↦ absurd (hlistening.symm.trans hgone) (by decide)
      closed := fun hclosed ↦ by
        rw [hended] at hclosed
        cases hclosed }
  · rw [hsend]
    exact { h with closed := fun hclosed ↦ by cases hclosed }

/-- What the receiver does with an event is no matter of what was sent. -/
theorem sent_receive (h : s.Sound w buffer) :
    sent { s with pipe := s.pipe.step .receive } = s.sent := by
  obtain hreceive | ⟨event, rest, hbuffered, hlistening, hreceive⟩ := s.pipe.receive_cases
  · rw [hreceive]
  · rw [hreceive]
    show s.pipe.received ++ [event] ++ s.lost ++ rest = _
    rw [sent, h.kept hlistening, hbuffered, List.append_nil, List.append_nil, List.append_assoc,
      List.singleton_append]

/-- Taking an event from the channel keeps all sound. -/
theorem receive (h : s.Sound w buffer) :
    Sound w buffer { s with pipe := s.pipe.step .receive } := by
  have hsent := h.sent_receive
  obtain hreceive | ⟨event, rest, hbuffered, hlistening, hreceive⟩ := s.pipe.receive_cases
  · rw [hreceive]
    exact h
  · rw [hreceive] at hsent ⊢
    exact { h with
      whole := by
        rw [hsent]
        exact h.whole
      room := by
        have hroom := h.room
        rw [hbuffered, List.length_cons] at hroom
        exact Nat.le_of_succ_le hroom
      empty := fun hgone ↦ absurd (hlistening.symm.trans hgone) (by decide) }

/-- What was in the channel when the receiver went away counts as sent, though nobody gets it. -/
theorem sent_hangUp (s : Passage κ) :
    sent { s with pipe := s.pipe.step .hangUp, lost := s.lost ++ s.pipe.buffered } = s.sent := by
  show s.pipe.received ++ (s.lost ++ s.pipe.buffered) ++ [] = _
  rw [List.append_nil, sent, List.append_assoc]

/-- The receiver takes the channel along, and the events in it are lost to it alone. -/
theorem hangUp (h : s.Sound w buffer) :
    Sound w buffer { s with pipe := s.pipe.step .hangUp, lost := s.lost ++ s.pipe.buffered } where
  whole := by
    rw [sent_hangUp]
    exact h.whole
  filter := h.filter
  size := h.size
  room := Nat.zero_le _
  kept hlistening := by cases hlistening
  empty _ := rfl
  closed := h.closed

/-- A cancelled pipe is over, with what it sent as far as it got. -/
theorem cancel (h : s.Sound w buffer) : Sound w buffer { s with pipe := s.pipe.step .cancel } := by
  rw [Pipe.step]
  split
  · exact { h with closed := fun hclosed ↦ by cases hclosed }
  · exact h

/-- **No turn loses, makes up or swaps an event.** -/
theorem step (h : s.Sound w buffer) (turn : Turn) : (s.step w turn).Sound w buffer := by
  cases turn with
  | work =>
    rw [Passage.step]
    split
    · next hidle => exact h.take hidle
    · exact h.send
  | receive => exact h.receive
  | hangUp => exact h.hangUp
  | cancel => exact h.cancel

/-- **No schedule loses, makes up or swaps an event**, by induction on its turns. -/
theorem run (h : s.Sound w buffer) (schedule : List Turn) : (s.run w schedule).Sound w buffer := by
  induction schedule generalizing s with
  | nil => exact h
  | cons turn rest ih => exact ih (h.step turn)

/-! ### The end -/

/-- Nothing is sent by a pipe that is over, and it is over for the same reason ever after. -/
theorem step_of_ended (h : s.Sound w buffer) (hended : s.pipe.ended ≠ none) (turn : Turn) :
    (s.step w turn).pipe.ended = s.pipe.ended ∧ (s.step w turn).sent = s.sent := by
  have hsome : s.pipe.ended.isNone = false := by
    rw [Option.isNone_eq_false_iff, Option.isSome_iff_ne_none]
    exact hended
  cases turn with
  | work =>
    have hidle : s.pipe.idle = false := by rw [Pipe.idle, hsome, Bool.false_and]
    have hsend : s.pipe.step .send = s.pipe := by
      obtain hsend | ⟨-, -, hnone, -⟩ | ⟨hnone, -⟩ := s.pipe.send_cases
      · exact hsend
      · exact absurd hnone hended
      · exact absurd hnone hended
    rw [Passage.step, hidle, if_neg Bool.false_ne_true, hsend]
    exact ⟨rfl, rfl⟩
  | receive =>
    refine ⟨?_, h.sent_receive⟩
    show (s.pipe.step .receive).ended = _
    obtain hreceive | ⟨event, rest, -, -, hreceive⟩ := s.pipe.receive_cases
    · rw [hreceive]
    · rw [hreceive]
  | hangUp => exact ⟨rfl, sent_hangUp s⟩
  | cancel =>
    have hcancel : s.pipe.step .cancel = s.pipe := by
      rw [Pipe.step, hsome, if_neg Bool.false_ne_true]
    rw [Passage.step, hcancel]
    exact ⟨rfl, rfl⟩

theorem run_of_ended (h : s.Sound w buffer) (hended : s.pipe.ended ≠ none)
    (schedule : List Turn) :
    (s.run w schedule).pipe.ended = s.pipe.ended ∧ (s.run w schedule).sent = s.sent := by
  induction schedule generalizing s with
  | nil => exact ⟨rfl, rfl⟩
  | cons turn rest ih =>
    obtain ⟨hstep, hsent⟩ := h.step_of_ended hended turn
    obtain ⟨hrest, hsent'⟩ := ih (h.step turn) (hstep ▸ hended)
    exact ⟨hrest.trans hstep, hsent'.trans hsent⟩

/-! ### Without a receiver -/

/-- Nothing is taken from the channel any more once the receiver is gone. -/
theorem step_receive_of_hungUp (hgone : s.pipe.listening = false) : s.step w .receive = s := by
  obtain hreceive | ⟨_, _, -, hlistening, -⟩ := s.pipe.receive_cases
  · rw [Passage.step, hreceive]
  · exact absurd (hlistening.symm.trans hgone) (by decide)

/-- A pipe that has something to send is over for want of a receiver when it works. -/
theorem work_of_pending (h : s.Sound w buffer) (hgone : s.pipe.listening = false)
    (hgoing : s.pipe.ended = none) (hpending : s.pipe.pending ≠ []) :
    (s.step w .work).pipe.ended = some (.watch (Watched.kind κ) .receiverDropped) ∧
      (s.step w .work).sent = s.sent ∧ s.sent ≠ w.told s.taken := by
  obtain ⟨event, rest, hevents⟩ := List.exists_cons_of_ne_nil hpending
  have hbusy : ¬ s.pipe.idle = true := fun hidle ↦ hpending (Pipe.idle_iff.1 hidle).2
  have hstep : s.step w .work = { s with pipe := s.pipe.send } := if_neg hbusy
  rw [hstep, Pipe.send_of_hungUp hgoing hevents hgone]
  refine ⟨rfl, rfl, fun hall ↦ hpending ?_⟩
  rw [← h.whole, List.self_eq_append_right] at hall
  exact hall

/-- One that has nothing to send takes the next item, and has sent all that was told by then. -/
theorem work_of_settled (h : s.Sound w buffer) (hgoing : s.pipe.ended = none)
    (hpending : s.pipe.pending = []) {item : Item κ} (hitem : w.items.get? s.taken = some item) :
    (s.step w .work).taken = s.taken + 1 ∧ (s.step w .work).sent = s.sent ∧
      (s.step w .work).pipe.listening = s.pipe.listening ∧
      (s.step w .work).pipe.ended = none ∧ s.sent = w.told s.taken := by
  have hidle : s.pipe.idle = true := Pipe.idle_iff.2 ⟨hgoing, hpending⟩
  have hstep : s.step w .work = s.take w := if_pos hidle
  obtain ⟨htaken, hsent, hlistening, hended, -⟩ := take_of_some hidle hitem
  rw [hstep]
  exact ⟨htaken, hsent, hlistening, hended.trans hgoing,
    by rw [← h.whole, hpending, List.append_nil]⟩

/-- If there is no next item, it is over, and nothing more was ever told. -/
theorem work_of_over (h : s.Sound w buffer) (hgoing : s.pipe.ended = none)
    (hpending : s.pipe.pending = []) (hitem : w.items.get? s.taken = none) :
    (s.step w .work).pipe.ended = some (.watch (Watched.kind κ) .streamEnded) ∧
      (s.step w .work).sent = s.sent ∧ ∀ k, s.sent = w.told (s.taken + k) := by
  have hidle : s.pipe.idle = true := Pipe.idle_iff.2 ⟨hgoing, hpending⟩
  have hstep : s.step w .work = s.take w := if_pos hidle
  rw [hstep, take_of_none hidle hitem]
  refine ⟨rfl, rfl, fun k ↦ ?_⟩
  rw [Source.told_of_over hitem (Nat.le_add_right _ k), ← h.whole, hpending, List.append_nil]

/-- **Without a receiver the pipe goes on until it has something to send.** Nothing is sent any
more, and if nobody cancels, the pipe is over for want of a receiver as soon as it worked on after
it had taken an item that yields something. -/
theorem run_of_hungUp (h : s.Sound w buffer) (hgone : s.pipe.listening = false)
    (hgoing : s.pipe.ended = none) {schedule : List Turn} (hcancel : .cancel ∉ schedule) :
    (s.run w schedule).sent = s.sent ∧
      ((s.run w schedule).pipe.ended = some (.watch (Watched.kind κ) .receiverDropped) ↔
        ∃ k < schedule.count .work, s.sent ≠ w.told (s.taken + k)) := by
  induction schedule generalizing s with
  | nil =>
    have hover : (s.run w []).pipe.ended = none := hgoing
    refine ⟨rfl, fun hended ↦ ?_, fun ⟨k, hk, _⟩ ↦ absurd hk (Nat.not_lt_zero k)⟩
    rw [hover] at hended
    cases hended
  | cons turn rest ih =>
    have hrest : .cancel ∉ rest := fun hmem ↦ hcancel (List.mem_cons_of_mem turn hmem)
    rw [run_cons]
    cases turn with
    | work =>
      rw [List.count_cons_self]
      by_cases hpending : s.pipe.pending = []
      · cases hitem : w.items.get? s.taken with
        | none =>
          obtain ⟨hended, hsent, hall⟩ := h.work_of_over hgoing hpending hitem
          obtain ⟨hended', hsent'⟩ := (h.step .work).run_of_ended (by rw [hended]; nofun) rest
          rw [hended', hended, hsent', hsent]
          exact ⟨rfl, nofun, fun ⟨k, _, hne⟩ ↦ absurd (hall k) hne⟩
        | some item =>
          obtain ⟨htaken, hsent, hgone', hgoing', hall⟩ :=
            h.work_of_settled hgoing hpending hitem
          obtain ⟨hsent', hiff⟩ := ih (h.step .work) (hgone'.trans hgone) hgoing' hrest
          rw [hsent', hiff, htaken, hsent]
          -- what is told by now is sent, so an item that yields more is among the later ones
          refine ⟨rfl, fun ⟨k, hk, hne⟩ ↦ ⟨k + 1, by omega, ?_⟩, fun ⟨k, hk, hne⟩ ↦ ?_⟩
          · rw [Nat.add_comm k, ← Nat.add_assoc]
            exact hne
          · cases k with
            | zero => exact absurd hall hne
            | succ k => exact ⟨k, by omega, by rwa [Nat.add_assoc, Nat.add_comm 1]⟩
      · obtain ⟨hended, hsent, hunsent⟩ := h.work_of_pending hgone hgoing hpending
        obtain ⟨hended', hsent'⟩ := (h.step .work).run_of_ended (by rw [hended]; nofun) rest
        rw [hended', hended, hsent', hsent]
        exact ⟨rfl, fun _ ↦ ⟨0, Nat.succ_pos _, hunsent⟩, fun _ ↦ rfl⟩
    | receive =>
      rw [List.count_cons_of_ne (by decide), step_receive_of_hungUp hgone]
      exact ih h hgone hgoing hrest
    | hangUp =>
      have hsent : (s.step w .hangUp).sent = s.sent := sent_hangUp s
      have hih := ih (h.step .hangUp) rfl hgoing hrest
      rw [hsent] at hih
      rw [List.count_cons_of_ne (by decide)]
      exact hih
    | cancel => exact absurd List.mem_cons_self hcancel

end Sound

/-- All that the items taken so far yield was received, and more may come. -/
structure Ready (s : Passage κ) : Prop where
  /-- The pipe is not over. -/
  going : s.pipe.ended = none
  /-- Somebody receives. -/
  listening : s.pipe.listening = true
  /-- Nothing is to be sent. -/
  settled : s.pipe.pending = []
  /-- Nothing is to be received. -/
  drained : s.pipe.buffered = []

namespace Sound

variable {w} {buffer : ℕ} {s : Passage κ}

/-- What is pending can be sent and received, one event after the other. -/
theorem exists_ready (h : s.Sound w buffer) (hgoing : s.pipe.ended = none)
    (hlistening : s.pipe.listening = true) (hdrained : s.pipe.buffered = []) :
    ∃ schedule, (s.run w schedule).Ready ∧ (s.run w schedule).taken = s.taken := by
  induction hpending : s.pipe.pending generalizing s with
  | nil => exact ⟨[], ⟨hgoing, hlistening, hpending, hdrained⟩, rfl⟩
  | cons event rest ih =>
    have hnot : s.pipe.idle = false := by
      rw [Pipe.idle, hpending, List.isEmpty_cons, Bool.and_false]
    have hroom : s.pipe.buffered.length < s.pipe.size := by
      rw [hdrained, h.size]
      exact Nat.lt_of_lt_of_le Nat.one_pos (Nat.le_max_right buffer 1)
    have hwork : s.step w .work =
        { s with pipe := { s.pipe with pending := rest, buffered := [event] } } := by
      have hsend : s.step w .work = { s with pipe := s.pipe.send } := if_neg (by simp [hnot])
      rw [hsend, Pipe.send_of_room hgoing hpending hlistening hroom, hdrained, List.nil_append]
    have hreceive : (s.step w .work).step w .receive =
        { s with
          pipe := { s.pipe with
            pending := rest
            buffered := []
            received := s.pipe.received ++ [event] } } := by
      rw [hwork, Passage.step, Pipe.step]
      simp only [hlistening, if_true]
    have hsound := (h.step .work).step .receive
    rw [hreceive] at hsound
    obtain ⟨schedule, hready, htaken⟩ := ih hsound hgoing hlistening rfl rfl
    refine ⟨.work :: .receive :: schedule, ?_⟩
    rw [run_cons, run_cons, hreceive]
    exact ⟨hready, htaken⟩

end Sound

/-- **Everything can get through:** some schedule has all received that the items yield up to some
place that they reach. -/
theorem exists_received (buffer n : ℕ) (h : ∀ k < n, w.items.get? k ≠ none) :
    ∃ schedule, ((start buffer).run w schedule).Ready ∧
      ((start buffer).run w schedule).taken = n ∧
      ((start buffer).run w schedule).pipe.received = w.told n := by
  have hready : ∃ schedule, ((start buffer).run w schedule).Ready ∧
      ((start buffer).run w schedule).taken = n := by
    induction n with
    | zero => exact ⟨[], ⟨rfl, rfl, rfl, rfl⟩, rfl⟩
    | succ n ih =>
      obtain ⟨earlier, hready, htaken⟩ := ih fun k hk ↦ h k (Nat.lt_succ_of_lt hk)
      have hsound : ((start buffer).run w earlier).Sound w buffer :=
        (Sound.start w buffer).run earlier
      obtain ⟨item, hitem⟩ := Option.ne_none_iff_exists'.1 (h n (Nat.lt_succ_self n))
      rw [← htaken] at hitem
      have hidle := Pipe.idle_iff.2 ⟨hready.going, hready.settled⟩
      have htake : ((start buffer).run w earlier).step w .work =
          ((start buffer).run w earlier).take w := if_pos hidle
      obtain ⟨htaken', -, hlistening, hgoing, hbuffered⟩ := take_of_some hidle hitem
      rw [← htake] at htaken' hlistening hgoing hbuffered
      obtain ⟨later, hready', htaken''⟩ := (hsound.step .work).exists_ready
        (hgoing.trans hready.going) (hlistening.trans hready.listening)
        (hbuffered.trans hready.drained)
      refine ⟨earlier ++ .work :: later, ?_⟩
      rw [run_append, run_cons]
      exact ⟨hready', by rw [htaken'', htaken', htaken]⟩
  obtain ⟨schedule, hready, htaken⟩ := hready
  have hsound : ((start buffer).run w schedule).Sound w buffer :=
    (Sound.start w buffer).run schedule
  have hwhole := hsound.whole
  rw [hready.settled, List.append_nil, sent, hsound.kept hready.listening, hready.drained,
    List.append_nil, List.append_nil, htaken] at hwhole
  exact ⟨schedule, hready, htaken, hwhole⟩

/-- **A pipe is a lossless ordered passage.** Whatever the items of a watch, the size of the channel
and the schedule,

* what was received is a prefix of what was sent, which is a prefix of what the items yield, and
  no more than the channel holds is between the two;
* the filter has seen the reports among the items taken, and nothing of the failures;
* if the pipe is over because the items came to their end, all that they yield was sent;
* once it is over, be it cancelled or not, nothing more is sent;
* once the receiver is gone, nothing more is sent, and unless it is cancelled, the pipe is over for
  that reason after some turns exactly if in one of them it had something to send. -/
theorem lossless (w : Source κ) (buffer : ℕ) (schedule : List Turn) :
    let s := (start buffer).run w schedule
    (s.pipe.received <+: s.sent ∧ (∀ n, s.taken ≤ n → s.sent <+: w.told n) ∧
        (s.pipe.listening = true → s.sent = s.pipe.received ++ s.pipe.buffered) ∧
        s.pipe.buffered.length ≤ max buffer 1) ∧
      s.pipe.filter = w.filterAt s.taken ∧
      (s.pipe.ended = some (.watch (Watched.kind κ) .streamEnded) →
        w.items.get? s.taken = none ∧ ∀ n, s.taken ≤ n → s.sent = w.told n) ∧
      (s.pipe.ended ≠ none → ∀ later, (s.run w later).sent = s.sent ∧
        (s.run w later).pipe.ended = s.pipe.ended) ∧
      (s.pipe.listening = false → s.pipe.ended = none → ∀ later, .cancel ∉ later →
        (s.run w later).sent = s.sent ∧
          ((s.run w later).pipe.ended = some (.watch (Watched.kind κ) .receiverDropped) ↔
            ∃ k < later.count .work, s.sent ≠ w.told (s.taken + k))) := by
  intro s
  have hsound : s.Sound w buffer := (Sound.start w buffer).run schedule
  refine ⟨⟨?_, ?_, ?_, hsound.room⟩, hsound.filter, ?_, ?_, ?_⟩
  · rw [sent, List.append_assoc]
    exact List.prefix_append _ _
  · intro n hn
    have htaken : s.sent <+: w.told s.taken := ⟨s.pipe.pending, hsound.whole⟩
    exact htaken.trans (w.told_prefix hn)
  · intro hlistening
    rw [sent, hsound.kept hlistening, List.append_nil]
  · intro hended
    obtain ⟨hpending, hover⟩ := hsound.closed hended
    have hall : s.sent = w.told s.taken := by rw [← hsound.whole, hpending, List.append_nil]
    exact ⟨hover, fun n hn ↦ hall.trans (Source.told_of_over hover hn).symm⟩
  · intro hended later
    obtain ⟨hsame, hsent⟩ := hsound.run_of_ended hended later
    exact ⟨hsent, hsame⟩
  · intro hgone hgoing later hcancel
    exact hsound.run_of_hungUp hgone hgoing hcancel

/-- A watch that fails once and then reports two nodes. -/
def twoNodes : Source Node where
  items := .ofList [.failure, .report (.apply { metadata := { name := some "edge-0" } }),
    .report (.apply { metadata := { name := some "edge-1" } })]
  order _ := ⟨id, fun _ ↦ .refl _⟩

/-- The receiver goes away after the first node was sent. The second one is still taken, and the
pipe is over when it is to be sent. -/
theorem lossless_of_hangUp :
    let s := (start 1).run twoNodes [.work, .work, .work, .hangUp]
    s.sent.map (fun event ↦ event.object.name) = ["edge-0"] ∧
      (s.run twoNodes [.work]).pipe.ended ≠ some (.watch "Node" .receiverDropped) ∧
      (s.run twoNodes [.work, .work]).pipe.ended = some (.watch "Node" .receiverDropped) := by
  intro s
  obtain ⟨-, -, -, -, hhungUp⟩ := lossless twoNodes 1 [.work, .work, .work, .hangUp]
  have hgone : s.pipe.listening = false := by decide +kernel
  have hgoing : s.pipe.ended = none := by decide +kernel
  obtain ⟨-, hfirst⟩ := hhungUp hgone hgoing [.work] (by decide)
  obtain ⟨-, hsecond⟩ := hhungUp hgone hgoing [.work, .work] (by decide)
  refine ⟨by decide +kernel, fun hended ↦ ?_, hsecond.2 ⟨1, by decide, by decide +kernel⟩⟩
  obtain ⟨k, hk, hunsent⟩ := hfirst.1 hended
  obtain rfl : k = 0 := Nat.lt_one_iff.1 hk
  have hall : s.sent = twoNodes.told (s.taken + 0) := by decide +kernel
  exact hunsent hall

end Passage

end HollowFleet.Watch
