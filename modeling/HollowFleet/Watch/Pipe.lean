import HollowFleet.Fault
import HollowFleet.Watch.Filter

/-!
# Watch pipes

A pipe takes what a watch reports, puts it through a filter and sends what happened over a
channel of bounded size, one event after the other. The next report is taken only when
everything before it was sent. A pipe ends when the reports end, when it is cancelled, or when
there is something to send and nobody left to receive it.

`Pipe.step` says what each move of the world around a pipe does to it; a move that cannot
happen changes nothing, so every sequence of moves is a run.

## Where an event may be

From a report on, an event is in one of three places: still to be sent, in the channel, or received.
It moves from one to the next and keeps its order, and there are two ways for it to get lost. A
receiver that goes away takes what is in the channel with it, and a pipe that ends does not send
what it still has. The filter has taken note of the report by then; it does not learn whether the
events arrived.

A pipe notices that nobody receives only when it has something to send. Cancelling comes through at
any time, even while the pipe waits for room in the channel. Of an item that failed nothing is known
but that it did: it is counted, and the pipe goes on.
-/

namespace HollowFleet.Watch

/-- A pipe. -/
structure Pipe (κ : Type) where
  /-- The filter. -/
  filter : Filter κ := {}
  /-- The number of events that the channel holds, at least one. -/
  size : Nat
  /-- Events that are still to be sent. -/
  pending : List (Event κ) := []
  /-- Events that were sent and not received yet. -/
  buffered : List (Event κ) := []
  /-- Events that were received. -/
  received : List (Event κ) := []
  /-- Whether somebody receives. -/
  listening : Bool := true
  /-- The number of failed items so far. -/
  failures : Nat := 0
  /-- How the pipe ended, if it did. -/
  ended : Option Fault := none

/-- What may happen around a pipe. -/
inductive Move (κ : Type) where
  /-- The watch reports something. -/
  | report (r : Report κ)
  /-- An item of the watch failed. -/
  | failure
  /-- There are no more reports. -/
  | close
  /-- The pipe sends the next event. -/
  | send
  /-- The receiver takes the next event. -/
  | receive
  /-- The receiver goes away. -/
  | hangUp
  /-- The pipe is cancelled. -/
  | cancel

namespace Pipe

variable {κ : Type} [Watched κ]

/-- A pipe over a channel for `buffer` events; a channel holds at least one. -/
def ofBuffer (buffer : Nat) : Pipe κ := { size := max buffer 1 }

/-- Whether the pipe can take an item of the watch. -/
def idle (p : Pipe κ) : Bool := p.ended.isNone && p.pending.isEmpty

/-- Sends the next event: it fails without a receiver and waits without room. -/
def send (p : Pipe κ) : Pipe κ :=
  match p.ended, p.pending with
  | none, event :: rest =>
    if p.listening then
      if p.buffered.length < p.size then
        { p with pending := rest, buffered := p.buffered ++ [event] }
      else p
    else { p with ended := some (.watch (Watched.kind κ) .receiverDropped) }
  | _, _ => p

/-- What a move does to a pipe. -/
def step (p : Pipe κ) : Move κ → Pipe κ
  | .report r =>
    if p.idle then
      let out := p.filter.step r
      { p with filter := out.1, pending := out.2 }
    else p
  | .failure => if p.idle then { p with failures := p.failures + 1 } else p
  | .close =>
    if p.idle then { p with ended := some (.watch (Watched.kind κ) .streamEnded) } else p
  | .send => p.send
  | .receive =>
    match p.buffered with
    | event :: rest =>
      if p.listening then { p with buffered := rest, received := p.received ++ [event] } else p
    | [] => p
  | .hangUp => { p with listening := false, buffered := [] }
  | .cancel =>
    if p.ended.isNone then { p with ended := some (.cancelled (Watched.kind κ)) } else p

/-- A run of moves. -/
def run (p : Pipe κ) (moves : List (Move κ)) : Pipe κ := moves.foldl step p

/-- The moves of an item, followed by sending as far as it goes while a receiver that is
awake takes each event at once. -/
def transfer (awake : Bool) (p : Pipe κ) (item : Move κ) : Pipe κ :=
  let taken := p.step item
  taken.run (taken.pending.flatMap fun _ ↦ if awake then [.send, .receive] else [.send])

/-- The moves of several items, each followed by sending as far as it goes. -/
def feed (awake : Bool) (p : Pipe κ) (items : List (Move κ)) : Pipe κ :=
  items.foldl (transfer awake) p

/-- The receiver takes all that it finds. -/
def drain (p : Pipe κ) : Pipe κ := p.run (p.buffered.map fun _ ↦ .receive)

end Pipe

end HollowFleet.Watch
