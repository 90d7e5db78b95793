import HollowFleet.Watch.Pipe

/-!
# Feeds

A feed is a watch as an agent follows it: items arrive, and a pipe takes them one by one. An
item is taken only when everything before it was sent, and not while the feed pauses. It
pauses after each failure, each time in a row twice as long.

A feed adds to a pipe what the pipe does not know of: the items that have arrived and were not taken
yet, and time. `flow` is what happens at one moment. The pipe sends as far as the channel has room,
takes the next item if it can, and goes on like that until it has to wait for room, for the end of a
pause, or for more items. The recursion is on the items that wait.

The pause doubles with every failure in a row up to a bound (`pause_le`), and a report ends the row.
When a watch has to begin anew, its items are a failure and then a complete list (`relisting`), as
after a connection that was lost for too long.
-/

namespace HollowFleet.Rehearsal

open Watch

/-- An item of a watch: a report, or a failure. -/
inductive Item (κ : Type) where
  | report (r : Report κ)
  | failure

/-- A watch as the agent follows it. -/
structure Feed (κ : Type) where
  /-- The pipe that takes the items. -/
  pipe : Pipe κ
  /-- The number of failures in a row. -/
  failures : Nat := 0
  /-- When the pause is over. -/
  resumeAt : Nat := 0
  /-- The items that arrived and were not taken yet. -/
  items : List (Item κ) := []

namespace Feed

variable {κ : Type}

/-- A feed whose channel holds `buffer` events. -/
def ofBuffer [Watched κ] (buffer : Nat) : Feed κ := { pipe := .ofBuffer buffer }

/-- Milliseconds of the pause after some failures in a row. -/
def pause (failures : Nat) : Nat := min (800 * Nat.pow 2 failures) 30000

/-- More items arrive. -/
def push (f : Feed κ) (items : List (Item κ)) : Feed κ := { f with items := f.items ++ items }

/-- When the feed goes on, if it only waits for the end of its pause. -/
def due? (f : Feed κ) : Option Nat :=
  if f.items.isEmpty || !f.pipe.pending.isEmpty then none else some f.resumeAt

/-- The items of a complete list. -/
def listing (objects : List κ) : List (Item κ) :=
  [.report .init] ++ objects.map (fun o ↦ .report (.initApply o)) ++ [.report .initDone]

/-- The items of a failure and the complete list that follows it. -/
def relisting (objects : List κ) : List (Item κ) := .failure :: listing objects

/-- A list is what the feed begins with. -/
def beginWith (f : Feed κ) (objects : List κ) : Feed κ :=
  { f with items := listing objects ++ f.items }

/-- The number of events that can still come of what is there, at most. -/
def load (f : Feed κ) : Nat :=
  f.pipe.buffered.length + f.pipe.pending.length + f.pipe.filter.known.size + 2 * f.items.length

variable [Watched κ]

/-- The pipe sends as far as there is room. -/
def send (f : Feed κ) : Feed κ :=
  { f with pipe := f.pipe.run (f.pipe.pending.map fun _ ↦ .send) }

/-- The pipe takes an item. -/
def take (now : Nat) (f : Feed κ) : Item κ → Feed κ
  | .failure =>
    { f with
      pipe := f.pipe.step .failure
      failures := f.failures + 1
      resumeAt := now + pause f.failures }
  | .report r => { f with pipe := f.pipe.step (.report r), failures := 0 }

/-- The pipe takes and sends what it can; `items` is what waits. -/
def flowFrom (now : Nat) (f : Feed κ) : List (Item κ) → Feed κ
  | [] => { f.send with items := [] }
  | item :: rest =>
    let f := f.send
    if f.pipe.idle && decide (f.resumeAt ≤ now) then flowFrom now (f.take now item) rest
    else { f with items := item :: rest }

/-- The pipe takes and sends what it can. -/
def flow (now : Nat) (f : Feed κ) : Feed κ := f.flowFrom now f.items

/-- The oldest event in the channel. -/
def receive? (f : Feed κ) : Option (Event κ × Feed κ) :=
  f.pipe.buffered.head?.map fun event ↦ (event, { f with pipe := f.pipe.step .receive })

omit [Watched κ] in
/-- No pause is longer than half a minute. -/
theorem pause_le (failures : Nat) : pause failures ≤ 30000 := Nat.min_le_right _ _

end Feed

end HollowFleet.Rehearsal
