import HollowFleet.Agent.Leases

/-!
# Heartbeats

The leases of the tracked nodes are renewed on a fixed beat. A pass that takes longer than the
interval does not shift the beat: the ticks that it missed are left out, and the next one is
the next multiple of the interval.

## Beats

A beat knows when its next tick is due. A tick that comes at most `tolerance` milliseconds late
counts as on time, so the next one is due an interval after it was due (`after_of_le`). A tick that
is later than that is followed by the next multiple of the interval, counted from when it was due;
either way there is at least an interval between two ticks that are due (`due_add_interval_le`).
The first tick comes one interval after the start and not at once, for the lease of a node is seen
to when the node is first tracked.

## Driving

`Timeline` leaves open what the world is in which time goes by: it has a clock, it can wait, and
it can do the work of a tick, which takes time of its own and may be stopped midway. The number of
ticks up to a time is bounded by `ticksUntil`, so that `drive` is recursion on a number and runs as
many ticks as there are, with no need for a proof that time goes on.
-/

namespace HollowFleet

/-- A beat: the interval of the ticks and when the next one is due, in milliseconds. -/
structure Beat where
  /-- Milliseconds between two ticks. -/
  interval : Nat
  /-- When the next tick is due. -/
  due : Nat
deriving DecidableEq, Repr

namespace Beat

/-- By how much a tick may come late and still count as on time. -/
def tolerance : Nat := 5

/-- The beat of an interval that starts at a time; the first tick is one interval later. -/
def startingAt (interval time : Nat) : Beat := ⟨interval, time + interval⟩

/-- The beat after a tick at a time. -/
def after (b : Beat) (time : Nat) : Beat :=
  if b.due + tolerance < time then
    { b with due := time + b.interval - (time - b.due) % b.interval }
  else { b with due := b.due + b.interval }

/-- A tick on time moves the beat by one interval. -/
theorem after_of_le (b : Beat) {time : Nat} (h : time ≤ b.due + tolerance) :
    b.after time = { b with due := b.due + b.interval } := by
  rw [after, if_neg (Nat.not_lt.2 h)]

/-- The next tick is at least one interval after the last one. -/
theorem due_add_interval_le (b : Beat) (time : Nat) :
    b.due + b.interval ≤ (b.after time).due := by
  rw [after]
  split
  · next h =>
    have hmod : (time - b.due) % b.interval ≤ time - b.due := Nat.mod_le _ _
    show b.due + b.interval ≤ time + b.interval - (time - b.due) % b.interval
    omega
  · exact Nat.le_refl _

/-- The number of ticks that can come until `stop`, at most. -/
def ticksUntil (b : Beat) (stop : Nat) : Nat := (stop - b.due) / b.interval + 1

end Beat

/-! ### Ticking -/

/-- A world with a clock in which work can be done until it is stopped. -/
structure Timeline (ω : Type) where
  /-- The time. -/
  time : ω → Nat
  /-- Lets time go by until a time that is not past. -/
  waitUntil : ω → Nat → ω
  /-- Does the work of a tick; the answer is whether it was done before the stop. -/
  pass : ω → ω × Bool

namespace Timeline

variable {ω : Type}

/-- Does the work of at most `ticks` ticks up to `stop`. A tick that is due while the work of
the one before goes on comes when that is done. -/
def drive (line : Timeline ω) (stop : Nat) : Nat → Beat → ω → Beat × ω
  | 0, beat, w => (beat, w)
  | ticks + 1, beat, w =>
    let time := max (line.time w) beat.due
    if stop < time then (beat, w)
    else
      let worked := line.pass (line.waitUntil w time)
      if worked.2 then drive line stop ticks (beat.after time) worked.1
      else (beat.after time, worked.1)

/-- Does the work of all ticks up to `stop`. -/
def run (line : Timeline ω) (stop : Nat) (beat : Beat) (w : ω) : Beat × ω :=
  line.drive stop (beat.ticksUntil stop) beat w

end Timeline

end HollowFleet
