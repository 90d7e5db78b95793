import HollowFleet.Agent.Heartbeat
import HollowFleet.Proofs.Lease.Integrity
import HollowFleet.Proofs.Lease.Visits

/-!
# Leases that stay fresh

Renewals come in rounds, and a round is one visit to every tracked node. A round that takes less
than the interval leaves the beat as it is, so each round begins on a multiple of the interval and
is over before the next one is due (`LeaseRounds.steady_drive`).

So a lease is written once in each interval (`paced_of_regular`). Between two writes less than two
intervals pass, and as the time of renewal is the one at which the write was sent, a lease is never
two intervals old (`LeaseRounds.leases_fresh`).

## What the main theorem rests on

* `LeaseRounds.Steady.turn` is the step: a round that begins on the beat is a visit to all tracked
  nodes (`Keeper.exists_visit`), in whatever order it takes them. That the tracked nodes stay the
  same is part of the invariant; a renewal changes nothing of the agent but its journal.
* `drive_succ` is one tick of the timer and `steady_drive` the run. A timer that was late would move
  the beat, so the induction needs each round to be over before the next one is due; this is the one
  assumption on how long calls take.
* From there on only the log counts. Each round has one write for the node, sent and landed within
  the interval of the round (`Paced`), by induction on the rounds (`paced_of_regular`).
* The age of a lease is then arithmetic: the last write that has landed was sent less than two
  intervals ago, and whether the lease is expired compares that with its duration.
-/

namespace HollowFleet

open Agent

/-! ### Rounds -/

/-- Milliseconds in nanoseconds. -/
def inNanos (ms : ℕ) : ℕ := ms * 1000000

/-- A round of renewals. -/
structure Round where
  /-- Nanoseconds from the start until it began. -/
  begun : ℕ
  /-- Nanoseconds from the start until it was over. -/
  ended : ℕ
  /-- The calls that were made. -/
  calls : List Entry

/-- A keeper who renews leases in rounds. -/
structure LeaseRounds where
  /-- The keeper. -/
  keeper : Keeper
  /-- The rounds so far. -/
  rounds : List Round := []

namespace LeaseRounds

/-- The start. -/
def start (a : Agent) (cluster : Rehearsal.Script) : LeaseRounds where
  keeper := ⟨a, { cluster }⟩

variable (fates : ℕ → Call → Fate)

/-- One more round, which visits the tracked nodes in some order. -/
def turn (v : LeaseRounds) (order : List String → List String) : LeaseRounds :=
  let worked := v.keeper.act fates (.pass order)
  { keeper := worked
    rounds := v.rounds ++ [{
      begun := v.keeper.registry.now
      ended := worked.registry.now
      calls := worked.registry.log.drop v.keeper.registry.log.length }] }

/-- Nothing happens until a time in milliseconds. -/
def waitUntil (v : LeaseRounds) (ms : ℕ) : LeaseRounds :=
  { v with keeper := v.keeper.act fates (.rest (inNanos ms - v.keeper.registry.now)) }

/-- Rounds on a beat, each in an order of its own. The timer counts in milliseconds, and a part of
one counts as a whole one. -/
def line (order : ℕ → List String → List String) : Timeline LeaseRounds where
  time v := (v.keeper.registry.now + 999999) / 1000000
  waitUntil := waitUntil fates
  pass v := (v.turn fates (order v.rounds.length), true)

end LeaseRounds

/-- A round of an agent is as it should be. -/
structure Round.Regular (a : Agent) (r : Round) : Prop where
  /-- Every tracked node is visited once. -/
  visited : (r.calls.filterMap Entry.looksUp?).Perm a.ledger.keys
  /-- The clock goes along with the time. -/
  clock : ∀ e ∈ r.calls, e.clock = a.clock.later e.sent
  /-- No call is sent before the round. -/
  sent : ∀ e ∈ r.calls, r.begun ≤ e.sent
  /-- No call arrives after it. -/
  landed : ∀ e ∈ r.calls, e.landed ≤ r.ended
  /-- A lease is renewed at the clock of the call. -/
  stamped : ∀ e ∈ r.calls, ∀ lease, e.call.lease? = some lease → lease.renewTime? = some e.clock
  /-- The lease of a node is written once if all calls about it are answered. -/
  written : ∀ node ∈ a.ledger.keys,
    (∀ e ∈ r.calls, e.call.target = node → e.answered = true) →
      ∃ e, r.calls.filter (Entry.writes node) = [e]

/-- The clock goes along with the time, so it is told by the time. -/
theorem TimedRegistry.Ahead.clock_eq {d : TimedRegistry} {base clock : Timestamp} {now : ℕ}
    (h : d.Ahead clock now) (hclock : d.clock = base.later d.registry.now) :
    clock = base.later now := by
  obtain ⟨ns, rfl, rfl⟩ := h
  rw [hclock, Timestamp.later_later]

/-- A round is regular if every tracked node is visited. -/
theorem TimedRegistry.Visit.regular {a : Agent} {d d' : TimedRegistry} {nodes : List String}
    {calls : List Entry} (h : d.Visit nodes calls d')
    (hclock : d.clock = a.clock.later d.registry.now) (hnodes : nodes.Perm a.ledger.keys) :
    Round.Regular a ⟨d.registry.now, d'.registry.now, calls⟩ where
  visited := by
    rw [h.visited]
    exact hnodes
  clock e he := (h.sent e he).clock_eq hclock
  sent e he := (h.sent e he).le
  landed := h.landed
  stamped := h.stamped
  written node hnode := h.written node (hnodes.mem_iff.2 hnode)

/-- A pass is a visit to the tracked nodes. -/
theorem Keeper.exists_visit (fates : ℕ → Call → Fate) {k : Keeper}
    (hfiled : Filed k.registry.leases) {order : List String → List String}
    (horder : ∀ nodes, (order nodes).Perm nodes) :
    ∃ calls, k.timed.Visit (order k.agent.ledger.keys) calls (k.act fates (.pass order)).timed := by
  have hnodup : (order k.agent.ledger.keys).Nodup :=
    (horder _).nodup_iff.2 k.agent.ledger.nodup_keys
  have htimed : (k.act fates (.pass order)).timed =
      (order k.agent.ledger.keys).foldl (TimedRegistry.renew fates k.agent.settings) k.timed :=
    TimedRegistry.ofRun_renewInOrder fates k.registry k.agent order
  rw [htimed]
  exact TimedRegistry.exists_visit_foldl_renew fates k.agent.settings hfiled _ hnodup

/-- The rounds so far were regular, and began on the beat. -/
structure LeaseRounds.Steady (a : Agent) (interval : ℕ) (v : LeaseRounds) : Prop where
  /-- The clock goes along with the time. -/
  clock : v.keeper.agent.clock = a.clock.later v.keeper.registry.now
  /-- The tracked nodes are the same as ever. -/
  ledger : v.keeper.agent.ledger = a.ledger
  /-- Every lease is kept under its name. -/
  filed : Filed v.keeper.registry.leases
  /-- The calls are those of the rounds. -/
  log : v.keeper.registry.log = v.rounds.flatMap Round.calls
  /-- The rounds were regular. -/
  regular : ∀ r ∈ v.rounds, r.Regular a
  /-- They began on the multiples of the interval. -/
  begun : v.rounds.map Round.begun =
    (List.range v.rounds.length).map fun k ↦ inNanos ((k + 1) * interval)

/-- Renewing leases changes nothing of the agent but its journal. -/
theorem Agent.keeps_renewInOrder {τ : Type} (view : Agent → τ)
    (hview : ∀ a w, view (Agent.warn a w) = view a) (order : List String → List String) :
    Task.Keeps view (renewInOrder order) := by
  have hall : ∀ nodes, Task.Keeps view (renewAll nodes) := by
    intro nodes
    induction nodes with
    | nil => exact .pure ()
    | cons node rest ih =>
      exact (Task.Keeps.orWarn hview (keeps_renewLease view node) _).bind fun _ ↦ ih
  exact fun a ↦ .get_bind (hall _ a)

namespace LeaseRounds

variable (fates : ℕ → Call → Fate) {a : Agent} {interval : ℕ} {v : LeaseRounds}

namespace Steady

/-- At the start there are no rounds yet, and the first one is due. -/
theorem start {cluster : Rehearsal.Script} (h : Filed cluster.leases) :
    (LeaseRounds.start a cluster).Steady a interval where
  clock := (congrArg (Timestamp.mk · a.clock.leap) (Int.add_zero a.clock.nanos)).symm
  ledger := rfl
  filed := h
  log := rfl
  regular := List.forall_mem_nil _
  begun := rfl

/-- To wait is no round, and changes nothing about those so far. -/
theorem rest (h : v.Steady a interval) (ns : ℕ) :
    Steady a interval { v with keeper := v.keeper.act fates (.rest ns) } :=
  { h with
    clock := by
      show v.keeper.agent.clock.later ns = a.clock.later (v.keeper.registry.now + ns)
      rw [h.clock, Timestamp.later_later] }

theorem waitUntil (h : v.Steady a interval) (ms : ℕ) :
    (v.waitUntil fates ms).Steady a interval :=
  h.rest fates (inNanos ms - v.keeper.registry.now)

/-- **A round that begins on the beat is regular.** -/
theorem turn (h : v.Steady a interval) {order : List String → List String}
    (horder : ∀ nodes, (order nodes).Perm nodes)
    (hnow : v.keeper.registry.now = inNanos ((v.rounds.length + 1) * interval)) :
    (v.turn fates order).Steady a interval := by
  obtain ⟨calls, hvisit⟩ := v.keeper.exists_visit fates h.filed horder
  have hlog : (v.keeper.act fates (.pass order)).registry.log =
      v.keeper.registry.log ++ calls := hvisit.log
  have hcalls : (v.keeper.act fates (.pass order)).registry.log.drop v.keeper.registry.log.length =
      calls := by rw [hlog, List.drop_left]
  have hledger : (v.keeper.act fates (.pass order)).agent.ledger = v.keeper.agent.ledger :=
    keeps_renewInOrder Agent.ledger (fun _ _ ↦ rfl) order v.keeper.agent Registry
      (Registry.host fates) v.keeper.registry ((Registry.keeps_host fates).part Prod.snd)
  have hregular : Round.Regular a ⟨v.keeper.registry.now,
      (v.keeper.act fates (.pass order)).registry.now, calls⟩ :=
    hvisit.regular h.clock (h.ledger ▸ horder _)
  exact {
    clock := hvisit.ahead.clock_eq h.clock
    ledger := hledger.trans h.ledger
    filed := hvisit.filed h.filed
    log := by
      show (v.keeper.act fates (.pass order)).registry.log = List.flatMap _ (_ ++ _)
      rw [List.flatMap_append, List.flatMap_singleton, ← h.log, hcalls, hlog]
    regular := fun r hr ↦ by
      rcases List.mem_append.1 hr with hold | hnew
      · exact h.regular r hold
      · rw [List.mem_singleton.1 hnew, hcalls]
        exact hregular
    begun := by
      show List.map _ (_ ++ _) = List.map _ (List.range (List.length (_ ++ _)))
      rw [List.map_append, h.begun, List.length_append, List.length_singleton, List.range_succ,
        List.map_append, List.map_singleton, List.map_singleton, hnow] }

end Steady

/-! ### The beat -/

variable (order : ℕ → List String → List String)

/-- No round is forgotten. -/
theorem rounds_drive (stop ticks : ℕ) (beat : Beat) (v : LeaseRounds) :
    v.rounds <+: ((line fates order).drive stop ticks beat v).2.rounds := by
  induction ticks generalizing beat v with
  | zero => exact List.prefix_rfl
  | succ ticks ih =>
    rw [Timeline.drive]
    split
    · exact List.prefix_rfl
    · let time := max ((line fates order).time v) beat.due
      have hnext := ih (beat.after time)
        ((v.waitUntil fates time).turn fates (order v.rounds.length))
      exact (List.prefix_append v.rounds _).trans hnext

/-- Who waits until a time that is still to come is there by then. -/
theorem now_waitUntil {v : LeaseRounds} {ms : ℕ} (h : v.keeper.registry.now ≤ inNanos ms) :
    (v.waitUntil fates ms).keeper.registry.now = inNanos ms := by
  show v.keeper.registry.now + (inNanos ms - v.keeper.registry.now) = inNanos ms
  exact Nat.add_sub_of_le h

/-- A tick that is not due yet comes when it is due, and the beat goes on from there. -/
theorem drive_succ (stop ticks : ℕ) {interval due : ℕ} {v : LeaseRounds}
    (h : v.keeper.registry.now < inNanos due) :
    (line fates order).drive stop (ticks + 1) ⟨interval, due⟩ v =
      if stop < due then (⟨interval, due⟩, v)
      else (line fates order).drive stop ticks ⟨interval, due + interval⟩
        ((v.waitUntil fates due).turn fates (order v.rounds.length)) := by
  have hcount : (v.keeper.registry.now + 999999) / 1000000 ≤ due := by
    rw [inNanos] at h
    omega
  have htime : max ((line fates order).time v) due = due := max_eq_right hcount
  rw [Timeline.drive, htime, Beat.after_of_le ⟨interval, due⟩ (Nat.le_add_right _ _)]
  rfl

/-- **As long as every round is over before the next one is due, the beat is kept:** the rounds are
regular, and begin on all multiples of the interval up to the end. -/
theorem steady_drive {order : ℕ → List String → List String}
    (horder : ∀ k nodes, (order k nodes).Perm nodes) (hinterval : 0 < interval) (stop ticks : ℕ)
    (h : v.Steady a interval)
    (hnow : v.keeper.registry.now < inNanos ((v.rounds.length + 1) * interval))
    (hstop : v.rounds.length ≤ stop / interval) (hticks : stop / interval ≤ v.rounds.length + ticks)
    (hshort : ∀ r ∈ ((line fates order).drive stop ticks
      ⟨interval, (v.rounds.length + 1) * interval⟩ v).2.rounds,
        r.ended < r.begun + inNanos interval) :
    ((line fates order).drive stop ticks
        ⟨interval, (v.rounds.length + 1) * interval⟩ v).2.Steady a interval ∧
      ((line fates order).drive stop ticks
        ⟨interval, (v.rounds.length + 1) * interval⟩ v).2.rounds.length = stop / interval := by
  induction ticks generalizing v with
  | zero => exact ⟨h, Nat.le_antisymm hstop hticks⟩
  | succ ticks ih =>
    obtain ⟨due, hdue⟩ : ∃ due, (v.rounds.length + 1) * interval = due := ⟨_, rfl⟩
    rw [hdue] at hnow hshort ⊢
    rw [drive_succ fates order stop ticks hnow] at hshort ⊢
    split
    · next hover =>
      have hlt : stop / interval < v.rounds.length + 1 :=
        (Nat.div_lt_iff_lt_mul hinterval).2 (hdue ▸ hover)
      exact ⟨h, Nat.le_antisymm hstop (Nat.le_of_lt_succ hlt)⟩
    · next hnot =>
      rw [if_neg hnot] at hshort
      have hbegun : (v.waitUntil fates due).keeper.registry.now = inNanos due :=
        now_waitUntil fates hnow.le
      have hturn : ((v.waitUntil fates due).turn fates (order v.rounds.length)).Steady a interval :=
        (h.waitUntil fates due).turn fates (horder v.rounds.length)
          (hbegun.trans (congrArg inNanos hdue.symm))
      have hlength : ((v.waitUntil fates due).turn fates (order v.rounds.length)).rounds.length =
          v.rounds.length + 1 := List.length_append
      have hnext : due + interval = (v.rounds.length + 1 + 1) * interval := by
        rw [Nat.succ_mul, hdue]
      have hended : ((v.waitUntil fates due).turn fates
          (order v.rounds.length)).keeper.registry.now < inNanos (due + interval) := by
        have hround := hshort _ ((rounds_drive fates order stop ticks _ _).subset
          (List.mem_append_right _ (List.mem_singleton_self _)))
        rw [inNanos, Nat.add_mul]
        rw [hbegun] at hround
        exact hround
      have hle : v.rounds.length + 1 ≤ stop / interval :=
        (Nat.le_div_iff_mul_le hinterval).2 (hdue ▸ Nat.le_of_not_lt hnot)
      rw [hnext, ← hlength] at hshort hended ⊢
      exact ih hturn hended (by omega) (by omega) hshort

/-- A whole run of the timer, from the start on, is a run of steady rounds. -/
theorem steady_run {order : ℕ → List String → List String}
    (horder : ∀ k nodes, (order k nodes).Perm nodes) {cluster : Rehearsal.Script}
    (hfiled : Filed cluster.leases) (hinterval : 0 < interval) {stop : ℕ} {last : LeaseRounds}
    (hlast : ((line fates order).run stop (.startingAt interval 0) (start a cluster)).2 = last)
    (hshort : ∀ r ∈ last.rounds, r.ended < r.begun + inNanos interval) :
    last.Steady a interval ∧ last.rounds.length = stop / interval := by
  have hfirst : Beat.startingAt interval 0 = ⟨interval, (0 + 1) * interval⟩ := by
    rw [Beat.startingAt, Nat.zero_add, Nat.zero_add, Nat.one_mul]
  have hpositive : 0 < inNanos ((0 + 1) * interval) := by
    rw [inNanos]
    omega
  have hticks : stop / interval ≤ 0 + (Beat.startingAt interval 0).ticksUntil stop := by
    rw [Beat.ticksUntil, Beat.startingAt, Nat.zero_add, Nat.zero_add]
    rcases Nat.lt_or_ge stop interval with hlt | hge
    · rw [Nat.div_eq_of_lt hlt]
      exact Nat.zero_le _
    · exact (Nat.div_eq_sub_div hinterval hge).le
  rw [Timeline.run, hfirst] at hlast
  rw [hfirst] at hticks
  subst hlast
  exact steady_drive fates horder hinterval stop _ (.start hfiled) hpositive (Nat.zero_le _) hticks
    hshort

end LeaseRounds

/-! ### Writes to one lease -/

/-- The leases that are there at a time, by a log of calls. -/
def storedAt (leases : Table Lease) (log : List Entry) (t : ℕ) : Table Lease :=
  replay leases (log.filter fun e ↦ decide (e.landed ≤ t))

/-- For how many seconds a renewal of a lease is good. -/
def Lease.duration? (lease : Lease) : Option ℤ := lease.spec.bind LeaseSpec.leaseDurationSeconds

/-- A lease is expired if its last renewal is no longer good. -/
def Lease.ExpiredAt (lease : Lease) (now : Timestamp) : Prop :=
  ∃ renewed ∈ lease.renewTime?, ∃ duration ∈ lease.duration?,
    renewed.nanos + duration * Timestamp.second ≤ now.nanos

/-- There is a write in each interval but the first: it is sent and arrives in it. -/
def Paced (nanos : ℕ) (writes : List Entry) : Prop :=
  ∀ i e, writes[i]? = some e → (i + 1) * nanos ≤ e.sent ∧ e.landed < (i + 2) * nanos

/-- One more write keeps the pace if it is sent and lands within the next interval. -/
theorem Paced.concat {nanos : ℕ} {writes : List Entry} (h : Paced nanos writes) {e : Entry}
    (hsent : (writes.length + 1) * nanos ≤ e.sent)
    (hlanded : e.landed < (writes.length + 2) * nanos) : Paced nanos (writes ++ [e]) := by
  intro i e' he'
  rcases Nat.lt_or_ge i writes.length with hi | hi
  · rw [List.getElem?_append_left hi] at he'
    exact h i e' he'
  · rw [List.getElem?_append_right hi, List.getElem?_singleton] at he'
    split at he'
    · obtain rfl : i = writes.length := by omega
      obtain rfl := Option.some.inj he'
      exact ⟨hsent, hlanded⟩
    · cases he'

/-- The last write of a time was sent less than two intervals before. -/
theorem Paced.lt_add {nanos : ℕ} {writes : List Entry} (h : Paced nanos writes) {t : ℕ}
    (ht : t < (writes.length + 1) * nanos) {e : Entry}
    (he : (writes.filter fun e ↦ decide (e.landed ≤ t)).getLast? = some e) :
    t < e.sent + 2 * nanos := by
  obtain ⟨earlier, hearlier⟩ := List.getLast?_eq_some_iff.1 he
  obtain ⟨before, rest, rfl, -, hrest⟩ := List.filter_eq_append_iff.1 hearlier
  obtain ⟨between, after, rfl, -, -, hafter⟩ := List.filter_eq_cons_iff.1 hrest
  rw [← List.append_assoc] at h ht
  obtain ⟨hsent, -⟩ := h (before ++ between).length e (by simp)
  cases after with
  | nil =>
    -- the next write is not there yet, and not due
    rw [List.length_append, List.length_singleton, Nat.add_mul] at ht
    omega
  | cons next later =>
    -- the next write is under way, and arrives in its interval
    have hnext : ∀ sent : List Entry,
        (sent ++ e :: next :: later)[sent.length + 1]? = some next := by simp
    obtain ⟨-, hlanded⟩ := h ((before ++ between).length + 1) next (hnext _)
    have hlate : ¬ next.landed ≤ t := by
      simpa using List.filter_eq_nil_iff.1 hafter next List.mem_cons_self
    have hsplit : ((before ++ between).length + 1 + 2) * nanos =
        ((before ++ between).length + 1) * nanos + 2 * nanos := Nat.add_mul _ _ _
    omega

/-- **Regular rounds on the beat that are over in time write the lease of a node once in each
interval**, if all calls about the node are answered. -/
theorem paced_of_regular {a : Agent} {interval : ℕ} {rounds : List Round}
    (hregular : ∀ r ∈ rounds, r.Regular a)
    (hbegun : rounds.map Round.begun =
      (List.range rounds.length).map fun k ↦ inNanos ((k + 1) * interval))
    (hshort : ∀ r ∈ rounds, r.ended < r.begun + inNanos interval) {node : String}
    (hnode : node ∈ a.ledger.keys)
    (hanswered : ∀ r ∈ rounds, ∀ e ∈ r.calls, e.call.target = node → e.answered = true) :
    ((rounds.flatMap Round.calls).filter (Entry.writes node)).length = rounds.length ∧
      Paced (inNanos interval) ((rounds.flatMap Round.calls).filter (Entry.writes node)) := by
  induction rounds using List.reverseRecOn with
  | nil => exact ⟨rfl, fun i e he ↦ by simp at he⟩
  | append_singleton rounds r ih =>
    have hr : r ∈ rounds ++ [r] := List.mem_append_right _ (List.mem_singleton_self r)
    rw [List.length_append, List.length_singleton, List.range_succ, List.map_append,
      List.map_append] at hbegun
    obtain ⟨hearlier, hlast⟩ := List.append_inj' hbegun rfl
    have hstart : r.begun = (rounds.length + 1) * inNanos interval := by
      rw [List.singleton_inj.1 hlast]
      exact Nat.mul_assoc _ _ _
    obtain ⟨hlength, hpaced⟩ := ih (fun r' hr' ↦ hregular r' (List.mem_append_left _ hr')) hearlier
      (fun r' hr' ↦ hshort r' (List.mem_append_left _ hr'))
      (fun r' hr' ↦ hanswered r' (List.mem_append_left _ hr'))
    obtain ⟨e, hwrites⟩ := (hregular r hr).written node hnode (hanswered r hr)
    have he : e ∈ r.calls :=
      List.mem_of_mem_filter (hwrites ▸ List.mem_singleton_self e)
    rw [List.flatMap_append, List.flatMap_singleton, List.filter_append, hwrites]
    refine ⟨by rw [List.length_append, List.length_append, hlength]; rfl, hpaced.concat ?_ ?_⟩
    · rw [hlength, ← hstart]
      exact (hregular r hr).sent e he
    · calc
        e.landed ≤ r.ended := (hregular r hr).landed e he
        _ < r.begun + inNanos interval := hshort r hr
        _ = (rounds.length + 2) * inNanos interval := by rw [hstart]; exact (Nat.succ_mul _ _).symm
        _ = _ := by rw [hlength]

/-- What was last written to a lease in steady rounds was written less than two intervals ago. -/
theorem LeaseRounds.Steady.fresh {a : Agent} {interval : ℕ} {v : LeaseRounds}
    (h : v.Steady a interval) (hshort : ∀ r ∈ v.rounds, r.ended < r.begun + inNanos interval)
    {node : String} (hnode : node ∈ a.ledger.keys)
    (hanswered : ∀ e ∈ v.keeper.registry.log, e.call.target = node → e.answered = true) {t : ℕ}
    (ht : t < (v.rounds.length + 1) * inNanos interval)
    (hwritten : ∃ e ∈ v.keeper.registry.log, e.writes node = true ∧ e.landed ≤ t)
    (leases : Table Lease) :
    ∃ lease sent, (storedAt leases v.keeper.registry.log t).find? node = some lease ∧
      lease.renewTime? = some (a.clock.later sent) ∧ t < sent + 2 * inNanos interval := by
  have hcall : ∀ e ∈ v.keeper.registry.log, ∃ r ∈ v.rounds, e ∈ r.calls := by
    intro e he
    rw [h.log] at he
    exact List.mem_flatMap.1 he
  obtain ⟨hlength, hpaced⟩ := paced_of_regular h.regular h.begun hshort hnode fun r hr e he ↦
    hanswered e (h.log ▸ List.mem_flatMap.2 ⟨r, hr, he⟩)
  rw [← h.log] at hlength hpaced
  -- some write was there at that time, so there is a last one
  let there := (v.keeper.registry.log.filter (Entry.writes node)).filter
    fun e ↦ decide (e.landed ≤ t)
  obtain ⟨e, he⟩ : ∃ e, there.getLast? = some e := by
    obtain ⟨e, hlog, hwrites, hlanded⟩ := hwritten
    have hmem : e ∈ there :=
      List.mem_filter.2 ⟨List.mem_filter.2 ⟨hlog, hwrites⟩, decide_eq_true hlanded⟩
    exact ⟨_, List.getLast?_eq_some_getLast (List.ne_nil_of_mem hmem)⟩
  obtain ⟨hlog, hwrites⟩ := List.mem_filter.1 (List.mem_filter.1 (List.mem_of_getLast? he)).1
  obtain ⟨lease, hlease, -⟩ := Option.map_eq_some_iff.1 (of_decide_eq_true hwrites)
  obtain ⟨r, hr, hr'⟩ := hcall e hlog
  refine ⟨lease, e.sent, ?_, ?_, hpaced.lt_add (hlength ▸ ht) he⟩
  · rw [storedAt, find?_replay, List.filter_comm, he, Option.bind_some, hlease, Option.some_or]
  · rw [(h.regular r hr).stamped e hr' lease (Entry.lease?_of_written? hlease),
      (h.regular r hr).clock e hr']

namespace LeaseRounds

/-- **Leases stay fresh.** Leases are renewed on a beat until some time, from time `0` on, and the
clock goes along with the time. Whatever the order in which a round visits the nodes, however long
the calls take, and whatever becomes of them: if every round takes less than the interval, then

* the rounds begin on all multiples of the interval,
* each visits every tracked node once, and
* if all calls about a node are answered, then from the first time on at which its lease was
  written, the lease that is there was renewed less than two intervals ago; it is never expired if
  it is good for two intervals. -/
theorem leases_fresh (fates : ℕ → Call → Fate) (order : ℕ → List String → List String)
    (horder : ∀ k nodes, (order k nodes).Perm nodes) (a : Agent) (cluster : Rehearsal.Script)
    (hfiled : Filed cluster.leases) (interval : ℕ) (hinterval : 0 < interval) (stop : ℕ)
    (hshort : ∀ r ∈ ((line fates order).run stop (.startingAt interval 0)
      (start a cluster)).2.rounds, r.ended < r.begun + inNanos interval) :
    let last := ((line fates order).run stop (.startingAt interval 0) (start a cluster)).2
    let log := last.keeper.registry.log
    last.rounds.map Round.begun =
        (List.range (stop / interval)).map (fun k ↦ inNanos ((k + 1) * interval)) ∧
      (∀ r ∈ last.rounds, (r.calls.filterMap Entry.looksUp?).Perm a.ledger.keys) ∧
      ∀ node ∈ a.ledger.keys, (∀ e ∈ log, e.call.target = node → e.answered = true) →
        ∀ t ≤ inNanos stop, (∃ e ∈ log, e.writes node = true ∧ e.landed ≤ t) →
          ∃ lease renewed, (storedAt cluster.leases log t).find? node = some lease ∧
            lease.renewTime? = some renewed ∧
            (a.clock.later t).nanos < renewed.nanos + 2 * inNanos interval ∧
            ((∀ duration ∈ lease.duration?, 2 * interval ≤ duration * 1000) →
              ¬ lease.ExpiredAt (a.clock.later t)) := by
  intro last log
  obtain ⟨hsteady, hlength⟩ := steady_run fates horder hfiled hinterval rfl hshort
  refine ⟨by rw [hsteady.begun, hlength], fun r hr ↦ (hsteady.regular r hr).visited, ?_⟩
  intro node hnode hanswered t ht hwritten
  have hlate : t < (last.rounds.length + 1) * inNanos interval := by
    have hstop : stop < interval * (stop / interval + 1) := Nat.lt_mul_div_succ stop hinterval
    calc
      t ≤ stop * 1000000 := ht
      _ < interval * (stop / interval + 1) * 1000000 :=
        Nat.mul_lt_mul_of_pos_right hstop (by decide)
      _ = (last.rounds.length + 1) * (interval * 1000000) := by
        rw [Nat.mul_comm interval, Nat.mul_assoc, hlength]
  obtain ⟨lease, sent, hlease, htime, hlt⟩ :=
    hsteady.fresh hshort hnode hanswered hlate hwritten cluster.leases
  have hfresh : (a.clock.later t).nanos < (a.clock.later sent).nanos + 2 * inNanos interval := by
    show a.clock.nanos + t < a.clock.nanos + sent + 2 * inNanos interval
    omega
  refine ⟨lease, a.clock.later sent, hlease, htime, hfresh, ?_⟩
  rintro hduration ⟨renewed, hrenewed, duration, hgood, hexpired⟩
  rw [htime] at hrenewed
  obtain rfl := Option.some.inj hrenewed
  have hlong := hduration duration hgood
  rw [Timestamp.second] at hexpired
  rw [inNanos] at hfresh
  omega

/-- An agent that tracks two nodes. -/
def twoTracked : Agent :=
  let account : Account := { address := none, capacity := {} }
  { Agent.initial {} ⟨0, false⟩ with
    ledger := ((∅ : Table Account).insert "edge-0" account).insert "edge-1" account }

/-- Every call takes two milliseconds, and those about the second node are refused. -/
def slow (_ : ℕ) (c : Call) : Fate where
  outbound := 1000000
  inbound := 1000000
  fortune := if c.target = "edge-1" then .refused .unanswered else .granted

/-- Every other round goes the other way round. -/
def alternate (k : ℕ) (nodes : List String) : List String :=
  if k % 2 = 0 then nodes else nodes.reverse

/-- The interval is ten milliseconds. In the first round the lease of the first node is renewed
early, at `12`, and in the second one late, at `24`, which arrives at `25`; right before, the lease
is older than one interval, but not than two. -/
theorem leases_fresh_of_alternate :
    let last := ((line slow alternate).run 35 (.startingAt 10 0) (start twoTracked {})).2
    last.rounds.map Round.begun = [10000000, 20000000, 30000000] ∧
      ∃ lease renewed, (storedAt ∅ last.keeper.registry.log 24999999).find? "edge-0" = some lease ∧
        lease.renewTime? = some renewed ∧ 24999999 < renewed.nanos + 20000000 ∧
        ¬ lease.ExpiredAt ⟨24999999, false⟩ := by
  intro last
  have horder : ∀ k nodes, (alternate k nodes).Perm nodes := by
    intro k nodes
    rw [alternate]
    split
    · exact .refl nodes
    · exact nodes.reverse_perm
  have hfiled : Filed ({} : Rehearsal.Script).leases := by
    intro node lease hlease
    have hnone : ({} : Rehearsal.Script).leases.find? node = none := Table.find?_empty node
    rw [hnone] at hlease
    cases hlease
  have hshort : ∀ r ∈ last.rounds, r.ended < r.begun + inNanos 10 := by decide +kernel
  obtain ⟨hbegun, -, hfresh⟩ :=
    leases_fresh slow alternate horder twoTracked {} hfiled 10 (by decide) 35 hshort
  obtain ⟨lease, renewed, hlease, htime, hlt, hgood⟩ :=
    hfresh "edge-0" (by decide) (by decide +kernel) 24999999 (by decide +kernel) (by decide +kernel)
  refine ⟨hbegun, lease, renewed, hlease, htime, hlt, hgood ?_⟩
  have hthere : (storedAt ∅ last.keeper.registry.log 24999999).find? "edge-0" =
      some (.forNode ⟨12000000, false⟩ "edge-0" "kube-node-lease" 40) := by decide +kernel
  obtain rfl := Option.some.inj (hthere.symm.trans hlease)
  rintro duration ⟨⟩
  decide

end LeaseRounds

end HollowFleet
