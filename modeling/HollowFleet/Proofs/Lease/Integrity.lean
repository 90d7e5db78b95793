import HollowFleet.Proofs.Lease.Registry
import Mathlib.Order.Defs.PartialOrder

/-!
# What upkeep does to leases

A lease is written only after it was looked up, and what is written is what was found, with the
time of renewal moved to the clock (`Entry.Grounded`). As nobody else writes leases, what was found
is still there when the write gets there. So a lease, once it is there, keeps its holder and all
else but the time of its renewal, which never goes back, and which is the clock of the last write.

All else is all of it: the declarations of a lease that the agent makes no use of, and its metadata
down to the last field, whoever set them (`Lease.tenure`).

## What the main theorem rests on

* `TimedRegistry.Sound` is the invariant: the log tells which leases are there, every write in it
  has its grounds in the calls before it, and no lease was renewed later than the clock.
* A single call keeps it if it is grounded (`TimedRegistry.Sound.ask`). A renewal is a look-up and a
  write that is grounded in the look-up (`TimedRegistry.Sound.renew`); here it is used that a call
  that is carried out unheard is in the log as well, so nothing is written behind its back.
* `Keeper.sound_act` goes through what may come up, nodes that are tracked, single renewals, rounds
  in any order and time that goes by, and `Keeper.sound_foldl_act` is the induction.
* What a log with grounds shows, `kept_of_grounded`, does not mention the agent any more. From one
  call to the next a lease is followed by itself or by a renewal of it
  (`Entry.Grounded.precedes`), and both hold for as many calls as one likes.
-/

namespace HollowFleet

open Agent

/-! ### Order of points in time -/

namespace Timestamp

/-- Seconds since the start of 1970. -/
def whole (t : Timestamp) : ℤ := t.nanos.fdiv second

/-- Nanoseconds within the second; those of a leap second come after those of the second that it is
counted with. -/
def part (t : Timestamp) : ℤ := t.nanos.fmod second + if t.leap then second else 0

/-- Seconds first, and then nanoseconds. -/
instance : Preorder Timestamp where
  le t t' := t.whole < t'.whole ∨ t.whole = t'.whole ∧ t.part ≤ t'.part
  le_refl _ := .inr ⟨rfl, Int.le_refl _⟩
  le_trans t t' t'' h h' := by
    rcases h with h | ⟨h, hpart⟩
    · rcases h' with h' | ⟨h', -⟩
      · exact .inl (Int.lt_trans h h')
      · exact .inl (h' ▸ h)
    · rcases h' with h' | ⟨h', hpart'⟩
      · exact .inl (h ▸ h')
      · exact .inr ⟨h.trans h', Int.le_trans hpart hpart'⟩

theorem le_later (t : Timestamp) (ns : ℕ) : t ≤ t.later ns := by
  show t.whole < (t.later ns).whole ∨ t.whole = (t.later ns).whole ∧ t.part ≤ (t.later ns).part
  rw [whole, whole, part, part, later, second]
  simp only [Int.fdiv_eq_ediv_of_nonneg _ (show (0 : ℤ) ≤ 1000000000 by decide),
    Int.fmod_eq_emod_of_nonneg _ (show (0 : ℤ) ≤ 1000000000 by decide)]
  omega

end Timestamp

/-! ### Leases -/

/-- All of a lease but the time of its renewal; a lease that declares nothing is as one of which
every declaration is absent. -/
def Lease.tenure (lease : Lease) : Metadata × LeaseSpec :=
  (lease.metadata, { lease.spec.getD {} with renewTime := none })

theorem Lease.tenure_renewedAt (now : Timestamp) (lease : Lease) :
    (lease.renewedAt now).tenure = lease.tenure := rfl

/-- No lease was renewed later than at a time. -/
def RenewedBy (leases : Table Lease) (clock : Timestamp) : Prop :=
  ∀ node lease, leases.find? node = some lease → ∀ t ∈ lease.renewTime?, t ≤ clock

/-! ### Grounds -/

/-- The call right before a write looked the lease up. What was found is still there, and what is
written is a renewal of it, or a new lease if nothing was found. -/
structure Entry.GroundedIn (leases : Table Lease) (past : List Entry) (e : Entry) (lease : Lease)
    (found : Option Lease) : Prop where
  /-- It was looked up right before. -/
  looked : ∃ before read, past = before ++ [read] ∧ read.found? = some (lease.name, found)
  /-- What was found is still there. -/
  there : (replay leases past).find? lease.name = found
  /-- It is renewed at the clock of the call. -/
  stamped : lease.renewTime? = some e.clock
  /-- It is new only if nothing was found. -/
  created : found = none → e.call = .createLease lease
  /-- What was found is renewed, and not to an earlier time. -/
  updated : ∀ fetched, found = some fetched → e.call = .updateLease lease ∧
    lease = fetched.renewedAt e.clock ∧ ∀ t ∈ fetched.renewTime?, t ≤ e.clock

/-- Every write has its grounds in the calls before it. -/
def Entry.Grounded (leases : Table Lease) (past : List Entry) (e : Entry) : Prop :=
  ∀ lease, e.call.lease? = some lease → ∃ found, e.GroundedIn leases past lease found

namespace TimedRegistry

/-- The log tells what is there, all writes in it are grounded, and what is there is in order. -/
structure Sound (leases : Table Lease) (d : TimedRegistry) : Prop where
  /-- The log tells what is there. -/
  stored : d.registry.leases = replay leases d.registry.log
  /-- All writes are grounded. -/
  grounded : ∀ past e, past ++ [e] <+: d.registry.log → e.Grounded leases past
  /-- Every lease is kept under its name. -/
  filed : Filed d.registry.leases
  /-- The clock is not behind any renewal. -/
  renewedBy : RenewedBy d.registry.leases d.clock

namespace Sound

variable {leases : Table Lease} {d : TimedRegistry} (fates : ℕ → Call → Fate)

/-- A call that is grounded leaves all sound. -/
theorem ask (h : d.Sound leases) {c : Call}
    (hgrounded : (d.entry fates c).Grounded leases d.registry.log) :
    (d.ask fates c).Sound leases := by
  have hleases : (d.ask fates c).registry.leases = (d.entry fates c).effect d.registry.leases :=
    d.registry.leases_after ..
  have hlater : d.clock ≤ (d.ask fates c).clock := d.clock.le_later _
  refine ⟨?_, ?_, ?_, ?_⟩
  · rw [hleases, h.stored]
    exact (replay_concat leases d.registry.log (d.entry fates c)).symm
  · intro past e hpast
    rcases List.prefix_concat_iff.1 hpast with heq | hold
    · obtain ⟨rfl, he⟩ := List.append_inj' heq rfl
      cases he
      exact hgrounded
    · exact h.grounded past e hold
  · rw [hleases]
    exact h.filed.effect (d.entry fates c)
  · intro node lease hlease t ht
    rw [hleases, Entry.find?_effect] at hlease
    split at hlease
    · obtain ⟨found, hfound⟩ := hgrounded lease (Entry.lease?_of_written? hlease)
      rw [hfound.stamped] at ht
      cases ht
      exact hlater
    · exact (h.renewedBy node lease hlease t ht).trans hlater

/-- A look-up changes nothing. -/
theorem ask_getLease (h : d.Sound leases) (node : String) :
    (d.ask fates (.getLease node)).Sound leases :=
  h.ask fates fun _ hlease ↦ nomatch hlease

/-- **A renewal keeps all sound.** -/
theorem renew (h : d.Sound leases) (settings : Settings) (node : String) :
    (d.renew fates settings node).Sound leases := by
  have hread := h.ask_getLease fates node
  rw [TimedRegistry.renew]
  cases hheard : d.heard fates (.getLease node) with
  | error fault => exact hread
  | ok found =>
    obtain ⟨hfound, hthere, hkept⟩ := heard_getLease fates hheard
    have hnow : (replay leases (d.ask fates (.getLease node)).registry.log).find? node = found := by
      rw [← hread.stored, hkept, hthere]
    cases found with
    | none =>
      refine hread.ask fates fun lease hlease ↦ ?_
      obtain rfl := Option.some.inj hlease
      have hname : (Lease.forNode (d.ask fates (.getLease node)).clock node settings.leaseSpace
          settings.leaseDuration).name = node := rfl
      exact ⟨none, {
        looked := ⟨_, _, rfl, by rw [hname]; exact hfound⟩
        there := by rw [hname, hnow]
        stamped := rfl
        created := fun _ ↦ rfl
        updated := fun _ hsome ↦ absurd hsome.symm (Option.some_ne_none _) }⟩
    | some fetched =>
      refine hread.ask fates fun lease hlease ↦ ?_
      obtain rfl := Option.some.inj hlease
      -- the lease that was found goes by the name of the node
      have hname : (fetched.renewedAt (d.ask fates (.getLease node)).clock).name = node :=
        h.filed node fetched hthere
      have hearlier : ∀ t ∈ fetched.renewTime?, t ≤ (d.ask fates (.getLease node)).clock := by
        rw [← hkept] at hthere
        exact hread.renewedBy node fetched hthere
      exact ⟨some fetched, {
        looked := ⟨_, _, rfl, by rw [hname]; exact hfound⟩
        there := by rw [hname, hnow]
        stamped := rfl
        created := fun hnone ↦ absurd hnone (Option.some_ne_none _)
        updated := fun _ hsome ↦ by
          obtain rfl := Option.some.inj hsome
          exact ⟨rfl, rfl, hearlier⟩ }⟩

theorem foldl_renew (h : d.Sound leases) (settings : Settings) (nodes : List String) :
    (nodes.foldl (TimedRegistry.renew fates settings) d).Sound leases := by
  induction nodes generalizing d with
  | nil => exact h
  | cons node rest ih => exact ih (h.renew fates settings node)

/-- To let time go by keeps all sound, as no lease is renewed by that. -/
theorem rest (h : d.Sound leases) (ns : ℕ) : (d.rest ns).Sound leases :=
  { h with
    renewedBy := fun node lease hlease t ht ↦
      (h.renewedBy node lease hlease t ht).trans (d.clock.le_later ns) }

end Sound

/-- A registry whose log is empty is sound, at any time. -/
theorem sound_of_empty {d : TimedRegistry} (hlog : d.registry.log = [])
    (hfiled : Filed d.registry.leases) (hrenewedBy : RenewedBy d.registry.leases d.clock) :
    d.Sound d.registry.leases where
  stored := by rw [hlog, replay_nil]
  grounded past e hpast := by
    rw [hlog] at hpast
    simp at hpast
  filed := hfiled
  renewedBy := hrenewedBy

end TimedRegistry

/-! ### What follows for the leases -/

section

variable {leases : Table Lease} {log : List Entry}

/-- Whether a lease may be followed by another one: all but the time of renewal is the same, and
that time is not earlier. -/
def Lease.Precedes (lease lease' : Lease) : Prop :=
  lease'.tenure = lease.tenure ∧ ∀ t ∈ lease.renewTime?, ∃ t' ∈ lease'.renewTime?, t ≤ t'

theorem Lease.Precedes.refl (lease : Lease) : lease.Precedes lease :=
  ⟨rfl, fun t ht ↦ ⟨t, ht, le_rfl⟩⟩

theorem Lease.Precedes.trans {lease lease' lease'' : Lease} (h : lease.Precedes lease')
    (h' : lease'.Precedes lease'') : lease.Precedes lease'' := by
  refine ⟨h'.1.trans h.1, fun t ht ↦ ?_⟩
  obtain ⟨t', ht', hle⟩ := h.2 t ht
  obtain ⟨t'', ht'', hle'⟩ := h'.2 t' ht'
  exact ⟨t'', ht'', hle.trans hle'⟩

/-- A lease that is there is there after a grounded call. -/
theorem Entry.Grounded.precedes {past : List Entry} {e : Entry} (h : e.Grounded leases past)
    {node : String} {lease : Lease} (hlease : (replay leases past).find? node = some lease) :
    ∃ lease', (replay leases (past ++ [e])).find? node = some lease' ∧ lease.Precedes lease' := by
  rw [replay_concat, find?_effect]
  split
  · next hwrites =>
    obtain ⟨lease', hwritten, hname⟩ := Option.map_eq_some_iff.1 (of_decide_eq_true hwrites)
    refine ⟨lease', hwritten, ?_⟩
    obtain ⟨found, hfound⟩ := h lease' (lease?_of_written? hwritten)
    -- what was found is the lease that was there
    obtain rfl : some lease = found := by rw [← hfound.there, hname, hlease]
    obtain ⟨-, hrenewed, htime⟩ := hfound.updated lease rfl
    have htenure : lease'.tenure = lease.tenure := by rw [hrenewed, Lease.tenure_renewedAt]
    exact ⟨htenure, fun t ht ↦ ⟨e.clock, hfound.stamped, htime t ht⟩⟩
  · exact ⟨lease, hlease, .refl lease⟩

/-- A lease that is there after some calls is there after any more of them. -/
theorem precedes_of_le (h : ∀ past e, past ++ [e] <+: log → e.Grounded leases past) {i j : ℕ}
    (hij : i ≤ j) {node : String} {lease : Lease}
    (hlease : (replay leases (log.take i)).find? node = some lease) :
    ∃ lease', (replay leases (log.take j)).find? node = some lease' ∧ lease.Precedes lease' := by
  induction j, hij using Nat.le_induction with
  | base => exact ⟨lease, hlease, .refl lease⟩
  | succ j hij ih =>
    obtain ⟨mid, hmid, hprecedes⟩ := ih
    by_cases hj : j < log.length
    · have htake : log.take (j + 1) = log.take j ++ [log[j]] := List.take_succ_eq_append_getElem hj
      have hgrounded := h (log.take j) log[j] (htake ▸ List.take_prefix (j + 1) log)
      obtain ⟨lease', hlease', hprecedes'⟩ := hgrounded.precedes hmid
      exact ⟨lease', htake ▸ hlease', hprecedes.trans hprecedes'⟩
    · have hall : log.take (j + 1) = log.take j := by
        rw [List.take_of_length_le (by omega), List.take_of_length_le (by omega)]
      exact ⟨mid, hall ▸ hmid, hprecedes⟩

/-- What was last written for a node is there, with the clock of that call. -/
theorem stamped_of_writes (h : ∀ past e, past ++ [e] <+: log → e.Grounded leases past) {i : ℕ}
    {node : String} {e : Entry}
    (he : ((log.take i).filter (Entry.writes node)).getLast? = some e) :
    ∃ lease, (replay leases (log.take i)).find? node = some lease ∧
      lease.renewTime? = some e.clock := by
  obtain ⟨hmem, hwrites⟩ := List.mem_filter.1 (List.mem_of_getLast? he)
  obtain ⟨lease, hwritten, -⟩ := Option.map_eq_some_iff.1 (of_decide_eq_true hwrites)
  refine ⟨lease, ?_, ?_⟩
  · rw [find?_replay, he, Option.bind_some, hwritten, Option.some_or]
  · obtain ⟨past, future, hsplit⟩ := List.append_of_mem hmem
    have hpast : past ++ [e] <+: log.take i :=
      ⟨future, by rw [hsplit, List.append_assoc, List.singleton_append]⟩
    obtain ⟨found, hfound⟩ := h past e (hpast.trans (List.take_prefix i log)) lease
      (Entry.lease?_of_written? hwritten)
    exact hfound.stamped

end

/-- The leases that were there at first, and the log of what was asked since, show that leases are
created once and then only renewed. -/
structure Kept (leases : Table Lease) (log : List Entry) : Prop where
  /-- A lease is created only if the call right before found none. -/
  created : ∀ past e lease, past ++ [e] <+: log → e.call = .createLease lease →
    ∃ before read, past = before ++ [read] ∧ read.found? = some (lease.name, none)
  /-- A lease is updated only if the call right before found it, and then nothing of it changes but
  the time of its renewal, even if it declared nothing before. -/
  updated : ∀ past e lease, past ++ [e] <+: log → e.call = .updateLease lease →
    ∃ before read fetched, past = before ++ [read] ∧
      read.found? = some (lease.name, some fetched) ∧
      (replay leases past).find? lease.name = some fetched ∧
      lease.metadata = fetched.metadata ∧
      lease.spec = some { fetched.spec.getD {} with renewTime := some e.clock }
  /-- A lease that is there stays there, with all that it declares, and the time of its renewal
  never goes back. -/
  lasting : ∀ i j, i ≤ j → ∀ node lease, (replay leases (log.take i)).find? node = some lease →
    ∃ lease', (replay leases (log.take j)).find? node = some lease' ∧ lease.Precedes lease'
  /-- A lease that was written is renewed at the clock of the last call that wrote it. -/
  stamped : ∀ i node e, ((log.take i).filter (Entry.writes node)).getLast? = some e →
    ∃ lease, (replay leases (log.take i)).find? node = some lease ∧
      lease.renewTime? = some e.clock

/-- **What the log shows**, if every write in it has its grounds. -/
theorem kept_of_grounded {leases : Table Lease} {log : List Entry}
    (h : ∀ past e, past ++ [e] <+: log → e.Grounded leases past) : Kept leases log where
  created past e lease hpast hcall := by
    have hlease : e.call.lease? = some lease := by rw [hcall]; rfl
    obtain ⟨found, hfound⟩ := h past e hpast lease hlease
    cases found with
    | none => exact hfound.looked
    | some fetched =>
      -- what was found is updated, and not created
      obtain ⟨hupdate, -⟩ := hfound.updated fetched rfl
      rw [hcall] at hupdate
      cases hupdate
  updated past e lease hpast hcall := by
    have hlease : e.call.lease? = some lease := by rw [hcall]; rfl
    obtain ⟨found, hfound⟩ := h past e hpast lease hlease
    cases found with
    | none =>
      have hcreate := hfound.created rfl
      rw [hcall] at hcreate
      cases hcreate
    | some fetched =>
      obtain ⟨before, read, hpast, hread⟩ := hfound.looked
      obtain ⟨-, hrenewed, -⟩ := hfound.updated fetched rfl
      exact ⟨before, read, fetched, hpast, hread, hfound.there, by rw [hrenewed]; rfl,
        by rw [hrenewed]; rfl⟩
  lasting _ _ hij _ _ hlease := precedes_of_le h hij hlease
  stamped _ _ _ he := stamped_of_writes h he

/-! ### Upkeep -/

/-- An agent and the registry that its leases are in. -/
structure Keeper where
  /-- The agent. -/
  agent : Agent
  /-- The registry. -/
  registry : Registry

/-- What concerns the leases of an agent. -/
inductive Upkeep where
  /-- A node is to be tracked. -/
  | track (node : Node)
  /-- A node reports something. -/
  | update (node : Node)
  /-- A node is gone. -/
  | untrack (node : Node)
  /-- The lease of a node is to be renewed. -/
  | renew (node : String)
  /-- The leases of some of the tracked nodes are to be renewed, in some order. -/
  | pass (order : List String → List String)
  /-- Nanoseconds go by. -/
  | rest (ns : ℕ)

namespace Keeper

variable (fates : ℕ → Call → Fate)

/-- The clock and the registry. -/
def timed (k : Keeper) : TimedRegistry := ⟨k.agent.clock, k.registry⟩

/-- The agent carries out a task. -/
def carryOut {α : Type} (k : Keeper) (task : Task Agent α) : Keeper :=
  let run := task.run (Registry.host fates) k.registry k.agent
  ⟨run.state, run.world⟩

/-- What comes up is done. -/
def act (k : Keeper) : Upkeep → Keeper
  | .track node => k.carryOut fates (trackNode node)
  | .update node => k.carryOut fates (updateNode node)
  | .untrack node => k.carryOut fates (untrackNode node)
  | .renew node => k.carryOut fates (renewLease node).run
  | .pass order => k.carryOut fates (renewInOrder order)
  | .rest ns => ⟨{ k.agent with clock := (k.timed.rest ns).clock }, (k.timed.rest ns).registry⟩

/-- **Whatever comes up, all stays sound.** -/
theorem sound_act {leases : Table Lease} {k : Keeper} (h : k.timed.Sound leases) (u : Upkeep) :
    (k.act fates u).timed.Sound leases := by
  have htimed : ∀ {α : Type} (task : Task Agent α), (k.carryOut fates task).timed =
      TimedRegistry.ofRun (task.run (Registry.host fates) k.registry k.agent) := fun _ ↦ rfl
  cases u with
  | track node =>
    rw [act, htimed, TimedRegistry.ofRun_trackNode]
    split
    · exact h
    · exact h.renew fates k.agent.settings node.name
  | update node =>
    rw [act, htimed, TimedRegistry.ofRun_updateNode]
    exact h
  | untrack node => exact h
  | renew node =>
    rw [act, htimed, TimedRegistry.ofRun_renewLease]
    exact h.renew fates k.agent.settings node
  | pass order =>
    rw [act, htimed, TimedRegistry.ofRun_renewInOrder]
    exact h.foldl_renew fates k.agent.settings (order k.agent.ledger.keys)
  | rest ns => exact h.rest ns

theorem sound_foldl_act {leases : Table Lease} {k : Keeper} (h : k.timed.Sound leases)
    (upkeep : List Upkeep) : (upkeep.foldl (act fates) k).timed.Sound leases := by
  induction upkeep generalizing k with
  | nil => exact h
  | cons u rest ih => exact ih (sound_act fates h u)

/-- **Leases are created once and then only renewed.** Whatever comes up, and whatever becomes of
the calls, the log tells which leases are there, and it shows that they were kept. -/
theorem leases_kept (fates : ℕ → Call → Fate) (a : Agent) (cluster : Rehearsal.Script)
    (hfiled : Filed cluster.leases) (hrenewedBy : RenewedBy cluster.leases a.clock)
    (upkeep : List Upkeep) :
    let last := upkeep.foldl (act fates) ⟨a, { cluster }⟩
    last.registry.leases = replay cluster.leases last.registry.log ∧
      Kept cluster.leases last.registry.log := by
  have hstart : (timed ⟨a, { cluster }⟩).Sound cluster.leases :=
    TimedRegistry.sound_of_empty (d := ⟨a.clock, { cluster }⟩) rfl hfiled hrenewedBy
  have hlast := sound_foldl_act fates hstart upkeep
  exact ⟨hlast.stored, kept_of_grounded hlast.grounded⟩

/-- A lease of the node "edge-0" that someone else has made: it has an annotation and a strategy,
which the agent never sets, and was never renewed. -/
def foreignLease : Lease where
  metadata := {
    name := some "edge-0"
    resourceVersion := some "7"
    annotations := some [("rack", "3")] }
  spec := some { strategy := some "OldestEmulationVersion" }

/-- A node without anything but a name. -/
def bareNode (node : String) : Node where
  metadata := { name := some node }

/-- Every call takes two nanoseconds. The second one, an update, is carried out unheard, and the
fourth one, a creation, is refused. -/
def rough : ℕ → Call → Fate
  | 1, _ => ⟨1, 1, .unheard .unanswered⟩
  | 3, _ => ⟨1, 1, .refused .unanswered⟩
  | _, _ => ⟨1, 1, .granted⟩

/-- Two nodes are tracked, and their leases are renewed later. -/
theorem leases_kept_of_rough :
    let cluster : Rehearsal.Script := { leases := (∅ : Table Lease).insert "edge-0" foreignLease }
    let a := Agent.initial {} ⟨0, false⟩
    let upkeep := [.track (bareNode "edge-0"), .track (bareNode "edge-1"), .rest 5, .pass id]
    let last := upkeep.foldl (act rough) ⟨a, { cluster }⟩
    (last.registry.leases = replay cluster.leases last.registry.log ∧
        Kept cluster.leases last.registry.log) ∧
      last.registry.leases.find? "edge-0" = some (foreignLease.renewedAt ⟨15, false⟩) ∧
      last.registry.leases.find? "edge-1" =
        some (.forNode ⟨19, false⟩ "edge-1" "kube-node-lease" 40) := by
  intro cluster a upkeep last
  have hforeign : ∀ node lease, cluster.leases.find? node = some lease →
      node = "edge-0" ∧ lease = foreignLease := by
    intro node lease hlease
    rw [Table.find?_insert] at hlease
    split at hlease
    · next hnode => exact ⟨hnode, (Option.some.inj hlease).symm⟩
    · cases hlease
  have hfiled : Filed cluster.leases := by
    rintro node lease hlease
    obtain ⟨rfl, rfl⟩ := hforeign node lease hlease
    rfl
  have hrenewedBy : RenewedBy cluster.leases a.clock := by
    intro node lease hlease t ht
    obtain ⟨-, rfl⟩ := hforeign node lease hlease
    cases ht
  exact ⟨leases_kept rough a cluster hfiled hrenewedBy upkeep, by decide +kernel, by decide +kernel⟩

end Keeper

end HollowFleet
