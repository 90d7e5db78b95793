import HollowFleet.Agent.Leases
import HollowFleet.Proofs.Accounting.Bookkeeping
import HollowFleet.Rehearsal.Script

/-!
# Renewals as the registry sees them

The registry is the cluster as far as leases go, and nobody but the agent writes them. A call takes
its time to get there and to be answered. It may be refused, and it may also be carried out although
the agent hears of a fault. The registry keeps a log of what it was asked, at which time and with
what outcome.

Of the agent a renewal uses only the clock, so all that the upkeep of leases does to the registry
can be said of a registry and its clock: a renewal is one or two calls (`TimedRegistry.renew`), a
pass is a renewal for each node (`TimedRegistry.ofRun_renewInOrder`), and a node that is tracked
already costs none (`TimedRegistry.ofRun_trackNode`).

What becomes of a call is given by a function of the call and of how many there were before
(`Registry.host`), so every mixture of delays and faults is some such function, and theorems about
all of them are theorems about all behaviours. Of the log only the length matters to what becomes of
the next call; what is in it is there for statements.

The leases at any time can be had in two ways, from the cluster and by going through the log
(`replay`). That both agree is kept by every call (`Registry.leases_after`), and it is the second
way in which the history of a single lease is told (`find?_replay`).
-/

namespace HollowFleet

open Agent

/-- The point that many nanoseconds later. -/
def Timestamp.later (t : Timestamp) (ns : ℕ) : Timestamp := { t with nanos := t.nanos + ns }

/-- The lease that a call writes. -/
def Call.lease? : Call → Option Lease
  | createLease lease => some lease
  | updateLease lease => some lease
  | _ => none

/-- Renews the leases of the tracked nodes, which are visited in some order. -/
def Agent.renewInOrder (order : List String → List String) : Task Agent Unit := do
  let agent ← Task.get
  renewAll (order agent.ledger.keys)

/-- The order in which the agent visits the nodes is one of those that are allowed. -/
theorem Agent.renewTracked_eq : renewTracked = renewInOrder id := rfl

/-! ### What becomes of calls -/

/-- What becomes of a call. -/
inductive Fortune where
  /-- It is carried out and answered. -/
  | granted
  /-- It is not carried out. -/
  | refused (fault : Fault)
  /-- It is carried out, but the agent hears of a fault. -/
  | unheard (fault : Fault)

/-- What becomes of a call, and how long it takes. -/
structure Fate where
  /-- Nanoseconds until the registry has it. -/
  outbound : ℕ := 0
  /-- Nanoseconds from then until the agent hears. -/
  inbound : ℕ := 0
  /-- What becomes of it. -/
  fortune : Fortune := .granted

namespace Fate

/-- Whether a call is carried out. -/
def carriedOut (fate : Fate) : Bool :=
  match fate.fortune with
  | .granted => true
  | .refused _ => false
  | .unheard _ => true

/-- What the agent hears. -/
def reply {c : Call} (fate : Fate) (answer : c.Answer) : c.Reply :=
  match fate.fortune with
  | .granted => .ok answer
  | .refused fault => .error fault
  | .unheard fault => .error fault

/-- Who hears an answer hears the one that was given, and to a call that was carried out. -/
theorem eq_granted_of_reply {c : Call} {fate : Fate} {answer answer' : c.Answer}
    (h : fate.reply answer = .ok answer') : fate.fortune = .granted ∧ answer' = answer := by
  rw [reply] at h
  split at h
  · next hgranted => exact ⟨hgranted, (Except.ok.inj h).symm⟩
  · cases h
  · cases h

end Fate

/-! ### The registry -/

/-- A call in the log. -/
structure Entry where
  /-- The call. -/
  call : Call
  /-- What the clock showed when the call was made. -/
  clock : Timestamp
  /-- Nanoseconds from the start until it was made. -/
  sent : ℕ
  /-- Nanoseconds from the start until the registry had it. -/
  landed : ℕ
  /-- Whether it was carried out. -/
  carriedOut : Bool
  /-- What the agent heard. -/
  reply : call.Reply

namespace Entry

/-- The lease that was written. -/
def written? (e : Entry) : Option Lease := if e.carriedOut then e.call.lease? else none

theorem lease?_of_written? {e : Entry} {lease : Lease} (h : e.written? = some lease) :
    e.call.lease? = some lease := by
  rw [written?] at h
  split at h
  · exact h
  · cases h

/-- Whether the lease of a node was written. -/
def writes (node : String) (e : Entry) : Bool := decide (e.written?.map Lease.name = some node)

/-- The lease that was looked up, by the name of its node, if the agent heard the answer. -/
def found? : Entry → Option (String × Option Lease)
  | ⟨.getLease node, _, _, _, _, .ok found⟩ => some (node, found)
  | _ => none

/-- The leases after a call. -/
def effect (leases : Table Lease) (e : Entry) : Table Lease :=
  match e.written? with
  | some lease => leases.insert lease.name lease
  | none => leases

/-- A call changes the lease of the node that it writes, and of no other. -/
theorem find?_effect (leases : Table Lease) (e : Entry) (node : String) :
    (e.effect leases).find? node = if e.writes node then e.written? else leases.find? node := by
  rw [effect, writes]
  cases e.written? with
  | none => simp
  | some lease => simp [Table.find?_insert, eq_comm]

end Entry

/-- Every lease is kept under its name. -/
def Filed (leases : Table Lease) : Prop :=
  ∀ node lease, leases.find? node = some lease → lease.name = node

/-- A call files what it writes under its name. -/
theorem Filed.effect {leases : Table Lease} (h : Filed leases) (e : Entry) :
    Filed (e.effect leases) := by
  intro node lease hlease
  rw [Entry.find?_effect] at hlease
  split at hlease
  · next hwrites =>
    have hname : e.written?.map Lease.name = some node := of_decide_eq_true hwrites
    rw [hlease] at hname
    exact Option.some.inj hname
  · exact h node lease hlease

/-- The leases after the calls of a log. -/
def replay (leases : Table Lease) (log : List Entry) : Table Lease := log.foldl Entry.effect leases

@[simp]
theorem replay_nil (leases : Table Lease) : replay leases [] = leases := rfl

/-- One more call is a call on the leases after the others. -/
theorem replay_concat (leases : Table Lease) (log : List Entry) (e : Entry) :
    replay leases (log ++ [e]) = e.effect (replay leases log) := by
  rw [replay, List.foldl_append]
  rfl

/-- What is there for a node is what was last written for it, or else what was there at first. -/
theorem find?_replay (leases : Table Lease) (log : List Entry) (node : String) :
    (replay leases log).find? node =
      ((log.filter (Entry.writes node)).getLast?.bind Entry.written?).or (leases.find? node) := by
  induction log using List.reverseRecOn with
  | nil => rfl
  | append_singleton log e ih =>
    rw [replay_concat, Entry.find?_effect, ih, List.filter_append]
    cases hwrites : e.writes node with
    | false => simp [hwrites]
    | true =>
      have hwritten : e.written?.map Lease.name = some node := of_decide_eq_true hwrites
      obtain ⟨lease, hlease, -⟩ := Option.map_eq_some_iff.1 hwritten
      simp [hwrites, hlease]

/-- A cluster that keeps the leases, and the log of what it was asked. -/
structure Registry where
  /-- The cluster. -/
  cluster : Rehearsal.Script
  /-- Nanoseconds since the start. -/
  now : ℕ := 0
  /-- The calls, the oldest first. -/
  log : List Entry := []

namespace Registry

/-- The leases that are there. -/
def leases (w : Registry) : Table Lease := w.cluster.leases

/-- The entry of a call that is made now. -/
def entry (w : Registry) (fate : Fate) (clock : Timestamp) (c : Call) : Entry where
  call := c
  clock
  sent := w.now
  landed := w.now + fate.outbound
  carriedOut := fate.carriedOut
  reply := fate.reply (w.cluster.perform c).2

/-- The registry after a call. -/
def after (w : Registry) (fate : Fate) (clock : Timestamp) (c : Call) : Registry where
  cluster := if fate.carriedOut then (w.cluster.perform c).1 else w.cluster
  now := w.now + (fate.outbound + fate.inbound)
  log := w.log ++ [w.entry fate clock c]

theorem leases_after (w : Registry) (fate : Fate) (clock : Timestamp) (c : Call) :
    (w.after fate clock c).leases = (w.entry fate clock c).effect w.leases := by
  have hwritten : (w.entry fate clock c).written? =
      if fate.carriedOut then c.lease? else none := rfl
  rw [Entry.effect, hwritten, leases, after]
  cases fate.carriedOut with
  | false => rfl
  | true => cases c <;> rfl

/-- The registry as the host of the agent's tasks. What becomes of a call may depend on the call
and on how many there were before. The clock goes along with the time. -/
def host (fates : ℕ → Call → Fate) : Host Agent Registry where
  call w a c :=
    let fate := fates w.log.length c
    .resumed { a with clock := a.clock.later (fate.outbound + fate.inbound) }
      (w.after fate a.clock c) (fate.reply (w.cluster.perform c).2)
  submit w a _ _ := .resumed a w true

variable (fates : ℕ → Call → Fate)

theorem answers_host : (host fates).Answers where
  call _ _ _ := ⟨_, _, _, rfl⟩
  submit _ _ _ _ := ⟨_, _, _, rfl⟩

/-- Of the agent the host touches only the clock. -/
theorem keeps_host : (host fates).Keeps fun a : Agent ↦ (a.settings, a.ledger) where
  call _ _ _ := rfl
  submit _ _ _ _ := rfl

end Registry

/-! ### The registry and its clock -/

/-- A clock and a registry. -/
structure TimedRegistry where
  /-- The clock. -/
  clock : Timestamp
  /-- The registry. -/
  registry : Registry

namespace TimedRegistry

variable (fates : ℕ → Call → Fate)

/-- What becomes of a call that is made now. -/
def fate (d : TimedRegistry) (c : Call) : Fate := fates d.registry.log.length c

/-- The entry of a call that is made now. -/
def entry (d : TimedRegistry) (c : Call) : Entry := d.registry.entry (d.fate fates c) d.clock c

/-- What the agent hears of a call that is made now. -/
def heard (d : TimedRegistry) (c : Call) : c.Reply :=
  (d.fate fates c).reply (d.registry.cluster.perform c).2

/-- The registry and its clock after a call. -/
def ask (d : TimedRegistry) (c : Call) : TimedRegistry where
  clock := d.clock.later ((d.fate fates c).outbound + (d.fate fates c).inbound)
  registry := d.registry.after (d.fate fates c) d.clock c

/-- What the agent hears of a look-up is what is there, and stays there. -/
theorem heard_getLease {d : TimedRegistry} {node : String} {found : Option Lease}
    (hheard : d.heard fates (.getLease node) = .ok found) :
    (d.entry fates (.getLease node)).found? = some (node, found) ∧
      d.registry.leases.find? node = found ∧
      (d.ask fates (.getLease node)).registry.leases = d.registry.leases := by
  refine ⟨?_, (Fate.eq_granted_of_reply hheard).2.symm, ?_⟩
  · have hentry : d.entry fates (.getLease node) = ⟨.getLease node, d.clock, d.registry.now,
        d.registry.now + (d.fate fates (.getLease node)).outbound,
        (d.fate fates (.getLease node)).carriedOut, d.heard fates (.getLease node)⟩ := rfl
    rw [hentry, hheard]
    rfl
  · have hleases : (d.ask fates (.getLease node)).registry.leases =
        (d.entry fates (.getLease node)).effect d.registry.leases := d.registry.leases_after ..
    have hwritten : (d.entry fates (.getLease node)).written? = none := ite_self none
    rw [hleases, Entry.effect, hwritten]

/-- The lease of a node is looked up, and renewed, or created if there is none. -/
def renew (settings : Settings) (d : TimedRegistry) (node : String) : TimedRegistry :=
  let read := d.ask fates (.getLease node)
  match d.heard fates (.getLease node) with
  | .ok (some lease) => read.ask fates (.updateLease (lease.renewedAt read.clock))
  | .ok none => read.ask fates
      (.createLease (.forNode read.clock node settings.leaseSpace settings.leaseDuration))
  | .error _ => read

/-- Time goes by. -/
def rest (d : TimedRegistry) (ns : ℕ) : TimedRegistry where
  clock := d.clock.later ns
  registry := { d.registry with now := d.registry.now + ns }

/-- The registry and the clock that a run leaves. -/
def ofRun {α : Type} (run : Run Agent Registry α) : TimedRegistry := ⟨run.state.clock, run.world⟩

variable (w : Registry) (a : Agent)

theorem ofRun_orWarn (action : Action Unit) (warning : Fault → Warning) :
    ofRun ((action.orWarn warning).run (Registry.host fates) w a) =
      ofRun (action.run.run (Registry.host fates) w a) := by
  rw [Action.orWarn, Task.run_bind]
  rcases action.run.run (Registry.host fates) w a with ⟨a', w', - | fault | -⟩ <;> rfl

/-- The agent after a call. -/
theorem run_call_bind {α : Type} (c : Call) (next : c.Answer → Action α) :
    (Action.call c >>= next).run.run (Registry.host fates) w a =
      match heard fates ⟨a.clock, w⟩ c with
      | .ok answer => (next answer).run.run (Registry.host fates)
          (ask fates ⟨a.clock, w⟩ c).registry { a with clock := (ask fates ⟨a.clock, w⟩ c).clock }
      | .error fault => ⟨{ a with clock := (ask fates ⟨a.clock, w⟩ c).clock },
          (ask fates ⟨a.clock, w⟩ c).registry, some (.error fault)⟩ := by
  show (Task.run (Registry.host fates) _ _ (ExceptT.bindCont next (heard fates ⟨a.clock, w⟩ c))) = _
  cases heard fates ⟨a.clock, w⟩ c <;> rfl

/-- A renewal by an agent is one that only the registry and the clock matter to. -/
theorem ofRun_renewLease (node : String) :
    ofRun ((renewLease node).run.run (Registry.host fates) w a) =
      renew fates a.settings ⟨a.clock, w⟩ node := by
  rw [renew, renewLease, run_call_bind]
  rcases heard fates ⟨a.clock, w⟩ (.getLease node) with fault | - | lease
  · rfl
  · rfl
  · rfl

/-- Renewals in a row are renewals that only the registry and the clock matter to, one after the
other. -/
theorem ofRun_renewAll (nodes : List String) :
    ofRun ((renewAll nodes).run (Registry.host fates) w a) =
      nodes.foldl (renew fates a.settings) ⟨a.clock, w⟩ := by
  induction nodes generalizing w a with
  | nil => rfl
  | cons node rest ih =>
    have hsettings := (Task.Keeps.orWarn (fun _ _ ↦ rfl) (keeps_renewLease Agent.settings node)
      .renewalFailed) a Registry (Registry.host fates) w ((Registry.keeps_host fates).part Prod.fst)
    obtain ⟨-, -, hrun⟩ := (Registry.answers_host fates).run_bind w a
      ((renewLease node).orWarn .renewalFailed) fun _ ↦ renewAll rest
    have hfirst := (ofRun_orWarn fates w a (renewLease node) .renewalFailed).trans
      (ofRun_renewLease fates w a node)
    rw [renewAll, hrun, ih, hsettings, List.foldl_cons, ← hfirst]
    rfl

/-- Nothing but the lease of a node that was not tracked yet is seen to when it is tracked. -/
theorem ofRun_trackNode (node : Node) :
    ofRun ((trackNode node).run (Registry.host fates) w a) =
      if a.ledger.contains node.name then ⟨a.clock, w⟩
      else renew fates a.settings ⟨a.clock, w⟩ node.name := by
  have hlease : ∀ b : Agent, b.clock = a.clock → b.settings = a.settings →
      ofRun (((renewLease node.name).orWarn .leaseMissing).run (Registry.host fates) w b) =
        renew fates a.settings ⟨a.clock, w⟩ node.name := by
    intro b hclock hsettings
    rw [ofRun_orWarn, ofRun_renewLease, hclock, hsettings]
  show ofRun ((ite _ _ _ : Task Agent Unit).run (Registry.host fates) w a) = _
  split
  · rfl
  · have hcapacity : newAccount node = capacity node >>= fun capacity ↦
        pure { address := node.internalAddress?, capacity } := rfl
    rw [hcapacity, capacity]
    cases Amounts.ofNode node with
    | ok amounts => exact hlease _ rfl rfl
    | error fault => exact hlease _ rfl rfl

/-- A node that reports something is no matter of the registry. -/
theorem ofRun_updateNode (node : Node) :
    ofRun ((updateNode node).run (Registry.host fates) w a) = ⟨a.clock, w⟩ := by
  cases hread : Amounts.ofNode node <;> cases hfound : a.ledger.find? node.name <;>
    simp only [updateNode, newAccount, capacity, hread, Task.run_bind, Task.run_pure,
      Task.run_get, Task.warn, Task.run_modify, Agent.warn, hfound] <;> rfl

/-- A pass is renewals in a row. -/
theorem ofRun_renewInOrder (order : List String → List String) :
    ofRun ((renewInOrder order).run (Registry.host fates) w a) =
      (order a.ledger.keys).foldl (renew fates a.settings) ⟨a.clock, w⟩ :=
  ofRun_renewAll fates w a (order a.ledger.keys)

end TimedRegistry

end HollowFleet
