import HollowFleet.Proofs.Lease.Registry

/-!
# Renewals as visits

A renewal is a visit to a node (`TimedRegistry.Visit`): its lease is looked up once, no call is
about another node, and if all calls about the node are answered, its lease is written once, with
the clock of that call as the time of renewal. What becomes of the calls about other nodes does not
matter, so visits of different nodes add up (`Visit.append`), and a pass over all nodes is a visit
to each of them (`TimedRegistry.exists_visit_foldl_renew`), whatever their order.

A visit extends a spell (`TimedRegistry.Spell`), by which the clock and the time go on together
while some calls are made and the log grows by them. Spells can be put together without a
condition, visits only if their nodes differ: the second visit must not call about a node of the
first one, or that node would be looked up twice.

The visit of one node is by cases on what the agent hears of the look-up. If it hears of a lease or
that there is none, one write follows (`visit_write`); if it hears of a fault, there is none, and
the visit is over with the call that was not answered. The pass is by induction on the nodes. That
all calls about a node are answered is asked for when the visit is used, not when it is made, so one
node that cannot be reached does no harm to the others.
-/

namespace HollowFleet

open Agent

theorem Timestamp.later_later (t : Timestamp) (m n : ℕ) :
    (t.later m).later n = t.later (m + n) := by
  rw [later, later, later, Int.natCast_add, Int.add_assoc]

/-! ### Entries -/

namespace Call

/-- A call that writes a lease is about the node of the lease. -/
theorem target_of_lease? {c : Call} {lease : Lease} (h : c.lease? = some lease) :
    c.target = lease.name := by
  cases c <;> first | cases h; rfl | cases h

/-- The node whose lease is looked up. -/
def looksUp? : Call → Option String
  | getLease node => some node
  | _ => none

theorem looksUp?_of_lease? {c : Call} {lease : Lease} (h : c.lease? = some lease) :
    c.looksUp? = none := by
  cases c <;> first | rfl | cases h

end Call

namespace Entry

/-- The node whose lease was looked up. -/
def looksUp? (e : Entry) : Option String := e.call.looksUp?

/-- Whether the agent heard an answer. -/
def answered (e : Entry) : Bool := e.reply.isOk

/-- A write to the lease of a node is a call about that node. -/
theorem target_of_writes {e : Entry} {node : String} (h : e.writes node = true) :
    e.call.target = node := by
  obtain ⟨lease, hwritten, hname⟩ := Option.map_eq_some_iff.1 (of_decide_eq_true h)
  rw [Call.target_of_lease? (lease?_of_written? hwritten), hname]

end Entry

/-- Who hears an answer asked for something that was carried out. -/
theorem Fate.carriedOut_of_reply {c : Call} {fate : Fate} {answer : c.Answer}
    (h : (fate.reply answer).isOk = true) : fate.carriedOut = true := by
  cases hreply : fate.reply answer with
  | error fault =>
    rw [hreply] at h
    cases h
  | ok answer' =>
    obtain ⟨hgranted, -⟩ := eq_granted_of_reply hreply
    rw [carriedOut, hgranted]

/-! ### Visits -/

namespace TimedRegistry

/-- The clock and the time at a later point. -/
def Ahead (d : TimedRegistry) (clock : Timestamp) (now : ℕ) : Prop :=
  ∃ ns, clock = d.clock.later ns ∧ now = d.registry.now + ns

/-- Between two moments of a registry some calls are made. -/
structure Spell (d : TimedRegistry) (calls : List Entry) (d' : TimedRegistry) : Prop where
  /-- The log grows by the calls. -/
  log : d'.registry.log = d.registry.log ++ calls
  /-- Time does not go back. -/
  ahead : d.Ahead d'.clock d'.registry.now
  /-- The calls are sent in that time. -/
  sent : ∀ e ∈ calls, d.Ahead e.clock e.sent
  /-- They arrive in that time. -/
  landed : ∀ e ∈ calls, e.landed ≤ d'.registry.now
  /-- A lease is renewed at the clock of the call. -/
  stamped : ∀ e ∈ calls, ∀ lease, e.call.lease? = some lease → lease.renewTime? = some e.clock
  /-- Every lease stays under its name. -/
  filed : Filed d.registry.leases → Filed d'.registry.leases

/-- All of some nodes are visited once, in that order. -/
structure Visit (nodes : List String) (d : TimedRegistry) (calls : List Entry)
    (d' : TimedRegistry) : Prop extends Spell d calls d' where
  /-- The leases of the nodes are looked up once each. -/
  visited : calls.filterMap Entry.looksUp? = nodes
  /-- No call is about another node. -/
  targets : ∀ e ∈ calls, e.call.target ∈ nodes
  /-- If all calls about a node are answered, its lease is written once. -/
  written : ∀ node ∈ nodes, (∀ e ∈ calls, e.call.target = node → e.answered = true) →
    ∃ e, calls.filter (Entry.writes node) = [e]

variable (fates : ℕ → Call → Fate) {d d' d'' : TimedRegistry}

theorem Ahead.refl (d : TimedRegistry) : d.Ahead d.clock d.registry.now :=
  ⟨0, by simp [Timestamp.later], rfl⟩

theorem Ahead.trans (h : d.Ahead d'.clock d'.registry.now) {clock : Timestamp} {now : ℕ}
    (h' : d'.Ahead clock now) : d.Ahead clock now := by
  obtain ⟨m, hclock, hnow⟩ := h
  obtain ⟨n, rfl, rfl⟩ := h'
  exact ⟨m + n, by rw [hclock, Timestamp.later_later], by rw [hnow, Nat.add_assoc]⟩

/-- Time does not go back. -/
theorem Ahead.le {clock : Timestamp} {now : ℕ} (h : d.Ahead clock now) : d.registry.now ≤ now := by
  obtain ⟨ns, -, rfl⟩ := h
  exact Nat.le_add_right _ ns

namespace Spell

theorem refl (d : TimedRegistry) : d.Spell [] d where
  log := (List.append_nil _).symm
  ahead := .refl d
  sent := List.forall_mem_nil _
  landed := List.forall_mem_nil _
  stamped := List.forall_mem_nil _
  filed := id

theorem trans {calls calls' : List Entry} (h : d.Spell calls d') (h' : d'.Spell calls' d'') :
    d.Spell (calls ++ calls') d'' where
  log := by rw [h'.log, h.log, List.append_assoc]
  ahead := h.ahead.trans h'.ahead
  sent e he := by
    rcases List.mem_append.1 he with he | he
    · exact h.sent e he
    · exact h.ahead.trans (h'.sent e he)
  landed e he := by
    rcases List.mem_append.1 he with he | he
    · exact (h.landed e he).trans h'.ahead.le
    · exact h'.landed e he
  stamped e he := by
    rcases List.mem_append.1 he with he | he
    · exact h.stamped e he
    · exact h'.stamped e he
  filed hfiled := h'.filed (h.filed hfiled)

/-- A call that stamps what it writes. -/
theorem ask {c : Call}
    (hstamped : ∀ lease, c.lease? = some lease → lease.renewTime? = some d.clock) :
    d.Spell [d.entry fates c] (d.ask fates c) where
  log := rfl
  ahead := ⟨_, rfl, rfl⟩
  sent e he := by
    rw [List.mem_singleton.1 he]
    exact .refl d
  landed e he := by
    rw [List.mem_singleton.1 he]
    exact Nat.add_le_add_left (Nat.le_add_right _ _) _
  stamped e he := by
    rw [List.mem_singleton.1 he]
    exact hstamped
  filed hfiled := by
    have hleases : (d.ask fates c).registry.leases = (d.entry fates c).effect d.registry.leases :=
      d.registry.leases_after ..
    rw [hleases]
    exact hfiled.effect (d.entry fates c)

/-- A look-up writes nothing. -/
theorem ask_getLease (node : String) :
    d.Spell [d.entry fates (.getLease node)] (d.ask fates (.getLease node)) := by
  have hnone : (Call.getLease node).lease? = none := rfl
  refine .ask fates fun lease hlease ↦ ?_
  rw [hnone] at hlease
  cases hlease

end Spell

namespace Visit

theorem refl (d : TimedRegistry) : d.Visit [] [] d where
  toSpell := .refl d
  visited := rfl
  targets := List.forall_mem_nil _
  written := List.forall_mem_nil _

/-- Visits of different nodes follow each other. -/
theorem append {nodes nodes' : List String} {calls calls' : List Entry}
    (h : d.Visit nodes calls d') (h' : d'.Visit nodes' calls' d'')
    (hdisjoint : nodes.Disjoint nodes') : d.Visit (nodes ++ nodes') (calls ++ calls') d'' where
  toSpell := h.toSpell.trans h'.toSpell
  visited := by rw [List.filterMap_append, h.visited, h'.visited]
  targets e he := by
    rcases List.mem_append.1 he with he | he
    · exact List.mem_append_left _ (h.targets e he)
    · exact List.mem_append_right _ (h'.targets e he)
  written node hnode hanswered := by
    -- only one of the two visits writes the lease
    have hnone : ∀ {nodes : List String} {calls : List Entry},
        (∀ e ∈ calls, e.call.target ∈ nodes) → node ∉ nodes →
          calls.filter (Entry.writes node) = [] := by
      intro nodes calls htargets hnot
      refine List.filter_eq_nil_iff.2 fun e he hwrites ↦ hnot ?_
      rw [← Entry.target_of_writes hwrites]
      exact htargets e he
    rw [List.filter_append]
    rcases List.mem_append.1 hnode with hfirst | hsecond
    · obtain ⟨e, he⟩ := h.written node hfirst fun e he ↦ hanswered e (List.mem_append_left _ he)
      exact ⟨e, by rw [he, hnone h'.targets (hdisjoint hfirst), List.append_nil]⟩
    · have hnot : node ∉ nodes := fun hfirst ↦ hdisjoint hfirst hsecond
      obtain ⟨e, he⟩ := h'.written node hsecond fun e he ↦ hanswered e (List.mem_append_right _ he)
      exact ⟨e, by rw [he, hnone h.targets hnot, List.nil_append]⟩

end Visit

/-- A look-up and the write that follows it. -/
theorem visit_write {node : String} {c : Call} {lease : Lease} (hlease : c.lease? = some lease)
    (hname : lease.name = node)
    (htime : lease.renewTime? = some (d.ask fates (.getLease node)).clock) :
    d.Visit [node] [d.entry fates (.getLease node), (d.ask fates (.getLease node)).entry fates c]
      ((d.ask fates (.getLease node)).ask fates c) where
  toSpell := by
    refine (Spell.ask_getLease fates node).trans (.ask fates fun lease' hlease' ↦ ?_)
    rw [hlease] at hlease'
    cases hlease'
    exact htime
  visited := by
    have hcall : ((d.ask fates (.getLease node)).entry fates c).looksUp? = none :=
      Call.looksUp?_of_lease? hlease
    have hread : (d.entry fates (.getLease node)).looksUp? = some node := rfl
    rw [List.filterMap_cons_some hread, List.filterMap_cons_none hcall, List.filterMap_nil]
  targets e he := by
    have htarget : c.target = node := (Call.target_of_lease? hlease).trans hname
    rcases List.mem_pair.1 he with rfl | rfl
    · exact List.mem_singleton_self node
    · exact List.mem_singleton.2 htarget
  written node' hnode' hanswered := by
    obtain rfl := List.mem_singleton.1 hnode'
    have hread : (d.entry fates (.getLease node')).writes node' = false := by
      have hnone : (d.entry fates (.getLease node')).written? = none := ite_self none
      rw [Entry.writes, hnone]
      rfl
    have hwrite : ((d.ask fates (.getLease node')).entry fates c).writes node' = true := by
      have hcarriedOut := Fate.carriedOut_of_reply
        (hanswered ((d.ask fates (.getLease node')).entry fates c) (by simp)
          ((Call.target_of_lease? hlease).trans hname))
      have hwritten : ((d.ask fates (.getLease node')).entry fates c).written? = some lease := by
        rw [← hlease]
        exact if_pos hcarriedOut
      rw [Entry.writes, hwritten, Option.map_some, hname, decide_eq_true rfl]
    exact ⟨_, by rw [List.filter_cons_of_neg (by simp [hread]), List.filter_cons_of_pos hwrite,
      List.filter_nil]⟩

/-- A renewal is a visit. -/
theorem exists_visit_renew (settings : Settings) (hfiled : Filed d.registry.leases)
    (node : String) : ∃ calls, d.Visit [node] calls (d.renew fates settings node) := by
  rw [renew]
  cases hheard : d.heard fates (.getLease node) with
  | error fault =>
    refine ⟨[d.entry fates (.getLease node)], ?_⟩
    exact {
      toSpell := .ask_getLease fates node
      visited := rfl
      targets := fun e he ↦ by
        rw [List.mem_singleton.1 he]
        exact List.mem_singleton_self node
      written := fun node' hnode' hanswered ↦ by
        -- the look-up was not answered
        have hok : (d.heard fates (.getLease node)).isOk = true :=
          hanswered (d.entry fates (.getLease node)) (List.mem_singleton_self _)
            (List.mem_singleton.1 hnode').symm
        rw [hheard] at hok
        cases hok }
  | ok found =>
    obtain ⟨-, hthere, -⟩ := heard_getLease fates hheard
    cases found with
    | none => exact ⟨_, visit_write fates rfl rfl rfl⟩
    | some lease => exact ⟨_, visit_write fates rfl (hfiled node lease hthere) rfl⟩

/-- **A pass visits every node once.** -/
theorem exists_visit_foldl_renew (settings : Settings) (hfiled : Filed d.registry.leases)
    (nodes : List String) (hnodup : nodes.Nodup) :
    ∃ calls, d.Visit nodes calls (nodes.foldl (renew fates settings) d) := by
  induction nodes generalizing d with
  | nil => exact ⟨[], .refl d⟩
  | cons node rest ih =>
    obtain ⟨hnot, hrest⟩ := List.nodup_cons.1 hnodup
    obtain ⟨calls, hfirst⟩ := exists_visit_renew fates settings hfiled node
    obtain ⟨calls', hothers⟩ := ih (hfirst.filed hfiled) hrest
    exact ⟨calls ++ calls', hfirst.append hothers (List.singleton_disjoint.2 hnot)⟩

end TimedRegistry

end HollowFleet
