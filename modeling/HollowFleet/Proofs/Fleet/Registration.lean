import HollowFleet.Proofs.Dispatch.Holding
import HollowFleet.Proofs.Lease.Registry

/-!
# Registration of a node

The fleet numbers its nodes. To register the node of an index the agent looks it up, creates it if
there is none, tracks it, sees to its lease, and gives it a pool (`Registration`). Two of these
calls can end the registration, the look-up and the creation, and so can a block that cannot be
read; what becomes of the lease cannot (`Agent.Attempt`). The cluster keeps the nodes that it has
(`Registry.Grows`).

What is held of a node after its registration is settled by the node (`Node.terms`), and so it does
not matter when the node was created or how often it was registered.

The calls of a registration are told as a pattern of log entries, one constructor for each way in
which it can go. A pattern is built from the entries that the registry makes of the calls, so what
the agent heard, and whether a call was carried out, stand in it as well: a creation may have been
carried out although the agent hears a fault.

`exists_attempt` goes through the registration by cases on the answers, and each case ends in one of
three lemmas: the fault ends the attempt (`Attempt.lost`), the node is created first
(`Attempt.create`), or it is there and is tracked (`Attempt.enroll`). What is held of it then is
told by the events that tracking a node and giving it a pool amount to, so what is known of events
of nodes applies (`run_enroll`).
-/

namespace HollowFleet

open Agent Watch

/-! ### Nodes of the fleet -/

namespace Node

theorem fleetName_injective : Function.Injective fleetName := by
  intro i j h
  have hwritten : toString i = toString j := (String.append_right_inj _).1 h
  rw [← Text.digitsValue_toString i, hwritten, Text.digitsValue_toString]

/-- The node that is created for an index. -/
def member (now : Timestamp) (index : ℕ) : Node :=
  .healthy now (fleetName index) (fleetAddress index) (fleetBlock index)

theorem name_member (now : Timestamp) (index : ℕ) : (member now index).name = fleetName index := rfl

/-- Why a node gets no pool although it declares a block. -/
def poolFault? (node : Node) : Option Fault :=
  node.podBlock?.bind fun block ↦
    match Pool.parse block with
    | .ok _ => none
    | .error fault => some fault

/-- What is held of a node after its registration. -/
def terms (node : Node) : Holding := ⟨some (.ofNode node), node.pool?⟩

/-- The time of its creation is no matter. -/
theorem terms_member (now now' : Timestamp) (index : ℕ) :
    (member now index).terms = (member now' index).terms := rfl

theorem poolFault?_member (now now' : Timestamp) (index : ℕ) :
    (member now index).poolFault? = (member now' index).poolFault? := rfl

theorem poolFault?_eq_none_of_pool? {node : Node} (h : node.pool?.isSome = true) :
    node.poolFault? = none := by
  rw [pool?] at h
  rw [poolFault?]
  cases hblock : node.podBlock? with
  | none => rfl
  | some block =>
    rw [hblock] at h
    cases hparse : Pool.parse block with
    | ok pool => simp [hparse]
    | error fault => simp [hparse, Except.toOption] at h

/-- A node that is registered once more is held as before. -/
theorem after_terms (node : Node) : node.terms.after (.node ⟨.added, node⟩) = node.terms := by
  simp [terms, Holding.after]

/-- A node of which nothing was held is held on its terms. -/
theorem after_nothing (node : Node) : ({} : Holding).after (.node ⟨.added, node⟩) = node.terms :=
  rfl

end Node

/-! ### Nodes of the cluster -/

namespace Registry

/-- The node of a name. -/
def node? (w : Registry) (name : String) : Option Node := w.cluster.nodes.find? name

/-- Every node is kept under its name. -/
def Named (w : Registry) : Prop := ∀ name node, w.node? name = some node → node.name = name

/-- The nodes that are there are kept, and nodes of the fleet that are missing may be created. -/
def Grows (w w' : Registry) : Prop :=
  ∀ name, w'.node? name = w.node? name ∨
    (w.node? name = none ∧
      ∃ now index, name = Node.fleetName index ∧ w'.node? name = some (.member now index))

/-- The node of an index as it is, or as it would be created. -/
def member (w : Registry) (index : ℕ) : Node :=
  (w.node? (Node.fleetName index)).getD (.member ⟨0, false⟩ index)

variable {w w' w'' : Registry}

theorem Grows.refl (w : Registry) : w.Grows w := fun _ ↦ .inl rfl

theorem Grows.of_nodes (h : w'.cluster.nodes = w.cluster.nodes) : w.Grows w' :=
  fun name ↦ .inl (by rw [node?, h, node?])

theorem Grows.trans (h : w.Grows w') (h' : w'.Grows w'') : w.Grows w'' := by
  intro name
  rcases h' name with hsame | ⟨hnone, hcreated⟩
  · rw [hsame]
    exact h name
  · rcases h name with hsame | ⟨-, now, index, -, hsome⟩
    · exact .inr ⟨hsame ▸ hnone, hcreated⟩
    · rw [hsome] at hnone
      cases hnone

theorem Grows.node? (h : w.Grows w') {name : String} {node : Node}
    (hnode : w.node? name = some node) : w'.node? name = some node := by
  rcases h name with hsame | ⟨hnone, -⟩
  · rw [hsame, hnode]
  · rw [hnode] at hnone
    cases hnone

/-- A node that is missing in the end was missing at the start. -/
theorem Grows.node?_eq_none (h : w.Grows w') {name : String} (hnone : w'.node? name = none) :
    w.node? name = none := by
  rcases h name with hsame | ⟨hnone, -⟩
  · rw [← hsame, hnone]
  · exact hnone

/-- Nodes that are created are kept under their names too. -/
theorem Grows.named (h : w.Grows w') (hnamed : w.Named) : w'.Named := by
  intro name node hnode
  rcases h name with hsame | ⟨-, now, index, rfl, hsome⟩
  · exact hnamed name node (hsame ▸ hnode)
  · rw [hnode] at hsome
    cases hsome
    rfl

/-- The nodes of the fleet are held on the same terms, created or not. -/
theorem Grows.member (h : w.Grows w') (index : ℕ) :
    (w'.member index).terms = (w.member index).terms ∧
      (w'.member index).poolFault? = (w.member index).poolFault? := by
  rcases h (Node.fleetName index) with hsame | ⟨hnone, now, index', hname, hsome⟩
  · rw [Registry.member, hsame, Registry.member]
    exact ⟨rfl, rfl⟩
  · obtain rfl := Node.fleetName_injective hname
    rw [Registry.member, hsome, Registry.member, hnone]
    exact ⟨Node.terms_member .., Node.poolFault?_member ..⟩

/-- Where there is a node, the one that would be created is no matter. -/
theorem member_eq {index : ℕ} {node : Node} (h : w.node? (Node.fleetName index) = some node) :
    w.member index = node := by
  rw [member, h]
  rfl

/-- Only the creation of a node changes the nodes. -/
theorem nodes_after (w : Registry) (fate : Fate) (clock : Timestamp) {c : Call}
    (hc : ∀ node, c ≠ .createNode node) :
    (w.after fate clock c).cluster.nodes = w.cluster.nodes := by
  rw [after]
  dsimp only
  split
  · cases c with
    | createNode node => exact absurd rfl (hc node)
    | _ => rfl
  · rfl

/-- To create a node that is missing lets the cluster grow, whether it is carried out or not. -/
theorem grows_createNode (fate : Fate) (clock now : Timestamp) {index : ℕ}
    (hnone : w.node? (Node.fleetName index) = none) :
    w.Grows (w.after fate clock (.createNode (.member now index))) := by
  intro name
  rw [Registry.node?, after]
  dsimp only
  split
  · rw [Rehearsal.Script.perform, Table.find?_insert, Node.name_member]
    split
    · next heq => exact .inr ⟨heq ▸ hnone, now, index, heq, rfl⟩
    · exact .inl rfl
  · exact .inl rfl

end Registry

/-! ### The calls of a registration -/

namespace Entry

/-- The node that was looked up, by its name, if the agent heard the answer. -/
def node? : Entry → Option (String × Option Node)
  | ⟨.getNode name, _, _, _, _, .ok found⟩ => some (name, found)
  | _ => none

/-- The fault that the agent heard instead of an answer about a node. -/
def nodeFault? : Entry → Option Fault
  | ⟨.getNode _, _, _, _, _, .error fault⟩ => some fault
  | ⟨.createNode _, _, _, _, _, .error fault⟩ => some fault
  | _ => none

end Entry

theorem Entry.call_ne_of_node? {e : Entry} {name : String} {found : Option Node}
    (h : e.node? = some (name, found)) (created : Node) : e.call ≠ .createNode created := by
  intro hcall
  obtain ⟨c, clock, sent, landed, carriedOut, reply⟩ := e
  cases hcall
  cases h

/-- The calls about the lease of a node: it is looked up, and created or renewed if the agent hears
what is there. -/
inductive LeaseCalls (node : String) : List Entry → Prop
  /-- There are none for a node that is tracked. -/
  | none : LeaseCalls node []
  /-- The agent does not hear what is there. -/
  | read (read : Entry) (hread : read.call = .getLease node) : LeaseCalls node [read]
  /-- No lease is there. -/
  | create (read write : Entry) (lease : Lease) (hread : read.found? = some (node, .none))
      (hwrite : write.call = .createLease lease) (hname : lease.name = node) :
      LeaseCalls node [read, write]
  /-- A lease is there. -/
  | renew (read write : Entry) (lease : Lease) (hread : read.found? = some (node, some lease))
      (hwrite : write.call = .updateLease (lease.renewedAt write.clock)) :
      LeaseCalls node [read, write]

/-- The calls for an index: its node is looked up, and created if the agent hears that there is
none; then its lease is seen to. -/
inductive Registration (index : ℕ) : List Entry → Prop
  /-- The node is there, or the agent does not hear whether it is. -/
  | found (look : Entry) (calls : List Entry) (hlook : look.call = .getNode (Node.fleetName index))
      (hcalls : LeaseCalls (Node.fleetName index) calls) : Registration index (look :: calls)
  /-- No node is there. -/
  | created (look create : Entry) (calls : List Entry)
      (hlook : look.node? = some (Node.fleetName index, none))
      (hcreate : create.call = .createNode (.member create.clock index))
      (hcalls : LeaseCalls (Node.fleetName index) calls) :
      Registration index (look :: create :: calls)

/-- Any other call than a creation leaves the nodes alone. -/
theorem TimedRegistry.nodes_ask (fates : ℕ → Call → Fate) (d : TimedRegistry) {c : Call}
    (hc : ∀ node, c ≠ .createNode node) :
    (d.ask fates c).registry.cluster.nodes = d.registry.cluster.nodes :=
  d.registry.nodes_after (d.fate fates c) d.clock hc

/-- None of the calls about a lease creates a node. -/
theorem LeaseCalls.call_ne {node : String} {calls : List Entry} (h : LeaseCalls node calls)
    {e : Entry} (he : e ∈ calls) (created : Node) : e.call ≠ .createNode created := by
  have hread {read : Entry} {found : Option Lease} (hfound : read.found? = some (node, found)) :
      read.call ≠ .createNode created := by
    rintro hcall
    obtain ⟨c, clock, sent, landed, carriedOut, reply⟩ := read
    cases hcall
    cases hfound
  cases h with
  | none => cases he
  | read read hcall =>
    rw [List.mem_singleton.1 he, hcall]
    simp
  | create read write lease hfound hwrite =>
    rcases List.mem_pair.1 he with rfl | rfl
    · exact hread hfound
    · simp [hwrite]
  | renew read write lease hfound hwrite =>
    rcases List.mem_pair.1 he with rfl | rfl
    · exact hread hfound
    · simp [hwrite]

/-- A renewal makes the calls about a lease, and leaves the nodes alone. -/
theorem TimedRegistry.exists_leaseCalls_renew (fates : ℕ → Call → Fate) (settings : Settings)
    (d : TimedRegistry) (node : String) :
    ∃ calls, LeaseCalls node calls ∧
      (d.renew fates settings node).registry.log = d.registry.log ++ calls ∧
      (d.renew fates settings node).registry.cluster.nodes = d.registry.cluster.nodes := by
  have hread : (d.ask fates (.getLease node)).registry.cluster.nodes = d.registry.cluster.nodes :=
    d.nodes_ask fates (by simp)
  rw [renew]
  cases hheard : d.heard fates (.getLease node) with
  | error fault => exact ⟨[d.entry fates (.getLease node)], .read _ rfl, rfl, hread⟩
  | ok found =>
    obtain ⟨hfound, -, -⟩ := heard_getLease fates hheard
    cases found with
    | none =>
      let create : Call := .createLease (.forNode (d.ask fates (.getLease node)).clock node
        settings.leaseSpace settings.leaseDuration)
      refine ⟨[d.entry fates (.getLease node), (d.ask fates (.getLease node)).entry fates create],
        .create _ _ _ hfound rfl rfl, List.append_assoc .., ?_⟩
      exact (nodes_ask fates _ (by simp)).trans hread
    | some lease =>
      let update : Call :=
        .updateLease (lease.renewedAt (d.ask fates (.getLease node)).clock)
      refine ⟨[d.entry fates (.getLease node), (d.ask fates (.getLease node)).entry fates update],
        .renew _ _ _ hfound rfl, List.append_assoc .., ?_⟩
      exact (nodes_ask fates _ (by simp)).trans hread

/-! ### Enrolment -/

/-- Tracks a node and gives it a pool. -/
def Agent.enroll (node : Node) : Action Unit := do
  Action.lift (trackNode node)
  addPool node

namespace Registry

variable (fates : ℕ → Call → Fate)

/-- Of the agent the host touches only the clock. -/
theorem keeps_of_clock {τ : Type} {view : Agent → τ}
    (hview : ∀ (a : Agent) clock, view { a with clock } = view a) : (host fates).Keeps view where
  call _ a _ := hview a _
  submit _ _ _ _ := rfl

/-- The registry answers every call and does nothing on its own. -/
theorem discreet_host : (host fates).Discreet where
  answers := answers_host fates
  ledger := keeps_of_clock fates fun _ _ ↦ rfl
  pools _ := keeps_of_clock fates fun _ _ ↦ rfl

end Registry

namespace TimedRegistry

variable (fates : ℕ → Call → Fate) {d : TimedRegistry}

theorem entry_eq (c : Call) : d.entry fates c = ⟨c, d.clock, d.registry.now,
    d.registry.now + (d.fate fates c).outbound, (d.fate fates c).carriedOut, d.heard fates c⟩ :=
  rfl

theorem node?_entry {name : String} {found : Option Node}
    (h : d.heard fates (.getNode name) = .ok found) :
    (d.entry fates (.getNode name)).node? = some (name, found) := by
  rw [entry_eq, h]
  rfl

theorem nodeFault?_entry_getNode {name : String} {fault : Fault}
    (h : d.heard fates (.getNode name) = .error fault) :
    (d.entry fates (.getNode name)).nodeFault? = some fault := by
  rw [entry_eq, h]
  rfl

theorem nodeFault?_entry_createNode {node : Node} {fault : Fault}
    (h : d.heard fates (.createNode node) = .error fault) :
    (d.entry fates (.createNode node)).nodeFault? = some fault := by
  rw [entry_eq, h]
  rfl

/-- A call of which the agent hears a fault was not granted. -/
theorem lost_of_heard {c : Call} {fault : Fault} (h : d.heard fates c = .error fault) :
    ∃ count c, (fates count c).fortune ≠ .granted := by
  refine ⟨d.registry.log.length, c, fun hgranted ↦ ?_⟩
  rw [heard, fate, Fate.reply, hgranted] at h
  cases h

/-- What the agent hears of a node is what is there. -/
theorem node?_of_heard {name : String} {found : Option Node}
    (h : d.heard fates (.getNode name) = .ok found) : d.registry.node? name = found :=
  (Fate.eq_granted_of_reply h).2.symm

/-- A node whose creation was answered is there. -/
theorem node?_ask_createNode {node : Node} {answer : Unit}
    (h : d.heard fates (.createNode node) = .ok answer) :
    (d.ask fates (.createNode node)).registry.node? node.name = some node := by
  have hdone : (d.fate fates (.createNode node)).carriedOut = true := by
    rw [Fate.carriedOut, (Fate.eq_granted_of_reply h).1]
  rw [ask, Registry.node?, Registry.after]
  dsimp only
  rw [if_pos hdone, Rehearsal.Script.perform, Table.find?_insert_self]

end TimedRegistry

namespace Agent

theorem run_get_bind {ε β : Type} (host : Host Agent ε) (world : ε) (a : Agent)
    (next : Agent → Action β) :
    (Action.get >>= next).run.run host world a = (next a).run.run host world a := rfl

/-- A pool is added without a call. It is refused if there is none yet and the block of the node
cannot be read. -/
theorem run_addPool {ε : Type} (host : Host Agent ε) (world : ε) (a : Agent) (node : Node) :
    ((addPool node).run.run host world a).world = world ∧
      ((addPool node).run.run host world a).result =
        some (if (poolAt node.name a).isSome then .ok ()
          else node.poolFault?.elim (.ok ()) .error) := by
  have hcontains : a.pools.contains node.name = (poolAt node.name a).isSome := rfl
  rw [addPool, run_get_bind, ← hcontains]
  by_cases hpool : a.pools.contains node.name = true
  · rw [if_pos hpool, if_pos hpool]
    exact ⟨rfl, rfl⟩
  · rw [if_neg hpool, if_neg hpool, Node.poolFault?]
    cases node.podBlock? with
    | none => exact ⟨rfl, rfl⟩
    | some block =>
      dsimp only [Option.bind_some]
      cases Pool.parse block with
      | ok pool => exact ⟨rfl, rfl⟩
      | error fault => exact ⟨rfl, rfl⟩

variable (fates : ℕ → Call → Fate) (w : Registry) (a : Agent)

/-- What a registration does once it has its node. -/
theorem run_enroll (node : Node) :
    let r := (enroll node).run.run (Registry.host fates) w a
    r.result = some (if (poolAt node.name a).isSome then .ok ()
        else node.poolFault?.elim (.ok ()) .error) ∧
      (∀ name, holding name r.state =
        if name = node.name then (holding name a).after (.node ⟨.added, node⟩)
        else holding name a) ∧
      r.state.settings = a.settings ∧ r.world.cluster.nodes = w.cluster.nodes ∧
      ∃ calls, LeaseCalls node.name calls ∧ r.world.log = w.log ++ calls := by
  intro r
  have hdiscreet := Registry.discreet_host fates
  let tracked := (trackNode node).run (Registry.host fates) w a
  obtain ⟨-, -, hrun⟩ :=
    hdiscreet.answers.run_bind w a (trackNode node) fun _ ↦ (addPool node).run
  have hr : r = (addPool node).run.run (Registry.host fates) tracked.world tracked.state := by
    rw [← hrun, ← Task.run_lift_bind]
    rfl
  obtain ⟨hworld, hresult⟩ := run_addPool (Registry.host fates) tracked.world tracked.state node
  rw [← hr] at hworld hresult
  refine ⟨?_, fun name ↦ ?_, ?_, ?_⟩
  · have hpool : poolAt node.name tracked.state = poolAt node.name a :=
      keeps_trackNode (fun _ _ ↦ rfl) (fun _ _ ↦ rfl) node a _ _ w (hdiscreet.pools node.name)
    rw [hresult, hpool]
  · -- what is held does not depend on whether a fault is a warning
    obtain ⟨-, -, hhandle⟩ :=
      hdiscreet.answers.run_bind w a (trackNode node) fun _ ↦ (addPool node).orWarn .nodeRefused
    have hwarned : holding name (((addPool node).orWarn .nodeRefused).run (Registry.host fates)
        tracked.world tracked.state).state = holding name r.state := by
      rw [hr]
      exact Task.view_run_orWarn (fun _ _ ↦ rfl) _ _ _ _ _
    have hhandled : holding name ((handle (.node ⟨.added, node⟩)).run (Registry.host fates) w
        a).state = holding name r.state :=
      (congrArg (fun run ↦ holding name run.state) hhandle).trans hwarned
    rw [← hhandled, holding_handle hdiscreet]
    simp [Notice.concerns, Notice.node?, eq_comm]
  · have hsettings : r.state.settings = tracked.state.settings := by
      rw [hr]
      exact keeps_addPool (fun _ _ ↦ rfl) node _ _ _ _
        (Registry.keeps_of_clock fates fun _ _ ↦ rfl)
    rw [hsettings]
    exact keeps_trackNode (fun _ _ ↦ rfl) (fun _ _ ↦ rfl) node a _ _ w
      (Registry.keeps_of_clock fates fun _ _ ↦ rfl)
  · have htimed : TimedRegistry.ofRun tracked = _ := TimedRegistry.ofRun_trackNode fates w a node
    rw [hworld]
    split at htimed
    · have hsame : tracked.world = w := congrArg TimedRegistry.registry htimed
      rw [hsame]
      exact ⟨rfl, [], .none, (List.append_nil _).symm⟩
    · obtain ⟨calls, hcalls, hlog, hnodes⟩ :=
        TimedRegistry.exists_leaseCalls_renew fates a.settings ⟨a.clock, w⟩ node.name
      rw [← htimed] at hlog hnodes
      exact ⟨hnodes, calls, hcalls, hlog⟩

/-- A registration as a look-up and what follows it, by what was found. -/
theorem registerNode_eq (index : ℕ) :
    registerNode index = Action.call (.getNode (Node.fleetName index)) >>= fun found ↦
      match found with
      | some node => enroll node
      | none => Action.get >>= fun agent ↦
          Action.call (.createNode (.member agent.clock index)) >>= fun _ ↦
            enroll (.member agent.clock index) := by
  rw [registerNode]
  congr 1
  funext found
  cases found <;> rfl

/-- **What the registration of an index does.** It makes its calls and keeps the nodes of the
cluster. Either the agent hears a fault instead of an answer about the node, and the registration
ends with it; then nothing is held that was not held before. Or the cluster has the node afterwards,
and the agent tracks it; then the registration can only fail because the block of the node cannot be
read. -/
structure Attempt (index : ℕ) (calls : List Entry) (r : Run Agent Registry (Except Fault Unit)) :
    Prop where
  /-- The calls are those of a registration. -/
  registration : Registration index calls
  /-- They are all that was called. -/
  log : r.world.log = w.log ++ calls
  /-- The nodes of the cluster are kept. -/
  grows : w.Grows r.world
  /-- No node is created that is there. -/
  created : ∀ e ∈ calls, ∀ node, e.call = .createNode node → w.node? node.name = none
  /-- The settings stay as they are. -/
  settings : r.state.settings = a.settings
  /-- How it ends. -/
  ends : (∃ fault, r.result = some (.error fault) ∧
      calls.getLast?.bind Entry.nodeFault? = some fault ∧
      (∃ count c, (fates count c).fortune ≠ .granted) ∧
      ∀ name, holding name r.state = holding name a) ∨
    ∃ node, r.world.node? (Node.fleetName index) = some node ∧
      r.result = some (if (poolAt (Node.fleetName index) a).isSome then .ok ()
        else node.poolFault?.elim (.ok ()) .error) ∧
      ∀ name, holding name r.state =
        if name = Node.fleetName index then (holding name a).after (.node ⟨.added, node⟩)
        else holding name a

variable {fates w a}

/-- An attempt that got its node tracks it. -/
theorem Attempt.enroll {index : ℕ} {calls : List Entry} {d : TimedRegistry} {node : Node}
    (hname : node.name = Node.fleetName index) (hnode : d.registry.node? node.name = some node)
    (hlog : d.registry.log = w.log ++ calls) (hgrows : w.Grows d.registry)
    (hcreated : ∀ e ∈ calls, ∀ node, e.call = .createNode node → w.node? node.name = none)
    (hcalls : ∀ {leases}, LeaseCalls (Node.fleetName index) leases →
      Registration index (calls ++ leases)) :
    ∃ calls, Attempt fates w a index calls
      ((Agent.enroll node).run.run (Registry.host fates) d.registry
        { a with clock := d.clock }) := by
  obtain ⟨hresult, hholding, hsettings, hnodes, leases, hleases, hlog'⟩ :=
    run_enroll fates d.registry { a with clock := d.clock } node
  rw [hname] at hresult hholding hleases hnode
  refine ⟨calls ++ leases, {
    registration := hcalls hleases
    log := by rw [hlog', hlog, List.append_assoc]
    grows := hgrows.trans (.of_nodes hnodes)
    created := fun e he created hcall ↦ ?_
    settings := hsettings
    ends := .inr ⟨node, ?_, hresult, hholding⟩ }⟩
  · rcases List.mem_append.1 he with he | he
    · exact hcreated e he created hcall
    · exact absurd hcall (hleases.call_ne he created)
  · rw [Registry.node?, hnodes]
    exact hnode

/-- An attempt ends with the fault that the agent hears instead of an answer about the node. -/
theorem Attempt.lost {index : ℕ} {calls : List Entry} {d : TimedRegistry} {fault : Fault}
    (hcalls : Registration index calls) (hlog : d.registry.log = w.log ++ calls)
    (hgrows : w.Grows d.registry)
    (hcreated : ∀ e ∈ calls, ∀ node, e.call = .createNode node → w.node? node.name = none)
    (hlast : calls.getLast?.bind Entry.nodeFault? = some fault)
    (hlost : ∃ count c, (fates count c).fortune ≠ .granted) :
    Attempt fates w a index calls
      ⟨{ a with clock := d.clock }, d.registry, some (.error fault)⟩ where
  registration := hcalls
  log := hlog
  grows := hgrows
  created := hcreated
  settings := rfl
  ends := .inl ⟨fault, rfl, hlast, hlost, fun _ ↦ rfl⟩

/-- An attempt that found no node creates one. -/
theorem Attempt.create {index : ℕ} {look : Entry} {d : TimedRegistry}
    (hlook : look.node? = some (Node.fleetName index, none))
    (hlog : d.registry.log = w.log ++ [look])
    (hnodes : d.registry.cluster.nodes = w.cluster.nodes)
    (hnone : w.node? (Node.fleetName index) = none) :
    ∃ calls, Attempt fates w a index calls
      ((Action.call (.createNode (.member d.clock index)) >>= fun _ ↦
        Agent.enroll (.member d.clock index)).run.run (Registry.host fates) d.registry
          { a with clock := d.clock }) := by
  let create : Call := .createNode (.member d.clock index)
  let created := d.ask fates create
  have hgrows : w.Grows created.registry := by
    refine (Registry.Grows.of_nodes hnodes).trans (Registry.grows_createNode _ _ _ ?_)
    rw [Registry.node?, hnodes]
    exact hnone
  have hlog' : created.registry.log = w.log ++ [look, d.entry fates create] := by
    show d.registry.log ++ [d.entry fates create] = _
    rw [hlog, List.append_assoc]
    rfl
  have hcreated (e : Entry) (he : e ∈ [look, d.entry fates create]) (node : Node)
      (hcall : e.call = .createNode node) : w.node? node.name = none := by
    rcases List.mem_pair.1 he with rfl | rfl
    · exact absurd hcall (Entry.call_ne_of_node? hlook node)
    · cases hcall
      exact hnone
  rw [TimedRegistry.run_call_bind]
  cases hanswer : d.heard fates create with
  | error fault =>
    exact ⟨_, .lost (.created _ _ _ hlook rfl .none) hlog' hgrows hcreated
      (TimedRegistry.nodeFault?_entry_createNode fates hanswer)
      (TimedRegistry.lost_of_heard fates hanswer)⟩
  | ok answer =>
    exact Attempt.enroll rfl (TimedRegistry.node?_ask_createNode fates hanswer) hlog' hgrows
      hcreated fun hleases ↦ .created _ _ _ hlook rfl hleases

variable (fates) (a)

/-- **Every registration is such an attempt.** -/
theorem exists_attempt (hnamed : w.Named) (index : ℕ) :
    ∃ calls, Attempt fates w a index calls
      ((registerNode index).run.run (Registry.host fates) w a) := by
  rw [registerNode_eq, TimedRegistry.run_call_bind]
  let first : TimedRegistry := ⟨a.clock, w⟩
  let look : Call := .getNode (Node.fleetName index)
  let looked := first.ask fates look
  have hlooked : looked.registry.cluster.nodes = w.cluster.nodes :=
    first.nodes_ask fates (by simp [look])
  have hlook (e : Entry) (he : e ∈ [first.entry fates look]) (node : Node)
      (hcall : e.call = .createNode node) : w.node? node.name = none := by
    rw [List.mem_singleton.1 he] at hcall
    cases hcall
  cases hheard : first.heard fates look with
  | error fault =>
    exact ⟨_, .lost (.found _ _ rfl .none) rfl (.of_nodes hlooked) hlook
      (TimedRegistry.nodeFault?_entry_getNode fates hheard)
      (TimedRegistry.lost_of_heard fates hheard)⟩
  | ok found =>
    have hfound : w.node? (Node.fleetName index) = found :=
      TimedRegistry.node?_of_heard fates hheard
    cases found with
    | some node =>
      have hname : node.name = Node.fleetName index := hnamed _ _ hfound
      refine Attempt.enroll hname ?_ (rfl : looked.registry.log = _) (.of_nodes hlooked) hlook
        fun hleases ↦ .found _ _ rfl hleases
      rw [hname, Registry.node?, hlooked]
      exact hfound
    | none => exact Attempt.create (TimedRegistry.node?_entry fates hheard) rfl hlooked hfound

end Agent

end HollowFleet
