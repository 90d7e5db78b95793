import HollowFleet.Proofs.Accounting.Totals

/-!
# Where a pod is charged

The charges of a pod lie with the accounts of nodes, and an event of a pod reaches one account
only, that of the node which the pod is bound to. So a pod that turns up on another node is
charged there, and nothing is taken off the account of the node where it was: for that, its
deletion from that node has to be reported.

`Ledger.holds_afterAll` says at which nodes a pod is charged after a run of events. From it,
`charged_last_iff` tells the runs along which a pod is charged at one node at most, the one it
was charged to last: those in which it leaves a node by a deletion before it is charged to
another one (`LeavesFirst`).

## What the main theorem rests on

* An event is classified for one key: it charges the pod to a node (`chargedTo?`), takes it off one
  (`clearedFrom?`), or does not concern it; never both (`clearedFrom?_of_chargedTo?`).
* `holds_after` is the step, for a ledger that tracks the nodes of the pod, and `holds_afterAll` the
  run: a pod is charged where some event charged it to and none took it off since.
* That the charge at the last node is the only one is then a statement about the run alone. If the
  pod left every other node in time, every earlier charge was taken off; if not, right after the
  charge that came too soon it is charged at two nodes.
-/

namespace HollowFleet

open Agent Watch

variable {key : String}

/-! ### Events that matter to a charge -/

/-- The node that an event charges the pod of a key to. A pod whose requests cannot be read is
not charged. -/
def chargedTo? (key : String) (e : Event Pod) : Option String :=
  if e.op ≠ .deleted ∧ e.object.key = key ∧ (Amounts.ofPod e.object).isOk = true then
    e.object.node?
  else none

/-- The node that an event takes the pod of a key off. -/
def clearedFrom? (key : String) (e : Event Pod) : Option String :=
  if e.op = .deleted ∧ e.object.key = key then e.object.node? else none

/-- An event that charges a pod does not take it off anywhere. -/
theorem clearedFrom?_of_chargedTo? {e : Event Pod} {node : String}
    (h : chargedTo? key e = some node) : clearedFrom? key e = none := by
  simp only [chargedTo?] at h
  split at h
  · next hc => exact if_neg fun hd ↦ hc.1 hd.1
  · cases h

/-- The node that the pod of a key was charged to last. -/
def lastCharged? (key : String) (events : List (Event Pod)) : Option String :=
  (events.filterMap (chargedTo? key)).getLast?

/-- The pod of a key is deleted from a node before it is charged to another one. -/
def LeavesFirst (key : String) (events : List (Event Pod)) : Prop :=
  ∀ past e between e' rest node node',
    events = past ++ e :: (between ++ e' :: rest) → chargedTo? key e = some node →
    chargedTo? key e' = some node' → node ≠ node' → ∃ d ∈ between, clearedFrom? key d = some node

namespace Ledger

/-! ### One event -/

/-- The account of a node holds a charge for a key. -/
def Holds (ledger : Ledger) (key node : String) : Prop :=
  ∃ account, ledger.find? node = some account ∧ account.charges.contains key = true

theorem holds_iff {ledger : Ledger} {node : String} {account : Account}
    (h : ledger.find? node = some account) :
    ledger.Holds key node ↔ account.charges.contains key = true := by
  simp [Holds, h]

/-- A charge is there for its own key and for those that were there before. -/
theorem contains_charges_charge (a : Account) (key' : String) (amount : Amounts) :
    (a.charge key' amount).charges.contains key = true ↔
      key' = key ∨ a.charges.contains key = true := by
  simp only [Account.charge, Table.contains, Table.find?_insert]
  by_cases h : key = key'
  · simp [h]
  · simp [h, Ne.symm h]

/-- A charge that is dropped is missing for its own key only. -/
theorem contains_charges_discharge (a : Account) (key' : String) :
    (a.discharge key').charges.contains key = true ↔
      key' ≠ key ∧ a.charges.contains key = true := by
  by_cases h : key' = key
  · subst h
    cases hfound : a.charges.find? key' <;> simp [Account.discharge, Table.contains, hfound]
  · cases hfound : a.charges.find? key' <;>
      simp [Account.discharge, Table.contains, hfound, Table.find?_erase, h, Ne.symm h]

/-- Filing an account says nothing about the other ones. -/
theorem holds_insert (ledger : Ledger) (node' : String) (account : Account) (node : String) :
    Holds (ledger.insert node' account) key node ↔
      if node = node' then account.charges.contains key = true else ledger.Holds key node := by
  simp only [Holds, Table.find?_insert]
  split <;> simp

/-- A pod on a tracked node has the account of that node. -/
theorem accountOf?_of_tracked {ledger : Ledger} {pod : Pod} {node : String}
    (hnode : pod.node? = some node) (htracked : (ledger.find? node).isSome) :
    ∃ account, ledger.find? node = some account ∧
      ledger.accountOf? pod = some (node, account) := by
  obtain ⟨account, hfound⟩ := Option.isSome_iff_exists.1 htracked
  exact ⟨account, hfound, accountOf?_eq_some_iff.2 ⟨hnode, hfound⟩⟩

theorem accountOf?_of_unbound {ledger : Ledger} {pod : Pod} (hnode : pod.node? = none) :
    ledger.accountOf? pod = none := by
  simp [accountOf?, hnode]

/-- Every node that a pod may be bound to is tracked. -/
def Tracks (ledger : Ledger) (pod : Pod) : Prop :=
  ∀ node, pod.node? = some node → (ledger.find? node).isSome

/-- A pod is charged at the node that it names, and every other charge stays where it is. -/
theorem holds_charge {ledger : Ledger} {pod : Pod} (htracked : ledger.Tracks pod)
    (node : String) :
    ((ledger.charge pod).toOption.getD ledger).Holds key node ↔
      (pod.key = key ∧ (Amounts.ofPod pod).isOk = true ∧ pod.node? = some node) ∨
        ledger.Holds key node := by
  cases hnode : pod.node? with
  | none => simp [charge, accountOf?_of_unbound hnode, Except.toOption]
  | some node' =>
    obtain ⟨account, hfound, hof⟩ := accountOf?_of_tracked hnode (htracked node' hnode)
    cases hread : Amounts.ofPod pod with
    | error fault =>
      simp [charge, hof, hread, Except.map, Except.toOption, Except.isOk, Except.toBool]
    | ok amount =>
      simp only [charge, hof, hread, Except.map, Except.toOption, Option.getD_some, holds_insert,
        contains_charges_charge, Except.isOk, Except.toBool, true_and, Option.some.injEq]
      by_cases heq : node = node'
      · subst heq
        simp [holds_iff hfound]
      · simp [heq, Ne.symm heq]

/-- A pod is taken off the node that it names, and off no other one. -/
theorem holds_discharge {ledger : Ledger} {pod : Pod} (htracked : ledger.Tracks pod)
    (node : String) :
    (ledger.discharge pod).Holds key node ↔
      ¬ (pod.key = key ∧ pod.node? = some node) ∧ ledger.Holds key node := by
  cases hnode : pod.node? with
  | none => simp [discharge, accountOf?_of_unbound hnode]
  | some node' =>
    obtain ⟨account, hfound, hof⟩ := accountOf?_of_tracked hnode (htracked node' hnode)
    simp only [discharge, hof, holds_insert, contains_charges_discharge, Option.some.injEq]
    by_cases heq : node = node'
    · subst heq
      simp [holds_iff hfound]
    · simp [heq, Ne.symm heq]

/-- Where a pod is charged after an event: where the event charges it to, and where it was
charged before unless the event takes it off. -/
theorem holds_after {ledger : Ledger} {e : Event Pod} (htracked : ledger.Tracks e.object)
    (node : String) :
    (ledger.after (.pod e)).Holds key node ↔
      chargedTo? key e = some node ∨
        (ledger.Holds key node ∧ clearedFrom? key e ≠ some node) := by
  obtain ⟨op, pod⟩ := e
  cases op with
  | added | updated =>
    rw [after, holds_charge htracked]
    simp [chargedTo?, clearedFrom?, and_assoc]
  | deleted =>
    rw [after, holds_discharge htracked, and_comm]
    simp [chargedTo?, clearedFrom?]

/-- To file an account for a tracked node tracks no other one. -/
theorem isSome_find?_insert {ledger : Ledger} {node' : String} (account : Account)
    (h : (ledger.find? node').isSome) (node : String) :
    ((ledger.insert node' account).find? node).isSome = (ledger.find? node).isSome := by
  rw [Table.find?_insert]
  split
  · next heq => rw [heq, h]; rfl
  · rfl

/-- No node comes or goes with the event of a pod. -/
theorem isSome_find?_after_pod (ledger : Ledger) (e : Event Pod) (node : String) :
    ((ledger.after (.pod e)).find? node).isSome = (ledger.find? node).isSome := by
  obtain ⟨op, pod⟩ := e
  have hof : ∀ node' account, ledger.accountOf? pod = some (node', account) →
      (ledger.find? node').isSome := fun node' account h ↦ by
    rw [(accountOf?_eq_some_iff.1 h).2]
    rfl
  cases op with
  | added | updated =>
    simp only [after, charge]
    split
    · rfl
    · next node' account h =>
      cases Amounts.ofPod pod with
      | ok amount => exact isSome_find?_insert _ (hof node' account h) node
      | error fault => rfl
  | deleted =>
    simp only [after, discharge]
    split
    · rfl
    · next node' account h => exact isSome_find?_insert _ (hof node' account h) node

/-- The node of a pod stays tracked along events of pods. -/
theorem Tracks.after {ledger : Ledger} {pod : Pod} (h : ledger.Tracks pod) (e : Event Pod) :
    (ledger.after (.pod e)).Tracks pod := by
  intro node hnode
  rw [isSome_find?_after_pod]
  exact h node hnode

/-! ### Several events -/

theorem Tracks.afterAll {ledger : Ledger} {pod : Pod} (h : ledger.Tracks pod)
    (events : List (Event Pod)) : (ledger.afterAll (events.map .pod)).Tracks pod := by
  induction events generalizing ledger with
  | nil => exact h
  | cons e rest ih => exact ih (h.after e)

/-- Where a pod is charged after several events: at the nodes that one of them charged it to and
none took it off since. -/
theorem holds_afterAll {ledger : Ledger} (hnew : ∀ node, ¬ ledger.Holds key node)
    {events : List (Event Pod)} (htracked : ∀ e ∈ events, ledger.Tracks e.object)
    (node : String) :
    (ledger.afterAll (events.map .pod)).Holds key node ↔
      ∃ past e rest, events = past ++ e :: rest ∧ chargedTo? key e = some node ∧
        ∀ d ∈ rest, clearedFrom? key d ≠ some node := by
  induction events using List.reverseRecOn with
  | nil => simpa [afterAll] using hnew node
  | append_singleton events e ih =>
    have hlast := (htracked e (by simp)).afterAll events
    rw [List.map_append, List.map_singleton, afterAll_concat, holds_after hlast,
      ih fun e' he' ↦ htracked e' (List.mem_append_left _ he')]
    constructor
    · rintro (hcharged | ⟨⟨past, e₀, rest, rfl, hcharged, hkept⟩, hnow⟩)
      · exact ⟨events, e, [], rfl, hcharged, by simp⟩
      · refine ⟨past, e₀, rest ++ [e], by simp, hcharged, fun d hd ↦ ?_⟩
        rcases List.mem_append.1 hd with hd | hd
        · exact hkept d hd
        · rw [List.mem_singleton.1 hd]
          exact hnow
    · rintro ⟨past, e₀, rest, heq, hcharged, hkept⟩
      rcases List.eq_nil_or_concat rest with rfl | ⟨rest, e', rfl⟩
      · obtain ⟨rfl, rfl⟩ := List.append_singleton_inj.1 heq
        exact .inl hcharged
      · rw [List.concat_eq_append, ← List.cons_append, ← List.append_assoc,
          List.append_singleton_inj] at heq
        obtain ⟨rfl, rfl⟩ := heq
        exact .inr ⟨⟨past, e₀, rest, rfl, hcharged, fun d hd ↦ hkept d (by simp [hd])⟩,
          hkept e (by simp)⟩

end Ledger

/-! ### The last charge -/

/-- The last charge of a run is that of its last event, if there is one. -/
theorem lastCharged?_concat {e : Event Pod} {node : String} (h : chargedTo? key e = some node)
    (events : List (Event Pod)) : lastCharged? key (events ++ [e]) = some node := by
  simp [lastCharged?, h]

/-- After a charge the last one is that charge, or a later one. -/
theorem lastCharged?_of_charged {e : Event Pod} {node : String}
    (h : chargedTo? key e = some node) (past rest : List (Event Pod)) :
    lastCharged? key (past ++ e :: rest) = some node ∨
      ∃ node', lastCharged? key (past ++ e :: rest) = some node' ∧
        ∃ between e' later, rest = between ++ e' :: later ∧ chargedTo? key e' = some node' := by
  have hsplit : lastCharged? key (past ++ e :: rest) =
      (lastCharged? key rest).or (some node) := by
    simp [lastCharged?, h, List.getLast?_append, List.getLast?_cons]
  rw [hsplit]
  cases hlater : lastCharged? key rest with
  | none => exact .inl rfl
  | some node' =>
    obtain ⟨e', he', hcharged⟩ := List.mem_filterMap.1 (List.mem_of_getLast? hlater)
    obtain ⟨between, later, rfl⟩ := List.append_of_mem he'
    exact .inr ⟨node', rfl, between, e', later, rfl, hcharged⟩

variable {ε : Type}

/-- **Where a pod is charged.** On a new ledger that tracks the nodes of all pods, and whatever
the cluster answers, a pod is charged to the nodes that some event charged it to and none took
it off since. So along a run it is charged at no node but the one it was charged to last exactly
if it leaves every node by a deletion before it is charged to another one. -/
theorem charged_last_iff (host : Host Agent ε) (hhost : host.Keeps Agent.ledger) (world : ε)
    (a : Agent) (hnew : ∀ node, ¬ a.ledger.Holds key node) (events : List (Event Pod))
    (htracked : ∀ e ∈ events, a.ledger.Tracks e.object) :
    let books (past : List (Event Pod)) : Ledger :=
      (keepBooks host world a (past.map .pod)).1.ledger
    (∀ node, (books events).Holds key node ↔
      ∃ past e rest, events = past ++ e :: rest ∧ chargedTo? key e = some node ∧
        ∀ d ∈ rest, clearedFrom? key d ≠ some node) ∧
      ((∀ past, past <+: events → ∀ node, (books past).Holds key node →
        lastCharged? key past = some node) ↔ LeavesFirst key events) := by
  have hholds : ∀ past, past <+: events → ∀ node,
      Ledger.Holds (keepBooks host world a (past.map .pod)).1.ledger key node ↔
        ∃ before e rest, past = before ++ e :: rest ∧ chargedTo? key e = some node ∧
          ∀ d ∈ rest, clearedFrom? key d ≠ some node := by
    intro past hpast node
    rw [ledger_keepBooks hhost]
    exact Ledger.holds_afterAll hnew (fun e he ↦ htracked e (hpast.subset he)) node
  refine ⟨hholds events (List.prefix_refl _), fun hlast ↦ ?_, fun hleaves past hpast node h ↦ ?_⟩
  · intro past e between e' rest node node' heq hcharged hcharged' hne
    by_contra hstays
    push Not at hstays
    -- up to its second charge the pod is charged at both nodes
    have hpast : past ++ e :: (between ++ [e']) <+: events := ⟨rest, by simp [heq]⟩
    have hboth := (hholds _ hpast node).2 ⟨past, e, between ++ [e'], rfl, hcharged, fun d hd ↦ by
      rcases List.mem_append.1 hd with hd | hd
      · exact hstays d hd
      · rw [List.mem_singleton.1 hd, clearedFrom?_of_chargedTo? hcharged']
        exact nofun⟩
    have hfirst := hlast _ hpast node hboth
    rw [← List.cons_append, ← List.append_assoc, lastCharged?_concat hcharged'] at hfirst
    exact hne (Option.some.inj hfirst).symm
  · obtain ⟨before, e, rest, rfl, hcharged, hkept⟩ := (hholds past hpast node).1 h
    rcases lastCharged?_of_charged hcharged before rest with
      hlast | ⟨node', hlast, between, e', later, rfl, hcharged'⟩
    · exact hlast
    · obtain ⟨tail, rfl⟩ := hpast
      by_contra hne
      have hmoved : node ≠ node' := by
        rintro rfl
        exact hne hlast
      obtain ⟨d, hd, hcleared⟩ := hleaves before e between e' (later ++ tail) node node'
        (by simp) hcharged hcharged' hmoved
      exact hkept d (by simp [hd]) hcleared

/-! ### A pod that turns up on another node -/

/-- A pod named `web`, bound to a node. -/
def webOn (node uid : String) : Pod where
  metadata := { name := some "web", space := some "default", uid := some uid }
  spec := some { nodeName := some node, containers := [{ requests := some [("cpu", "500m")] }] }

/-- An agent that tracks two nodes. -/
def tracksTwo : Agent :=
  { Agent.initial {} ⟨0, false⟩ with
    ledger := ((∅ : Ledger).insert "mock-node-0" { address := none, capacity := {} }).insert
      "mock-node-1" { address := none, capacity := {} } }

theorem not_holds_tracksTwo (key node : String) : ¬ tracksTwo.ledger.Holds key node := by
  simp only [tracksTwo, Ledger.holds_insert]
  split
  · exact Bool.false_ne_true
  · split
    · exact Bool.false_ne_true
    · rintro ⟨account, hfound, -⟩
      cases hfound

theorem tracks_tracksTwo {node : String} (hnode : node = "mock-node-0" ∨ node = "mock-node-1")
    (uid : String) : tracksTwo.ledger.Tracks (webOn node uid) := by
  rcases hnode with rfl | rfl <;>
  · rintro node' hnode'
    cases hnode'
    decide

/-- A pod leaves one node by a deletion and comes to another one. -/
def departing : List (Event Pod) :=
  [⟨.added, webOn "mock-node-0" "first"⟩, ⟨.deleted, webOn "mock-node-0" "first"⟩,
    ⟨.added, webOn "mock-node-1" "second"⟩]

theorem leavesFirst_departing : LeavesFirst "default/web" departing := by
  intro past e between e' rest node node' heq hcharged hcharged' hne
  -- only the first and the last event charge, and the deletion stands between them
  rcases past with - | ⟨e₁, - | ⟨e₂, - | ⟨e₃, past⟩⟩⟩
  · obtain ⟨rfl, hrest⟩ := List.cons.inj heq
    rcases between with - | ⟨d, - | ⟨d', between⟩⟩
    · obtain ⟨rfl, -⟩ := List.cons.inj hrest
      cases hcharged'
    · obtain ⟨rfl, -⟩ := List.cons.inj hrest
      exact ⟨_, List.mem_singleton_self _, hcharged⟩
    · simp at hrest
  · obtain ⟨-, hrest⟩ := List.cons.inj heq
    obtain ⟨rfl, -⟩ := List.cons.inj hrest
    cases hcharged
  · simp [departing] at heq
  · simp [departing] at heq

/-- The deletion takes the pod off the node that it leaves, so its charge is at one node at any
time. -/
theorem charged_last_of_departing :
    LeavesFirst "default/web" departing ∧ ∀ past, past <+: departing → ∀ node,
      Ledger.Holds (keepBooks CommandLine.disconnected () tracksTwo (past.map .pod)).1.ledger
        "default/web" node → lastCharged? "default/web" past = some node := by
  have htracked : ∀ e ∈ departing, tracksTwo.ledger.Tracks e.object := by
    simp [departing, tracks_tracksTwo (.inl rfl), tracks_tracksTwo (.inr rfl)]
  refine ⟨leavesFirst_departing, ?_⟩
  exact (charged_last_iff _ (keeps_disconnected _) () tracksTwo (not_holds_tracksTwo _) departing
    htracked).2.2 leavesFirst_departing

/-- A pod comes to another node by an update. -/
def moving : List (Event Pod) :=
  [⟨.added, webOn "mock-node-0" "first"⟩, ⟨.updated, webOn "mock-node-1" "second"⟩]

/-- **A pod that moves by an update is charged twice**: nothing takes its charge off the node
where it was. -/
theorem not_charged_last_of_update :
    ¬ ∀ (host : Host Agent Unit), host.Keeps Agent.ledger → ∀ (a : Agent) (key : String)
      (events : List (Event Pod)), (∀ node, ¬ a.ledger.Holds key node) →
      (∀ e ∈ events, a.ledger.Tracks e.object) → ∀ node,
        Ledger.Holds (keepBooks host () a (events.map .pod)).1.ledger key node →
          lastCharged? key events = some node := by
  intro h
  have hstays : Ledger.Holds
      (keepBooks CommandLine.disconnected () tracksTwo (moving.map .pod)).1.ledger
      "default/web" "mock-node-0" := by
    refine ⟨{ address := none, capacity := {}, used := ⟨0, 500⟩
              charges := (∅ : Table Amounts).insert "default/web" ⟨0, 500⟩ }, ?_, rfl⟩
    decide +kernel
  have hlast := h _ (keeps_disconnected _) tracksTwo "default/web" moving (not_holds_tracksTwo _)
    (by simp [moving, tracks_tracksTwo (.inl rfl), tracks_tracksTwo (.inr rfl)]) _ hstays
  revert hlast
  decide +kernel

end HollowFleet
