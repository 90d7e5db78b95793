import HollowFleet.Proofs.Accounting.Holders
import HollowFleet.Proofs.Watch.Slot

/-!
# The charge of one pod at one node

Of all that an event does to the accounts, this is what it does to the charge of one pod at one
node. The event of another pod does nothing to it, nor does one of the pod itself on another
node; else the charge is dropped, or becomes what the pod requests (`bill`). So after several
events the charge is the one that the events of its key make of it (`chargeAt_afterAll_pods`).

To look at one charge at a time is what makes accounts comparable with anything that is kept per
key, such as the slots of a filter: an agreement of two tables becomes an agreement of two values
under each key, and events of other keys drop out of the induction.

The step is `chargeAt_after_pod`, by cases on what happened to the pod. It asks for the node of the
pod to be tracked, since an event of a pod on a node that is not is passed over; with that the
charge becomes what `bill` says, whatever was charged before. The run is by induction on the events,
where tracked nodes stay tracked because events of pods neither add nor drop a node
(`isSome_find?_afterAll_pods`). Events of nodes are the other half: they drop the charges of a node
that is deleted and no others (`chargeAt_after_node`).
-/

namespace HollowFleet

open Agent Watch

/-- The charge of a pod at a node after an event of the pod. Requests that cannot be read leave
it as it was. -/
def bill (node : String) (charge : Option Amounts) (e : Event Pod) : Option Amounts :=
  if e.object.node? = some node then
    if e.op = .deleted then none else (Amounts.ofPod e.object).toOption.or charge
  else charge

namespace Ledger

variable {ledger : Ledger} {node key : String}

/-- What a node's account charges the pod of a key, if the node is tracked and the pod is
charged. -/
def chargeAt (ledger : Ledger) (node key : String) : Option Amounts :=
  (ledger.find? node).bind fun account ↦ account.charges.find? key

theorem chargeAt_eq_some_iff {amount : Amounts} :
    ledger.chargeAt node key = some amount ↔
      ∃ account, ledger.find? node = some account ∧ account.charges.find? key = some amount :=
  Option.bind_eq_some_iff

/-- With the account at hand, a charge is what is filed there under the key. -/
theorem chargeAt_of_find? {account : Account} (h : ledger.find? node = some account) :
    ledger.chargeAt node key = account.charges.find? key := by
  rw [chargeAt, h, Option.bind_some]

/-- A pod is charged if its charge is some amount, be it nothing at all. -/
theorem holds_iff_isSome_chargeAt : ledger.Holds key node ↔ (ledger.chargeAt node key).isSome := by
  cases hfound : ledger.find? node with
  | none => simp [Holds, chargeAt, hfound]
  | some account => rw [holds_iff hfound, chargeAt_of_find? hfound, Table.contains]

/-- Filing an account says nothing about the other ones. -/
theorem chargeAt_insert (ledger : Ledger) (node' : String) (account : Account)
    (node key : String) : chargeAt (ledger.insert node' account) node key =
      if node = node' then account.charges.find? key else ledger.chargeAt node key := by
  rw [chargeAt, Table.find?_insert]
  split <;> rfl

/-! ### Events of pods -/

/-- A charge takes the place of the one that the key had before. -/
theorem find?_charges_charge (a : Account) (key' : String) (amount : Amounts) :
    (a.charge key' amount).charges.find? key =
      if key = key' then some amount else a.charges.find? key :=
  Table.find?_insert ..

theorem find?_charges_discharge (a : Account) (key' : String) :
    (a.discharge key').charges.find? key =
      if key = key' then none else a.charges.find? key := by
  rw [Account.discharge]
  split
  · exact Table.find?_erase ..
  · next hnone =>
    split
    · next heq => rw [heq, hnone]
    · rfl

/-- What a pod is charged with touches its own key and its own node; a misstated request touches
nothing. -/
theorem chargeAt_charge {pod : Pod} (htracked : ledger.Tracks pod) (node key : String) :
    ((ledger.charge pod).toOption.getD ledger).chargeAt node key =
      if pod.key = key ∧ pod.node? = some node then
        (Amounts.ofPod pod).toOption.or (ledger.chargeAt node key)
      else ledger.chargeAt node key := by
  cases hnode : pod.node? with
  | none => simp [charge, accountOf?_of_unbound hnode, Except.toOption]
  | some home =>
    obtain ⟨account, hfound, hof⟩ := accountOf?_of_tracked hnode (htracked home hnode)
    cases hread : Amounts.ofPod pod with
    | error fault => simp [charge, hof, hread, Except.map, Except.toOption]
    | ok amount =>
      simp only [charge, hof, hread, Except.map, Except.toOption, Option.getD_some,
        chargeAt_insert, find?_charges_charge, Option.some.injEq, Option.some_or]
      by_cases hhome : node = home
      · subst hhome
        rw [chargeAt_of_find? hfound]
        simp [eq_comm]
      · simp [hhome, Ne.symm hhome]

/-- What is dropped is dropped at the node that the pod names, and nowhere else. -/
theorem chargeAt_discharge {pod : Pod} (htracked : ledger.Tracks pod) (node key : String) :
    (ledger.discharge pod).chargeAt node key =
      if pod.key = key ∧ pod.node? = some node then none else ledger.chargeAt node key := by
  cases hnode : pod.node? with
  | none => simp [discharge, accountOf?_of_unbound hnode]
  | some home =>
    obtain ⟨account, hfound, hof⟩ := accountOf?_of_tracked hnode (htracked home hnode)
    simp only [discharge, hof, chargeAt_insert, find?_charges_discharge, Option.some.injEq]
    by_cases hhome : node = home
    · subst hhome
      rw [chargeAt_of_find? hfound]
      simp [eq_comm]
    · simp [hhome, Ne.symm hhome]

/-- What an event of a pod does to a charge. -/
theorem chargeAt_after_pod {e : Event Pod} (htracked : ledger.Tracks e.object)
    (node key : String) :
    (ledger.after (.pod e)).chargeAt node key =
      if e.object.key = key then bill node (ledger.chargeAt node key) e
      else ledger.chargeAt node key := by
  obtain ⟨op, pod⟩ := e
  cases op with
  | added | updated =>
    rw [after, chargeAt_charge htracked, bill]
    simp [ite_and]
  | deleted =>
    rw [after, chargeAt_discharge htracked, bill]
    simp [ite_and]

/-- After several events of pods, a charge is what those of its key make of it. -/
theorem chargeAt_afterAll_pods {events : List (Event Pod)}
    (htracked : ∀ e ∈ events, ledger.Tracks e.object)
    (hkey : ∀ e ∈ events, Watch.key e.object = e.object.key) (node key : String) :
    (ledger.afterAll (events.map .pod)).chargeAt node key =
      (eventsOf key events).foldl (bill node) (ledger.chargeAt node key) := by
  induction events generalizing ledger with
  | nil => rfl
  | cons e rest ih =>
    have htracked' : ∀ e' ∈ rest, (ledger.after (.pod e)).Tracks e'.object := fun e' he' ↦
      (htracked e' (List.mem_cons_of_mem e he')).after e
    have hrest := ih htracked' fun e' he' ↦ hkey e' (List.mem_cons_of_mem e he')
    have hfirst := chargeAt_after_pod (htracked e List.mem_cons_self) node key
    show ((ledger.after (.pod e)).afterAll (rest.map .pod)).chargeAt node key = _
    rw [hrest, hfirst, eventsOf_cons, hkey e List.mem_cons_self]
    split <;> rfl

/-- No node comes or goes with the events of pods. -/
theorem isSome_find?_afterAll_pods (ledger : Ledger) (events : List (Event Pod)) (node : String) :
    ((ledger.afterAll (events.map .pod)).find? node).isSome = (ledger.find? node).isSome := by
  induction events generalizing ledger with
  | nil => rfl
  | cons e rest ih =>
    have hrest := ih (ledger.after (.pod e))
    exact hrest.trans (isSome_find?_after_pod ledger e node)

/-! ### Events of nodes -/

/-- A node that is added or updated has an account from then on, with the charges that it had
before. -/
theorem after_node_eq (ledger : Ledger) {op : Op} (hop : op ≠ .deleted) (n : Node) :
    ((ledger.find? n.name).isSome ∧ ledger.after (.node ⟨op, n⟩) = ledger) ∨
      ∃ account : Account, ledger.after (.node ⟨op, n⟩) = ledger.insert n.name account ∧
        account.charges = ((ledger.find? n.name).map Account.charges).getD ∅ := by
  cases op with
  | deleted => exact absurd rfl hop
  | added =>
    rw [after]
    split
    · next htracked => exact .inl ⟨htracked, rfl⟩
    · next hnew =>
      have habsent : ledger.find? n.name = none := by simpa [Table.contains] using hnew
      exact .inr ⟨.ofNode n, rfl, by rw [habsent]; rfl⟩
  | updated =>
    refine .inr ⟨_, rfl, ?_⟩
    rw [Account.charges_report]
    cases ledger.find? n.name <;> rfl

/-- A node stays tracked, and a new one is, unless it is deleted. -/
theorem isSome_find?_after_node {e : Event Node} (h : e.op = .deleted → e.object.name ≠ node)
    (htracked : (ledger.find? node).isSome ∨ e.op ≠ .deleted ∧ e.object.name = node) :
    ((ledger.after (.node e)).find? node).isSome := by
  obtain ⟨op, n⟩ := e
  by_cases hop : op = .deleted
  · subst hop
    have hsome := htracked.resolve_right fun hadded ↦ hadded.1 rfl
    rw [after, Table.find?_erase, if_neg fun heq ↦ h rfl heq.symm]
    exact hsome
  · rcases after_node_eq ledger hop n with ⟨hsome, hsame⟩ | ⟨account, hfiled, -⟩
    · rw [hsame]
      rcases htracked with hnode | ⟨-, rfl⟩
      · exact hnode
      · exact hsome
    · rw [hfiled, Table.find?_insert]
      split
      · rfl
      · next hne => exact htracked.resolve_right fun hadded ↦ hne hadded.2.symm

/-- The event of a node changes no charge, unless the node is deleted. -/
theorem chargeAt_after_node {e : Event Node} (h : e.op = .deleted → e.object.name ≠ node)
    (key : String) : (ledger.after (.node e)).chargeAt node key = ledger.chargeAt node key := by
  obtain ⟨op, n⟩ := e
  by_cases hop : op = .deleted
  · subst hop
    rw [chargeAt, after, Table.find?_erase, if_neg fun heq ↦ h rfl heq.symm]
    rfl
  · rcases after_node_eq ledger hop n with ⟨-, hsame⟩ | ⟨account, hfiled, hcharges⟩
    · rw [hsame]
    · rw [hfiled, chargeAt_insert]
      split
      · next heq =>
        rw [hcharges, heq, chargeAt]
        cases ledger.find? n.name <;> rfl
      · rfl

end Ledger

end HollowFleet
