import HollowFleet.Proofs.Accounting.Bills
import HollowFleet.Proofs.Dispatch.Handling
import HollowFleet.Proofs.Watch.History

/-!
# From the watch to the accounts

What a watch reports on pods goes through a filter, and what the filter makes of it is handled
one event after the other. If the watch can be trusted (`Faithful`), the accounts show at every
moment what the filter knows: a pod is charged to a node exactly if it is known to be there and
not on its way out, and it is charged what it requests in the version that is known
(`charged_iff_known`).

The filter keeps silent about much, so the accounts cannot follow it report by report. What
carries the agreement is a fact about one key: whatever a report does to the slot of the key,
its event does the same to the charge (`Touch.foldl_bill_effect`).

## What the main theorem rests on

* `InStep` is the invariant: under every key, the charge at a node is what is owed for the slot
  (`owed`), and every node that came up is tracked. `InStep.report` and `InStep.node` are the steps,
  `Faithful.inStep` is the induction on what arrives.
* A version that is not news is not told, so the charge stays that of an earlier object. This is
  where one version of a pod has to have the same requests each time.
* An event is about an object that was just reported or was known before (`InStep.emitted`), so the
  hypotheses on reported pods are enough. For the deletion that a list makes up for it is the known
  object, whose node is the one that the pod was charged at.
* The agreement is on the accounts that are computed; `leaves_ledger_handleAll` takes it to those of
  an agent on any host that answers.
-/

namespace HollowFleet

open Agent Watch

/-! ### One key -/

/-- What is owed for the pod of a slot at a node. -/
def owed (node : String) (slot : Option (Known Pod)) : Option Amounts :=
  (slot.filter fun known ↦ !known.terminating && decide (known.object.node? = some node)).bind
    fun known ↦ (Amounts.ofPod known.object).toOption

/-- What is owed for a pod on its way out is nothing, and so it is at any other node. -/
theorem owed_some (node : String) (known : Known Pod) :
    owed node (some known) =
      if known.terminating = false ∧ known.object.node? = some node then
        (Amounts.ofPod known.object).toOption
      else none := by
  cases h : known.terminating <;>
    by_cases hnode : known.object.node? = some node <;> simp [owed, Option.filter, h, hnode]

@[simp]
theorem owed_none (node : String) : owed node none = none := rfl

theorem toOption_eq_some_iff {pod : Pod} {amount : Amounts} :
    (Amounts.ofPod pod).toOption = some amount ↔ Amounts.ofPod pod = .ok amount := by
  cases Amounts.ofPod pod <;> simp [Except.toOption]

theorem exists_amounts {pod : Pod} (h : (Amounts.ofPod pod).isOk = true) :
    ∃ amount, Amounts.ofPod pod = .ok amount := by
  cases hread : Amounts.ofPod pod with
  | ok amount => exact ⟨amount, rfl⟩
  | error fault =>
    rw [hread] at h
    cases h

/-- Something is owed for a pod that is there, on the node, with requests that can be read. -/
theorem owed_eq_some_iff {node : String} {slot : Option (Known Pod)} {amount : Amounts} :
    owed node slot = some amount ↔
      ∃ known, slot = some known ∧ known.terminating = false ∧
        known.object.node? = some node ∧ Amounts.ofPod known.object = .ok amount := by
  rcases slot with - | known
  · simp
  · rw [owed_some]
    split
    · next h => simp [toOption_eq_some_iff, h]
    · next h =>
      simp only [Option.some.injEq, exists_eq_left', reduceCtorEq, false_iff]
      exact fun ⟨ht, hnode, _⟩ ↦ h ⟨ht, hnode⟩

namespace Watch

/-- **What a report does to a slot, its event does to the charge.** This rests on the watch: the
requests of what is seen can be read, a pod does not change its node while it is known, and one
version of it has the same requests whenever it is seen. -/
theorem Touch.foldl_bill_effect (node : String) (t : Touch Pod) (slot : Option (Known Pod))
    (hreadable : ∀ pod, t = .seen pod → (Amounts.ofPod pod).isOk = true)
    (hnode : ∀ pod, t = .seen pod ∨ t = .gone pod → ∀ known ∈ slot,
      pod.node? = known.object.node?)
    (hversion : ∀ pod, t = .seen pod → ∀ known ∈ slot, version known.object = version pod →
      Amounts.ofPod known.object = Amounts.ofPod pod) :
    (t.effect slot).2.foldl (bill node) (owed node slot) = owed node (t.effect slot).1 := by
  cases t with
  | pass => rfl
  | seen pod =>
    obtain ⟨amount, hread⟩ := exists_amounts (hreadable pod rfl)
    rcases slot with - | known
    · rw [effect_seen_none]
      cases ht : Watched.terminating pod <;> simp [bill, owed_some]
    have hsame := hnode pod (.inl rfl) known rfl
    cases hk : known.terminating with
    | true => simp [effect_seen_of_terminating hk, owed_some, hk]
    | false =>
      cases ht : Watched.terminating pod with
      | true =>
        rw [effect_seen_terminating hk ht]
        by_cases hhere : known.object.node? = some node <;>
          simp [bill, owed_some, hk, hsame, hhere]
      | false =>
        by_cases hv : version known.object = version pod
        · -- nothing is told, but nothing changed that matters to the charge
          have hrequests := hversion pod rfl known rfl hv
          simp [effect_seen_same hk ht hv, owed_some, hk, hsame, hrequests]
        · rw [effect_seen_changed hk ht hv]
          by_cases hhere : known.object.node? = some node <;>
            simp [bill, owed_some, hk, hsame, hhere, hread, Except.toOption]
  | gone pod =>
    rcases slot with - | known
    · rw [effect_gone_none]
      cases hr : Watched.relevant pod <;> simp [bill]
    · have hsame := hnode pod (.inr rfl) known rfl
      rw [effect_gone_some]
      cases hk : known.terminating with
      | true => simp [owed_some, hk]
      | false =>
        by_cases hhere : known.object.node? = some node <;>
          simp [bill, owed_some, hk, hsame, hhere]
  | unlisted =>
    rcases slot with - | known
    · rfl
    · rw [effect_unlisted_some]
      cases hk : known.terminating with
      | true => simp [owed_some, hk]
      | false =>
        by_cases hhere : known.object.node? = some node <;>
          simp [bill, owed_some, hk, hhere]

/-! ### Where events come from -/

/-- The object that a report is about. -/
def Report.object? {κ : Type} : Report κ → Option κ
  | .init => none
  | .initApply object => some object
  | .initDone => none
  | .apply object => some object
  | .delete object => some object

variable {κ : Type} [Watched κ]

/-- What is seen or gone under a key is the object of the report, and has the key. -/
theorem Filter.object?_of_touch {f : Filter κ} {k : String} {r : Report κ} {object : κ}
    (h : f.touch k r = .seen object ∨ f.touch k r = .gone object) :
    r.object? = some object ∧ key object = k := by
  cases r with
  | init => rcases h with h | h <;> cases h
  | initApply seen | apply seen =>
    simp only [touch] at h
    split at h
    · next hc =>
      rcases h with h | h <;> cases h
      exact ⟨rfl, hc.2⟩
    · rcases h with h | h <;> cases h
  | initDone =>
    simp only [touch] at h
    repeat' split at h
    all_goals rcases h with h | h <;> cases h
  | delete gone =>
    simp only [touch] at h
    split at h
    · next hc =>
      rcases h with h | h <;> cases h
      exact ⟨rfl, hc⟩
    · rcases h with h | h <;> cases h

/-- The object of an event is that of the report, or it was known. -/
theorem Filter.object?_of_mem_step {f : Filter κ} (hf : f.Keyed) {r : Report κ} {e : Event κ}
    (he : e ∈ (f.step r).2) :
    r.object? = some e.object ∨
      ∃ k known, f.known.find? k = some known ∧ known.object = e.object := by
  have hevent : e ∈ ((f.touch (key e.object) r).effect (f.known.find? (key e.object))).2 := by
    rw [← eventsOf_step hf]
    exact List.mem_filter.2 ⟨he, by simp⟩
  cases ht : f.touch (key e.object) r with
  | pass =>
    rw [ht] at hevent
    cases hevent
  | seen object =>
    rw [ht] at hevent
    simp only [Touch.effect, Option.mem_toList, Option.map_eq_some_iff] at hevent
    obtain ⟨op, -, rfl⟩ := hevent
    exact .inl (object?_of_touch (.inl ht)).1
  | gone object =>
    rw [ht] at hevent
    simp only [Touch.effect, List.mem_ite_nil_right, List.mem_singleton] at hevent
    obtain ⟨-, rfl⟩ := hevent
    exact .inl (object?_of_touch (.inr ht)).1
  | unlisted =>
    rw [ht] at hevent
    simp only [Touch.effect, Option.mem_toList, Option.map_eq_some_iff, Option.filter_eq_some_iff]
      at hevent
    obtain ⟨known, ⟨hknown, -⟩, rfl⟩ := hevent
    exact .inr ⟨_, known, hknown, rfl⟩

/-- What is known after a report is its object, or was known before. -/
theorem Filter.object?_of_find?_step {f : Filter κ} {r : Report κ} {k : String} {known : Known κ}
    (h : (f.step r).1.known.find? k = some known) :
    r.object? = some known.object ∨ f.known.find? k = some known := by
  rw [find?_step] at h
  cases ht : f.touch k r with
  | pass =>
    rw [ht] at h
    exact .inr h
  | seen object =>
    rw [ht] at h
    cases h
    exact .inl (object?_of_touch (.inl ht)).1
  | gone object =>
    rw [ht] at h
    cases h
  | unlisted =>
    rw [ht] at h
    cases h

end Watch

/-! ### What arrives -/

/-- What arrives at the agent: a report on pods, or an event of a node. -/
inductive Arrival where
  /-- The watch on pods reports. -/
  | report (r : Report Pod)
  /-- Something happened to a node. -/
  | node (e : Event Node)

namespace Arrival

/-- What has to be handled when something arrives, and the filter after it. -/
def pass (f : Watch.Filter Pod) : Arrival → Watch.Filter Pod × List Notice
  | report r => ((f.step r).1, (f.step r).2.map .pod)
  | node e => (f, [.node e])

/-- What has to be handled after several arrivals at a new filter, and the filter after them. -/
def passAll (arrivals : List Arrival) : Watch.Filter Pod × List Notice :=
  arrivals.foldl (fun s x ↦ ((x.pass s.1).1, s.2 ++ (x.pass s.1).2)) ({}, [])

/-- One more report is put through the filter, and its events come after the others. -/
theorem passAll_report (arrivals : List Arrival) (r : Report Pod) :
    passAll (arrivals ++ [report r]) = (((passAll arrivals).1.step r).1,
      (passAll arrivals).2 ++ ((passAll arrivals).1.step r).2.map .pod) := by
  rw [passAll, List.foldl_concat]
  rfl

theorem passAll_node (arrivals : List Arrival) (e : Event Node) :
    passAll (arrivals ++ [node e]) = ((passAll arrivals).1, (passAll arrivals).2 ++ [.node e]) := by
  rw [passAll, List.foldl_concat]
  rfl

/-- Some report is about the pod. -/
def Mentions (arrivals : List Arrival) (pod : Pod) : Prop :=
  ∃ r, report r ∈ arrivals ∧ r.object? = some pod

theorem Mentions.mono {arrivals arrivals' : List Arrival} (h : arrivals ⊆ arrivals') {pod : Pod}
    (hpod : Mentions arrivals pod) : Mentions arrivals' pod := by
  obtain ⟨r, hr, hobject⟩ := hpod
  exact ⟨r, h hr, hobject⟩

/-- Pods are known under their own keys. -/
theorem keyed_passAll (arrivals : List Arrival) : (passAll arrivals).1.Keyed := by
  induction arrivals using List.reverseRecOn with
  | nil => exact Filter.keyed_empty
  | append_singleton arrivals x ih =>
    cases x with
    | report r =>
      rw [passAll_report]
      exact ih.step r
    | node e => rwa [passAll_node]

/-- Every pod that is known was reported. -/
theorem mentions_of_known {arrivals : List Arrival} {k : String} {known : Known Pod}
    (h : (passAll arrivals).1.known.find? k = some known) : Mentions arrivals known.object := by
  induction arrivals using List.reverseRecOn with
  | nil => cases h
  | append_singleton arrivals x ih =>
    cases x with
    | report r =>
      rw [passAll_report] at h
      rcases Filter.object?_of_find?_step h with hobject | hbefore
      · exact ⟨r, by simp, hobject⟩
      · exact (ih hbefore).mono (List.subset_append_left _ _)
    | node e =>
      rw [passAll_node] at h
      exact (ih h).mono (List.subset_append_left _ _)

/-- The node is tracked at first, or comes up by an event. -/
def Registers (ledger : Ledger) (arrivals : List Arrival) (name : String) : Prop :=
  (ledger.find? name).isSome ∨ ∃ e, node e ∈ arrivals ∧ e.op ≠ .deleted ∧ e.object.name = name

theorem Registers.mono {ledger : Ledger} {arrivals arrivals' : List Arrival}
    (h : arrivals ⊆ arrivals') {name : String} (hname : Registers ledger arrivals name) :
    Registers ledger arrivals' name :=
  hname.imp_right fun ⟨e, he, hadded⟩ ↦ ⟨e, h he, hadded⟩

end Arrival

open Arrival

/-- The watch on pods can be trusted, and the nodes are there. -/
structure Faithful (ledger : Ledger) (arrivals : List Arrival) : Prop where
  /-- Every pod has a namespace. -/
  named : ∀ pod, Mentions arrivals pod → pod.metadata.space.isSome = true
  /-- What a pod requests can be read. -/
  readable : ∀ pod, Mentions arrivals pod → (Amounts.ofPod pod).isOk = true
  /-- One version of a pod has the same requests whenever it is reported. -/
  sameVersion : ∀ pod pod', Mentions arrivals pod → Mentions arrivals pod' →
    Watch.key pod = Watch.key pod' → version pod = version pod' →
      Amounts.ofPod pod = Amounts.ofPod pod'
  /-- A pod does not change its node while it is known, also not when it is gone. -/
  sameNode : ∀ past r rest, arrivals = past ++ .report r :: rest → ∀ pod, r.object? = some pod →
    ∀ known, (passAll past).1.known.find? (Watch.key pod) = some known →
      pod.node? = known.object.node?
  /-- The node of a pod is there before the pod. -/
  registered : ∀ past r rest, arrivals = past ++ .report r :: rest → ∀ pod, r.object? = some pod →
    ∀ name, pod.node? = some name → Registers ledger past name
  /-- The node of a pod is never deleted. -/
  undeleted : ∀ e, .node e ∈ arrivals → e.op = .deleted → ∀ pod, Mentions arrivals pod →
    pod.node? ≠ some e.object.name

/-- What holds of a watch holds of what it reported before. -/
theorem Faithful.of_concat {ledger : Ledger} {arrivals : List Arrival} {x : Arrival}
    (h : Faithful ledger (arrivals ++ [x])) : Faithful ledger arrivals where
  named pod hpod := h.named pod (hpod.mono (List.subset_append_left _ _))
  readable pod hpod := h.readable pod (hpod.mono (List.subset_append_left _ _))
  sameVersion pod pod' hpod hpod' := h.sameVersion pod pod'
    (hpod.mono (List.subset_append_left _ _)) (hpod'.mono (List.subset_append_left _ _))
  sameNode past r rest heq := h.sameNode past r (rest ++ [x]) (by simp [heq])
  registered past r rest heq := h.registered past r (rest ++ [x]) (by simp [heq])
  undeleted e he hop pod hpod := h.undeleted e (List.mem_append_left _ he) hop pod
    (hpod.mono (List.subset_append_left _ _))

/-- In step: what the accounts show after some arrivals is what the filter knows. -/
structure InStep (ledger : Ledger) (arrivals : List Arrival) : Prop where
  /-- The nodes that came up and were not deleted are tracked. -/
  tracked : ∀ name, Registers ledger arrivals name →
    (∀ e, .node e ∈ arrivals → e.op = .deleted → e.object.name ≠ name) →
      ((ledger.afterAll (passAll arrivals).2).find? name).isSome = true
  /-- Every charge is what is owed. -/
  charged : ∀ name k, (ledger.afterAll (passAll arrivals).2).chargeAt name k =
    owed name ((passAll arrivals).1.known.find? k)

/-- Where nothing is charged and nothing is known, all is in step. -/
theorem inStep_nil {ledger : Ledger} (hnew : ∀ key node, ¬ ledger.Holds key node) :
    InStep ledger [] where
  tracked name h _ := by
    rcases h with h | ⟨e, he, -⟩
    · exact h
    · cases he
  charged name k := by
    show ledger.chargeAt name k = none
    have h := hnew k name
    rwa [Ledger.holds_iff_isSome_chargeAt, Bool.not_eq_true, Option.isSome_eq_false_iff,
      Option.isNone_iff_eq_none] at h

/-- An event of a node keeps the accounts in step. -/
theorem InStep.node {ledger : Ledger} {arrivals : List Arrival} (h : InStep ledger arrivals)
    {e : Event Node} (hfaithful : Faithful ledger (arrivals ++ [.node e])) :
    InStep ledger (arrivals ++ [.node e]) where
  tracked name hregisters hundeleted := by
    have hkept : ∀ e, .node e ∈ arrivals → e.op = .deleted → e.object.name ≠ name :=
      fun e he ↦ hundeleted e (List.mem_append_left _ he)
    rw [passAll_node, Ledger.afterAll_concat]
    refine Ledger.isSome_find?_after_node (hundeleted e (by simp)) ?_
    rcases hregisters with hfirst | ⟨e', he', hadded⟩
    · exact .inl (h.tracked name (.inl hfirst) hkept)
    · rcases List.mem_append.1 he' with he' | he'
      · exact .inl (h.tracked name (.inr ⟨e', he', hadded⟩) hkept)
      · cases List.mem_singleton.1 he'
        exact .inr hadded
  charged name k := by
    rw [passAll_node, Ledger.afterAll_concat, ← h.charged]
    by_cases hgone : e.op = .deleted ∧ e.object.name = name
    · -- no pod is known on a node that is deleted, so nothing is owed there
      obtain ⟨hop, rfl⟩ := hgone
      have hnothing : owed e.object.name ((passAll arrivals).1.known.find? k) = none := by
        refine Option.eq_none_iff_forall_ne_some.2 fun amount howed ↦ ?_
        obtain ⟨known, hknown, -, hnode, -⟩ := owed_eq_some_iff.1 howed
        have hmentioned := (mentions_of_known hknown).mono
          (List.subset_append_left _ [Arrival.node e])
        exact hfaithful.undeleted e (by simp) hop known.object hmentioned hnode
      rw [h.charged, hnothing]
      obtain ⟨op, n⟩ := e
      cases hop
      rw [Ledger.chargeAt, Ledger.after, Table.find?_erase_self]
      rfl
    · exact Ledger.chargeAt_after_node (fun hop hname ↦ hgone ⟨hop, hname⟩) k

/-- The filter and the accounts know a pod with a namespace by the same key. -/
theorem key_eq_of_space {pod : Pod} (h : pod.metadata.space.isSome = true) :
    Watch.key pod = pod.key := by
  obtain ⟨space, hspace⟩ := Option.isSome_iff_exists.1 h
  have hmetadata : (Watched.metadata pod).space = some space := hspace
  simp only [Watch.key, hmetadata, Pod.key, Metadata.qualifiedName, hspace, Option.getD_some]
  rfl

section Report

variable {ledger : Ledger} {arrivals : List Arrival} {r : Report Pod}

/-- The events of a report are about pods that were reported, on nodes that are tracked. -/
theorem InStep.emitted (h : InStep ledger arrivals)
    (hfaithful : Faithful ledger (arrivals ++ [.report r])) {e : Event Pod}
    (he : e ∈ ((passAll arrivals).1.step r).2) :
    Mentions (arrivals ++ [.report r]) e.object ∧
      (ledger.afterAll (passAll arrivals).2).Tracks e.object := by
  have hsource : Mentions (arrivals ++ [.report r]) e.object ∧
      ∀ name, e.object.node? = some name → Registers ledger arrivals name := by
    have hkeyed := keyed_passAll arrivals
    rcases Filter.object?_of_mem_step hkeyed he with hobject | ⟨k, known, hknown, heq⟩
    · exact ⟨⟨r, by simp, hobject⟩, hfaithful.registered arrivals r [] rfl e.object hobject⟩
    · -- a pod that is known came on a node that was there by then
      have hbefore := mentions_of_known hknown
      rw [heq] at hbefore
      obtain ⟨r', hr', hobject⟩ := hbefore
      obtain ⟨past, rest, hsplit⟩ := List.append_of_mem hr'
      refine ⟨⟨r', List.mem_append_left _ hr', hobject⟩, fun name hnode ↦ ?_⟩
      have hpast := hfaithful.of_concat.registered past r' rest hsplit e.object hobject name hnode
      exact hpast.mono (by rw [hsplit]; exact List.subset_append_left _ _)
  obtain ⟨hmentioned, hregisters⟩ := hsource
  refine ⟨hmentioned, fun name hnode ↦ h.tracked name (hregisters name hnode) ?_⟩
  intro e' he' hop hname
  exact hfaithful.undeleted e' (List.mem_append_left _ he') hop e.object hmentioned
    (hname ▸ hnode)

/-- At one key, the events of a report do to the charge what the report does to the slot. -/
theorem Faithful.foldl_bill (hfaithful : Faithful ledger (arrivals ++ [.report r]))
    (name k : String) :
    (eventsOf k ((passAll arrivals).1.step r).2).foldl (bill name)
        (owed name ((passAll arrivals).1.known.find? k)) =
      owed name (((passAll arrivals).1.step r).1.known.find? k) := by
  have hobject : ∀ pod, (passAll arrivals).1.touch k r = .seen pod ∨
      (passAll arrivals).1.touch k r = .gone pod → r.object? = some pod ∧
        Watch.key pod = k ∧ Mentions (arrivals ++ [.report r]) pod := fun pod ht ↦ by
    obtain ⟨hobject, hkey⟩ := Filter.object?_of_touch ht
    exact ⟨hobject, hkey, r, by simp, hobject⟩
  rw [Filter.eventsOf_step (keyed_passAll arrivals), Filter.find?_step]
  refine Touch.foldl_bill_effect name _ _ (fun pod ht ↦ ?_) (fun pod ht known hknown ↦ ?_)
    fun pod ht known hknown hv ↦ ?_
  · exact hfaithful.readable pod (hobject pod (.inl ht)).2.2
  · obtain ⟨hmine, rfl, -⟩ := hobject pod ht
    exact hfaithful.sameNode arrivals r [] rfl pod hmine known hknown
  · obtain ⟨-, hkey, hmentioned⟩ := hobject pod (.inl ht)
    have hbefore := (mentions_of_known hknown).mono
      (List.subset_append_left _ [Arrival.report r])
    exact hfaithful.sameVersion known.object pod hbefore hmentioned
      ((keyed_passAll arrivals k known hknown).trans hkey.symm) hv

/-- A report on pods keeps the accounts in step. -/
theorem InStep.report (h : InStep ledger arrivals)
    (hfaithful : Faithful ledger (arrivals ++ [.report r])) :
    InStep ledger (arrivals ++ [.report r]) where
  tracked name hregisters hundeleted := by
    have hbefore : Registers ledger arrivals name := by
      refine hregisters.imp_right fun ⟨e, he, hadded⟩ ↦ ⟨e, ?_, hadded⟩
      simpa using he
    rw [passAll_report, Ledger.afterAll_append, Ledger.isSome_find?_afterAll_pods]
    exact h.tracked name hbefore fun e he ↦ hundeleted e (List.mem_append_left _ he)
  charged name k := by
    have htracked : ∀ e ∈ ((passAll arrivals).1.step r).2,
        (ledger.afterAll (passAll arrivals).2).Tracks e.object := fun e he ↦
      (h.emitted hfaithful he).2
    have hkey : ∀ e ∈ ((passAll arrivals).1.step r).2, Watch.key e.object = e.object.key :=
      fun e he ↦ key_eq_of_space (hfaithful.named _ (h.emitted hfaithful he).1)
    rw [passAll_report, Ledger.afterAll_append, Ledger.chargeAt_afterAll_pods htracked hkey,
      h.charged]
    exact hfaithful.foldl_bill name k

end Report

/-- **A watch that can be trusted keeps the accounts in step**, by induction on what arrives. -/
theorem Faithful.inStep {ledger : Ledger} (hnew : ∀ key node, ¬ ledger.Holds key node)
    {arrivals : List Arrival} (h : Faithful ledger arrivals) : InStep ledger arrivals := by
  induction arrivals using List.reverseRecOn with
  | nil => exact inStep_nil hnew
  | append_singleton arrivals x ih =>
    cases x with
    | report r => exact (ih h.of_concat).report h
    | node e => exact (ih h.of_concat).node h

theorem Faithful.of_prefix {ledger : Ledger} {part arrivals : List Arrival}
    (hpart : part <+: arrivals) (h : Faithful ledger arrivals) : Faithful ledger part := by
  obtain ⟨rest, rfl⟩ := hpart
  induction rest using List.reverseRecOn with
  | nil => rwa [List.append_nil] at h
  | append_singleton rest x ih =>
    rw [← List.append_assoc] at h
    exact ih h.of_concat

/-! ### The accounts -/

namespace Agent

/-- Several events that are handled to their end leave the accounts that each makes of those
before it. -/
theorem leaves_ledger_handleAll (notices : List Notice) (s : Agent) :
    Task.Leaves Agent.ledger (handleAll notices) s (s.ledger.afterAll notices) := by
  induction notices generalizing s with
  | nil => exact Task.Ensures.leaves (.pure rfl)
  | cons notice rest ih =>
    refine (leaves_ledger_handle notice s).bind fun s' _ hs' ↦ ?_
    have hrest := ih s'
    rw [hs'] at hrest
    exact hrest

/-- **The accounts mirror the watch.** Reports on pods and events of nodes arrive at an agent
that has charged nothing, and all that they give rise to is handled, whatever the cluster
answers. After each of them, a pod is charged to a node exactly if the filter knows it to be
there and not on its way out, and it is charged what it requests in the version that the filter
knows. -/
theorem charged_iff_known {ε : Type} (host : Host Agent ε) (hhost : host.Keeps Agent.ledger)
    (hanswers : host.Answers) (world : ε) (a : Agent)
    (hnew : ∀ key node, ¬ a.ledger.Holds key node) (arrivals : List Arrival)
    (hfaithful : Faithful a.ledger arrivals) (part : List Arrival) (hpart : part <+: arrivals)
    (node key : String) :
    let filter := (passAll part).1
    let ledger := ((handleAll (passAll part).2).run host world a).state.ledger
    (ledger.Holds key node ↔ ∃ known, filter.known.find? key = some known ∧
        known.terminating = false ∧ known.object.node? = some node) ∧
      ∀ amount, (∃ account, ledger.find? node = some account ∧
          account.charges.find? key = some amount) ↔
        ∃ known, filter.known.find? key = some known ∧ known.terminating = false ∧
          known.object.node? = some node ∧ Amounts.ofPod known.object = .ok amount := by
  intro filter ledger
  have hpast := hfaithful.of_prefix hpart
  have hstep := hpast.inStep hnew
  have hledger : ledger = a.ledger.afterAll (passAll part).2 :=
    (leaves_ledger_handleAll (passAll part).2 a).view_run hhost hanswers world
  have hcharged : ledger.chargeAt node key = owed node (filter.known.find? key) := by
    rw [hledger]
    exact hstep.charged node key
  have hamount : ∀ amount, (∃ account, ledger.find? node = some account ∧
      account.charges.find? key = some amount) ↔
        ∃ known, filter.known.find? key = some known ∧ known.terminating = false ∧
          known.object.node? = some node ∧ Amounts.ofPod known.object = .ok amount := by
    intro amount
    rw [← Ledger.chargeAt_eq_some_iff, hcharged, owed_eq_some_iff]
  refine ⟨?_, hamount⟩
  rw [Ledger.holds_iff_isSome_chargeAt, hcharged, Option.isSome_iff_exists]
  simp only [owed_eq_some_iff]
  constructor
  · rintro ⟨amount, known, hknown, hmark, hnode, -⟩
    exact ⟨known, hknown, hmark, hnode⟩
  · rintro ⟨known, hknown, hmark, hnode⟩
    obtain ⟨amount, hread⟩ :=
      exists_amounts (hpast.readable known.object (mentions_of_known hknown))
    exact ⟨amount, known, hknown, hmark, hnode, hread⟩

/-! ### A pod that comes, changes and goes -/

/-- A pod in a version, with what it requests of a processor, that may be on its way out. -/
def webAt (version cpu : String) (leaving : Option Timestamp) : Pod where
  metadata := {
    name := some "web"
    space := some "default"
    resourceVersion := some version
    deletionTimestamp := leaving }
  spec := some
    { nodeName := some "mock-node-0", containers := [{ requests := some [("cpu", cpu)] }] }

/-- The pod as it was when it came. -/
def webFirst : Pod := webAt "1" "500m" none

/-- The pod with a greater request. -/
def webChanged : Pod := webAt "2" "1" none

/-- The pod on its way out. -/
def webLeaving : Pod := webAt "3" "1" (some ⟨9, false⟩)

/-- A node is added and a pod comes. That it changes is missed, and made up for by a list; it is
seen on its way out, and that it is gone is missed again until the next list. -/
def shortLife : List Arrival :=
  [.node ⟨.added, nodeWithBlock⟩, .report (.apply webFirst),
    .report .init, .report (.initApply webChanged), .report .initDone,
    .report (.apply webLeaving), .report .init, .report .initDone]

/-- The reports are about these three versions of one pod. -/
theorem mentions_shortLife {pod : Pod} (h : Mentions shortLife pod) :
    pod = webFirst ∨ pod = webChanged ∨ pod = webLeaving := by
  obtain ⟨r, hr, hobject⟩ := h
  simp only [shortLife, List.mem_cons, reduceCtorEq, Arrival.report.injEq, List.not_mem_nil,
    or_false, false_or] at hr
  rcases hr with rfl | rfl | rfl | rfl | rfl | rfl | rfl
  · exact .inl (Option.some.inj hobject).symm
  · cases hobject
  · exact .inr (.inl (Option.some.inj hobject).symm)
  · cases hobject
  · exact .inr (.inr (Option.some.inj hobject).symm)
  · cases hobject
  · cases hobject

/-- One pod on one node, in versions of which each has its own requests. -/
theorem faithful_shortLife (ledger : Ledger) : Faithful ledger shortLife where
  named pod h := by rcases mentions_shortLife h with rfl | rfl | rfl <;> rfl
  readable pod h := by rcases mentions_shortLife h with rfl | rfl | rfl <;> decide +kernel
  sameVersion pod pod' h h' _ hv := by
    -- the three versions differ from each other
    rcases mentions_shortLife h with rfl | rfl | rfl <;>
      rcases mentions_shortLife h' with rfl | rfl | rfl <;>
        first | exact absurd hv (by decide) | rfl
  sameNode past r rest heq pod hobject known hknown := by
    -- the pod is on one node in all versions
    have hpast : past ⊆ shortLife := by
      rw [heq]
      exact List.subset_append_left _ _
    have hpod : Mentions shortLife pod := ⟨r, by rw [heq]; simp, hobject⟩
    have hknown' : Mentions shortLife known.object := (mentions_of_known hknown).mono hpast
    rcases mentions_shortLife hpod with rfl | rfl | rfl <;>
      rcases mentions_shortLife hknown' with hobject' | hobject' | hobject' <;>
        rw [hobject'] <;> rfl
  registered past r rest heq pod hobject name hnode := by
    have hpod : Mentions shortLife pod := ⟨r, by rw [heq]; simp, hobject⟩
    have hname : name = "mock-node-0" := by
      rcases mentions_shortLife hpod with rfl | rfl | rfl <;> exact (Option.some.inj hnode).symm
    rcases past with - | ⟨first, past⟩
    · cases (List.cons.inj heq).1
    · obtain ⟨rfl, -⟩ := List.cons.inj heq
      exact .inr ⟨_, List.mem_cons_self, nofun, hname.symm⟩
  undeleted e he hop := by
    simp only [shortLife, List.mem_cons, Arrival.node.injEq, reduceCtorEq, List.not_mem_nil,
      or_false] at he
    rw [he] at hop
    cases hop

/-- After the first list the pod is charged what its second version requests. On its way out it is
known, but not charged any more, and after the second list it is neither. -/
theorem charged_of_shortLife :
    let books (part : List Arrival) : Ledger :=
      ((handleAll (passAll part).2).run obliging () (Agent.initial {} ⟨0, false⟩)).state.ledger
    (∃ account, (books (shortLife.take 5)).find? "mock-node-0" = some account ∧
        account.charges.find? "default/web" = some ⟨0, 1000⟩) ∧
      (passAll (shortLife.take 6)).1.known.find? "default/web" = some ⟨webLeaving, true⟩ ∧
      ¬ (books (shortLife.take 6)).Holds "default/web" "mock-node-0" ∧
      ¬ (books shortLife).Holds "default/web" "mock-node-0" := by
  intro books
  have hnew : ∀ key node, ¬ (Agent.initial {} ⟨0, false⟩).ledger.Holds key node := by
    rintro key node ⟨account, hfound, -⟩
    cases hfound
  have hmirror (part : List Arrival) (hpart : part <+: shortLife) :=
    charged_iff_known obliging keeps_ledger_obliging answers_obliging ()
      (Agent.initial {} ⟨0, false⟩) hnew shortLife (faithful_shortLife _) part hpart
      "mock-node-0" "default/web"
  have hleaving :
      (passAll (shortLife.take 6)).1.known.find? "default/web" = some ⟨webLeaving, true⟩ := by
    decide +kernel
  have hgone : (passAll shortLife).1.known.find? "default/web" = none := by decide +kernel
  refine ⟨?_, hleaving, fun hholds ↦ ?_, fun hholds ↦ ?_⟩
  · obtain ⟨-, hthere⟩ := hmirror (shortLife.take 5) (List.take_prefix ..)
    exact (hthere ⟨0, 1000⟩).2 ⟨⟨webChanged, false⟩, by decide +kernel, rfl, rfl, rfl⟩
  · obtain ⟨known, hknown, hmark, -⟩ := (hmirror _ (List.take_prefix ..)).1.1 hholds
    rw [hleaving] at hknown
    cases hknown
    cases hmark
  · obtain ⟨known, hknown, -⟩ := (hmirror _ (List.prefix_refl _)).1.1 hholds
    rw [hgone] at hknown
    cases hknown

end Agent

end HollowFleet
