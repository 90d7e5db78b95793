import HollowFleet.CommandLine.Program
import HollowFleet.Proofs.Accounting.Bookkeeping
import Mathlib.Data.List.Infix

/-!
# Totals along runs

A ledger is asked about events one after the other (`keepBooks`), by a cluster that answers as
it likes. For every tracked node, at every moment, no more is used than the charges add up to,
and exactly that if the charges never passed the cap since the node is tracked
(`used_le_and_eq_charged`).

An account that is there after an event was there before it and took one `Account.Step`, or was
opened by the event without charges (`step_of_after`). So whatever a step keeps holds from the
opening on, and nothing is inherited from an earlier account of the same node.

## What the main theorem rests on

* `step_of_after` is by cases on the event: it is the only place where the ways in which a ledger
  handles an event are looked at. A node that is added a second time keeps its account.
* The bound is an invariant of ledgers (`Covered.after`), so it needs no more than an induction on
  the events.
* Exactness is not, since it depends on the past: `CappedSince` says that the charges stayed below
  the cap ever since the node is tracked, and `exact_of_cappedSince` is by induction on the events,
  from the last one backwards. The hypothesis passes to the shorter run as long as the account was
  there (`CappedSince.of_concat`), and where it was not, the account is new and exact.
* `ledger_keepBooks` takes the statement from the accounts that are computed to those of the agent
  on any host.
-/

namespace HollowFleet

open Agent Watch

namespace Ledger

/-! ### One event -/

/-- An account after another was filed. -/
theorem step_of_find?_insert {ledger : Ledger} {node name : String} {old new account : Account}
    (hold : ledger.find? node = some old) (hstep : Account.Step old new)
    (h : (ledger.insert node new).find? name = some account) :
    ∃ before, ledger.find? name = some before ∧ Account.Step before account := by
  rw [Table.find?_insert] at h
  split at h
  · next heq =>
    subst heq
    cases h
    exact ⟨old, hold, hstep⟩
  · exact ⟨account, h, .stay account⟩

/-- A charge takes every account that is there one step further, or leaves it as it is. -/
theorem step_of_charge {ledger : Ledger} {pod : Pod} {name : String} {account : Account}
    (h : ((ledger.charge pod).toOption.getD ledger).find? name = some account) :
    ∃ before, ledger.find? name = some before ∧ Account.Step before account := by
  simp only [charge] at h
  split at h
  · exact ⟨account, h, .stay account⟩
  · next node old hof =>
    rcases hread : Amounts.ofPod pod with fault | amount
    · rw [hread] at h
      exact ⟨account, h, .stay account⟩
    · rw [hread] at h
      exact step_of_find?_insert (accountOf?_eq_some_iff.1 hof).2 (.charge old pod.key amount) h

theorem step_of_discharge {ledger : Ledger} {pod : Pod} {name : String} {account : Account}
    (h : (ledger.discharge pod).find? name = some account) :
    ∃ before, ledger.find? name = some before ∧ Account.Step before account := by
  simp only [discharge] at h
  split at h
  · exact ⟨account, h, .stay account⟩
  · next node old hof =>
    exact step_of_find?_insert (accountOf?_eq_some_iff.1 hof).2 (.discharge old pod.key) h

/-- An account after one without charges was opened. -/
theorem step_or_new_of_find?_insert {ledger : Ledger} {node name : String} {new account : Account}
    (habsent : ledger.find? node = none) (hused : new.used = {}) (hcharges : new.charges = ∅)
    (h : (ledger.insert node new).find? name = some account) :
    (∃ before, ledger.find? name = some before ∧ Account.Step before account) ∨
      (ledger.find? name = none ∧ account.used = {} ∧ account.charges = ∅) := by
  rw [Table.find?_insert] at h
  split at h
  · next heq =>
    subst heq
    cases h
    exact .inr ⟨habsent, hused, hcharges⟩
  · exact .inl ⟨account, h, .stay account⟩

/-- Where the account of a node after an event comes from. -/
theorem step_of_after {ledger : Ledger} {notice : Notice} {name : String} {account : Account}
    (h : (ledger.after notice).find? name = some account) :
    (∃ before, ledger.find? name = some before ∧ Account.Step before account) ∨
      (ledger.find? name = none ∧ account.used = {} ∧ account.charges = ∅) := by
  rcases notice with ⟨op, node⟩ | ⟨op, pod⟩
  · cases op with
    | added =>
      simp only [after] at h
      split at h
      · exact .inl ⟨account, h, .stay account⟩
      · next hnew =>
        have habsent : ledger.find? node.name = none := by simpa [Table.contains] using hnew
        exact step_or_new_of_find?_insert habsent rfl rfl h
    | updated =>
      simp only [after] at h
      cases hfound : ledger.find? node.name with
      | some old =>
        rw [hfound] at h
        exact .inl (step_of_find?_insert hfound (.report old _ _) h)
      | none =>
        rw [hfound] at h
        exact step_or_new_of_find?_insert hfound rfl rfl h
    | deleted =>
      simp only [after, Table.find?_erase] at h
      split at h
      · cases h
      · exact .inl ⟨account, h, .stay account⟩
  · cases op with
    | added => exact .inl (step_of_charge h)
    | updated => exact .inl (step_of_charge h)
    | deleted => exact .inl (step_of_discharge h)

/-- A node that is added or updated keeps every account, but for what the node reports. -/
theorem find?_after_node {ledger : Ledger} {name : String} {account : Account}
    (h : ledger.find? name = some account) {op : Op} (hop : op ≠ .deleted) (node : Node) :
    ∃ next, (ledger.after (.node ⟨op, node⟩)).find? name = some next ∧
      next.used = account.used ∧ next.charges = account.charges := by
  cases op with
  | deleted => exact absurd rfl hop
  | added =>
    simp only [after]
    split
    · exact ⟨account, h, rfl, rfl⟩
    · next hnew =>
      -- the node is new, so it is not the one whose account is looked up
      have hne : name ≠ node.name := by
        rintro rfl
        exact hnew (by rw [Table.contains, h]; rfl)
      refine ⟨account, ?_, rfl, rfl⟩
      rw [Table.find?_insert, if_neg hne]
      exact h
  | updated =>
    simp only [after, Table.find?_insert]
    split
    · next heq =>
      rw [← heq, h]
      exact ⟨_, rfl, rfl, rfl⟩
    · exact ⟨account, h, rfl, rfl⟩

/-! ### Several events -/

/-- The accounts after several events. -/
def afterAll (ledger : Ledger) (notices : List Notice) : Ledger := notices.foldl after ledger

/-- One more event is an event on the accounts after the others. -/
theorem afterAll_concat (ledger : Ledger) (notices : List Notice) (notice : Notice) :
    ledger.afterAll (notices ++ [notice]) = (ledger.afterAll notices).after notice :=
  List.foldl_concat ..

/-- The accounts after two runs are those after the second, from where the first one ended. -/
theorem afterAll_append (ledger : Ledger) (notices notices' : List Notice) :
    ledger.afterAll (notices ++ notices') = (ledger.afterAll notices).afterAll notices' :=
  List.foldl_append

/-- No account uses more than its charges add up to. -/
def Covered (ledger : Ledger) : Prop :=
  ∀ name account, ledger.find? name = some account → account.Covered

theorem covered_empty : Covered ∅ := fun _ _ h ↦ nomatch h

/-- **The bound is kept by every event**, since an account takes a step or is new. -/
theorem Covered.after {ledger : Ledger} (h : ledger.Covered) (notice : Notice) :
    (ledger.after notice).Covered := by
  intro name account hfound
  rcases step_of_after hfound with ⟨before, hbefore, hstep⟩ | ⟨-, hused, hcharges⟩
  · exact (h name before hbefore).step hstep
  · exact .of_exact (Account.exact_of_new hused hcharges)

theorem Covered.afterAll {ledger : Ledger} (h : ledger.Covered) (notices : List Notice) :
    (ledger.afterAll notices).Covered := by
  induction notices generalizing ledger with
  | nil => exact h
  | cons notice rest ih => exact ih (h.after notice)

/-- With `books` the accounts after each part of a run, a node is tracked from the end of `past`
to the end of `notices`. -/
def TrackedSince (books : List Notice → Ledger) (name : String) (past notices : List Notice) :
    Prop :=
  ∀ time, past <+: time → time <+: notices → ((books time).find? name).isSome

/-- Ever since a node is tracked, what it was charged of a resource stayed below the cap. -/
def CappedSince (books : List Notice → Ledger) (name : String) (r : Resource)
    (notices : List Notice) : Prop :=
  ∀ past account, past <+: notices → TrackedSince books name past notices →
    (books past).find? name = some account → account.charged r ≤ Quantity.greatestAmount

/-- What was so ever since was so before the last event, if the account was there by then. -/
theorem CappedSince.of_concat {books : List Notice → Ledger} {name : String} {r : Resource}
    {notices : List Notice} {notice : Notice} {account : Account}
    (h : CappedSince books name r (notices ++ [notice]))
    (hfound : (books (notices ++ [notice])).find? name = some account) :
    CappedSince books name r notices := by
  intro past before hpast htracked hbefore
  refine h past before (hpast.trans (List.prefix_append _ _)) (fun time hafter hupto ↦ ?_) hbefore
  rcases List.prefix_concat_iff.1 hupto with rfl | hupto
  · rw [hfound]
    rfl
  · exact htracked time hafter hupto

theorem CappedSince.now {books : List Notice → Ledger} {name : String} {r : Resource}
    {notices : List Notice} {account : Account} (h : CappedSince books name r notices)
    (hfound : (books notices).find? name = some account) :
    account.charged r ≤ Quantity.greatestAmount := by
  refine h notices account (List.prefix_refl _) (fun time hafter hupto ↦ ?_) hfound
  rw [← hafter.eq_of_length_le hupto.length_le, hfound]
  rfl

/-- An account is exact as long as its charges stayed below the cap since it was opened. -/
theorem exact_of_cappedSince {notices : List Notice} {name : String} {r : Resource}
    {account : Account} (hcapped : CappedSince (afterAll ∅) name r notices)
    (hfound : (afterAll ∅ notices).find? name = some account) : account.Exact r := by
  -- backwards along the run, to the event that opened the account
  induction notices using List.reverseRecOn generalizing account with
  | nil => exact nomatch hfound
  | append_singleton notices notice ih =>
    have hnow := hcapped.now hfound
    have hbefore := hcapped.of_concat hfound
    rw [afterAll_concat] at hfound
    rcases step_of_after hfound with ⟨before, hold, hstep⟩ | ⟨-, hused, hcharges⟩
    · exact (ih hbefore hold).step hstep hnow
    · exact Account.exact_of_new hused hcharges r

end Ledger

/-! ### Runs -/

variable {ε : Type}

/-- A ledger is asked about events one after the other; an event that could not be handled to
the end is followed by the next one all the same. -/
def keepBooks (host : Host Agent ε) (world : ε) (a : Agent) (notices : List Notice) :
    Agent × ε :=
  notices.foldl (fun s notice ↦
    let run := (book notice).run.run host s.2 s.1
    (run.state, run.world)) (a, world)

/-- The accounts along a run do not depend on the host. -/
theorem ledger_keepBooks {host : Host Agent ε} (hhost : host.Keeps Agent.ledger) (world : ε)
    (a : Agent) (notices : List Notice) :
    (keepBooks host world a notices).1.ledger = a.ledger.afterAll notices := by
  induction notices generalizing a world with
  | nil => rfl
  | cons notice rest ih =>
    have hfirst := ensures_book notice a ε host world hhost
    have hrest := ih ((book notice).run.run host world a).world
      ((book notice).run.run host world a).state
    rw [hfirst] at hrest
    exact hrest

/-- **The totals of a new ledger.** For a node that is tracked after a run of events, whatever
the cluster answers:

* no more of a resource is used than the charges add up to, so nothing without a charge;
* exactly that is used if the charges never passed the cap since the node is tracked;
* an update of a node, and an addition of one, change neither the total nor the charges. -/
theorem used_le_and_eq_charged (host : Host Agent ε) (hhost : host.Keeps Agent.ledger) (world : ε)
    (a : Agent) (hnew : a.ledger = ∅) (notices : List Notice) (name : String) (account : Account)
    (htracked : (keepBooks host world a notices).1.ledger.find? name = some account) :
    (∀ r, account.used.of r ≤ account.charged r) ∧
      (account.charges.keys = [] → account.used = {}) ∧
      (∀ r, Ledger.CappedSince (fun past ↦ (keepBooks host world a past).1.ledger) name r notices →
        account.used.of r = account.charged r) ∧
      ∀ op node, op ≠ .deleted →
        ∃ next, (keepBooks host world a (notices ++ [.node ⟨op, node⟩])).1.ledger.find? name =
            some next ∧
          next.used = account.used ∧ next.charges = account.charges := by
  simp only [ledger_keepBooks hhost, hnew] at htracked ⊢
  have hcovered := Ledger.covered_empty.afterAll notices name account htracked
  refine ⟨hcovered, hcovered.used_eq_zero, fun r hcapped ↦ ?_, fun op node hop ↦ ?_⟩
  · exact Ledger.exact_of_cappedSince hcapped htracked
  · rw [Ledger.afterAll_concat]
    exact Ledger.find?_after_node htracked hop node

/-! ### A charge that is replaced -/

/-- A cluster that is not there changes no part of the agent. -/
theorem keeps_disconnected {τ : Type} (view : Agent → τ) : CommandLine.disconnected.Keeps view where
  call _ _ _ := rfl
  submit _ _ _ _ := rfl

/-- A pod named `web` that asks for some memory and processor time. -/
def asking (memory cpu : String) : Pod where
  metadata := { name := some "web", space := some "default" }
  spec := some
    { nodeName := some "mock-node-0"
      containers := [{ requests := some [("memory", memory), ("cpu", cpu)] }] }

/-- A node is added, and a pod that raises its requests. -/
def raising : List Notice :=
  [.node ⟨.added, { metadata := { name := some "mock-node-0" } }⟩,
    .pod ⟨.added, asking "512Mi" "250m"⟩, .pod ⟨.updated, asking "1Gi" "500m"⟩]

/-- The accounts after some events, without a cluster. -/
def booksOf (notices : List Notice) : Ledger :=
  (keepBooks CommandLine.disconnected () (.initial {} ⟨0, false⟩) notices).1.ledger

/-- Of the raised requests the last ones count, and no others. -/
theorem used_of_raising :
    ∃ account, (booksOf raising).find? "mock-node-0" = some account ∧
      account.used = ⟨1073741824, 500⟩ ∧ ∀ r, account.used.of r = account.charged r := by
  have htracked : (booksOf raising).find? "mock-node-0" = some
      { address := none, capacity := {}, used := ⟨1073741824, 500⟩
        charges := (∅ : Table Amounts).insert "default/web" ⟨1073741824, 500⟩ } := by
    decide +kernel
  have hcapped : ∀ past ∈ raising.inits, ∀ account ∈ (booksOf past).find? "mock-node-0",
      account.charged .memory ≤ Quantity.greatestAmount ∧
        account.charged .processor ≤ Quantity.greatestAmount := by
    decide +kernel
  obtain ⟨-, -, hexact, -⟩ := used_le_and_eq_charged _ (keeps_disconnected _) () _ rfl raising _ _
    htracked
  refine ⟨_, htracked, rfl, fun r ↦ hexact r fun past account hpast _ hfound ↦ ?_⟩
  have h := hcapped past ((List.mem_inits past raising).2 hpast) account hfound
  cases r with
  | memory => exact h.1
  | processor => exact h.2

end HollowFleet
