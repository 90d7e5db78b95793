import HollowFleet.Proofs.Accounting.Requests
import HollowFleet.Proofs.Dispatch.Holding

/-!
# Whether a pod fits

A ledger tells whether what a pod requests fits on its node on top of what is used there
(`fits`), and charges pods whether they fit or not. The sum that is compared with the capacity is
capped, but no capacity is beyond the cap, so the answer is that of the exact sum
(`result_fits`).

A pod that was found to fit can be charged without passing the capacity. The check counts what
the pod was charged before, and the charge takes that off first, so there is only more room than
the check saw (`Account.Within.charge`). So an account that starts without charges stays within
its capacity, and exact, along every run in which each charge directly follows such a check
(`within_of_checksFirst`); to drop a charge needs no check.

## What the main theorem rests on

* `Account.fits_iff` is where the cap is dealt with, once and for all; it needs the capacities to be
  capped, which every account of a ledger keeps from the start (`Ledger.Capped.afterAll`).
* `Ledger.within_after` is the step for one event. Its hypothesis about a pod that is charged is the
  conclusion of a check, said of the accounts at the moment of the charge.
* `within_of_checksFirst` is the run, by induction on what the ledger is asked. A check changes
  nothing, so what it found still holds at the charge directly after it
  (`ChecksFirst.hasRoom`); anything in between could have used the room up.
* The hypotheses on runs are about prefixes, so they pass to the shorter run
  (`ChecksFirst.of_prefix`, `KeepsCapacity.of_prefix`).
-/

namespace HollowFleet

open Agent Watch

/-! ### One account -/

namespace Account

/-- Of every resource something is left after an amount is taken on top of what is used. -/
def HasRoom (a : Account) (needed : Amounts) : Prop :=
  ∀ r, a.used.of r + needed.of r < a.capacity.of r

/-- No capacity is beyond what is counted. -/
def Capped (a : Account) : Prop := ∀ r, a.capacity.of r ≤ Quantity.greatestAmount

/-- No more is used than there is, and exactly what the charges add up to. -/
structure Within (a : Account) : Prop where
  /-- No more is used than there is. -/
  le : ∀ r, a.used.of r ≤ a.capacity.of r
  /-- What is used is the sum of the charges. -/
  exact : ∀ r, a.Exact r

/-- **The check is that of the exact sum.** A sum that is cut off is at least the capacity. -/
theorem fits_iff {a : Account} (h : a.Capped) (needed : Amounts) :
    a.fits needed = true ↔ a.HasRoom needed := by
  have hbelow : a.fits needed = true ↔ ∀ r, (a.used + needed).of r < a.capacity.of r := by
    simp only [fits, Amounts.below, Bool.and_eq_true, decide_eq_true_eq]
    exact ⟨fun hboth r ↦ by cases r; exacts [hboth.1, hboth.2], fun hall ↦
      ⟨hall .memory, hall .processor⟩⟩
  rw [hbelow]
  refine forall_congr' fun r ↦ ?_
  have hcapped := h r
  rw [Amounts.of_add]
  omega

/-- What a node declares is counted up to the cap, like everything else. -/
theorem capped_ofNode (node : Node) : (ofNode node).Capped := by
  intro r
  show ((Amounts.ofNode node).toOption.getD {}).of r ≤ Quantity.greatestAmount
  cases hread : Amounts.ofNode node with
  | ok amounts => exact Amounts.of_le_of_ofEntries hread r
  | error fault =>
    rw [Except.toOption, Option.getD_none, Amounts.of_zero]
    exact Nat.zero_le _

variable {a : Account}

/-- **A pod that fits is charged within the capacity**, and leaves some of each resource. -/
theorem Within.charge (h : a.Within) (hcapped : a.Capped) {amount : Amounts}
    (hroom : a.HasRoom amount) (key : String) :
    (a.charge key amount).Within ∧
      ∀ r, (a.charge key amount).used.of r < (a.charge key amount).capacity.of r := by
  have hlt : ∀ r, (a.charge key amount).used.of r < a.capacity.of r := by
    intro r
    -- the charge before is taken off, which leaves no more than the check counted
    have hr := hroom r
    rw [of_used_charge]
    omega
  refine ⟨⟨fun r ↦ (hlt r).le, fun r ↦ ?_⟩, hlt⟩
  refine (h.exact r).step (.charge a key amount) ?_
  have hr := hroom r
  have hexact : a.used.of r = a.charged r := h.exact r
  have hcap := hcapped r
  rw [charged_charge]
  omega

/-- To drop a charge leaves room, and stays exact since nothing was cut off before. -/
theorem Within.discharge (h : a.Within) (key : String) : (a.discharge key).Within where
  le r := by
    have hle := h.le r
    have hcapacity : (a.discharge key).capacity = a.capacity := by
      rw [Account.discharge]
      split <;> rfl
    rw [of_used_discharge, hcapacity]
    omega
  exact r := by
    have hexact : a.used.of r = a.charged r := h.exact r
    rw [Exact, of_used_discharge, charged_discharge, hexact]

end Account

/-! ### All accounts -/

namespace Ledger

/-- The node of a pod is tracked, and has room for what the pod requests. -/
def HasRoom (ledger : Ledger) (pod : Pod) : Prop :=
  ∃ node account needed, pod.node? = some node ∧ ledger.find? node = some account ∧
    Amounts.ofPod pod = .ok needed ∧ account.HasRoom needed

/-- No node has more than is counted. -/
def Capped (ledger : Ledger) : Prop :=
  ∀ name account, ledger.find? name = some account → account.Capped

theorem capped_empty : Capped ∅ := fun _ _ h ↦ nomatch h

/-- Capacities come from nodes only, and are capped when they are read. -/
theorem Capped.after {ledger : Ledger} (h : ledger.Capped) (notice : Notice) :
    (ledger.after notice).Capped := by
  intro name account hfound
  rw [find?_after ledger none] at hfound
  split at hfound
  · rcases notice with ⟨op, n⟩ | e
    · cases op with
      | added =>
        cases hbefore : ledger.find? name with
        | some before =>
          simp only [Holding.after, hbefore, Option.some_or, Option.some.injEq] at hfound
          exact hfound ▸ h name before hbefore
        | none =>
          simp only [Holding.after, hbefore, Option.none_or, Option.some.injEq] at hfound
          exact hfound ▸ Account.capped_ofNode n
      | updated =>
        cases hfound
        exact Account.capped_ofNode n
      | deleted => cases hfound
    · obtain ⟨before, hbefore, rfl⟩ := Option.map_eq_some_iff.1 hfound
      intro r
      rw [Account.capacity_enter]
      exact h name before hbefore r
  · exact h name account hfound

theorem Capped.afterAll {ledger : Ledger} (h : ledger.Capped) (notices : List Notice) :
    (ledger.afterAll notices).Capped := by
  induction notices generalizing ledger with
  | nil => exact h
  | cons notice rest ih => exact ih (h.after notice)

/-- **One event** keeps an account within its capacity, if the capacity stays what it is and a pod
that is charged has room. -/
theorem within_after {ledger : Ledger} {notice : Notice} {name : String} {account next : Account}
    (hfound : ledger.find? name = some account) (hcapped : account.Capped)
    (hwithin : account.Within) (hnext : (ledger.after notice).find? name = some next)
    (hcapacity : next.capacity = account.capacity)
    (hroom : ∀ e, notice = .pod e → e.op ≠ .deleted → e.object.node? = some name →
      ledger.HasRoom e.object) :
    next.Within ∧ ∀ e, notice = .pod e → e.op ≠ .deleted → e.object.node? = some name →
      ∀ r, next.used.of r < next.capacity.of r := by
  rw [find?_after ledger none, hfound] at hnext
  split at hnext
  · next hnode =>
    rcases notice with ⟨op, n⟩ | e
    · refine ⟨?_, fun e he ↦ (by cases he)⟩
      cases op with
      | added =>
        cases hnext
        exact hwithin
      | updated =>
        cases hnext
        exact ⟨fun r ↦ by rw [hcapacity]; exact hwithin.le r, hwithin.exact⟩
      | deleted => cases hnext
    · obtain rfl : account.enter e = next := Option.some.inj hnext
      rw [Account.enter]
      split
      · next hop =>
        refine ⟨hwithin.discharge _, fun e' he hop' ↦ ?_⟩
        cases he
        exact absurd hop hop'
      · next hop =>
        obtain ⟨node, found, needed, hbound, hbooked, hread, hfits⟩ := hroom e rfl hop hnode
        obtain rfl : name = node := Option.some.inj (hnode.symm.trans hbound)
        obtain rfl : account = found := Option.some.inj (hfound.symm.trans hbooked)
        rw [hread]
        have hcharge := hwithin.charge hcapped hfits e.object.key
        exact ⟨hcharge.1, fun _ _ _ _ ↦ hcharge.2⟩
  · next hnode =>
    cases hnext
    exact ⟨hwithin, fun e he _ hbound ↦ absurd (he ▸ hbound) hnode⟩

end Ledger

/-! ### The check -/

variable {ε : Type}

/-- **Whether a pod fits is told in any case**, and it does exactly if its node has room. -/
theorem result_fits (host : Host Agent ε) (world : ε) {a : Agent} (h : a.ledger.Capped)
    (pod : Pod) : ∃ answer, ((fits pod).run host world a).result = some answer ∧
      (answer = true ↔ a.ledger.HasRoom pod) := by
  simp only [Ledger.HasRoom, fits, bind, Task.bind, Task.get, Progress.bind, Task.run]
  cases hof : a.ledger.accountOf? pod with
  | none =>
    refine ⟨false, rfl, ?_⟩
    simp only [Bool.false_eq_true, false_iff, not_exists, not_and]
    intro node account needed hnode hfound
    rw [Ledger.accountOf?_eq_some_iff.2 ⟨hnode, hfound⟩] at hof
    cases hof
  | some found =>
    obtain ⟨node, account⟩ := found
    obtain ⟨hnode, hfound⟩ := Ledger.accountOf?_eq_some_iff.1 hof
    cases hread : Amounts.ofPod pod with
    | error fault =>
      refine ⟨false, rfl, ?_⟩
      simp
    | ok needed =>
      refine ⟨account.fits needed, rfl, ?_⟩
      rw [Account.fits_iff (h node account hfound)]
      simp [hnode, hfound]

/-! ### Runs -/

/-- What a ledger is asked. -/
inductive Inquiry where
  /-- Whether a pod fits. -/
  | fits (pod : Pod)
  /-- To take part in an event. -/
  | book (notice : Notice)

namespace Inquiry

/-- The event, if it is one. -/
def notice? : Inquiry → Option Notice
  | fits _ => none
  | book notice => some notice

/-- What the ledger does about it. -/
def task : Inquiry → Task Agent Unit
  | fits pod => do
    let _ ← Agent.fits pod
    return ()
  | book notice => do
    let _ ← (Agent.book notice).run
    return ()

end Inquiry

/-- The accounts after the ledger was asked something. -/
def Ledger.asked (ledger : Ledger) (inquiry : Inquiry) : Ledger :=
  match inquiry.notice? with
  | some notice => ledger.after notice
  | none => ledger

/-- What the ledger is asked does to the accounts what the events among it do. -/
theorem ensures_task (inquiry : Inquiry) (s : Agent) :
    Task.Ensures Agent.ledger inquiry.task s fun ledger _ ↦ ledger = s.ledger.asked inquiry := by
  cases inquiry with
  | fits pod => exact ensures_fits_bind (fun _ _ ↦ rfl) fun s' _ hs' ↦ .pure hs'
  | book notice => exact (ensures_book notice s).andThen fun _ ↦ .pure ()

/-- A ledger is asked one thing after the other. -/
def consult (host : Host Agent ε) (world : ε) (a : Agent) (inquiries : List Inquiry) : Agent × ε :=
  Task.runAll host world a (inquiries.map Inquiry.task)

section Runs

variable {host : Host Agent ε}

/-- To ask in two parts is to go on where the first part ended. -/
theorem consult_append (world : ε) (a : Agent) (inquiries inquiries' : List Inquiry) :
    consult host world a (inquiries ++ inquiries') =
      consult host (consult host world a inquiries).2 (consult host world a inquiries).1
        inquiries' := by
  simp only [consult, Task.runAll, List.map_append, List.foldl_append]

/-- Only the events change the accounts. -/
theorem ledger_consult (hhost : host.Keeps Agent.ledger) (world : ε) (a : Agent)
    (inquiries : List Inquiry) : (consult host world a inquiries).1.ledger =
      a.ledger.afterAll (inquiries.filterMap Inquiry.notice?) := by
  rw [consult, Task.view_runAll ensures_task hhost, Ledger.afterAll, List.foldl_filterMap]
  exact List.foldl_ext _ _ _ fun ledger inquiry _ ↦ by cases inquiry <;> rfl

/-- The step for runs: one more question, on the accounts as they are by then. -/
theorem ledger_consult_concat (hhost : host.Keeps Agent.ledger) (world : ε) (a : Agent)
    (inquiries : List Inquiry) (inquiry : Inquiry) :
    (consult host world a (inquiries ++ [inquiry])).1.ledger =
      (consult host world a inquiries).1.ledger.asked inquiry := by
  simp only [consult, Task.view_runAll ensures_task hhost, List.foldl_concat]

/-- Along a run a node stays tracked, with the same capacity. -/
def KeepsCapacity (host : Host Agent ε) (world : ε) (a : Agent) (name : String)
    (capacity : Amounts) (inquiries : List Inquiry) : Prop :=
  ∀ time, time <+: inquiries → ∃ account,
    (consult host world a time).1.ledger.find? name = some account ∧ account.capacity = capacity

/-- Every pod that a run charges to a node was found to fit directly before. -/
def ChecksFirst (host : Host Agent ε) (world : ε) (a : Agent) (name : String)
    (inquiries : List Inquiry) : Prop :=
  ∀ past e rest, inquiries = past ++ .book (.pod e) :: rest → e.op ≠ .deleted →
    e.object.node? = some name →
      ∃ before, past = before ++ [.fits e.object] ∧
        ((fits e.object).run host (consult host world a before).2
          (consult host world a before).1).result = some true

variable {world : ε} {a : Agent} {name : String} {capacity : Amounts} {inquiries : List Inquiry}

/-- If the capacity is kept all along, it is kept up to any moment. -/
theorem KeepsCapacity.of_prefix (h : KeepsCapacity host world a name capacity inquiries)
    {time : List Inquiry} (htime : time <+: inquiries) :
    KeepsCapacity host world a name capacity time :=
  fun _ hbefore ↦ h _ (hbefore.trans htime)

/-- If every charge was checked, every charge up to any moment was. -/
theorem ChecksFirst.of_prefix (h : ChecksFirst host world a name inquiries)
    {time : List Inquiry} (htime : time <+: inquiries) : ChecksFirst host world a name time := by
  obtain ⟨later, rfl⟩ := htime
  intro past e rest hsplit
  exact h past e (rest ++ later) (by rw [hsplit, List.append_assoc, List.cons_append])

/-- A charge at the end of such a run finds room. -/
theorem ChecksFirst.hasRoom (hhost : host.Keeps Agent.ledger)
    (hcapped : ∀ past, (consult host world a past).1.ledger.Capped) {e : Event Pod}
    (h : ChecksFirst host world a name (inquiries ++ [.book (.pod e)])) (hop : e.op ≠ .deleted)
    (hnode : e.object.node? = some name) :
    (consult host world a inquiries).1.ledger.HasRoom e.object := by
  obtain ⟨before, rfl, hanswer⟩ := h inquiries e [] rfl hop hnode
  obtain ⟨answer, hresult, hiff⟩ :=
    result_fits host (consult host world a before).2 (hcapped before) e.object
  rw [hresult] at hanswer
  -- the check itself leaves the accounts as they were
  rw [ledger_consult_concat hhost]
  exact hiff.1 (Option.some.inj hanswer)

/-- **Charges that were checked stay within the capacity.** -/
theorem within_of_checksFirst (hhost : host.Keeps Agent.ledger)
    (hcapped : ∀ past, (consult host world a past).1.ledger.Capped) {opened : Account}
    (hopened : a.ledger.find? name = some opened) (hwithin : opened.Within)
    (hkeeps : KeepsCapacity host world a name opened.capacity inquiries)
    (hchecks : ChecksFirst host world a name inquiries) :
    ∃ account, (consult host world a inquiries).1.ledger.find? name = some account ∧
      account.capacity = opened.capacity ∧ account.Within ∧
        ∀ past e, inquiries = past ++ [.book (.pod e)] → e.op ≠ .deleted →
          e.object.node? = some name → ∀ r, account.used.of r < account.capacity.of r := by
  induction inquiries using List.reverseRecOn with
  | nil => exact ⟨opened, hopened, rfl, hwithin, fun past e hsplit ↦ by simp at hsplit⟩
  | append_singleton inquiries inquiry ih =>
    have hprefix := List.prefix_append inquiries [inquiry]
    obtain ⟨account, hfound, hcapacity, hbefore, -⟩ :=
      ih (hkeeps.of_prefix hprefix) (hchecks.of_prefix hprefix)
    cases inquiry with
    | fits pod =>
      refine ⟨account, ?_, hcapacity, hbefore, fun past e hsplit ↦ ?_⟩
      · rw [ledger_consult_concat hhost]
        exact hfound
      · cases (List.append_singleton_inj.1 hsplit).2
    | book notice =>
      obtain ⟨next, hnext, hkept⟩ := hkeeps _ (List.prefix_refl _)
      refine ⟨next, hnext, hkept, ?_⟩
      rw [ledger_consult_concat hhost] at hnext
      have hroom : ∀ e, notice = .pod e → e.op ≠ .deleted → e.object.node? = some name →
          (consult host world a inquiries).1.ledger.HasRoom e.object := by
        rintro e rfl hop hnode
        exact hchecks.hasRoom hhost hcapped hop hnode
      have hstep := Ledger.within_after hfound (hcapped inquiries name account hfound) hbefore
        hnext (hkept.trans hcapacity.symm) hroom
      refine ⟨hstep.1, fun past e hsplit ↦ hstep.2 e ?_⟩
      cases (List.append_singleton_inj.1 hsplit).2
      rfl

end Runs

/-- **Whether a pod fits, and what may be made of the answer.** On a new ledger, after it was asked
anything, and whatever the cluster answers:

* it is told in any case whether a pod fits, and it does exactly if its node is tracked, its
  requests are read, and the exact sums of what is used and what is requested are below the
  capacity, of memory and of processor time;
* take an account without charges and a run along which its capacity stays the same and each pod
  that is charged to its node was found to fit directly before, while charges are dropped at any
  time. At every moment of the run no more is used than there is, and exactly what the charges add
  up to; and after a charge, in the place of an earlier one or not, some of each resource is
  left. -/
theorem fits_sound (host : Host Agent ε) (hhost : host.Keeps Agent.ledger) (world : ε) (a : Agent)
    (hnew : a.ledger = ∅) (before : List Inquiry) :
    let s := consult host world a before
    (∀ pod, ∃ answer, ((fits pod).run host s.2 s.1).result = some answer ∧
      (answer = true ↔ s.1.ledger.HasRoom pod)) ∧
    ∀ name opened, s.1.ledger.find? name = some opened → opened.charges.keys = [] →
      ∀ inquiries, KeepsCapacity host s.2 s.1 name opened.capacity inquiries →
        ChecksFirst host s.2 s.1 name inquiries → ∀ time, time <+: inquiries →
          ∃ account, (consult host s.2 s.1 time).1.ledger.find? name = some account ∧
            account.capacity = opened.capacity ∧
            (∀ r, account.used.of r ≤ account.capacity.of r) ∧
            (∀ r, account.used.of r = account.charged r) ∧
            ∀ past e, time = past ++ [.book (.pod e)] → e.op ≠ .deleted →
              e.object.node? = some name → ∀ r, account.used.of r < account.capacity.of r := by
  intro s
  have hcapped : ∀ inquiries, (consult host world a inquiries).1.ledger.Capped := fun inquiries ↦ by
    rw [ledger_consult hhost, hnew]
    exact Ledger.capped_empty.afterAll _
  refine ⟨fun pod ↦ result_fits host s.2 (hcapped before) pod, ?_⟩
  intro name opened hopened hcharges inquiries hkeeps hchecks time htime
  have hcovered : opened.Covered := by
    refine Ledger.covered_empty.afterAll (before.filterMap Inquiry.notice?) name opened ?_
    rw [← hnew, ← ledger_consult hhost]
    exact hopened
  have hwithin : opened.Within := by
    have hnothing := Table.total_eq_zero_of_keys_eq_nil hcharges
    have hused := hcovered.used_eq_zero hcharges
    refine ⟨fun r ↦ ?_, fun r ↦ ?_⟩
    · rw [hused, Amounts.of_zero]
      exact Nat.zero_le _
    · rw [Account.Exact, hused, Amounts.of_zero, Account.charged, hnothing]
  obtain ⟨account, hfound, hcapacity, hin, hleft⟩ := within_of_checksFirst hhost
    (fun past ↦ by rw [← consult_append]; exact hcapped _) hopened hwithin
    (hkeeps.of_prefix htime) (hchecks.of_prefix htime)
  exact ⟨account, hfound, hcapacity, hin.le, hin.exact, hleft⟩

/-! ### Requests that are raised -/

/-- A node with two units of memory and one core. -/
def smallNode : Node where
  metadata := { name := some "mock-node-0" }
  status := some { capacity := some [("memory", "2Gi"), ("cpu", "1")] }

/-- A pod is checked and added, and checked again when it raises its requests. -/
def raisingChecked : List Inquiry :=
  [.fits (asking "512Mi" "250m"), .book (.pod ⟨.added, asking "512Mi" "250m"⟩),
    .fits (asking "1Gi" "500m"), .book (.pod ⟨.updated, asking "1Gi" "500m"⟩)]

/-- The raised requests fit on top of the first ones, and in their place leave room. -/
theorem fits_sound_of_raising :
    let s := consult CommandLine.disconnected () (.initial {} ⟨0, false⟩)
      [.book (.node ⟨.added, smallNode⟩)]
    ∃ account, (consult CommandLine.disconnected s.2 s.1 raisingChecked).1.ledger.find?
        "mock-node-0" = some account ∧ account.capacity = ⟨2147483648, 1000⟩ ∧
      account.used = ⟨1073741824, 500⟩ ∧ (∀ r, account.used.of r = account.charged r) ∧
      ∀ r, account.used.of r < account.capacity.of r := by
  intro s
  have hopened : s.1.ledger.find? "mock-node-0" =
      some { address := none, capacity := ⟨2147483648, 1000⟩ } := by
    decide +kernel
  have hkeeps : KeepsCapacity CommandLine.disconnected s.2 s.1 "mock-node-0" ⟨2147483648, 1000⟩
      raisingChecked := by
    have hall : ∀ time ∈ raisingChecked.inits,
        ((consult CommandLine.disconnected s.2 s.1 time).1.ledger.find? "mock-node-0").map
          Account.capacity = some ⟨2147483648, 1000⟩ := by
      decide +kernel
    intro time htime
    exact Option.map_eq_some_iff.1 (hall time ((List.mem_inits _ _).2 htime))
  have hchecks : ChecksFirst CommandLine.disconnected s.2 s.1 "mock-node-0" raisingChecked := by
    intro past e rest hsplit hop hnode
    rcases past with - | ⟨first, - | ⟨second, - | ⟨third, - | ⟨fourth, past⟩⟩⟩⟩
    · cases hsplit
    · cases hsplit
      exact ⟨[], rfl, by decide +kernel⟩
    · cases hsplit
    · cases hsplit
      exact ⟨[_, _], rfl, by decide +kernel⟩
    · simp [raisingChecked] at hsplit
  have hused : ((consult CommandLine.disconnected s.2 s.1 raisingChecked).1.ledger.find?
      "mock-node-0").map Account.used = some ⟨1073741824, 500⟩ := by
    decide +kernel
  have hlast : raisingChecked =
      raisingChecked.take 3 ++ [.book (.pod ⟨.updated, asking "1Gi" "500m"⟩)] := rfl
  have hsound := fits_sound CommandLine.disconnected (keeps_disconnected _) ()
    (.initial {} ⟨0, false⟩) rfl [.book (.node ⟨.added, smallNode⟩)]
  -- from here on nothing is to be computed
  have hs : s = consult CommandLine.disconnected () (.initial {} ⟨0, false⟩)
    [.book (.node ⟨.added, smallNode⟩)] := rfl
  rw [← hs] at hsound
  clear_value s
  obtain ⟨account, hfound, hcapacity, -, hexact, hleft⟩ := hsound.2 "mock-node-0" _ hopened rfl
    raisingChecked hkeeps hchecks _ (List.prefix_refl _)
  rw [hfound] at hused
  exact ⟨account, hfound, hcapacity, Option.some.inj hused, hexact,
    hleft _ _ hlast (by decide) rfl⟩

end HollowFleet
