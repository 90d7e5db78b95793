import HollowFleet.Proofs.Dispatch.Indifference
import HollowFleet.Proofs.Lifecycle.Reports

/-!
# The second pass of a reported pod

A pod that is reported as being there is started, which costs at most one call, and queued
(`acceptance_handlePod`). When the worker comes to it the pod is started once more. If the first
start left it with an address, that start said all there is to say, and the second one asks the
pool for nothing. So the second pass has something to write only if the first write failed for a
passing reason, or if the pod gets an address that it did not get before (`second_pass_quiet`).

## What the main theorem rests on

* What is seen of a pass is its transcript, so that the number of writes is counted and not only
  their outcome. `Acceptance` lists what can be seen of the first pass: nothing to write, a write
  that was abandoned, or a write with its answer and the pod that is submitted after it.
* `Acceptance.entry` is about the pod that is queued then. If the write did not fail for a passing
  reason, it is the pod as it was started, and a second start changes it only by an address
  (`address?_of_status_started_ne`); else it is to be written again in any case.
* The agent by the time of the second pass is any agent. It matters only to a pod without an
  address, which may find a pool by then; a pod with one is started without a change to the agent
  (`started_fst_of_address`).
* Two writes is the sum of one for each pass (`Acceptance.length_written`).
-/

namespace HollowFleet

open Agent Watch

namespace Agent

variable {ε ε' : Type}

/-! ### The first pass -/

/-- What is seen of the first pass of a pod, which was settled by a start. -/
inductive Acceptance (pod started : Pod) : List Mark → Prop where
  /-- There is nothing to write. -/
  | unchanged (h : started.status = pod.status) :
    Acceptance pod started [.submit .start started]
  /-- The status is written, but no answer ever comes. -/
  | unanswered (h : started.status ≠ pod.status) :
    Acceptance pod started [.call (.updatePodStatus started) none]
  /-- The status is written, and what is queued depends on the answer. -/
  | answered (h : started.status ≠ pod.status) (reply : Except Fault Unit) :
    Acceptance pod started
      [.call (.updatePodStatus started) (some reply),
        .submit .start (entryAfterStart pod started reply)]

/-- What is seen of the start of a reported pod, by cases on whether its status changed and on the
answer. -/
theorem acceptance_accept (host : Host Agent ε) (world : ε) (a : Agent) (pod : Pod) :
    Acceptance pod (a.started pod).2 ((accept pod).run.transcript host world a) := by
  -- all that follows the submission goes without a pause
  have hqueued : ∀ (entry : Pod) (reply : Except Fault Unit) (world : ε) (s : Agent),
      (enqueue .start entry >>= fun _ ↦ ExceptT.mk (pure reply) : Action Unit).run.transcript host
        world s = [.submit .start entry] := by
    intro entry reply world s
    show Progress.transcript host world (.submit s .start entry _) = _
    rw [Progress.transcript]
    cases host.submit world s .start entry with
    | resumed s' world' taken => cases taken <;> rfl
    | abandoned s' world' => rfl
  rw [accept, Task.run_lift_bind, Task.transcript_bind]
  by_cases h : (a.started pod).2.status = pod.status
  · rw [Task.transcript, Task.run, startPod_of_eq h]
    simp only [Progress.transcript, Progress.follow, hqueued]
    exact .unchanged h
  · rw [Task.transcript, Task.run, startPod_of_ne h]
    simp only [Progress.transcript, Progress.follow]
    cases host.call world (a.started pod).1 (.updatePodStatus (a.started pod).2) with
    | resumed s' world' reply =>
      have hrest := hqueued (entryAfterStart pod (a.started pod).2 reply) reply world' s'
      exact (congrArg (fun rest ↦ Acceptance pod (a.started pod).2 (.call _ (some reply) :: rest))
        hrest).mpr (.answered h reply)
    | abandoned s' world' => exact .unanswered h

/-- A start sees of the agent only the clock and the pools. -/
theorem started_congr {a b : Agent} (hclock : a.clock = b.clock) (hpools : a.pools = b.pools)
    (pod : Pod) : (a.started pod).2 = (b.started pod).2 := by
  have hpool : a.poolOf? pod = b.poolOf? pod := by rw [poolOf?, poolOf?, hpools]
  simp only [started, assignAddress, hclock, hpool]
  cases (Lifecycle.prepared b.clock pod).address? with
  | some ip => rfl
  | none =>
    cases b.poolOf? pod with
    | none => rfl
    | some found =>
      simp only
      cases found.2.allocate <;> rfl

/-- The charge that follows is not seen. -/
theorem transcript_chargePod (host : Host Agent ε) (world : ε) (a : Agent) (pod : Pod) :
    (chargePod pod).run.transcript host world a = [] := by
  have hget : ∀ next : Agent → Action Unit, (Action.get >>= next).run.transcript host world a =
      (next a).run.transcript host world a := fun _ ↦ rfl
  rw [chargePod, hget]
  split <;> rfl

/-- **What is seen of the report of a pod** that is there is its first pass. -/
theorem acceptance_handlePod (host : Host Agent ε) (world : ε) (a : Agent) {e : Event Pod}
    (hop : e.op ≠ .deleted) :
    Acceptance e.object (a.started e.object).2 ((handlePod e).transcript host world a) := by
  obtain ⟨op, pod⟩ := e
  have hupdated : ∀ (world : ε) (a : Agent), Acceptance pod (a.started pod).2
      ((handlePod ⟨.updated, pod⟩).transcript host world a) := by
    intro world a
    have hcharge : (handlePod ⟨.updated, pod⟩).transcript host world a =
        ((accept pod).orWarn .startFailed).transcript host world a := by
      show ((accept pod).orWarn .startFailed >>= fun _ ↦
        (chargePod pod).orWarn .chargeFailed).transcript host world a = _
      rw [Task.transcript_bind]
      rcases ((accept pod).orWarn .startFailed).run host world a with ⟨s', world', - | u⟩
      · exact List.append_nil _
      · simp only [Task.transcript_orWarn, transcript_chargePod, List.append_nil]
    rw [hcharge, Task.transcript_orWarn]
    exact acceptance_accept host world a pod
  cases op with
  | added =>
    -- at most two warnings come before the start, which does not heed them
    let view (a : Agent) := (a.clock, a.pools)
    have hview : ∀ (a : Agent) (w : Warning), view (a.warn w) = view a := fun _ _ ↦ rfl
    obtain ⟨s, fitting, hdone, hs⟩ := fits_eq_done hview pod a
    have hsame : ∀ b : Agent, view b = view a → (b.started pod).2 = (a.started pod).2 :=
      fun b hb ↦ started_congr (congrArg Prod.fst hb) (congrArg Prod.snd hb) pod
    have hseen : (handlePod ⟨.added, pod⟩).transcript host world a =
        (handlePod ⟨.updated, pod⟩).transcript host world
          (if fitting then s else s.warn .overcommitted) := by
      show ((fits pod a).bind _).transcript host world = _
      rw [hdone]
      cases fitting <;> rfl
    rw [hseen]
    cases fitting with
    | true =>
      show Acceptance pod (a.started pod).2 _
      rw [← hsame s hs]
      exact hupdated world s
    | false =>
      show Acceptance pod (a.started pod).2 _
      rw [← hsame (s.warn .overcommitted) hs]
      exact hupdated world (s.warn .overcommitted)
  | updated => exact hupdated world a
  | deleted => exact absurd rfl hop

/-! ### The second pass -/

variable {a b : Agent} {pod : Pod}

/-- What is seen of the second pass is what is seen of a start. -/
theorem transcript_drain_start (host : Host Agent ε) (world : ε) (a : Agent) (pod : Pod) :
    (drain .start pod).transcript host world a = (startPod pod).transcript host world a := by
  show (startPod pod >>= noteOutcome .restartFailed).transcript host world a = _
  refine Task.transcript_bind_of_silent fun outcome s' ↦ ?_
  obtain ⟨started, - | -⟩ := outcome <;> exact ⟨_, _, rfl⟩

/-- A pod with an address is started without a change to the agent. -/
theorem started_fst_of_address (a : Agent) (h : pod.address? ≠ none) : (a.started pod).1 = a := by
  obtain ⟨ip, hip⟩ := Option.ne_none_iff_exists'.1 h
  rw [started, assignAddress, Lifecycle.address?_prepared, hip]

/-- A second start changes a status only by an address. -/
theorem address?_of_status_started_ne
    (h : (b.started (a.started pod).2).2.status ≠ (a.started pod).2.status) :
    (a.started pod).2.address? = none ∧ (b.started (a.started pod).2).2.address? ≠ none := by
  have hbefore : (a.started pod).2.address? = none := by
    by_contra haddress
    rw [started_started a b pod (.inl haddress)] at h
    exact h rfl
  refine ⟨hbefore, fun hafter ↦ h ?_⟩
  have hstatus : (a.started pod).2.status = some (Lifecycle.running a.clock
      (a.assignAddress pod (Lifecycle.prepared a.clock pod)).2) := rfl
  -- what is assigned is the prepared status, which a start has prepared already
  have hkept : (b.assignAddress (a.started pod).2
      (Lifecycle.prepared b.clock (a.started pod).2)).2 = (a.started pod).2.status.getD {} := by
    rw [address?_started] at hafter
    rcases assignAddress_cases b (a.started pod).2
      (Lifecycle.prepared b.clock (a.started pod).2) with ⟨ip, hgiven, hne⟩ | ⟨hsame, -⟩
    · rw [hgiven, PodStatus.address?_withAddress _ hne] at hafter
      cases hafter
    · rw [hsame, prepared_started]
  rw [started, hkept, hstatus, Option.getD_some, Lifecycle.running_running]

/-- A start that gives a pod an address changes its status. -/
theorem status_started_ne_of_address (hbefore : pod.address? = none)
    (hafter : (b.started pod).2.address? ≠ none) : (b.started pod).2.status ≠ pod.status := by
  intro hsame
  rw [Pod.address?, hsame] at hafter
  exact hafter hbefore

/-- Also a pod that is to be started again keeps the address that it got. -/
theorem address?_entryAfterStart (a : Agent) (pod : Pod) (reply : Except Fault Unit) :
    (entryAfterStart pod (a.started pod).2 reply).address? = (a.started pod).2.address? :=
  congrArg Prod.snd (slip_entryAfterStart a pod reply)

/-- What is queued after a first pass has the address with which that pass left the pod. A second
start that changes it makes up for a failed write, or comes with an address. -/
theorem Acceptance.entry {marks : List Mark} {entry : Pod}
    (h : Acceptance pod (a.started pod).2 marks) (hentry : .submit .start entry ∈ marks) :
    (entry.identity = pod.identity ∧ entry.address? = (a.started pod).2.address?) ∧
      ∀ b : Agent, (b.started entry).2.status ≠ entry.status →
        (∃ fault : Fault, fault.retryable = true ∧
          .call (.updatePodStatus (a.started pod).2) (some (.error fault)) ∈ marks) ∨
        (a.started pod).2.address? = none ∧ (b.started entry).2.address? ≠ none := by
  have hidentity : ∀ reply, (entryAfterStart pod (a.started pod).2 reply).identity =
      pod.identity := fun reply ↦ by
    have hmetadata : (a.started pod).2.metadata = pod.metadata := rfl
    rw [Pod.identity, metadata_entryAfterStart hmetadata reply, ← Pod.identity]
  have hstarted : ∀ b : Agent,
      (b.started (a.started pod).2).2.status ≠ (a.started pod).2.status →
        (a.started pod).2.address? = none ∧ (b.started (a.started pod).2).2.address? ≠ none :=
    fun b ↦ address?_of_status_started_ne
  cases h with
  | unchanged =>
    obtain rfl : entry = (a.started pod).2 := by simpa using hentry
    exact ⟨⟨rfl, rfl⟩, fun b hb ↦ .inr (hstarted b hb)⟩
  | unanswered => simp at hentry
  | answered hchanged reply =>
    obtain rfl : entry = entryAfterStart pod (a.started pod).2 reply := by simpa using hentry
    refine ⟨⟨hidentity reply, address?_entryAfterStart a pod reply⟩, fun b hb ↦ ?_⟩
    rcases reply with fault | u
    · by_cases hfault : fault.retryable = true
      · exact .inl ⟨fault, hfault, List.mem_cons_self⟩
      · -- a write that failed for good leaves the started pod in the queue
        have hsame : entryAfterStart pod (a.started pod).2 (.error fault) = (a.started pod).2 :=
          if_neg hfault
        rw [hsame] at hb ⊢
        exact .inr (hstarted b hb)
    · exact .inr (hstarted b hb)

/-- A first pass writes one status at most. -/
theorem Acceptance.length_written {started : Pod} {marks : List Mark}
    (h : Acceptance pod started marks) : (marks.filterMap Mark.written?).length ≤ 1 := by
  cases h with
  | unchanged => exact Nat.zero_le 1
  | unanswered => exact Nat.le_refl 1
  | answered => exact Nat.le_refl 1

/-- **The second pass is quiet.** A pod is reported as being there, and what was queued for it is
seen to, whatever has become of the agent and its pools by then. Then this second pass

* makes no call but one for the status of the pod to be written, and queues nothing;
* makes that call if it comes by an address that the pod was left without, and else only if the
  first pass wrote the status and that failed for a passing reason;
* leaves all pools alone if the first pass left the pod with an address, and writes that address.

So the two passes together write the status at most twice. -/
theorem second_pass_quiet (host : Host Agent ε) (world : ε) (a : Agent) (e : Event Pod)
    (hop : e.op ≠ .deleted) (entry : Pod)
    (hentry : .submit .start entry ∈ (handlePod e).transcript host world a)
    (host' : Host Agent ε') (world' : ε') (b : Agent) :
    let first := (handlePod e).transcript host world a
    let second := (drain .start entry).transcript host' world' b
    let left := (a.started e.object).2
    let again := (b.started entry).2
    (again.identity = e.object.identity ∧
      (second = [] ∨ ∃ reply, second = [.call (.updatePodStatus again) reply])) ∧
    ((left.address? = none ∧ again.address? ≠ none → second ≠ []) ∧
      (second ≠ [] →
        (∃ fault : Fault, fault.retryable = true ∧
          .call (.updatePodStatus left) (some (.error fault)) ∈ first) ∨
        left.address? = none ∧ again.address? ≠ none)) ∧
    (∀ ip, left.address? = some ip → again.address? = some ip ∧
      Task.Ensures Agent.pools (drain .start entry) b fun pools _ ↦ pools = b.pools) ∧
    ((first ++ second).filterMap Mark.written?).length ≤ 2 := by
  intro first second left again
  have hfirst : Acceptance e.object left first := acceptance_handlePod host world a hop
  obtain ⟨⟨hidentity, haddress⟩, hchanges⟩ := hfirst.entry hentry
  have hsecond : second = (startPod entry).transcript host' world' b :=
    transcript_drain_start host' world' b entry
  obtain ⟨hsame, hchanged⟩ := transcript_startPod host' world' b entry
  rw [← hsecond] at hsame hchanged
  have hshape : second = [] ∨ ∃ reply, second = [.call (.updatePodStatus again) reply] := by
    by_cases h : again.status = entry.status
    · exact .inl (hsame h)
    · exact .inr (hchanged h)
  refine ⟨⟨hidentity, hshape⟩, ⟨?_, ?_⟩, fun ip hip ↦ ⟨?_, ?_⟩, ?_⟩
  · rintro ⟨hbefore, hafter⟩
    obtain ⟨reply, hcall⟩ :=
      hchanged (status_started_ne_of_address (haddress.trans hbefore) hafter)
    rw [hcall]
    exact List.cons_ne_nil _ _
  · intro hseen
    exact hchanges b fun h ↦ hseen (hsame h)
  · exact address?_started_of_some (haddress.trans hip)
  · have hagent : (b.started entry).1 = b :=
      started_fst_of_address b (by rw [haddress, hip]; exact Option.some_ne_none ip)
    have hsettled : Task.Ensures Agent.pools (startPod entry) b fun pools _ ↦ pools = b.pools := by
      intro ε host world hhost
      have h := (ensures_settled_startPod Agent.pools entry b ε host world hhost).1
      rwa [hagent] at h
    exact hsettled.andThen fun outcome ↦ keeps_warning (fun _ _ ↦ rfl) _ outcome.2
  · have hwritten : (second.filterMap Mark.written?).length ≤ 1 := by
      rcases hshape with h | ⟨reply, h⟩
      · rw [h]
        exact Nat.zero_le 1
      · rw [h]
        exact Nat.le_refl 1
    have honce := hfirst.length_written
    rw [List.filterMap_append, List.length_append]
    omega

/-- A pod is added before its node has a pool, and its status cannot be written for now. By the
time the worker comes to it there is a pool, so its status is written once more, with an address. -/
theorem second_pass_quiet_of_latePool :
    let first := (handlePod ⟨.added, podWith "web" none⟩).transcript
      (answering fun _ ↦ .error .unanswered) () (.initial {} ⟨0, false⟩)
    let second := (drain .start (podWith "web" none)).transcript obliging () withPool
    .submit .start (podWith "web" none) ∈ first ∧
      (∃ again reply, second = [.call (.updatePodStatus again) reply] ∧
        again.address? = some "10.244.1.1") ∧
      ((first ++ second).filterMap Mark.written?).length ≤ 2 := by
  intro first second
  have hentry : .submit .start (podWith "web" none) ∈ first := by
    refine List.mem_cons_of_mem _ ?_
    exact List.mem_singleton.2 rfl
  obtain ⟨⟨-, hshape⟩, ⟨hwrites, -⟩, -, htwice⟩ := second_pass_quiet
    (answering fun _ ↦ .error .unanswered) () (.initial {} ⟨0, false⟩)
    ⟨.added, podWith "web" none⟩ nofun (podWith "web" none) hentry obliging () withPool
  have hagain : (withPool.started (podWith "web" none)).2.address? = some "10.244.1.1" := by
    decide +kernel
  have hseen : second ≠ [] := hwrites ⟨by decide +kernel, by rw [hagain]; exact nofun⟩
  obtain ⟨reply, hcall⟩ := hshape.resolve_left hseen
  exact ⟨hentry, ⟨_, reply, hcall, hagain⟩, htwice⟩

end Agent

end HollowFleet
