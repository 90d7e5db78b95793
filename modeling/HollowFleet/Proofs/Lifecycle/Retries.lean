import HollowFleet.Proofs.Lifecycle.Pairing
import HollowFleet.Proofs.Lifecycle.Queues
import HollowFleet.Proofs.Lifecycle.Restart

/-!
# Writes that are tried again

When the status of a pod cannot be written for now, the pod is queued as it was given, with the
address that it got. The worker starts it once more and writes what it finds changed. So it
writes the status again if there is more to write than the address (`rewritten_iff`). If there
is not, the queued pod is what the failed write would have made of it, and the worker takes it
for written.

## What the condition rests on

* What is queued differs from the pod as it was given by the address alone
  (`retryEntry_of_some`, `retryEntry_of_none`). The containers are started without regard to the
  address, so the entry is started like the pod itself (`started_retryEntry`), and whether there is
  something to write is a comparison with what was queued instead of what was given.
* For a pod that got an address the comparison comes out equal exactly if the address was all that
  the first attempt had to write (`status_started_retryEntry_iff`). Every field of a status takes
  part in it, also those that a start resets.
* A pod that got none is queued as it was given, and what changed it once changes it again, for a
  status that was not settled by a start is not settled by waiting (`status_started_ne_of_none`).
* The agent may have changed in any way by then. It matters only to pods without an address, and for
  these the worker writes in any case.
-/

namespace HollowFleet

open Agent

namespace Lifecycle

/-- The containers of a pod are started without regard to its address. -/
theorem prepared_withAddress (now : Timestamp) (pod : Pod) (ip : String) :
    prepared now { pod with status := some ((pod.status.getD {}).withAddress ip) } =
      (prepared now pod).withAddress ip := by
  rw [prepared, prepared]
  cases pod.spec <;> rfl

end Lifecycle

namespace Agent

variable {a : Agent} {pod : Pod}

/-! ### What is queued for another attempt -/

/-- A pod that got an address is queued as it was given, but for the address. -/
theorem retryEntry_of_some {started : Pod} {ip : String} (h : started.address? = some ip) :
    retryEntry pod started =
      { pod with status := some ((pod.status.getD {}).withAddress ip) } := by
  rw [Pod.address?] at h
  rw [retryEntry, h]

theorem retryEntry_of_none {started : Pod} (h : started.address? = none) :
    retryEntry pod started = pod := by
  rw [Pod.address?] at h
  rw [retryEntry, h]

/-- What is queued for another attempt has the address that the start gave to the pod. -/
theorem address?_retryEntry {started : Pod} {ip : String} (h : started.address? = some ip) :
    (retryEntry pod started).address? = some ip := by
  rw [retryEntry_of_some h]
  exact PodStatus.address?_withAddress _ (Pod.ne_empty_of_address? h)

/-- A start that leaves a pod with an address has done no more to the prepared status than
to report the address. -/
theorem assignAddress_of_started {ip : String} (h : (a.started pod).2.address? = some ip) :
    (a.assignAddress pod (Lifecycle.prepared a.clock pod)).2 =
      (Lifecycle.prepared a.clock pod).withAddress ip := by
  rw [address?_started] at h
  rcases assignAddress_cases a pod (Lifecycle.prepared a.clock pod) with
    ⟨ip', hgiven, hne⟩ | ⟨hsame, hnone⟩
  · rw [hgiven, PodStatus.address?_withAddress _ hne] at h
    rw [hgiven, Option.some.inj h]
  · rw [hsame, hnone] at h
    cases h

/-- What is queued would have been started like the pod itself. -/
theorem started_retryEntry {ip : String} (h : (a.started pod).2.address? = some ip) :
    (a.started (retryEntry pod (a.started pod).2)).2 = (a.started pod).2 := by
  have hprepared : (Lifecycle.prepared a.clock (retryEntry pod (a.started pod).2)) =
      (Lifecycle.prepared a.clock pod).withAddress ip := by
    rw [retryEntry_of_some h, Lifecycle.prepared_withAddress]
  have hassigned : (a.assignAddress (retryEntry pod (a.started pod).2)
      (Lifecycle.prepared a.clock (retryEntry pod (a.started pod).2))).2 =
        (a.assignAddress pod (Lifecycle.prepared a.clock pod)).2 := by
    have hip := PodStatus.address?_withAddress (Lifecycle.prepared a.clock pod)
      (Pod.ne_empty_of_address? h)
    rw [assignAddress_of_started h, hprepared, assignAddress, hip]
    rfl
  rw [started, hassigned, retryEntry_of_some h]
  rfl

/-! ### Starts that change nothing -/

/-- Of a pod that got an address, the worker finds nothing to write exactly if the address was
all that the first attempt had to write. -/
theorem status_started_retryEntry_iff {ip : String} (h : (a.started pod).2.address? = some ip)
    (b : Agent) :
    (b.started (retryEntry pod (a.started pod).2)).2.status =
        (retryEntry pod (a.started pod).2).status ↔
      (a.started pod).2.status = some ((pod.status.getD {}).withAddress ip) := by
  have hentry : retryEntry pod (a.started pod).2 =
      { pod with status := some ((pod.status.getD {}).withAddress ip) } := retryEntry_of_some h
  constructor
  · intro hsame
    -- the entry has its address, so what one agent leaves unchanged every agent does
    have hip : (retryEntry pod (a.started pod).2).address? ≠ none := by
      rw [address?_retryEntry h]
      exact nofun
    have hrest := atRest_of_status_eq hsame (.inl hip)
    have hstarted := congrArg (fun r ↦ r.2.status) (hrest a)
    rw [started_retryEntry h] at hstarted
    rw [hstarted, hentry]
  · intro hstatus
    have hwritten : retryEntry pod (a.started pod).2 = (a.started pod).2 := by
      rw [hentry, ← hstatus]
      rfl
    have hip : (a.started pod).2.address? ≠ none := by
      rw [h]
      exact nofun
    rw [hwritten, atRest_started a pod (.inl hip) b]

/-- A pod that one start changes, though not by an address, is changed by every start. -/
theorem status_started_ne_of_none (hchanged : (a.started pod).2.status ≠ pod.status)
    (hnone : (a.started pod).2.address? = none) (b : Agent) :
    (b.started pod).2.status ≠ pod.status := by
  intro hsame
  refine hchanged ?_
  have hpod : (b.started pod).2 = pod := by
    show { pod with status := (b.started pod).2.status } = pod
    rw [hsame]
  -- such a pod is prepared and running already
  have hprepared : Lifecycle.prepared a.clock pod = pod.status.getD {} := by
    have h := prepared_started b pod a.clock
    rwa [hpod] at h
  have hunassigned : (a.assignAddress pod (Lifecycle.prepared a.clock pod)).2 =
      Lifecycle.prepared a.clock pod := by
    rw [address?_started] at hnone
    rcases assignAddress_cases a pod (Lifecycle.prepared a.clock pod) with
      ⟨ip, hgiven, hne⟩ | ⟨hkept, -⟩
    · rw [hgiven, PodStatus.address?_withAddress _ hne] at hnone
      cases hnone
    · exact hkept
  have hrunning : pod.status = some (Lifecycle.running b.clock
      (b.assignAddress pod (Lifecycle.prepared b.clock pod)).2) := hsame.symm
  calc (a.started pod).2.status
      = some (Lifecycle.running a.clock (pod.status.getD {})) := by
        rw [started, hunassigned, hprepared]
    _ = pod.status := by
        rw [hrunning, Option.getD_some, Lifecycle.running_running]

/-! ### The two attempts -/

/-- A reported pod whose status has not changed costs no call. -/
theorem pending?_accept_of_eq (h : (a.started pod).2.status = pod.status) :
    ((accept pod).run a).pending? = none := by
  show (((startPod pod a).bind _).bind _).pending? = none
  rw [startPod_of_eq h]
  rfl

/-- A reported pod whose status changed is a call to write it, before anything is queued. -/
theorem pending?_accept_of_ne (h : (a.started pod).2.status ≠ pod.status) :
    ((accept pod).run a).pending? = some (.updatePodStatus (a.started pod).2) := by
  show (((startPod pod a).bind _).bind _).pending? = _
  rw [startPod_of_ne h]
  rfl

/-- What is submitted after the answer depends on how the write went, and on nothing that happened
meanwhile. -/
theorem submitted?_answer_accept (h : (a.started pod).2.status ≠ pod.status) (s : Agent)
    (reply : (c : Call) → c.Reply) :
    (((accept pod).run a).answer s reply).submitted? = some (.start,
      entryAfterStart pod (a.started pod).2 (reply (.updatePodStatus (a.started pod).2))) := by
  show ((((startPod pod a).bind _).bind _).answer s reply).submitted? = _
  rw [startPod_of_ne h]
  rfl

/-- What the worker asks the cluster about a pod that is queued for a start. -/
theorem pending?_drain_start_iff {entry again : Pod} {b : Agent} :
    (drain .start entry b).pending? = some (.updatePodStatus again) ↔
      (b.started entry).2.status ≠ entry.status ∧ again = (b.started entry).2 := by
  by_cases h : (b.started entry).2.status = entry.status
  · simp [drain_start_of_eq h, Progress.pending?, h]
  · simp [drain_start_of_ne h, Progress.pending?, h, eq_comm]

/-- **When a write is tried again.** A pod was reported and its status was to be written, which
failed for a passing reason. Then, however the agent changed meanwhile, the pod is queued for a
start. When the worker comes to it, and in whatever state the agent is then, it writes the
status of this pod again, with the address that the pod got, if it got one, but only if the
address was not all there was to write. -/
theorem rewritten_iff (a : Agent) (pod called : Pod)
    (hcalled : ((accept pod).run a).pending? = some (.updatePodStatus called)) (s : Agent)
    (reply : (c : Call) → c.Reply) (fault : Fault)
    (hreply : reply (.updatePodStatus called) = .error fault) (hfault : fault.retryable = true) :
    ∃ entry, (((accept pod).run a).answer s reply).submitted? = some (.start, entry) ∧
      ∀ b : Agent,
        ((∃ again, (drain .start entry b).pending? = some (.updatePodStatus again)) ↔
          ¬ ∃ ip, called.address? = some ip ∧
            called.status = some ((pod.status.getD {}).withAddress ip)) ∧
        ∀ again, (drain .start entry b).pending? = some (.updatePodStatus again) →
          again.identity = pod.identity ∧ ∀ ip, called.address? = some ip →
            again.address? = some ip := by
  have hchanged : (a.started pod).2.status ≠ pod.status := by
    intro hsame
    rw [pending?_accept_of_eq hsame] at hcalled
    cases hcalled
  obtain rfl : (a.started pod).2 = called := by
    rw [pending?_accept_of_ne hchanged] at hcalled
    cases hcalled
    rfl
  have hentry : entryAfterStart pod (a.started pod).2
      (reply (.updatePodStatus (a.started pod).2)) = retryEntry pod (a.started pod).2 := by
    rw [hreply]
    exact if_pos hfault
  have hmetadata : (retryEntry pod (a.started pod).2).metadata = pod.metadata := by
    have hstarted : (a.started pod).2.metadata = pod.metadata := rfl
    rw [← hentry]
    exact metadata_entryAfterStart hstarted _
  refine ⟨retryEntry pod (a.started pod).2, ?_, fun b ↦ ⟨?_, fun again hagain ↦ ⟨?_, ?_⟩⟩⟩
  · rw [submitted?_answer_accept hchanged, hentry]
  · have hwritten : (∃ again, (drain .start (retryEntry pod (a.started pod).2) b).pending? =
        some (.updatePodStatus again)) ↔ (b.started (retryEntry pod (a.started pod).2)).2.status ≠
          (retryEntry pod (a.started pod).2).status := by
      simp only [pending?_drain_start_iff, exists_and_left, exists_eq, and_true]
    rw [hwritten]
    cases haddress : (a.started pod).2.address? with
    | some ip =>
      rw [Ne, status_started_retryEntry_iff haddress]
      simp
    | none =>
      rw [retryEntry_of_none haddress]
      exact iff_of_true (status_started_ne_of_none hchanged haddress b) (by simp)
  · obtain ⟨-, rfl⟩ := pending?_drain_start_iff.1 hagain
    show Pod.identity _ = _
    rw [Pod.identity, Pod.identity, ← hmetadata]
    rfl
  · obtain ⟨-, rfl⟩ := pending?_drain_start_iff.1 hagain
    intro ip hip
    exact address?_started_of_some (address?_retryEntry hip)

/-- The status of a new pod is written again, with its address. -/
theorem rewritten_of_new : ∃ entry again, (((accept (podWith "web" none)).run withPool).answer
      withPool fun _ ↦ .error .unanswered).submitted? = some (.start, entry) ∧
    (drain .start entry withPool).pending? = some (.updatePodStatus again) ∧
      again.address? = some "10.244.1.1" := by
  obtain ⟨entry, hentry, h⟩ := rewritten_iff withPool (podWith "web" none) writtenFirst
    (by decide +kernel) withPool (fun _ ↦ .error .unanswered) .unanswered rfl rfl
  obtain ⟨hiff, hagain⟩ := h withPool
  have hmore : ¬ ∃ ip, writtenFirst.address? = some ip ∧
      writtenFirst.status = some (((podWith "web" none).status.getD {}).withAddress ip) := by
    rintro ⟨ip, -, hstatus⟩
    have hphase := congrArg (fun status ↦ status.bind PodStatus.phase) hstatus
    cases hphase
  obtain ⟨again, hpending⟩ := hiff.2 hmore
  exact ⟨entry, again, hentry, hpending, (hagain again hpending).2 _ (by decide +kernel)⟩

/-- A pod that was started on a node without a pool. -/
def startedWithoutPool : Pod := ((Agent.initial {} ⟨0, false⟩).started (podWith "web" none)).2

/-- **An address that could not be written is not written again**, if the pod ran already: what
is queued shows the address, and the worker finds nothing that changed. -/
theorem not_rewritten :
    ¬ ∀ (a : Agent) (pod called : Pod),
      ((accept pod).run a).pending? = some (.updatePodStatus called) →
      ∀ (reply : (c : Call) → c.Reply) (fault : Fault),
      reply (.updatePodStatus called) = .error fault → fault.retryable = true →
      ∀ (s : Agent) (entry : Pod),
      (((accept pod).run a).answer s reply).submitted? = some (.start, entry) →
      ∀ b : Agent, ∃ again, (drain .start entry b).pending? = some (.updatePodStatus again) := by
  intro h
  -- the failed write had only the address to add, so the queued pod is the one to be written
  obtain ⟨again, hagain⟩ := h withPool startedWithoutPool (withPool.started startedWithoutPool).2
    (by decide +kernel) (fun _ ↦ .error .unanswered) .unanswered rfl rfl withPool
    (withPool.started startedWithoutPool).2 (by decide +kernel) withPool
  have hnone : (drain .start (withPool.started startedWithoutPool).2 withPool).pending? = none := by
    decide +kernel
  rw [hnone] at hagain
  cases hagain

end Agent

end HollowFleet
