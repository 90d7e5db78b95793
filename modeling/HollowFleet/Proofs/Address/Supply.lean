import HollowFleet.Proofs.Address.Allocation

/-!
# Hosts handed out in a row

A pool that is asked several times in a row, and takes nothing back meanwhile, hands out hosts
that were not in use, each once, until all hosts are in use (`supplies_handOut`). So every host
that is not in use has its turn (`exists_take?`), and a pool that does not give a host away for the
time being has not set it aside: it has only not come to it.

`supplies_handOut` is by induction on the number of requests. The step hands out one host and is
otherwise about the pool that is left, so `Supplies` says of the hosts that were handed out how
many there are, that none is repeated, and that those in use afterwards are those before and
these. From this the hosts that are not in use can be counted: when as many requests were made as
there are such hosts, nothing is left, and by then each of them was handed out.

This is what is needed to show that an address does come to be given away. A single request says
only which host is the least; that a host in the middle is not passed over for good takes a run of
requests, and `exists_take?_of_mem_handOut` finds the request in it that the host answers.
-/

namespace HollowFleet.Pool

variable {p : Pool}

/-- Hands out hosts as often as asked, or as long as there are any. -/
def handOut (p : Pool) : ℕ → List ℕ × Pool
  | 0 => ([], p)
  | n + 1 =>
    match p.take? with
    | none => ([], p)
    | some (host, rest) => (host :: (rest.handOut n).1, (rest.handOut n).2)

/-- The hosts that are not in use. -/
def unused (p : Pool) : Finset ℕ := p.block.hosts \ p.used.toFinset

/-- Some hosts were handed out by a pool that was asked several times and left another one. -/
structure Supplies (p : Pool) (times : ℕ) (hosts : List ℕ) (rest : Pool) : Prop where
  /-- What is left is a pool of the same block. -/
  block : rest.block = p.block
  /-- The hosts that were handed out are in use. -/
  used : rest.used.toFinset = p.used.toFinset ∪ hosts.toFinset
  /-- They were not in use before. -/
  fresh : Disjoint p.used.toFinset hosts.toFinset
  /-- None was handed out twice. -/
  nodup : hosts.Nodup
  /-- There are as many as were asked for, or as there were. -/
  length : hosts.length = min times p.unused.card

/-- A pool with nothing to hand out stays as it is, however often it is asked. -/
theorem handOut_eq_nil (h : p.take? = none) (n : ℕ) : p.handOut n = ([], p) := by
  cases n with
  | zero => rfl
  | succ n => rw [handOut, h]

/-- One more request at the start is a request to the pool and then the others. -/
theorem handOut_succ (p : Pool) (k : ℕ) :
    (p.handOut (k + 1)).2 = ((p.serve .allocate).1.handOut k).2 := by
  rcases htake : p.take? with - | ⟨n, rest⟩
  · simp [handOut, serve, allocate, htake, handOut_eq_nil htake]
  · simp [handOut, serve, allocate, htake]

theorem unused_eq_empty (h : p.take? = none) : p.unused = ∅ := by
  rw [unused, take?_eq_none_iff.1 h, sdiff_self]
  rfl

/-- With a host that is handed out, one host less is not in use. -/
theorem insert_unused {host : ℕ} {rest : Pool} (h : p.take? = some (host, rest)) :
    host ∉ rest.unused ∧ p.unused = insert host rest.unused := by
  obtain ⟨hblock, hused⟩ := used_of_take? h
  have hhost : host ∈ p.unused := (isLeast_of_take? h).1
  refine ⟨by simp [unused, hused], ?_⟩
  ext other
  simp only [unused, hblock, hused, Finset.mem_insert, Finset.mem_sdiff] at hhost ⊢
  by_cases heq : other = host
  · simp [heq, hhost]
  · simp [heq]

/-- **What is handed out in a row.** -/
theorem supplies_handOut (p : Pool) (n : ℕ) : p.Supplies n (p.handOut n).1 (p.handOut n).2 := by
  induction n generalizing p with
  | zero => refine ⟨rfl, ?_, ?_, List.nodup_nil, ?_⟩ <;> simp [handOut]
  | succ n ih =>
    rcases h : p.take? with - | ⟨host, rest⟩
    · rw [handOut_eq_nil h]
      exact ⟨rfl, by simp, by simp, List.nodup_nil, by simp [unused_eq_empty h]⟩
    · obtain ⟨hblock, hused⟩ := used_of_take? h
      obtain ⟨hleft, hunused⟩ := insert_unused h
      have htail := ih rest
      have hlater : host ∉ (rest.handOut n).1 := fun hmem ↦
        Finset.disjoint_left.1 htail.fresh (by simp [hused]) (List.mem_toFinset.2 hmem)
      simp only [handOut, h]
      refine ⟨htail.block.trans hblock, ?_, ?_, ?_, ?_⟩
      · rw [htail.used, hused, List.toFinset_cons, Finset.insert_union, Finset.union_insert]
      · rw [List.toFinset_cons, Finset.disjoint_insert_right]
        refine ⟨(Finset.mem_sdiff.1 (isLeast_of_take? h).1).2, ?_⟩
        exact htail.fresh.mono_left (by simp [hused])
      · exact List.nodup_cons.2 ⟨hlater, htail.nodup⟩
      · rw [List.length_cons, htail.length, hunused, Finset.card_insert_of_notMem hleft,
          Nat.add_min_add_right]

/-- What was handed out at some time was the next to be handed out at that time. -/
theorem exists_take?_of_mem_handOut {n host : ℕ} (h : host ∈ (p.handOut n).1) :
    ∃ k rest, (p.handOut k).2.take? = some (host, rest) := by
  induction n generalizing p with
  | zero => simp [handOut] at h
  | succ n ih =>
    rcases htake : p.take? with - | ⟨first, rest⟩
    · simp [handOut, htake] at h
    · simp only [handOut, htake, List.mem_cons] at h
      rcases h with rfl | h
      · exact ⟨0, rest, htake⟩
      · obtain ⟨k, later, hlater⟩ := ih h
        refine ⟨k + 1, later, ?_⟩
        simpa only [handOut, htake] using hlater

/-- **Every host that is not in use has its turn.** -/
theorem exists_take? {host : ℕ} (h : host ∈ p.unused) :
    ∃ k rest, (p.handOut k).2.take? = some (host, rest) := by
  have hall := p.supplies_handOut p.unused.card
  -- as many hosts as are not in use, none of them in use: these are all of them
  have hsubset : (p.handOut p.unused.card).1.toFinset ⊆ p.unused := by
    intro other hother
    refine Finset.mem_sdiff.2 ⟨?_, Finset.disjoint_right.1 hall.fresh hother⟩
    rw [← hall.block]
    refine (p.handOut p.unused.card).2.used_subset ?_
    rw [hall.used]
    exact Finset.mem_union_right _ hother
  have hcard : p.unused.card ≤ (p.handOut p.unused.card).1.toFinset.card := by
    rw [List.toFinset_card_of_nodup hall.nodup, hall.length, Nat.min_self]
  rw [← Finset.eq_of_subset_of_card_le hsubset hcard, List.mem_toFinset] at h
  exact exists_take?_of_mem_handOut h

end HollowFleet.Pool
