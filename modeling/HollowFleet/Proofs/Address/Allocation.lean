import HollowFleet.Address.Pool
import Mathlib.Data.Finset.Max
import Mathlib.Order.Interval.Finset.Nat

/-!
# Pools as sets of hosts

A pool keeps two lists and a mark, but what it answers depends on one set only, the hosts in
use: it hands out the least host of its block that is not in the set, and refuses when there is
none. `Block.serve` is the allocator that knows nothing else, and `serveAll_refines` says that a
pool cannot be told from it by any sequence of requests.

What makes the two agree is what every pool carries: the hosts in use and those that came back
are apart from each other and fill the block up to the mark. So a host that came back lies below
every host that was never handed out, and looking at the former first yields the least of all
(`isLeast_of_take?`).

## What the refinement rests on

* `serve_refines` is the step: one request, on a pool and on the set of its hosts in use. It rests
  on `isLeast_of_take?` for what is handed out, on `take?_eq_none_iff` for the refusal, and on
  `used_putBack` for what comes back.
* `serveAll_refines_from` is the run, by induction on the requests.
* That no two addresses that are out are equal is told by the answers alone
  (`HoldsExactly.serveAll`): the allocator that knows only the set hands out none that is in it.
-/

namespace HollowFleet

namespace Pool

/-- What is asked of a pool. -/
inductive Request where
  /-- An address. -/
  | allocate
  /-- That a written address be taken back. -/
  | release (written : String)
deriving DecidableEq

/-- What a pool answers: an address, nothing, or a fault. -/
abbrev Answer := Except Fault (Option Quad)

/-- The pool after a request, and its answer. A fault leaves the pool as it was. -/
def serve (p : Pool) : Request → Pool × Answer
  | .allocate =>
    match p.allocate with
    | .ok (ip, rest) => (rest, .ok (some ip))
    | .error fault => (p, .error fault)
  | .release written =>
    match p.release written with
    | .ok rest => (rest, .ok none)
    | .error fault => (p, .error fault)

/-- The pool after several requests, and its answers. -/
def serveAll (p : Pool) : List Request → Pool × List Answer
  | [] => (p, [])
  | r :: rest =>
    let first := p.serve r
    let others := first.1.serveAll rest
    (others.1, first.2 :: others.2)

end Pool

namespace Block

/-- The hosts of a block. -/
def hosts (b : Block) : Finset ℕ := Finset.Icc b.first b.last

/-- The hosts of a block are the numbers between its first and its last one. -/
theorem mem_hosts {b : Block} {host : ℕ} : host ∈ b.hosts ↔ b.first ≤ host ∧ host ≤ b.last :=
  Finset.mem_Icc

/-- The hosts in use after a request, and the answer, of an allocator that knows only the hosts
in use. -/
def serve (b : Block) (inUse : Finset ℕ) : Pool.Request → Finset ℕ × Pool.Answer
  | .allocate =>
    if h : (b.hosts \ inUse).Nonempty then
      (insert ((b.hosts \ inUse).min' h) inUse,
        .ok (some (b.address ((b.hosts \ inUse).min' h))))
    else (inUse, .error (.poolExhausted b.network b.capacity))
  | .release written =>
    match b.host written with
    | .ok host => (inUse.erase host, .ok none)
    | .error fault => (inUse, .error fault)

/-- The hosts in use after several requests, and the answers. -/
def serveAll (b : Block) (inUse : Finset ℕ) : List Pool.Request → Finset ℕ × List Pool.Answer
  | [] => (inUse, [])
  | r :: rest =>
    let first := b.serve inUse r
    let others := b.serveAll first.1 rest
    (others.1, first.2 :: others.2)

/-- Hosts of a block differ in the last octet of their addresses. -/
theorem address_injective (b : Block) : Function.Injective b.address := by
  intro h h' heq
  exact congrArg Quad.d heq

end Block

namespace Pool

/-! ### Handing out -/

section

variable (p : Pool)

/-- Every host in use is one of the block's. -/
theorem used_subset : p.used.toFinset ⊆ p.block.hosts := by
  intro host hmem
  have hbounds := (p.mem_iff host).1 (.inl (List.mem_toFinset.1 hmem))
  have hnext := p.next_le
  exact Block.mem_hosts.2 ⟨hbounds.1, by omega⟩

end

variable {p : Pool}

/-- A pool hands out the least host that came back, or else the host at the mark. -/
theorem take?_eq_some_iff {host : ℕ} {rest : Pool} :
    p.take? = some (host, rest) ↔
      (∃ free, ∃ h : p.free = host :: free, rest = p.takeFree h) ∨
        ∃ hfree : p.free = [], ∃ hnext : p.next ≤ p.block.last,
          host = p.next ∧ rest = p.takeNext hfree hnext := by
  unfold take?
  split
  · next first free hfree =>
    constructor
    · rintro heq
      cases heq
      exact .inl ⟨free, hfree, rfl⟩
    · rintro (⟨free', hfree', rfl⟩ | ⟨hnil, -⟩)
      · obtain ⟨rfl, rfl⟩ := List.cons.inj (hfree.symm.trans hfree')
        rfl
      · exact absurd (hfree.symm.trans hnil) (List.cons_ne_nil _ _)
  · next hfree =>
    split
    · next hnext =>
      constructor
      · rintro heq
        cases heq
        exact .inr ⟨hfree, hnext, rfl, rfl⟩
      · rintro (⟨free', hfree', -⟩ | ⟨-, -, rfl, rfl⟩)
        · exact absurd (hfree.symm.trans hfree') (List.cons_ne_nil _ _).symm
        · rfl
    · next hlast =>
      constructor
      · rintro heq
        cases heq
      · rintro (⟨free', hfree', -⟩ | ⟨-, hnext, -⟩)
        · exact absurd (hfree.symm.trans hfree') (List.cons_ne_nil _ _).symm
        · exact absurd hnext hlast

/-- The host that is handed out next is the least that is not in use. A host that came back is
below the mark, and the mark is below all that was never handed out. -/
theorem isLeast_of_take? {host : ℕ} {rest : Pool} (h : p.take? = some (host, rest)) :
    IsLeast (↑(p.block.hosts \ p.used.toFinset) : Set ℕ) host := by
  have hmark := p.next_le
  rcases take?_eq_some_iff.1 h with ⟨free, hfree, -⟩ | ⟨hfree, hlast, rfl, -⟩
  · have hsorted := List.pairwise_cons.1 (hfree ▸ p.free_sorted)
    have hback : host ∈ p.free := by simp [hfree]
    have hbounds := (p.mem_iff host).1 (.inr hback)
    constructor
    · show host ∈ p.block.hosts \ p.used.toFinset
      rw [Finset.mem_sdiff, Block.mem_hosts, List.mem_toFinset]
      exact ⟨⟨hbounds.1, by omega⟩, fun hused ↦ p.disjoint host hused hback⟩
    · intro other hother
      obtain ⟨hhosts, hunused⟩ := Finset.mem_sdiff.1 (Finset.mem_coe.1 hother)
      rw [Block.mem_hosts] at hhosts
      rw [List.mem_toFinset] at hunused
      rcases Nat.lt_or_ge other p.next with hlt | hge
      · -- below the mark, what is not in use came back
        have hfreed := ((p.mem_iff other).2 ⟨hhosts.1, hlt⟩).resolve_left hunused
        rw [hfree, List.mem_cons] at hfreed
        rcases hfreed with rfl | hfreed
        · exact Nat.le_refl _
        · exact Nat.le_of_lt (hsorted.1 other hfreed)
      · omega
  · have hunused : p.next ∉ p.used := fun hused ↦
      Nat.lt_irrefl _ ((p.mem_iff p.next).1 (.inl hused)).2
    constructor
    · show p.next ∈ p.block.hosts \ p.used.toFinset
      rw [Finset.mem_sdiff, Block.mem_hosts, List.mem_toFinset]
      exact ⟨⟨p.first_le_next, hlast⟩, hunused⟩
    · intro other hother
      obtain ⟨hhosts, hfresh⟩ := Finset.mem_sdiff.1 (Finset.mem_coe.1 hother)
      rw [Block.mem_hosts] at hhosts
      rw [List.mem_toFinset] at hfresh
      -- nothing came back, so all hosts below the mark are in use
      by_contra hlt
      have hmem := (p.mem_iff other).2 ⟨hhosts.1, by omega⟩
      simp only [hfree, List.not_mem_nil, or_false] at hmem
      exact hfresh hmem

/-- What handing out leaves: a pool of the same block, with one more host in use. -/
theorem used_of_take? {host : ℕ} {rest : Pool} (h : p.take? = some (host, rest)) :
    rest.block = p.block ∧ rest.used.toFinset = insert host p.used.toFinset := by
  have hinsert : ∀ n, (Ascending.insert n p.used).toFinset = insert n p.used.toFinset := by
    intro n
    ext m
    simp only [List.mem_toFinset, Ascending.mem_insert, Finset.mem_insert]
  rcases take?_eq_some_iff.1 h with ⟨free, hfree, rfl⟩ | ⟨hfree, hlast, rfl, rfl⟩
  · exact ⟨rfl, hinsert host⟩
  · exact ⟨rfl, hinsert p.next⟩

/-- There is nothing to hand out exactly when all hosts are in use. -/
theorem take?_eq_none_iff : p.take? = none ↔ p.used.toFinset = p.block.hosts := by
  constructor
  · intro h
    refine p.used_subset.antisymm fun host hhost ↦ ?_
    rw [Block.mem_hosts] at hhost
    simp only [take?] at h
    split at h
    · cases h
    · next hfree =>
      split at h
      · cases h
      · next hlast =>
        have hmem := (p.mem_iff host).2 ⟨hhost.1, by omega⟩
        simp only [hfree, List.not_mem_nil, or_false] at hmem
        exact List.mem_toFinset.2 hmem
  · intro hall
    rcases h : p.take? with - | ⟨host, rest⟩
    · rfl
    · have hleast := (isLeast_of_take? h).1
      rw [hall, sdiff_self] at hleast
      cases hleast

/-! ### Taking back -/

/-- What comes back does not change what a pool was made for. -/
@[simp]
theorem block_putBack (p : Pool) (host : ℕ) : (p.putBack host).block = p.block := by
  rw [putBack]
  split <;> rfl

/-- What taking a host back leaves: a pool with that host not in use. -/
theorem used_putBack (p : Pool) (host : ℕ) :
    (p.putBack host).used.toFinset = p.used.toFinset.erase host := by
  rw [putBack]
  split
  · next hused =>
    ext other
    simp only [List.mem_toFinset, List.mem_filter, decide_eq_true_eq, Finset.mem_erase]
    exact and_comm
  · next hunused =>
    rw [Finset.erase_eq_of_notMem]
    rwa [List.mem_toFinset]

/-! ### Requests -/

/-- A text that names a host is accepted, and the host is taken back. -/
theorem serve_release_of_host {p : Pool} {written : String} {host : ℕ}
    (h : p.block.host written = .ok host) :
    p.serve (.release written) = (p.putBack host, .ok none) := by
  rw [serve, release, h]
  rfl

/-- A text that names none is refused, and the pool stays as it was. -/
theorem serve_release_of_fault {p : Pool} {written : String} {fault : Fault}
    (h : p.block.host written = .error fault) :
    p.serve (.release written) = (p, .error fault) := by
  rw [serve, release, h]
  rfl

/-- One request leaves a pool of the same block, and is answered as by the allocator that knows
only the hosts in use. -/
theorem serve_refines (p : Pool) (r : Request) :
    (p.serve r).1.block = p.block ∧
      (p.block.serve p.used.toFinset r).1 = (p.serve r).1.used.toFinset ∧
        (p.block.serve p.used.toFinset r).2 = (p.serve r).2 := by
  cases r with
  | allocate =>
    simp only [serve, allocate, Block.serve]
    rcases h : p.take? with - | ⟨host, rest⟩
    · simp [take?_eq_none_iff.1 h]
    · have hleast := isLeast_of_take? h
      have hne : (p.block.hosts \ p.used.toFinset).Nonempty := ⟨host, hleast.1⟩
      have hmin : (p.block.hosts \ p.used.toFinset).min' hne = host :=
        (Finset.isLeast_min' _ hne).unique hleast
      obtain ⟨hblock, hused⟩ := used_of_take? h
      rw [dif_pos hne, hmin]
      exact ⟨hblock, hused.symm, rfl⟩
  | release written =>
    simp only [serve, release, Block.serve]
    rcases p.block.host written with fault | host
    · exact ⟨rfl, rfl, rfl⟩
    · exact ⟨p.block_putBack host, (p.used_putBack host).symm, rfl⟩

@[simp]
theorem block_serve (p : Pool) (r : Request) : (p.serve r).1.block = p.block :=
  (p.serve_refines r).1

/-- Requests one after the other are answered as by that allocator too, from any pool on. -/
theorem serveAll_refines_from (p : Pool) (requests : List Request) :
    (p.serveAll requests).1.block = p.block ∧
      (p.block.serveAll p.used.toFinset requests).1 = (p.serveAll requests).1.used.toFinset ∧
        (p.block.serveAll p.used.toFinset requests).2 = (p.serveAll requests).2 := by
  induction requests generalizing p with
  | nil => exact ⟨rfl, rfl, rfl⟩
  | cons r rest ih =>
    obtain ⟨hblock, hused, hanswer⟩ := p.serve_refines r
    obtain ⟨hblock', hused', hanswers⟩ := ih (p.serve r).1
    rw [hblock] at hblock' hused' hanswers
    simp only [serveAll, Block.serveAll]
    rw [hused, hanswer]
    exact ⟨hblock', hused', by rw [hanswers]⟩

@[simp]
theorem block_serveAll (p : Pool) (requests : List Request) :
    (p.serveAll requests).1.block = p.block :=
  (p.serveAll_refines_from requests).1

/-! ### Outstanding addresses -/

/-- The addresses that are out after a request and its answer, given those that were out
before. -/
def hold (b : Block) (held : List Quad) : Request × Answer → List Quad
  | (.allocate, .ok (some ip)) => ip :: held
  | (.release written, .ok none) =>
    match b.host written with
    | .ok host => held.erase (b.address host)
    | .error _ => held
  | _ => held

/-- The addresses that were handed out and not taken back since, one for each time. -/
def outstanding (b : Block) (transcript : List (Request × Answer)) : List Quad :=
  transcript.foldl (hold b) []

/-- Some addresses are out: those of the hosts in use, each once. -/
def HoldsExactly (b : Block) (held : List Quad) (inUse : Finset ℕ) : Prop :=
  held.Nodup ∧ ∀ ip, ip ∈ held ↔ ∃ host ∈ inUse, b.address host = ip

/-- The step for addresses that are out: a host that is handed out was not in use, so its address is
a new one. -/
theorem HoldsExactly.serve {b : Block} {held : List Quad} {inUse : Finset ℕ}
    (h : HoldsExactly b held inUse) (r : Request) :
    HoldsExactly b (hold b held (r, (b.serve inUse r).2)) (b.serve inUse r).1 := by
  obtain ⟨hnodup, hmem⟩ := h
  cases r with
  | allocate =>
    simp only [Block.serve]
    split
    · next hne =>
      have hunused : (b.hosts \ inUse).min' hne ∉ inUse :=
        (Finset.mem_sdiff.1 (Finset.min'_mem _ hne)).2
      refine ⟨List.nodup_cons.2 ⟨fun hheld ↦ ?_, hnodup⟩, fun ip ↦ ?_⟩
      · obtain ⟨host, hhost, heq⟩ := (hmem _).1 hheld
        exact hunused (b.address_injective heq ▸ hhost)
      · simp only [hold, List.mem_cons, hmem, Finset.mem_insert, exists_eq_or_imp]
        rw [eq_comm]
    · exact ⟨hnodup, hmem⟩
  | release written =>
    rcases hhost : b.host written with fault | host
    · simpa only [Block.serve, hhost, hold] using ⟨hnodup, hmem⟩
    · simp only [Block.serve, hhost, hold]
      refine ⟨hnodup.erase _, fun ip ↦ ?_⟩
      rw [hnodup.mem_erase_iff, hmem]
      constructor
      · rintro ⟨hne, other, hother, rfl⟩
        exact ⟨other, Finset.mem_erase.2 ⟨fun heq ↦ hne (heq ▸ rfl), hother⟩, rfl⟩
      · rintro ⟨other, hother, rfl⟩
        obtain ⟨hne, hused⟩ := Finset.mem_erase.1 hother
        exact ⟨fun heq ↦ hne (b.address_injective heq), other, hused, rfl⟩

/-- The run, by induction on the requests, with their answers beside them. -/
theorem HoldsExactly.serveAll {b : Block} {held : List Quad} {inUse : Finset ℕ}
    (h : HoldsExactly b held inUse) (requests : List Request) :
    HoldsExactly b ((requests.zip (b.serveAll inUse requests).2).foldl (hold b) held)
      (b.serveAll inUse requests).1 := by
  induction requests generalizing held inUse with
  | nil => exact h
  | cons r rest ih => exact ih (h.serve r)

/-! ### The refinement -/

theorem eq_ofBlock_of_parse {written : String} {pool : Pool}
    (h : Pool.parse written = .ok pool) : pool = ofBlock pool.block := by
  rcases hblock : Block.parse written with fault | block
  · rw [parse, hblock] at h
    cases h
  · rw [parse, hblock] at h
    cases h
    rfl

/-- The one fault of handing out names the network and the capacity of the block. -/
theorem allocate_eq_error_iff {p : Pool} :
    p.allocate = .error (.poolExhausted p.block.network p.block.capacity) ↔ p.take? = none := by
  rw [allocate]
  rcases p.take? with - | ⟨host, rest⟩ <;> simp

/-- **A pool is the set of its hosts in use.** Whatever is asked of the pool of a block that
was read, it answers as the allocator that knows only that set. The hosts in use and those that
came back are apart and fill the block up to the mark; nothing is left to hand out exactly when
all hosts are in use; and the addresses that are out are those of the hosts in use, no two of
them equal. -/
theorem serveAll_refines (written : String) (pool : Pool) (hpool : Pool.parse written = .ok pool)
    (requests : List Request) :
    let b := pool.block
    let p := (pool.serveAll requests).1
    let answers := (pool.serveAll requests).2
    let inUse := (b.serveAll ∅ requests).1
    (answers = (b.serveAll ∅ requests).2 ∧ p.block = b ∧ p.used.toFinset = inUse) ∧
      (inUse ⊆ b.hosts ∧ (p.allocate = .error (.poolExhausted b.network b.capacity) ↔
        inUse = b.hosts)) ∧
      (Disjoint p.used.toFinset p.free.toFinset ∧
        p.used.toFinset ∪ p.free.toFinset = Finset.Ico b.first p.next ∧
          b.first ≤ p.next ∧ p.next ≤ b.last + 1) ∧
      (outstanding b (requests.zip answers)).Nodup ∧
        ∀ ip, ip ∈ outstanding b (requests.zip answers) ↔ ∃ host ∈ inUse, b.address host = ip := by
  intro b p answers inUse
  obtain ⟨hblock, hused, hanswers⟩ : p.block = b ∧
      inUse = p.used.toFinset ∧ (b.serveAll ∅ requests).2 = answers := by
    have hused₀ : pool.used.toFinset = ∅ := by rw [eq_ofBlock_of_parse hpool]; rfl
    have hrun := pool.serveAll_refines_from requests
    rwa [hused₀] at hrun
  -- the addresses that are out are told by the answers alone, and those agree
  have hholds : HoldsExactly b (outstanding b (requests.zip answers)) inUse := by
    have hempty : HoldsExactly b [] ∅ := ⟨List.nodup_nil, by simp⟩
    rw [← hanswers]
    exact hempty.serveAll requests
  refine ⟨⟨hanswers.symm, hblock, hused.symm⟩, ⟨?_, ?_⟩, ⟨?_, ?_, ?_, ?_⟩, hholds⟩
  · rw [hused, ← hblock]
    exact p.used_subset
  · rw [hused, ← hblock, allocate_eq_error_iff]
    exact take?_eq_none_iff
  · rw [List.disjoint_toFinset_iff_disjoint]
    exact p.disjoint
  · ext host
    rw [Finset.mem_union, List.mem_toFinset, List.mem_toFinset, Finset.mem_Ico, ← hblock]
    exact p.mem_iff host
  · exact hblock ▸ p.first_le_next
  · exact hblock ▸ p.next_le

/-- A pool of two hosts. -/
def twoHosts : Pool := ofBlock (.containing ⟨10, 0, 0, 0⟩ 30 (by decide))

/-- Past exhaustion and back: after both hosts were handed out, what comes back is what is
handed out next. -/
theorem serveAll_refines_of_twoHosts :
    Pool.parse " 10.0.0.0/30" = .ok twoHosts ∧
      (twoHosts.serveAll [.allocate, .allocate, .allocate, .release "10.0.0.1", .allocate]).2 =
        (twoHosts.block.serveAll ∅
          [.allocate, .allocate, .allocate, .release "10.0.0.1", .allocate]).2 :=
  ⟨rfl, (serveAll_refines " 10.0.0.0/30" twoHosts rfl _).1.1⟩

end Pool

end HollowFleet
