import HollowFleet.Proofs.Address.Supply
import HollowFleet.Proofs.Address.Written

/-!
# Addresses that come back

An address that comes back to a pool is a text, and may be any. `release_iff_names` says which
texts are accepted, and that a text that is not leaves the pool as it was. One that is accepted
names a host, and nothing but that host changes sides (`PutsBack`).

What a pool handed out it accepts back as it was written. After that the pool has the same
addresses to hand out as before and this one; which those are is told by asking for them
(`Offers`), and is the same as not being in use (`offers_iff`).

## What the main theorem rests on

* Which texts name a host of a block, and that all others are refused with their own text, is a
  fact about reading (`Block.host_eq_ok_iff`, `Block.exists_badAddress_of_host`). It does not depend
  on what is in use, so a host that is not in use may come back as well, and changes nothing.
* What is in use after a host came back is `used_putBack`; `putsBack` puts it as the change of one
  host, in terms of what is in use and of what could be handed out.
* An address that a pool hands out is that of a host in its block (`exists_host`), and a host is
  read back from its address as it is written (`Block.host_text`). So there is a way back for every
  address that was ever handed out, whatever else happened meanwhile.
* `offers_iff` rests on the supply of a pool: asked often enough, it comes to every host that is not
  in use (`exists_take?`).
-/

namespace HollowFleet.Pool

variable {p : Pool}

/-! ### What is handed out -/

/-- Asked often enough, and with nothing coming back meanwhile, a pool hands out an address. -/
def Offers (p : Pool) (ip : Quad) : Prop :=
  ∃ n, ((p.serveAll (List.replicate n .allocate)).1.serve .allocate).2 = .ok (some ip)

/-- To ask for an address several times is to have as many hosts handed out. -/
theorem serveAll_replicate (p : Pool) (n : ℕ) :
    (p.serveAll (List.replicate n .allocate)).1 = (p.handOut n).2 := by
  induction n generalizing p with
  | zero => rfl
  | succ n ih =>
    rw [handOut_succ, ← ih]
    rfl

/-- The answer to one request is the address of the host that is next. -/
theorem serve_allocate_eq_ok_iff {ip : Quad} :
    (p.serve .allocate).2 = .ok (some ip) ↔
      ∃ host rest, p.take? = some (host, rest) ∧ p.block.address host = ip := by
  rcases h : p.take? with - | ⟨host, rest⟩
  · simp [serve, allocate, h]
  · simp [serve, allocate, h]

/-- What is handed out is the address of a host of the block. -/
theorem exists_host {ip : Quad}
    (h : (p.serve .allocate).2 = .ok (some ip)) :
    ∃ host ∈ p.unused, p.block.address host = ip := by
  obtain ⟨host, rest, htake, hip⟩ := serve_allocate_eq_ok_iff.1 h
  exact ⟨host, (isLeast_of_take? htake).1, hip⟩

/-- The addresses that a pool hands out are those of the hosts that are not in use. -/
theorem offers_iff {ip : Quad} :
    p.Offers ip ↔ ∃ host ∈ p.unused, p.block.address host = ip := by
  constructor
  · rintro ⟨n, h⟩
    have hsupplied := p.supplies_handOut n
    rw [serveAll_replicate] at h
    obtain ⟨host, hhost, hip⟩ := exists_host h
    obtain ⟨hmem, hunused⟩ := Finset.mem_sdiff.1 hhost
    rw [hsupplied.block] at hmem hip
    rw [hsupplied.used, Finset.mem_union, not_or] at hunused
    exact ⟨host, Finset.mem_sdiff.2 ⟨hmem, hunused.1⟩, hip⟩
  · rintro ⟨host, hhost, rfl⟩
    obtain ⟨n, rest, htake⟩ := exists_take? hhost
    refine ⟨n, ?_⟩
    rw [serveAll_replicate, serve_allocate_eq_ok_iff, (p.supplies_handOut n).block]
    exact ⟨host, rest, htake, rfl⟩

/-! ### What comes back -/

/-- A pool took a host back and left another one. -/
structure PutsBack (p : Pool) (host : ℕ) (rest : Pool) : Prop where
  /-- The block is the same. -/
  block : rest.block = p.block
  /-- So is the next host that was never handed out. -/
  next : rest.next = p.next
  /-- The host is not in use, and no other one is affected. -/
  used : ∀ other, other ∈ rest.used ↔ other ∈ p.used ∧ other ≠ host
  /-- The host is among those that came back if it was in use, and no other one is affected. -/
  free : ∀ other, other ∈ rest.free ↔ other ∈ p.free ∨ other = host ∧ host ∈ p.used
  /-- Nothing happens to a host that was not in use. -/
  unused : host ∉ p.used → rest = p

/-- To take a host back is to move it, and it alone, to those that are not in use. -/
theorem putsBack (p : Pool) (host : ℕ) : p.PutsBack host (p.putBack host) := by
  rw [putBack]
  split
  · next hused =>
    refine ⟨rfl, rfl, fun other ↦ ?_, fun other ↦ ?_, fun hunused ↦ absurd hused hunused⟩
    · simp only [List.mem_filter, decide_eq_true_eq]
    · simp only [Ascending.mem_insert, hused, and_true, or_comm]
  · next hunused =>
    refine ⟨rfl, rfl, fun other ↦ ?_, fun other ↦ ?_, fun _ ↦ rfl⟩
    · refine ⟨fun hother ↦ ⟨hother, ?_⟩, And.left⟩
      rintro rfl
      exact hunused hother
    · simp only [hunused, and_false, or_false]

/-- A host that is taken back is not in use, and no other one is affected. -/
theorem unused_putBack {host : ℕ} (h : host ∈ p.block.hosts) :
    (p.putBack host).unused = insert host p.unused := by
  ext other
  simp only [unused, block_putBack, used_putBack, Finset.mem_sdiff, Finset.mem_erase,
    Finset.mem_insert]
  by_cases heq : other = host
  · simp [heq, h]
  · simp [heq]

/-- An address of a host comes back as it is written, and can be handed out again. -/
theorem offers_after_release {host : ℕ} (h : host ∈ p.block.hosts) :
    (p.serve (.release (p.block.address host).text)).2 = .ok none ∧
      ∀ ip, (p.serve (.release (p.block.address host).text)).1.Offers ip ↔
        p.Offers ip ∨ ip = p.block.address host := by
  rw [serve_release_of_host (Block.host_text h)]
  refine ⟨rfl, fun ip ↦ ?_⟩
  show (p.putBack host).Offers ip ↔ _
  rw [offers_iff, offers_iff, unused_putBack h, block_putBack]
  simp only [Finset.mem_insert, exists_eq_or_imp]
  rw [or_comm, eq_comm (a := ip)]

/-! ### The whole -/

/-- **What a pool takes back.** A text is accepted exactly if, blanks at both ends apart, it is
the octets of the block, a point, and an unsigned field that holds a host; any other text is
refused by itself and changes nothing. Of what is accepted only that host is affected. In
particular each address that the pool handed out at some time is accepted as it is written, and
after that the pool has it, and no other address more than before, to hand out. -/
theorem release_iff_names (pool : Pool) (requests : List Request) :
    let p := (pool.serveAll requests).1
    let b := pool.block
    (∀ s, ((p.serve (.release s)).2 = .ok none ↔
          ∃ host, b.first ≤ host ∧ host ≤ b.last ∧ b.Names s host) ∧
        ((p.serve (.release s)).2 ≠ .ok none → (p.serve (.release s)).1 = p ∧
          ∃ cause, (p.serve (.release s)).2 = .error (.badAddress s cause)) ∧
        ∀ host, b.first ≤ host → host ≤ b.last → b.Names s host →
          p.PutsBack host (p.serve (.release s)).1) ∧
      ∀ earlier ip, ((pool.serveAll earlier).1.serve .allocate).2 = .ok (some ip) →
        (p.serve (.release ip.text)).2 = .ok none ∧
          ∀ other, (p.serve (.release ip.text)).1.Offers other ↔ p.Offers other ∨ other = ip := by
  intro p b
  have hblock : p.block = b := pool.block_serveAll requests
  constructor
  · intro s
    have hnamed : ∀ host, p.block.host s = .ok host ↔
        b.first ≤ host ∧ host ≤ b.last ∧ b.Names s host := by
      intro host
      rw [Block.host_eq_ok_iff, hblock, Block.mem_hosts, and_assoc]
    rcases hhost : p.block.host s with fault | host
    · have hnone : ∀ host, ¬ (b.first ≤ host ∧ host ≤ b.last ∧ b.Names s host) := by
        intro host hnames
        rw [(hnamed host).2 hnames] at hhost
        cases hhost
      obtain ⟨cause, rfl⟩ := Block.exists_badAddress_of_host hhost
      rw [serve_release_of_fault hhost]
      refine ⟨⟨fun h ↦ ?_, fun ⟨host, hnames⟩ ↦ absurd hnames (hnone host)⟩,
        fun _ ↦ ⟨rfl, cause, rfl⟩,
        fun host hlow hhigh hnames ↦ absurd ⟨hlow, hhigh, hnames⟩ (hnone host)⟩
      cases h
    · rw [serve_release_of_host hhost]
      refine ⟨⟨fun _ ↦ ⟨host, (hnamed host).1 hhost⟩, fun _ ↦ rfl⟩, fun h ↦ absurd rfl h,
        fun other hlow hhigh hnames ↦ ?_⟩
      have heq := (hnamed other).2 ⟨hlow, hhigh, hnames⟩
      rw [hhost] at heq
      obtain rfl := Except.ok.inj heq
      exact p.putsBack host
  · intro earlier ip hip
    have hblock' : (pool.serveAll earlier).1.block = b := pool.block_serveAll earlier
    obtain ⟨host, hunused, rfl⟩ := exists_host hip
    have hhost : host ∈ p.block.hosts := by
      rw [hblock, ← hblock']
      exact (Finset.mem_sdiff.1 hunused).1
    rw [hblock', ← hblock]
    exact offers_after_release hhost

/-- With both hosts in use: a plus and zeros are accepted, the last address of the block is not,
and what comes back can be handed out again. -/
theorem release_iff_names_of_twoHosts :
    let p := (twoHosts.serveAll [.allocate, .allocate]).1
    (p.serve (.release "10.0.0.+02 ")).2 = .ok none ∧
      (p.serve (.release "10.0.0.3")).1 = p ∧
      (p.serve (.release "10.0.0.1")).1.Offers ⟨10, 0, 0, 1⟩ := by
  intro p
  obtain ⟨hrelease, hagain⟩ :=
    release_iff_names twoHosts [.allocate, .allocate]
  have hplus : Text.IsUnsigned 2 "+02".toList := .inr ⟨"02".toList, rfl, 1, rfl⟩
  exact ⟨(hrelease "10.0.0.+02 ").1.2 ⟨2, by decide, by decide, "+02".toList, hplus, rfl⟩,
    ((hrelease "10.0.0.3").2.1 (by decide)).1,
    ((hagain [] ⟨10, 0, 0, 1⟩ rfl).2 ⟨10, 0, 0, 1⟩).2 (.inr rfl)⟩

end HollowFleet.Pool
