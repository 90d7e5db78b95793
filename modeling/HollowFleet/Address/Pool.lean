import HollowFleet.Address.Block

/-!
# Address pools

A pool hands out the hosts of a block. Hosts that came back are handed out again first, the
least one before the others; else the next host that was never handed out. So the pool keeps
two increasing lists, of the hosts in use and of those that came back, and one mark, the least
host that was never handed out.

The two lists are apart from each other and fill the block up to the mark. A pool carries the
proof of that: whatever it went through, a host that came back lies below every host that was
never handed out, and what the pool hands out is the least host that is not in use.
-/

namespace HollowFleet

/-! ### Increasing lists -/

namespace Ascending

/-- Puts `n` in its place in an increasing list, unless it is there. -/
def insert (n : Nat) : List Nat → List Nat
  | [] => [n]
  | m :: rest => if n < m then n :: m :: rest else if n = m then m :: rest else m :: insert n rest

theorem mem_insert {n k : Nat} {ns : List Nat} : k ∈ insert n ns ↔ k = n ∨ k ∈ ns := by
  induction ns with
  | nil => simp [insert]
  | cons m rest ih =>
    simp only [insert]
    split
    · simp
    · split
      · next heq => simp [heq]
      · simp only [List.mem_cons, ih]
        exact or_left_comm

/-- An increasing list stays increasing. -/
theorem sorted_insert {n : Nat} {ns : List Nat} (h : ns.Pairwise (· < ·)) :
    (insert n ns).Pairwise (· < ·) := by
  induction ns with
  | nil => simp [insert]
  | cons m rest ih =>
    have hm := List.pairwise_cons.1 h
    simp only [insert]
    split
    · next hlt =>
      refine List.pairwise_cons.2 ⟨fun k hk ↦ ?_, h⟩
      rcases List.mem_cons.1 hk with rfl | hk
      · exact hlt
      · exact Nat.lt_trans hlt (hm.1 k hk)
    · split
      · exact h
      · refine List.pairwise_cons.2 ⟨fun k hk ↦ ?_, ih hm.2⟩
        rcases mem_insert.1 hk with rfl | hk
        · omega
        · exact hm.1 k hk

end Ascending

/-! ### Pools -/

/-- A pool of addresses. -/
structure Pool where
  /-- The block whose hosts are handed out. -/
  block : Block
  /-- The hosts in use. -/
  used : List Nat
  /-- The hosts that came back. -/
  free : List Nat
  /-- The least host that was never handed out. -/
  next : Nat
  /-- The hosts in use are listed in increasing order. -/
  used_sorted : used.Pairwise (· < ·)
  /-- So are the hosts that came back. -/
  free_sorted : free.Pairwise (· < ·)
  /-- No host that came back is in use. -/
  disjoint : ∀ host ∈ used, host ∉ free
  /-- Exactly the hosts below the mark were handed out at some time. -/
  mem_iff : ∀ host, host ∈ used ∨ host ∈ free ↔ block.first ≤ host ∧ host < next
  /-- The mark does not lie before the block. -/
  first_le_next : block.first ≤ next
  /-- The mark lies at most one past the block. -/
  next_le : next ≤ block.last + 1
deriving DecidableEq

namespace Pool

/-- The pool of a block from which nothing was handed out. -/
def ofBlock (block : Block) : Pool where
  block
  used := []
  free := []
  next := block.first
  used_sorted := .nil
  free_sorted := .nil
  disjoint := by simp
  mem_iff host := by
    simp only [List.not_mem_nil, or_self, false_iff]
    omega
  first_le_next := Nat.le_refl _
  next_le := Nat.le_succ_of_le block.first_le_last

/-- The pool of a written block. -/
def parse (written : String) : Except Fault Pool := (Block.parse written).map ofBlock

/-- The number of addresses in use. -/
def allocated (p : Pool) : Nat := p.used.length

/-- The pool after the least host that came back was handed out again. -/
def takeFree (p : Pool) {host : Nat} {free : List Nat} (h : p.free = host :: free) : Pool where
  block := p.block
  used := Ascending.insert host p.used
  free
  next := p.next
  used_sorted := Ascending.sorted_insert p.used_sorted
  free_sorted := (List.pairwise_cons.1 (h ▸ p.free_sorted)).2
  disjoint other hother hfree := by
    rcases Ascending.mem_insert.1 hother with rfl | hused
    · exact Nat.lt_irrefl _ ((List.pairwise_cons.1 (h ▸ p.free_sorted)).1 _ hfree)
    · exact p.disjoint other hused (by rw [h]; exact List.mem_cons_of_mem _ hfree)
  mem_iff other := by
    rw [← p.mem_iff, h, List.mem_cons, Ascending.mem_insert, or_assoc, or_left_comm]
  first_le_next := p.first_le_next
  next_le := p.next_le

/-- The pool after the host at the mark was handed out. -/
def takeNext (p : Pool) (hfree : p.free = []) (hnext : p.next ≤ p.block.last) : Pool where
  block := p.block
  used := Ascending.insert p.next p.used
  free := []
  next := p.next + 1
  used_sorted := Ascending.sorted_insert p.used_sorted
  free_sorted := .nil
  disjoint := by simp
  mem_iff other := by
    have hfirst := p.first_le_next
    have hmem := p.mem_iff other
    simp only [hfree, List.not_mem_nil, or_false, Ascending.mem_insert] at hmem ⊢
    rw [hmem]
    omega
  first_le_next := Nat.le_succ_of_le p.first_le_next
  next_le := Nat.succ_le_succ hnext

/-- The host to hand out next and the pool after that, if there is one. -/
def take? (p : Pool) : Option (Nat × Pool) :=
  match hfree : p.free with
  | host :: _ => some (host, p.takeFree hfree)
  | [] => if hnext : p.next ≤ p.block.last then some (p.next, p.takeNext hfree hnext) else none

/-- Hands out an address. -/
def allocate (p : Pool) : Except Fault (Quad × Pool) :=
  match p.take? with
  | some (host, rest) => .ok (p.block.address host, rest)
  | none => .error (.poolExhausted p.block.network p.block.capacity)

/-- Takes a host back; one that is not in use changes nothing. -/
def putBack (p : Pool) (host : Nat) : Pool :=
  if hused : host ∈ p.used then
    { p with
      used := p.used.filter fun h ↦ decide (h ≠ host)
      free := Ascending.insert host p.free
      used_sorted := p.used_sorted.sublist List.filter_sublist
      free_sorted := Ascending.sorted_insert p.free_sorted
      disjoint := fun other hother hback ↦ by
        simp only [List.mem_filter, decide_eq_true_eq] at hother
        rcases Ascending.mem_insert.1 hback with rfl | hfree
        · exact hother.2 rfl
        · exact p.disjoint other hother.1 hfree
      mem_iff := fun other ↦ by
        rw [← p.mem_iff]
        simp only [List.mem_filter, decide_eq_true_eq, Ascending.mem_insert]
        by_cases heq : other = host
        · simp [heq, hused]
        · simp [heq] }
  else p

/-- Takes an address back. -/
def release (p : Pool) (address : String) : Except Fault Pool :=
  (p.block.host address).map p.putBack

end Pool

end HollowFleet
