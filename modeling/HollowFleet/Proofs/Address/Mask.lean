import HollowFleet.Proofs.Address.Written

/-!
# Blocks as words of bits

An address is a word of 32 bits, and a block is told by a mask: the addresses of a block are
those that agree with its first address under the mask (`networkWord`), and its last address has
every other bit set (`broadcastWord`). Here the hosts that a block offers are described in these
terms, with no carry past an octet (`Spans`). What is read as a block is exactly what is written
for a length that leaves a host, and its hosts are those (`Pool.parse_iff_spells`).

A block is computed with numbers, so masking is first told as rounding down to a multiple of the
size of the block (`toNat_networkWord`). That holds for every length, also where the mask is
shifted out altogether; all else is arithmetic on one inequality, by which a host lies strictly
between the first and the last address of its block (`start_lt_address`).

## What the main theorem rests on

* Which texts are read is settled in `Block.parse_eq_ok_iff`, without a word of masks, and that
  others are refused by their own text in `Block.exists_badBlock_of_parse`.
* `spans_containing` ties a block that was computed to the words of its first and its last address.
  It is proved for blocks within one octet (`range_of_narrow`) and for wider ones (`range_of_wide`)
  apart, since a wide block begins at a last octet of zero (`start_d_of_wide`), and only its last
  octet counts.
* `capacity_containing` counts the hosts: two addresses of a block are none of them.
-/

namespace HollowFleet

open Text

/-- To clear low bits is to shift them out and back. -/
theorem and_allOnes_shiftLeft {w : ℕ} (x : BitVec w) (k : ℕ) :
    x &&& (BitVec.allOnes w <<< k) = x >>> k <<< k := by
  ext i hi
  simp only [BitVec.getElem_and, BitVec.getElem_shiftLeft, BitVec.getElem_allOnes,
    BitVec.getElem_ushiftRight]
  rcases Nat.lt_or_ge i k with hlow | hhigh
  · simp [hlow]
  · have hback : k + (i - k) = i := by omega
    simp [Nat.not_lt.2 hhigh, hback, hi]

namespace Quad

/-! ### Addresses as words -/

/-- An address as a word of 32 bits. -/
def word (q : Quad) : BitVec 32 := BitVec.ofNat 32 q.value

theorem InRange.value_lt {q : Quad} (h : q.InRange) : q.value < 2 ^ 32 := by
  obtain ⟨ha, hb, hc, hd⟩ := h
  simp only [value]
  omega

/-- Four octets fit into a word, so the word of an address is its number, with nothing cut off. -/
theorem InRange.toNat_word {q : Quad} (h : q.InRange) : q.word.toNat = q.value := by
  rw [word, BitVec.toNat_ofNat, Nat.mod_eq_of_lt h.value_lt]

theorem inRange_ofValue {v : ℕ} (h : v < 2 ^ 32) : (ofValue v).InRange := by
  refine ⟨?_, ?_, ?_, ?_⟩ <;> simp only [ofValue] <;> omega

end Quad

namespace Block

/-! ### Masks -/

/-- The bits in which the addresses of a block of a length agree. -/
def mask (length : ℕ) : BitVec 32 := BitVec.allOnes 32 <<< (32 - length)

/-- The first address of the block of a length that holds an address. -/
def networkWord (address : Quad) (length : ℕ) : BitVec 32 := address.word &&& mask length

/-- The last address of the block of a length that holds an address. -/
def broadcastWord (address : Quad) (length : ℕ) : BitVec 32 :=
  networkWord address length ||| ~~~mask length

/-- The last octet of a word. -/
def lastOctet (w : BitVec 32) : BitVec 8 := w.setWidth 8

theorem size_pos (length : ℕ) : 0 < size length := Nat.two_pow_pos _

/-- A block and the blocks of its length fill the addresses there are. -/
theorem size_mul_two_pow {length : ℕ} (h : length ≤ 32) :
    size length * 2 ^ length = 2 ^ 32 := by
  show 2 ^ (32 - length) * 2 ^ length = 2 ^ 32
  rw [← Nat.pow_add, Nat.sub_add_cancel h]

/-- To mask is to round down to a multiple of the size. -/
theorem toNat_and_mask (w : BitVec 32) (length : ℕ) :
    (w &&& mask length).toNat = w.toNat / size length * size length := by
  have hle : w.toNat / 2 ^ (32 - length) * 2 ^ (32 - length) ≤ w.toNat := Nat.div_mul_le_self _ _
  have hlt := w.isLt
  rw [mask, and_allOnes_shiftLeft, BitVec.toNat_shiftLeft, BitVec.toNat_ushiftRight,
    Nat.shiftRight_eq_div_pow, Nat.shiftLeft_eq, Nat.mod_eq_of_lt (by omega)]
  rfl

/-- The bits outside of the mask count the addresses of a block. -/
theorem toNat_not_mask {length : ℕ} (h : length ≤ 32) :
    (~~~mask length).toNat = size length - 1 := by
  have hmask := toNat_and_mask (BitVec.allOnes 32) length
  have hsize := size_mul_two_pow h
  have hpos := size_pos length
  have hdiv : (2 ^ 32 - 1) / size length = 2 ^ length - 1 := by
    rw [← hsize]
    exact (Nat.mul_sub_div 0 _ _ (Nat.mul_pos hpos (Nat.two_pow_pos _))).trans (by simp)
  rw [BitVec.allOnes_and, BitVec.toNat_allOnes, hdiv, Nat.sub_mul, Nat.one_mul, Nat.mul_comm,
    hsize] at hmask
  have hle : size length ≤ 2 ^ 32 := Nat.le_of_dvd (by decide) ⟨_, hsize.symm⟩
  rw [BitVec.toNat_not, hmask]
  omega

/-- The first address under the mask is the one that the block starts with. -/
theorem toNat_networkWord {address : Quad} (h : address.InRange) (length : ℕ) :
    (networkWord address length).toNat = (start address length).value := by
  rw [networkWord, toNat_and_mask, h.toNat_word, start, Quad.value_ofValue]

/-- The last address is as far from the first one as there are others. -/
theorem toNat_broadcastWord {address : Quad} (h : address.InRange) {length : ℕ}
    (hlength : length ≤ 32) :
    (broadcastWord address length).toNat =
      (start address length).value + (size length - 1) := by
  have hlt : size length - 1 < 2 ^ (32 - length) := Nat.sub_one_lt (size_pos length).ne'
  rw [broadcastWord, BitVec.toNat_or, toNat_networkWord h, toNat_not_mask hlength, start,
    Quad.value_ofValue, Nat.mul_comm]
  exact (Nat.two_pow_add_eq_or_of_lt hlt _).symm

/-- Of an octet, too, only the bits outside of the mask are set. -/
theorem lastOctet_broadcastWord (address : Quad) (length : ℕ) :
    lastOctet (broadcastWord address length) =
      lastOctet (networkWord address length) ||| ~~~lastOctet (mask length) := by
  rw [lastOctet, broadcastWord, BitVec.setWidth_or, BitVec.setWidth_not (by decide)]
  rfl

/-- The last octet of a word is what is left by a division by 256. -/
theorem toNat_lastOctet (w : BitVec 32) : (lastOctet w).toNat = w.toNat % 256 :=
  BitVec.toNat_setWidth 8 w

/-! ### Hosts -/

section

variable (address : Quad) {length : ℕ} (hlong : length ≤ longestLength)

theorem base_containing : (containing address length hlong).base = start address length := by
  rw [containing]
  split <;> rfl

/-- Within one octet the hosts are those between the two ends of the block. -/
theorem range_of_narrow (h : 24 ≤ length) :
    (containing address length hlong).first = (start address length).d + 1 ∧
      (containing address length hlong).last = (start address length).d + size length - 2 := by
  rw [containing, dif_pos h]
  exact ⟨rfl, rfl⟩

/-- A block that varies in earlier octets too offers what the last octet has to offer. -/
theorem range_of_wide (h : length < 24) :
    (containing address length hlong).first = 1 ∧
      (containing address length hlong).last = 254 := by
  rw [containing, dif_neg (Nat.not_le.2 h)]
  exact ⟨rfl, rfl⟩

theorem start_d (address : Quad) (length : ℕ) :
    (start address length).d = (start address length).value % 256 := by
  rw [start, Quad.value_ofValue]
  rfl

/-- A block that varies in earlier octets too begins at a last octet of zero. -/
theorem start_d_of_wide (h : length < 24) :
    512 ≤ size length ∧ (start address length).d = 0 := by
  have hsize : 2 ^ 9 ∣ size length := Nat.pow_dvd_pow 2 (by omega)
  have hpos := size_pos length
  obtain ⟨k, hk⟩ := hsize
  refine ⟨by omega, ?_⟩
  rw [start_d, start, Quad.value_ofValue, hk, Nat.mul_comm, Nat.mul_assoc]
  omega

/-- All addresses of a block but two are hosts, and 254 at most. -/
theorem capacity_containing :
    (containing address length hlong).capacity = min 254 (size length - 2) := by
  rw [capacity]
  rcases Nat.lt_or_ge length 24 with hwide | hnarrow
  · obtain ⟨hfirst, hlast⟩ := range_of_wide address hlong hwide
    obtain ⟨hsize, -⟩ := start_d_of_wide address hwide
    omega
  · obtain ⟨hfirst, hlast⟩ := range_of_narrow address hlong hnarrow
    obtain ⟨hsize, hfits⟩ := start_add_size_le address hnarrow hlong
    omega

variable {address hlong}

/-- A host lies strictly between the first and the last address of its block. -/
theorem start_lt_address {host : ℕ} (h : host ∈ (containing address length hlong).hosts) :
    (start address length).value < ((containing address length hlong).address host).value ∧
      ((containing address length hlong).address host).value <
        (start address length).value + (size length - 1) := by
  rw [mem_hosts] at h
  have hvalue : ((containing address length hlong).address host).value + (start address length).d =
      (start address length).value + host := by
    simp only [Block.address, base_containing, Quad.value]
    omega
  rcases Nat.lt_or_ge length 24 with hwide | hnarrow
  · obtain ⟨hfirst, hlast⟩ := range_of_wide address hlong hwide
    obtain ⟨hsize, hd⟩ := start_d_of_wide address hwide
    omega
  · obtain ⟨hfirst, hlast⟩ := range_of_narrow address hlong hnarrow
    obtain ⟨hsize, -⟩ := start_add_size_le address hnarrow hlong
    omega

/-- Under the mask the address of a host agrees with the first address of the block. -/
theorem address_div_size {host : ℕ} (h : host ∈ (containing address length hlong).hosts) :
    ((containing address length hlong).address host).value / size length * size length =
      (start address length).value := by
  obtain ⟨hlow, hhigh⟩ := start_lt_address h
  rw [start, Quad.value_ofValue] at hlow hhigh ⊢
  rw [Nat.div_eq_of_lt_le hlow.le (by rw [Nat.succ_mul]; omega)]

/-- To set the last octet to a host of the block leaves an address. -/
theorem inRange_address (haddress : address.InRange) {host : ℕ}
    (h : host ∈ (containing address length hlong).hosts) :
    ((containing address length hlong).address host).InRange := by
  have hlast := (containing address length hlong).last_le
  rw [mem_hosts] at h
  have hstart : (start address length).InRange :=
    Quad.inRange_ofValue (lt_of_le_of_lt (Nat.div_mul_le_self _ _) haddress.value_lt)
  rw [Block.address, base_containing]
  refine ⟨hstart.a_lt, hstart.b_lt, hstart.c_lt, ?_⟩
  show host < 256
  omega

end

/-! ### What a block spans -/

/-- A block offers the hosts between the first and the last address of a length that hold an
address, as far as they share three octets. -/
structure Spans (b : Block) (address : Quad) (length : ℕ) : Prop where
  /-- In a block that varies in the last octet only, the hosts begin one past the last octet of
  the first address, which does not overflow, and end one before that of the last address, which
  does not underflow. -/
  narrow : 24 ≤ length →
    (lastOctet (networkWord address length)).toNat + 1 < 256 ∧
      1 ≤ (lastOctet (networkWord address length) ||| ~~~lastOctet (mask length)).toNat ∧
      b.first = (lastOctet (networkWord address length)).toNat + 1 ∧
      b.last = (lastOctet (networkWord address length) ||| ~~~lastOctet (mask length)).toNat - 1
  /-- In any other block they are those of its first network. -/
  wide : length < 24 → b.first = 1 ∧ b.last = 254
  /-- There is a host, and none is 0 or 255. -/
  range : 1 ≤ b.first ∧ b.first ≤ b.last ∧ b.last ≤ 254
  /-- All addresses but two are hosts, and 254 at most. -/
  capacity_eq : b.capacity = min 254 (2 ^ (32 - length) - 2)
  /-- An address of a host is the three octets of the block and the host. -/
  text_address : ∀ host, (b.address host).text = b.network ++ "." ++ toString host
  /-- It is one of the addresses of the length, and neither the first nor the last. -/
  word_address : ∀ host, b.first ≤ host → host ≤ b.last →
    (b.address host).InRange ∧
      (b.address host).word &&& mask length = networkWord address length ∧
      (b.address host).word ≠ networkWord address length ∧
      (b.address host).word ≠ broadcastWord address length

/-- **What a block spans.** The hosts that were computed are those between the two words. -/
theorem spans_containing {address : Quad} (h : address.InRange) {length : ℕ}
    (hlong : length ≤ longestLength) : (containing address length hlong).Spans address length := by
  have hlength : length ≤ 32 := Nat.le_trans hlong (by decide)
  have hnetwork := toNat_networkWord h length
  have hbroadcast := toNat_broadcastWord h hlength
  have hd := start_d address length
  refine ⟨?_, range_of_wide address hlong, ⟨one_le_first _, first_le_last _, last_le _⟩,
    capacity_containing address hlong, fun _ ↦ rfl, ?_⟩
  · intro hnarrow
    obtain ⟨hfirst, hlast⟩ := range_of_narrow address hlong hnarrow
    obtain ⟨hsize, hfits⟩ := start_add_size_le address hnarrow hlong
    rw [← lastOctet_broadcastWord, toNat_lastOctet, toNat_lastOctet, hnetwork, hbroadcast, hfirst,
      hlast]
    omega
  · intro host hlow hhigh
    have hhost := mem_hosts.2 ⟨hlow, hhigh⟩
    have hrange := inRange_address h hhost
    obtain ⟨hafter, hbefore⟩ := start_lt_address hhost
    refine ⟨hrange, ?_, ?_, ?_⟩
    · rw [← BitVec.toNat_inj, toNat_and_mask, hrange.toNat_word, hnetwork, address_div_size hhost]
    · rw [Ne, ← BitVec.toNat_inj, hrange.toNat_word, hnetwork]
      omega
    · rw [Ne, ← BitVec.toNat_inj, hrange.toNat_word, hbroadcast]
      omega

end Block

namespace Pool

/-- **What makes a pool.** A text is accepted exactly if, blanks at both ends apart, it is an
address as it is written, a slash, and a length of at most 30; any other text is refused by
itself. The pool of a text that is accepted offers what the block spans. -/
theorem parse_iff_spells (written : String) :
    ((∃ pool, Pool.parse written = .ok pool) ↔
        ∃ address length, Block.Spells written address length ∧ length ≤ 30) ∧
      ((¬ ∃ pool, Pool.parse written = .ok pool) →
        ∃ cause, Pool.parse written = .error (.badBlock written cause)) ∧
      ∀ address length, Block.Spells written address length → length ≤ 30 →
        ∃ pool, Pool.parse written = .ok pool ∧ pool.block.Spans address length := by
  have hok : ∀ address length, Block.Spells written address length → length ≤ 30 →
      ∃ pool, Pool.parse written = .ok pool ∧ pool.block.Spans address length := by
    intro address length hspells hlong
    have hblock := Block.parse_eq_ok_iff.2 ⟨address, length, hlong, hspells, rfl⟩
    refine ⟨ofBlock (.containing address length hlong), ?_, Block.spans_containing hspells.1 hlong⟩
    rw [parse, hblock]
    rfl
  refine ⟨⟨?_, ?_⟩, ?_, hok⟩
  · rintro ⟨pool, hpool⟩
    rcases hblock : Block.parse written with fault | block
    · rw [parse, hblock] at hpool
      cases hpool
    · obtain ⟨address, length, hlong, hspells, -⟩ := Block.parse_eq_ok_iff.1 hblock
      exact ⟨address, length, hspells, hlong⟩
  · rintro ⟨address, length, hspells, hlong⟩
    obtain ⟨pool, hpool, -⟩ := hok address length hspells hlong
    exact ⟨pool, hpool⟩
  · intro hnone
    rcases hblock : Block.parse written with fault | block
    · obtain ⟨cause, rfl⟩ := Block.exists_badBlock_of_parse hblock
      exact ⟨cause, by rw [parse, hblock]; rfl⟩
    · exact absurd ⟨ofBlock block, by rw [parse, hblock]; rfl⟩ hnone

/-- The widest block, which no bit tells from any other, is that of the first network. -/
theorem parse_iff_spells_of_widest :
    ∃ pool, Pool.parse "\t255.255.255.255/+00 " = .ok pool ∧
      pool.block.Spans ⟨255, 255, 255, 255⟩ 0 := by
  have hrange : (⟨255, 255, 255, 255⟩ : Quad).InRange := by constructor <;> decide
  have hlength : IsUnsigned 0 "+00".toList := .inr ⟨"00".toList, rfl, 1, rfl⟩
  exact (parse_iff_spells "\t255.255.255.255/+00 ").2.2 _ 0
    ⟨hrange, "+00".toList, hlength, rfl⟩ (by decide)

end Pool

end HollowFleet
