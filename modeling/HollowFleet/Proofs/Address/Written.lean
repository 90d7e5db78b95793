import HollowFleet.Proofs.Address.Allocation
import HollowFleet.Proofs.Text.Decimal

/-!
# Addresses as they are written

What is read as an address is what is written for one, and nothing else
(`Quad.ofChars?_eq_some_iff`): no leading zeros, no octet past 255. Around an address there is
more freedom. Blanks at both ends are ignored; the length of a block and the host that is
returned to a pool are unsigned fields, so they may have leading zeros and a plus
(`Block.parse_eq_ok_iff`, `Block.host_eq_ok_iff`).

So a host is read back from its address as it is written on a pod (`Block.host_text`), and no
two hosts of a block are written alike.

A reader takes one octet after the other off the text, each up to the first character that is no
digit. Each such step is described by one equivalence (`takeOctet?_eq_some_iff`,
`takeDottedOctet?_eq_some_iff`), in which `Stops` says that the digits end there: without it the
same text could be taken apart at another place. The reader of an address is four of these steps,
and its equivalence (`take?_eq_some_iff`) is put together from theirs without looking at
characters again.

What is refused is refused by its own text, as it was given and not as it was trimmed
(`Block.exists_badBlock_of_parse`, `Block.exists_badAddress_of_host`).
-/

namespace HollowFleet

open Text

namespace Quad

/-! ### The text of an address -/

/-- An address is its network and a last octet, with a point in between. -/
theorem toList_text (q : Quad) :
    q.text.toList = q.network.toList ++ '.' :: (toString q.d).toList := by
  simp [text]

theorem toList_network (q : Quad) :
    q.network.toList =
      (toString q.a).toList ++ '.' :: (toString q.b).toList ++ '.' :: (toString q.c).toList := by
  simp [network]

/-- No address is written as the empty text, which stands for none at all in a status. -/
theorem text_ne_empty (q : Quad) : q.text ≠ "" := by
  intro h
  have hnil : q.text.toList = [] := by rw [h]; rfl
  simp [toList_text] at hnil

/-- An address starts and ends with a digit. -/
theorem trim_text (q : Quad) : trim q.text.toList = q.text.toList := by
  have hfirst := toList_toString_ne_nil q.a
  have hlast := toList_toString_ne_nil q.d
  refine trim_eq_self (fun c hc ↦ ?_) fun c hc ↦ ?_
  · refine isBlank_of_isDigit (isDigit_of_mem_toString (n := q.a) (List.mem_of_head? ?_))
    rwa [toList_text, toList_network, List.append_assoc, List.append_assoc,
      List.head?_append_of_ne_nil _ hfirst] at hc
  · refine isBlank_of_isDigit (isDigit_of_mem_toString (n := q.d) (List.mem_of_getLast? ?_))
    rwa [toList_text, List.getLast?_append_of_ne_nil _ (List.cons_ne_nil _ _),
      List.getLast?_cons_of_ne_nil hlast] at hc

/-- An address holds digits and points only. -/
theorem not_mem_text (q : Quad) {c : Char} (hdigit : c.isDigit = false) (hpoint : c ≠ '.') :
    c ∉ q.text.toList := by
  have hnumber : ∀ n : ℕ, c ∉ (toString n).toList := by
    intro n hmem
    rw [isDigit_of_mem_toString hmem] at hdigit
    cases hdigit
  simp only [toList_text, toList_network, List.mem_append, List.mem_cons, hnumber, hpoint, or_self,
    not_false_eq_true]

/-! ### Reading an address -/

/-- Every octet fits its eight bits. -/
structure InRange (q : Quad) : Prop where
  /-- The first octet fits. -/
  a_lt : q.a < 256
  /-- The second octet fits. -/
  b_lt : q.b < 256
  /-- The third octet fits. -/
  c_lt : q.c < 256
  /-- The last octet fits. -/
  d_lt : q.d < 256

/-- A text does not go on with a digit. -/
def Stops (cs : List Char) : Prop := ∀ c, cs.head? = some c → isDigit c = false

theorem stops_nil : Stops [] := by
  intro c h
  cases h

theorem stops_point (cs : List Char) : Stops ('.' :: cs) := by
  intro c h
  obtain rfl := Option.some.inj h
  rfl

/-- Where a text does not go on with a digit, no digit is taken off. -/
theorem takeWhile_of_stops {cs : List Char} (h : Stops cs) : cs.takeWhile isDigit = [] := by
  cases cs with
  | nil => rfl
  | cons c rest => exact List.takeWhile_cons_of_neg (by simp [h c rfl])

/-- What is taken off as an octet is one as it is written, up to the first character that is no
digit. -/
theorem takeOctet?_eq_some_iff {cs rest : List Char} {n : ℕ} :
    takeOctet? cs = some (n, rest) ↔
      n < 256 ∧ cs = (toString n).toList ++ rest ∧ Stops rest := by
  constructor
  · intro h
    simp only [takeOctet?, Option.ite_none_right_eq_some, Option.some.injEq, Prod.mk.injEq] at h
    obtain ⟨⟨hne, -, hzero, hlt⟩, rfl, rfl⟩ := h
    obtain ⟨zeros, hzeros⟩ := exists_zeros_append hne List.all_takeWhile
    -- a zero in front of the number would be a leading one
    obtain rfl : zeros = 0 := by
      by_contra hsome
      have hhead : (cs.takeWhile isDigit).head? = some '0' := by
        rw [hzeros, List.head?_append_of_ne_nil _ (by simpa using hsome), List.head?_replicate,
          if_neg hsome]
      have hlength := hzero hhead
      have hpos := List.length_pos_of_ne_nil
        (toList_toString_ne_nil (digitsValue (cs.takeWhile isDigit)))
      rw [hzeros, List.length_append, List.length_replicate] at hlength
      omega
    rw [List.replicate_zero, List.nil_append] at hzeros
    refine ⟨hlt, ?_, ?_⟩
    · rw [← hzeros, List.takeWhile_append_dropWhile]
    · intro c hc
      have hstop := List.head?_dropWhile_not isDigit cs
      rwa [hc] at hstop
  · rintro ⟨hlt, rfl, hstops⟩
    have hdigits : ∀ c ∈ (toString n).toList, isDigit c = true := fun c hc ↦
      isDigit_iff.2 (isDigit_of_mem_toString hc)
    have htake : ((toString n).toList ++ rest).takeWhile isDigit = (toString n).toList := by
      rw [List.takeWhile_append_of_pos hdigits, takeWhile_of_stops hstops, List.append_nil]
    have hdrop : ((toString n).toList ++ rest).dropWhile isDigit = rest := by
      rw [List.dropWhile_append_of_pos hdigits]
      exact dropWhile_eq_self hstops
    simp only [takeOctet?, htake, hdrop, digitsValue_toString]
    exact if_pos ⟨toList_toString_ne_nil n, length_toString_le (by omega),
      length_of_head?_toString, hlt⟩

theorem takeDottedOctet?_eq_some_iff {cs rest : List Char} {n : ℕ} :
    takeDottedOctet? cs = some (n, rest) ↔
      n < 256 ∧ cs = '.' :: (toString n).toList ++ rest ∧ Stops rest := by
  rw [takeDottedOctet?.eq_def]
  split
  · next body =>
    rw [takeOctet?_eq_some_iff, List.cons_append, List.cons.injEq, eq_self, true_and]
  · next hpoint =>
    refine ⟨fun h ↦ (by cases h), fun ⟨_, hcs, _⟩ ↦ ?_⟩
    exact absurd hcs (hpoint _)

/-- What is taken off as an address is one as it is written. -/
theorem take?_eq_some_iff {cs rest : List Char} {q : Quad} :
    take? cs = some (q, rest) ↔ q.InRange ∧ cs = q.text.toList ++ rest ∧ Stops rest := by
  simp only [take?, bind, Option.bind_eq_some_iff, Prod.exists, takeOctet?_eq_some_iff,
    takeDottedOctet?_eq_some_iff, toList_text, toList_network, pure, Option.some.injEq,
    Prod.mk.injEq]
  constructor
  · rintro ⟨a, _, ⟨ha, rfl, -⟩, b, _, ⟨hb, rfl, -⟩, c, _, ⟨hc, rfl, -⟩, d, _, ⟨hd, rfl, hstops⟩,
      rfl, rfl⟩
    exact ⟨⟨ha, hb, hc, hd⟩, by simp, hstops⟩
  · rintro ⟨hq, rfl, hstops⟩
    refine ⟨q.a, _, ⟨hq.a_lt, ?_, stops_point _⟩, q.b, _, ⟨hq.b_lt, rfl, stops_point _⟩, q.c, _,
      ⟨hq.c_lt, rfl, stops_point _⟩, q.d, rest, ⟨hq.d_lt, rfl, hstops⟩, rfl, rfl⟩
    simp only [List.append_assoc, List.cons_append]
    rfl

/-- **What is read as an address is an address as it is written.** -/
theorem ofChars?_eq_some_iff {cs : List Char} {q : Quad} :
    ofChars? cs = some q ↔ q.InRange ∧ cs = q.text.toList := by
  have htake : ofChars? cs = some q ↔ take? cs = some (q, []) := by
    rw [ofChars?]
    split
    · next quad hquad => simp [hquad]
    · next hrest => exact ⟨fun h ↦ (by cases h), fun h ↦ absurd h (hrest q)⟩
  rw [htake, take?_eq_some_iff, List.append_nil]
  exact ⟨fun ⟨hq, hcs, _⟩ ↦ ⟨hq, hcs⟩, fun ⟨hq, hcs⟩ ↦ ⟨hq, hcs, stops_nil⟩⟩

end Quad

namespace Block

/-! ### Hosts -/

/-- A text is one way to write a host: the octets of the block, a point, and the host. -/
def Names (b : Block) (written : String) (n : ℕ) : Prop :=
  ∃ digits, IsUnsigned n digits ∧ trim written.toList = b.network.toList ++ '.' :: digits

/-- **What is read as a host of a block.** -/
theorem host_eq_ok_iff {b : Block} {written : String} {n : ℕ} :
    b.host written = .ok n ↔ n ∈ b.hosts ∧ b.Names written n := by
  rw [mem_hosts]
  constructor
  · intro h
    simp only [host] at h
    split at h
    · cases h
    · next network last hsplit =>
      obtain ⟨htrim, -⟩ := splitLast?_eq_some_iff.1 hsplit
      split at h
      · cases h
      · next hnetwork =>
        split at h
        · cases h
        · next host hhost =>
          split at h
          · next hrange =>
            cases h
            refine ⟨hrange, last, (unsigned?_eq_some_iff.1 hhost).2, ?_⟩
            rw [htrim, ← Decidable.not_not.1 hnetwork, String.toList_ofList]
          · cases h
  · rintro ⟨hrange, digits, hdigits, htrim⟩
    have hlast := b.last_le
    have hsplit : splitLast? '.' (trim written.toList) = some (b.network.toList, digits) :=
      splitLast?_eq_some_iff.2 ⟨htrim, hdigits.not_mem (by decide) (by decide)⟩
    have hhost : unsigned? 256 digits = some n := unsigned?_eq_some_iff.2 ⟨by omega, hdigits⟩
    simp only [host, hsplit, String.ofList_toList, ne_eq, not_true_eq_false, if_false, hhost]
    exact if_pos hrange

/-- Whatever else is returned is refused by its own text. -/
theorem exists_badAddress_of_host {b : Block} {written : String} {fault : Fault}
    (h : b.host written = .error fault) : ∃ cause, fault = .badAddress written cause := by
  simp only [host] at h
  split at h
  · exact ⟨_, (Except.error.inj h).symm⟩
  · split at h
    · exact ⟨_, (Except.error.inj h).symm⟩
    · split at h
      · exact ⟨_, (Except.error.inj h).symm⟩
      · split at h
        · cases h
        · exact ⟨_, (Except.error.inj h).symm⟩

theorem mem_hosts_of_host {b : Block} {written : String} {n : ℕ} (h : b.host written = .ok n) :
    n ∈ b.hosts := (host_eq_ok_iff.1 h).1

/-- A host is read back from its address. -/
theorem host_text {b : Block} {n : ℕ} (h : n ∈ b.hosts) : b.host (b.address n).text = .ok n := by
  refine host_eq_ok_iff.2 ⟨h, (toString n).toList, .inl (isNumeral_toString n), ?_⟩
  rw [Quad.trim_text, Quad.toList_text]
  rfl

/-! ### Blocks -/

/-- A text is one way to write the block of a length that holds an address. -/
def Spells (written : String) (address : Quad) (length : ℕ) : Prop :=
  address.InRange ∧
    ∃ digits, IsUnsigned length digits ∧
      trim written.toList = address.text.toList ++ '/' :: digits

/-- **What is read as a block.** -/
theorem parse_eq_ok_iff {written : String} {b : Block} :
    parse written = .ok b ↔
      ∃ address length, ∃ h : length ≤ longestLength,
        Spells written address length ∧ b = containing address length h := by
  constructor
  · intro h
    simp only [parse] at h
    split at h
    · cases h
    · next before digits hsplit =>
      obtain ⟨htrim, -⟩ := splitFirst?_eq_some_iff.1 hsplit
      split at h
      · cases h
      · next address haddress =>
        obtain ⟨hrange, rfl⟩ := Quad.ofChars?_eq_some_iff.1 haddress
        split at h
        · cases h
        · next length hlength =>
          split at h
          · next hlong =>
            cases h
            have hdigits := (unsigned?_eq_some_iff.1 (Option.filter_eq_some_iff.1 hlength).1).2
            exact ⟨address, length, hlong, ⟨hrange, digits, hdigits, htrim⟩, rfl⟩
          · cases h
  · rintro ⟨address, length, hlong, ⟨hrange, digits, hdigits, htrim⟩, rfl⟩
    have hlong' : length ≤ 30 := hlong
    have hsplit : splitFirst? '/' (trim written.toList) = some (address.text.toList, digits) :=
      splitFirst?_eq_some_iff.2 ⟨htrim, address.not_mem_text (by decide) (by decide)⟩
    have haddress : Quad.ofChars? address.text.toList = some address :=
      Quad.ofChars?_eq_some_iff.2 ⟨hrange, rfl⟩
    have hlength : length? digits = some length := by
      rw [length?, unsigned?_eq_some_iff.2 ⟨by omega, hdigits⟩, Option.filter_some,
        if_pos (decide_eq_true (by omega))]
    simp only [parse, hsplit, haddress, hlength]
    exact dif_pos hlong

/-- Whatever else is given for a block is refused by its own text. -/
theorem exists_badBlock_of_parse {written : String} {fault : Fault}
    (h : parse written = .error fault) : ∃ cause, fault = .badBlock written cause := by
  simp only [parse] at h
  split at h
  · exact ⟨_, (Except.error.inj h).symm⟩
  · split at h
    · exact ⟨_, (Except.error.inj h).symm⟩
    · split at h
      · exact ⟨_, (Except.error.inj h).symm⟩
      · split at h
        · cases h
        · exact ⟨_, (Except.error.inj h).symm⟩

end Block

end HollowFleet
