import HollowFleet.Proofs.Quantity.Grammar
import Mathlib.Tactic.IntervalCases

/-!
# Whole quantities

A whole number of units of at most 53 binary digits is counted exactly, with or without a binary
suffix, up to the greatest amount, and so is a whole number of cores (`counted_exactly`).

Nothing is rounded on the way to the value: the number, the factor and the product all fit the
format. Then `roundingSlack` is taken off, which is less than half a unit. The difference is
rounded, but the whole number itself is a number of the format that is less than half a unit
away, so the ceiling goes back to it (`units_of_whole`), at every magnitude. Only zero is
different, where the difference is below zero and counts as nothing.

That the value is exact (`parse_whole`) rests on the grammar of quantities for the way in which the
text is cut, and on `Rounds.exact` for the product: a mantissa of 53 digits times a power of two has
the same mantissa (`magnitude_binary`). For a number of cores the factor is 1000 and not a power of
two, so there the mantissa grows, and the bound is on the product and not on the number itself.

The step back to the whole number is `ceilWithin_sub`, which does not depend on how the value came
about.
-/

namespace HollowFleet.Quantity

open Number Binary64 Text

/-- The binary suffixes: the one at position `k` stands for `1024 ^ k`. -/
def binaryEndings : List (List Char) :=
  [[], ['K', 'i'], ['M', 'i'], ['G', 'i'], ['T', 'i'], ['P', 'i'], ['E', 'i']]

/-- The suffixes of this list are endings, with the powers of 1024 that belong to them. -/
theorem mem_endings_of_binary {k : ℕ} {ending : List Char} (h : binaryEndings[k]? = some ending) :
    k ≤ 6 ∧ (ending, (1024 : ℚ) ^ k) ∈ endings := by
  have hlt : k < 7 := (List.getElem?_eq_some_iff.1 h).1
  interval_cases k <;> cases h <;> simp [endings]

/-! ### Exact values -/

/-- A power of 1024 moves the exponent by ten and leaves the mantissa alone. -/
theorem magnitude_binary (n k : ℕ) : magnitude n (10 * k : ℕ) = n * 1024 ^ k := by
  rw [magnitude, zpow_natCast, pow_mul]
  norm_num

/-- A value that is a whole number is counted as that number, up to the greatest amount. -/
theorem units_of_whole {n m : ℕ} {e : ℤ} (h : Canonical m e) (hn : magnitude m e = n) :
    units (.finite false m e) = min n greatestAmount := by
  have hslack : roundingSlack = .finite false 4835703278458517 (-82) := by decide
  rw [units, hslack]
  refine ceilWithin_sub h hn ?_ ?_
  · exact mul_pos (by norm_num) (two_zpow_pos _)
  · norm_num [magnitude]

/-- Nothing is blank in a numeral with an ending. -/
theorem trim_of_listed {n : ℕ} {digits : List Char} (hdigits : IsNumeral n digits)
    {ending : List Char × ℚ} (h : ending ∈ endings) :
    trim (digits ++ ending.1) = digits ++ ending.1 := by
  have hletters : letters.all (fun c ↦ !isBlank c) = true := by decide
  have hblank : ∀ c ∈ digits ++ ending.1, isBlank c = false := by
    intro c hc
    rcases List.mem_append.1 hc with hdigit | hletter
    · exact isBlank_of_isDigit (hdigits.isDigit c hdigit)
    · simpa using List.all_eq_true.1 hletters c (mem_letters h hletter)
  exact trim_eq_self (fun c hc ↦ hblank c (List.mem_of_head? hc))
    (fun c hc ↦ hblank c (List.mem_of_getLast? hc))

/-- A whole number before a binary suffix has its exact value. -/
theorem parse_whole {raw : String} {n k : ℕ} {digits ending : List Char} (hn : n < 2 ^ 53)
    (hdigits : IsNumeral n digits) (hending : binaryEndings[k]? = some ending)
    (h : raw.toList = digits ++ ending) : ∃ m e, parse raw = .ok (.finite false m e) ∧
      Canonical m e ∧ magnitude m e = n * 1024 ^ k := by
  obtain ⟨hk, hlisted⟩ := mem_endings_of_binary hending
  have htrim : trim raw.toList = digits ++ ending := by
    rw [h]
    exact trim_of_listed hdigits hlisted
  have hnumber : IsNumber false n digits := by
    have hmk := @IsNumber.mk false n 0 0 [] digits [] .none (.whole hdigits) .none
    simpa using hmk
  obtain ⟨m₁, e₁, hrounds₁, -, heq₁⟩ :=
    exists_rounds_exact (x := n) (e := 0) (by simp [magnitude]) hn (by decide) (by decide)
  obtain ⟨m₂, e₂, hrounds₂, -, heq₂⟩ :=
    exists_rounds_exact (x := 1024 ^ k) (e := (10 * k : ℕ))
      (by rw [magnitude_binary, Nat.cast_one, one_mul]) (by norm_num) (by omega) (by omega)
  obtain ⟨m, e, hrounds, hc, heq⟩ :=
    exists_rounds_exact (magnitude_binary n k) hn (by omega) (by omega)
  refine ⟨m, e, parse_eq_ok_iff_gives.2 ⟨⟨digits, _, false, n, htrim, hnumber, hlisted⟩, m₁, e₁,
    m₂, e₂, hrounds₁, fun hfalse ↦ absurd hfalse Bool.false_ne_true, hrounds₂, ?_⟩, hc, heq⟩
  rw [heq₁, heq₂]
  exact hrounds

/-! ### Counts -/

/-- **Whole quantities are counted exactly.** -/
theorem counted_exactly :
    (∀ (n k : ℕ) (digits ending : List Char) (raw : String), n < 2 ^ 53 → IsNumeral n digits →
      binaryEndings[k]? = some ending → raw.toList = digits ++ ending →
      bytes raw = .ok (min (n * 1024 ^ k) (2 ^ 64 - 1))) ∧
    (∀ (n : ℕ) (raw : String), 1000 * n < 2 ^ 53 → IsNumeral n raw.toList →
      millis raw = .ok (1000 * n)) := by
  constructor
  · intro n k digits ending raw hn hdigits hending h
    obtain ⟨m, e, hparse, hc, heq⟩ := parse_whole hn hdigits hending h
    have hvalue : magnitude m e = (n * 1024 ^ k : ℕ) := by
      rw [heq]
      push_cast
      rfl
    rw [bytes, hparse]
    exact congrArg Except.ok (units_of_whole hc hvalue)
  · intro n raw hn hdigits
    obtain ⟨m, e, hparse, -, heq⟩ := parse_whole (k := 0) (by omega) hdigits rfl
      (List.append_nil _).symm
    obtain ⟨m₁, e₁, hrounds₁, -, heq₁⟩ := exists_rounds_exact (m := 1000) (e := 0)
      (x := (1000 : ℕ)) (by simp [magnitude]) (by decide) (by decide) (by decide)
    obtain ⟨m₂, e₂, hrounds₂, hc₂, heq₂⟩ := exists_rounds_exact (m := 1000 * n) (e := 0)
      (x := (1000 * n : ℕ)) (by simp [magnitude]) hn (by decide) (by decide)
    have hproduct : (Binary64.finite false m e).mul (ofNat 1000) = .finite false m₂ e₂ := by
      rw [(rounds_ofNat 1000).unique hrounds₁]
      refine (rounds_mul false false m m₁ e e₁).unique ?_
      rwa [heq, heq₁, pow_zero, mul_one, mul_comm, ← Nat.cast_mul]
    rw [millis, hparse]
    show Except.ok (units ((Binary64.finite false m e).mul (ofNat 1000))) = .ok (1000 * n)
    have hle : 1000 * n ≤ greatestAmount := hn.le.trans (by decide)
    rw [hproduct, units_of_whole hc₂ heq₂, Nat.min_eq_left hle]

/-- Leading zeros, nothing at all, the greatest amount, and the greatest number of cores. -/
theorem counted_exactly_of_samples :
    bytes "007Ki" = .ok 7168 ∧ bytes "0" = .ok 0 ∧
    bytes "9007199254740991Ei" = .ok 18446744073709551615 ∧
    millis "9007199254740" = .ok 9007199254740000 := by
  obtain ⟨hbytes, hmillis⟩ := counted_exactly
  refine ⟨?_, ?_, ?_, ?_⟩
  · exact hbytes 7 1 ['0', '0', '7'] _ "007Ki" (by decide) ⟨2, by decide⟩ rfl (by decide)
  · exact hbytes 0 0 ['0'] _ "0" (by decide) ⟨0, by decide⟩ rfl (by decide)
  · exact hbytes 9007199254740991 6 "9007199254740991".toList _ "9007199254740991Ei" (by decide)
      ⟨0, by decide⟩ rfl (by decide)
  · exact hmillis 9007199254740 "9007199254740" (by decide) ⟨0, by decide⟩

end HollowFleet.Quantity
