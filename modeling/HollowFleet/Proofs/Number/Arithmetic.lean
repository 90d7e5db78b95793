import HollowFleet.Proofs.Number.Rounding
import Mathlib.Algebra.Order.Floor.Ring
import Mathlib.Data.Rat.Floor

/-!
# Arithmetic with rounded numbers

Products and differences are the roundings of the exact ones (`rounds_mul`, `rounds_sub`), what
fits the format is its own rounding (`Rounds.exact`), and the ceiling is that of the number
that is stored (`ceilWithin_finite`).

A whole number that loses less than half a unit is found again by the ceiling, also after the
difference was rounded (`ceilWithin_sub`): the whole number is itself a finite number, so
the rounded difference is as near to the exact one as that, and not above it.

## What the lemmas rest on

* Every operation rounds once, and through `ofRatio`; a sum and a product are first brought to a
  quotient of integers, which is exact. So `rounds_mul` and `rounds_add` need nothing but
  `rounds_ofRatio`, by way of `rounds_multiple` for what is a multiple of a power of two.
* `Rounds.exact` does not look at the algorithm at all. What fits has a form with as great a
  mantissa as its exponent allows (`exists_canonical`), no number is nearer to it than itself, and
  there is only one rounding (`Rounds.unique`).
* Signs are kept apart from magnitudes. A difference of zero takes its sign from the terms, which is
  why `rounds_ofScaled` has a sign for that case.
-/

namespace HollowFleet.Number.Binary64

/-! ### What fits -/

/-- What fits stays below the bound from which roundings are infinite. -/
theorem magnitude_lt_overflowBound {m : ℕ} {e : ℤ} (hm : m < 2 ^ 53) (he : e ≤ 971) :
    magnitude m e < overflowBound := by
  calc magnitude m e ≤ magnitude (2 ^ 53 - 1) 971 :=
        mul_le_mul (Nat.cast_le.2 (Nat.le_sub_one_of_lt hm)) (zpow_le_zpow_right₀ one_le_two he)
          (two_zpow_pos e).le (Nat.cast_nonneg _)
    _ = magnitude ((2 ^ 53 - 1) * 2 ^ 1) 970 := magnitude_shift _ 1 970
    _ < magnitude (2 ^ 54 - 1) 970 := magnitude_strictMono 970 (by norm_num)
    _ = overflowBound := overflowBound_eq.symm

/-- A mantissa below the bound can be made as great as its exponent allows. -/
theorem exists_canonical {m : ℕ} {e : ℤ} (hm : m < 2 ^ 53) (hmin : -1074 ≤ e) (hmax : e ≤ 971) :
    ∃ m' e', Canonical m' e' ∧ magnitude m' e' = magnitude m e := by
  obtain ⟨k, rfl⟩ : ∃ k : ℕ, e = -1074 + k := ⟨(e + 1074).toNat, by omega⟩
  clear hmin
  induction k generalizing m with
  | zero => exact ⟨m, _, ⟨hm, by omega, hmax, .inr (by omega)⟩, rfl⟩
  | succ k ih =>
    by_cases hfull : 2 ^ 52 ≤ m
    · exact ⟨m, _, ⟨hm, by omega, hmax, .inl hfull⟩, rfl⟩
    · obtain ⟨m', e', hc, heq⟩ := ih (m := m * 2 ^ 1) (by omega) (by omega)
      refine ⟨m', e', hc, heq.trans ?_⟩
      rw [← magnitude_shift]
      push_cast
      rw [add_assoc]

/-- **What fits is its own rounding.** -/
theorem Rounds.exact {negative : Bool} {m : ℕ} {e : ℤ} {v : Binary64}
    (h : Rounds negative (magnitude m e) v) (hm : m < 2 ^ 53) (hmin : -1074 ≤ e)
    (hmax : e ≤ 971) :
    ∃ m' e', v = .finite negative m' e' ∧ Canonical m' e' ∧
      magnitude m' e' = magnitude m e := by
  cases h with
  | finite _ hnear =>
    obtain ⟨m', e', hc, heq⟩ := exists_canonical hm hmin hmax
    have hle := hnear.le hc
    rw [heq, sub_self, abs_zero] at hle
    exact ⟨_, _, rfl, hnear.canonical, sub_eq_zero.1 (abs_nonpos_iff.1 hle)⟩
  | infinite hover => exact absurd (magnitude_lt_overflowBound hm hmax) (not_lt.2 hover)

/-! ### Multiples of powers of two -/

theorem rounds_ofNat (n : ℕ) : Rounds false n (ofNat n) := by
  have hrounds := rounds_ofRatio false n Nat.one_pos
  rwa [Nat.cast_one, div_one] at hrounds

/-- A multiple of a power of two is rounded as a quotient. -/
theorem rounds_multiple (negative : Bool) (i : ℕ) (e : ℤ) :
    Rounds negative (magnitude i e)
      (if 0 ≤ e then ofRatio negative (i * Nat.pow 2 e.toNat) 1
        else ofRatio negative i (Nat.pow 2 (-e).toNat)) := by
  split
  · next he =>
    obtain ⟨k, rfl⟩ := Int.eq_ofNat_of_zero_le he
    have hvalue : magnitude i k = ((i * Nat.pow 2 k : ℕ) : ℚ) / (1 : ℕ) := by
      simp [magnitude]
    rw [hvalue]
    exact rounds_ofRatio negative _ Nat.one_pos
  · next he =>
    obtain ⟨k, rfl⟩ : ∃ k : ℕ, e = -k := ⟨(-e).toNat, by omega⟩
    have hvalue : magnitude i (-k) = (i : ℚ) / (Nat.pow 2 k : ℕ) := by
      simp [magnitude, div_eq_mul_inv]
    rw [hvalue, neg_neg, Int.toNat_natCast]
    exact rounds_ofRatio negative i (Nat.pow_pos (by decide))

/-- What fits has a rounding, which is the same number. -/
theorem exists_rounds_exact {m : ℕ} {e : ℤ} {x : ℚ} (hx : magnitude m e = x) (hm : m < 2 ^ 53)
    (hmin : -1074 ≤ e) (hmax : e ≤ 971) : ∃ m' e', Rounds false x (finite false m' e') ∧
      Canonical m' e' ∧ magnitude m' e' = x := by
  subst hx
  have hrounds := rounds_multiple false m e
  obtain ⟨m', e', hvalue, hc, heq⟩ := hrounds.exact hm hmin hmax
  rw [hvalue] at hrounds
  exact ⟨m', e', hrounds, hc, heq⟩

/-! ### Products and sums -/

/-- A number with a sign. -/
def signed (negative : Bool) (x : ℚ) : ℚ := if negative then -x else x

/-- Exponents add up and mantissas multiply, with nothing lost. -/
theorem magnitude_mul (m m' : ℕ) (e e' : ℤ) :
    magnitude (m * m') (e + e') = magnitude m e * magnitude m' e' := by
  rw [magnitude, magnitude, magnitude, zpow_add₀ two_ne_zero]
  push_cast
  ring

theorem rounds_mul (s s' : Bool) (m m' : ℕ) (e e' : ℤ) :
    Rounds (s != s') (magnitude m e * magnitude m' e') (mul (finite s m e) (finite s' m' e')) := by
  rw [← magnitude_mul]
  exact rounds_multiple (s != s') (m * m') (e + e')

theorem aligned_mul (negative : Bool) (m : ℕ) {e q : ℤ} (h : q ≤ e) :
    (aligned negative m e q : ℚ) * 2 ^ q = signed negative (magnitude m e) := by
  obtain ⟨k, rfl⟩ : ∃ k : ℕ, e = q + k := ⟨(e - q).toNat, by omega⟩
  rw [magnitude_shift]
  cases negative <;> simp [aligned, signed, magnitude]

/-- An integer times a power of two is rounded once, and a zero has the sign that it is given. -/
theorem rounds_ofScaled (z : Bool) {i : ℤ} {q : ℤ} {x : ℚ} (hx : (i : ℚ) * 2 ^ q = x) :
    Rounds (if x = 0 then z else decide (x < 0)) |x| (ofScaled z i q) := by
  have hpos := two_zpow_pos q
  have hzero : i = 0 ↔ x = 0 := by
    rw [← hx, mul_eq_zero, or_iff_left hpos.ne', Int.cast_eq_zero]
  have hneg : i < 0 ↔ x < 0 := by
    rw [← hx, ← zero_mul (2 ^ q : ℚ), mul_lt_mul_iff_left₀ hpos, Int.cast_lt_zero]
  have hvalue : |x| = magnitude i.natAbs q := by
    rw [← hx, abs_mul, abs_of_pos hpos, magnitude, Nat.cast_natAbs, Int.cast_abs]
  rw [hvalue]
  simp only [← hzero, ← hneg]
  exact rounds_multiple _ i.natAbs q

/-- **A sum is the rounding of the exact sum**, and a sum of zero takes the sign that both terms
have. -/
theorem rounds_add (s s' : Bool) (m m' : ℕ) (e e' : ℤ) {x : ℚ}
    (hx : signed s (magnitude m e) + signed s' (magnitude m' e') = x) :
    Rounds (if x = 0 then s && s' else decide (x < 0)) |x|
      (add (finite s m e) (finite s' m' e')) := by
  refine rounds_ofScaled (s && s') ?_
  rw [Int.cast_add, add_mul, aligned_mul s m (min_le_left e e'),
    aligned_mul s' m' (min_le_right e e'), hx]

/-- The difference of two numbers that are not negative. -/
theorem rounds_sub (m m' : ℕ) (e e' : ℤ) :
    Rounds (decide (magnitude m e < magnitude m' e')) |magnitude m e - magnitude m' e'|
      (sub (finite false m e) (finite false m' e')) := by
  have hadd := rounds_add false true m m' e e'
    (x := magnitude m e - magnitude m' e') (sub_eq_add_neg _ _).symm
  have hsign : (if magnitude m e - magnitude m' e' = 0 then false && true
      else decide (magnitude m e - magnitude m' e' < 0)) =
      decide (magnitude m e < magnitude m' e') := by
    rcases eq_or_ne (magnitude m e) (magnitude m' e') with heq | hne
    · simp [heq]
    · simp [sub_eq_zero, hne]
  rwa [hsign] at hadd

/-! ### Signs -/

theorem isBelowZero_eq_false_iff {negative : Bool} {m : ℕ} {e : ℤ} :
    (finite negative m e).isBelowZero = false ↔ (negative = true → m = 0) := by
  cases negative <;> simp [isBelowZero]

/-! ### Ceilings -/

/-- The ceiling is taken of the number that is stored, without another rounding. -/
theorem ceil?_finite (negative : Bool) (m : ℕ) (e : ℤ) :
    (finite negative m e).ceil? = some ⌈signed negative (magnitude m e)⌉ := by
  rw [ceil?]
  split
  · next he =>
    obtain ⟨k, rfl⟩ := Int.eq_ofNat_of_zero_le he
    have hvalue : signed negative (magnitude m k) =
        ((if negative then -(m * Nat.pow 2 k : ℕ) else (m * Nat.pow 2 k : ℕ) : ℤ) : ℚ) := by
      cases negative <;> simp [signed, magnitude]
    rw [hvalue, Int.ceil_intCast, Int.toNat_natCast]
  · next he =>
    obtain ⟨k, rfl⟩ : ∃ k : ℕ, e = -k := ⟨(-e).toNat, by omega⟩
    have hpos : 0 < Nat.pow 2 k := Nat.pow_pos (by decide)
    have hvalue : magnitude m (-k) = (m : ℚ) / (Nat.pow 2 k : ℕ) := by
      simp [magnitude, div_eq_mul_inv]
    have hpos' : (0 : ℚ) < (Nat.pow 2 k : ℕ) := by exact_mod_cast hpos
    rw [neg_neg, Int.toNat_natCast, hvalue]
    generalize Nat.pow 2 k = d at hpos hpos'
    refine congrArg some ?_
    cases negative with
    | true =>
      show -((m / d : ℕ) : ℤ) = ⌈-(m / d : ℚ)⌉
      rw [Int.ceil_neg, Rat.floor_natCast_div_natCast, Int.natCast_ediv]
    | false =>
      show (((m + (d - 1)) / d : ℕ) : ℤ) = ⌈(m / d : ℚ)⌉
      have hdiv := Nat.div_add_mod (m + (d - 1)) d
      have hmod := Nat.mod_lt (m + (d - 1)) hpos
      generalize (m + (d - 1)) / d = q at hdiv ⊢
      refine (Int.ceil_eq_iff.2 ?_).symm
      have hle : m ≤ d * q := by omega
      have hlt : d * q < m + d := by omega
      rw [← Nat.cast_le (α := ℚ), Nat.cast_mul] at hle
      rw [← Nat.cast_lt (α := ℚ), Nat.cast_mul, Nat.cast_add] at hlt
      rw [Int.cast_natCast, div_le_iff₀ hpos', lt_div_iff₀ hpos']
      exact ⟨by linarith, by linarith⟩

/-- The ceiling, at least zero and at most `greatest`. -/
theorem ceilWithin_finite (greatest : ℕ) (negative : Bool) (m : ℕ) (e : ℤ) :
    ceilWithin greatest (finite negative m e) =
      min ⌈signed negative (magnitude m e)⌉₊ greatest := by
  have hceil : ((finite negative m e).ceil?.getD 0).toNat =
      ⌈signed negative (magnitude m e)⌉₊ := by
    rw [ceil?_finite, Option.getD_some, Int.ceil_toNat]
  rw [← hceil]
  rfl

/-- What is negative or a negative zero counts as nothing. -/
theorem ceilWithin_of_rounds_negative {greatest : ℕ} {x : ℚ} {v : Binary64}
    (h : Rounds true x v) : ceilWithin greatest v = 0 := by
  cases h with
  | @finite m e _ _ =>
    have hle : signed true (magnitude m e) ≤ 0 := neg_nonpos.2 (magnitude_nonneg m e)
    rw [ceilWithin_finite, Nat.ceil_eq_zero.2 hle, Nat.zero_min]
  | infinite _ => exact Nat.zero_min greatest

/-- **A whole number that loses less than half a unit is found again**, and where there is nothing
to lose from, nothing is found. -/
theorem ceilWithin_sub {greatest n m m' : ℕ} {e e' : ℤ} (h : Canonical m e)
    (hn : magnitude m e = n) (hpos : 0 < magnitude m' e') (hhalf : 2 * magnitude m' e' < 1) :
    ceilWithin greatest (sub (finite false m e) (finite false m' e')) = min n greatest := by
  have hsub := rounds_sub m m' e e'
  rw [hn] at hsub
  generalize sub (finite false m e) (finite false m' e') = v at hsub ⊢
  rcases Nat.eq_zero_or_pos n with rfl | hn'
  · rw [decide_eq_true (by simpa using hpos)] at hsub
    rw [ceilWithin_of_rounds_negative hsub, Nat.zero_min]
  · have hone : (1 : ℚ) ≤ n := by exact_mod_cast hn'
    rw [decide_eq_false (by linarith), abs_of_nonneg (by linarith)] at hsub
    cases hsub with
    | @finite j q _ hnear =>
      have hle := hnear.le h
      rw [hn, sub_sub_cancel, abs_of_pos hpos, abs_sub_le_iff] at hle
      have hceil : ⌈magnitude j q⌉₊ = n := by
        refine (Nat.ceil_eq_iff hn'.ne').2 ⟨?_, by linarith⟩
        rw [Nat.cast_sub hn', Nat.cast_one]
        linarith
      rw [ceilWithin_finite, ← hceil]
      rfl
    | infinite hover =>
      have hlt := magnitude_lt_overflowBound h.mantissa_lt h.exponent_le
      linarith

end HollowFleet.Number.Binary64
