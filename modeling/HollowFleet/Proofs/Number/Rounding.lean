import HollowFleet.Number.Binary64
import Mathlib.Algebra.Order.Field.Power
import Mathlib.Tactic.GCongr
import Mathlib.Tactic.Linarith
import Mathlib.Tactic.NormNum
import Mathlib.Tactic.Positivity
import Mathlib.Tactic.Ring

/-!
# Correct rounding

What it means that a floating point number is the rounding of a number, said without an
algorithm: of all finite numbers it is the nearest, a tie goes to the even mantissa, and from
`overflowBound` on the rounding is infinite (`Rounds`). Every number has exactly one rounding.

Main statements: the one rounding that all arithmetic goes through is correct
(`rounds_ofRatio`), and nothing else would be (`rounds_iff`).

The proof of `rounds_ofRatio` goes by the exponent `q` at which a number is rounded
(`IsQuantum`). Finite numbers with an exponent not below `q` are multiples of `2 ^ q`, among
which the nearest one is found by rounding a quotient to an integer. Those with a smaller
exponent all lie below `2 ^ (q + 52)`, which is such a multiple and not above the number itself.

## What the main statements rest on

* That there is one rounding (`Nearest.unique`) is about finite numbers only: two that are equally
  near would both have even mantissas, and then the number between them would be nearer.
* `rounds_ofRatio` puts together `nearest_fitted`, for what stays in range, and `overflow_iff`, for
  what does not. Both take the quantum and the nearest integer from `isQuantum_quantum` and
  `isNearest_roundHalfEven`, which are all that the algorithm contributes.
* A mantissa may be rounded up to one digit more than fits; then the exponent goes up by one
  (`fitted_cases`), and it is this that can take a number past the greatest exponent
  (`maxExponent_lt_iff`).
-/

namespace HollowFleet.Number

/-! ### The nearest integer -/

/-- `m` is the natural number nearest to `t`, and even if another one is as near. -/
structure IsNearest (t : ℚ) (m : ℕ) : Prop where
  near : |(m : ℚ) - t| ≤ 1 / 2
  even : |(m : ℚ) - t| = 1 / 2 → Even m

theorem even_roundHalfEven_of_tie {n d : ℕ} (h : 0 < d)
    (htie : 2 * n = (2 * roundHalfEven n d + 1) * d ∨
      2 * roundHalfEven n d * d = 2 * n + d) : Even (roundHalfEven n d) := by
  have hmod := Nat.mod_lt n h
  have hn : 2 * n = 2 * (n / d) * d + 2 * (n % d) := by
    rw [mul_assoc, mul_comm (n / d), ← mul_add, Nat.div_add_mod]
  have hup : 2 * (n / d + 1) * d = 2 * (n / d) * d + 2 * d := by ring
  simp only [add_mul, one_mul] at htie
  rw [Nat.even_iff]
  simp only [roundHalfEven] at htie ⊢
  split_ifs at htie ⊢ <;> omega

/-- A quotient is rounded to the nearest integer, ties to the even one. -/
theorem isNearest_roundHalfEven (n : ℕ) {d : ℕ} (h : 0 < d) :
    IsNearest (n / d) (roundHalfEven n d) := by
  have hd : (0 : ℚ) < d := by exact_mod_cast h
  obtain ⟨hlow, hhigh⟩ := roundHalfEven_near n h
  have htie := even_roundHalfEven_of_tie (n := n) h
  generalize roundHalfEven n d = m at hlow hhigh htie ⊢
  have hdist : |(m : ℚ) - n / d| = |(m * d - n : ℚ)| / d := by
    rw [← abs_of_pos hd, ← abs_div, sub_div, abs_of_pos hd, mul_div_cancel_right₀ _ hd.ne']
  rw [← Nat.cast_le (α := ℚ)] at hlow hhigh
  push_cast at hlow hhigh
  refine ⟨?_, fun heq ↦ htie ?_⟩
  · rw [hdist, div_le_iff₀ hd]
    exact abs_sub_le_iff.2 ⟨by linarith, by linarith⟩
  · rw [hdist, div_eq_iff hd.ne'] at heq
    rw [← Nat.cast_inj (R := ℚ), ← Nat.cast_inj (R := ℚ)]
    push_cast
    rcases (abs_eq (by positivity)).1 heq with heq | heq
    · exact .inr (by linarith)
    · exact .inl (by linarith)

namespace IsNearest

variable {t : ℚ} {m j : ℕ}

/-- Two integers are at least one apart, whatever lies between them. -/
theorem one_le_add (hne : j ≠ m) : (1 : ℚ) ≤ |(j : ℚ) - t| + |(m : ℚ) - t| := by
  have hone : (1 : ℚ) ≤ |(j : ℚ) - m| := by
    exact_mod_cast Int.one_le_abs (sub_ne_zero.2 (Int.ofNat_inj.ne.2 hne))
  rw [abs_sub_comm (m : ℚ)]
  exact hone.trans (abs_sub_le _ _ _)

theorem le (h : IsNearest t m) (j : ℕ) : |(m : ℚ) - t| ≤ |(j : ℚ) - t| := by
  rcases eq_or_ne j m with rfl | hne
  · exact le_rfl
  · linarith [h.near, one_le_add (t := t) hne]

/-- If another integer is as near, the nearest one is even. -/
theorem even_of_tie (h : IsNearest t m) (hne : j ≠ m)
    (htie : |(j : ℚ) - t| = |(m : ℚ) - t|) : Even m :=
  h.even (by linarith [h.near, one_le_add (t := t) hne])

/-- An even number is reached from half a step below on. -/
theorem even_le_iff (h : IsNearest t m) {b : ℕ} (hb : Even b) :
    b ≤ m ↔ (b : ℚ) - 1 / 2 ≤ t := by
  have hnear := abs_sub_le_iff.1 h.near
  constructor
  · intro hle
    have hle' : (b : ℚ) ≤ m := Nat.cast_le.2 hle
    linarith
  · intro hle
    by_contra hlt
    have hle' : (m : ℚ) + 1 ≤ b := by exact_mod_cast Nat.succ_le_of_lt (not_le.1 hlt)
    -- then `m` is the number before `b` and no nearer, so it is even, and `b` is not
    have heven := h.even (by rw [abs_sub_comm, abs_of_nonneg (by linarith)]; linarith)
    have hnext : m + 1 = b := by
      rw [← Nat.cast_inj (R := ℚ)]
      push_cast
      linarith
    rw [← hnext, Nat.even_add_one] at hb
    exact hb heven

end IsNearest

namespace Binary64

/-! ### The finite numbers -/

/-- The number `m · 2 ^ e`. -/
def magnitude (m : ℕ) (e : ℤ) : ℚ := m * 2 ^ e

/-- The form in which a finite number is stored: a mantissa of at most 53 digits, an exponent in
range, and the greatest mantissa that the exponent allows. -/
structure Canonical (m : ℕ) (e : ℤ) : Prop where
  mantissa_lt : m < 2 ^ 53
  le_exponent : -1074 ≤ e
  exponent_le : e ≤ 971
  normal : 2 ^ 52 ≤ m ∨ e = -1074

/-- Powers of two are positive, for negative exponents too. -/
theorem two_zpow_pos (e : ℤ) : (0 : ℚ) < 2 ^ e := by positivity

theorem magnitude_nonneg (m : ℕ) (e : ℤ) : 0 ≤ magnitude m e :=
  mul_nonneg (Nat.cast_nonneg m) (two_zpow_pos e).le

/-- At one exponent, magnitudes are in the order of their mantissas. -/
theorem magnitude_strictMono (e : ℤ) : StrictMono fun m ↦ magnitude m e := fun _ _ h ↦
  mul_lt_mul_of_pos_right (Nat.cast_lt.2 h) (two_zpow_pos e)

theorem magnitude_mono (m : ℕ) {e q : ℤ} (h : e ≤ q) : magnitude m e ≤ magnitude m q :=
  mul_le_mul_of_nonneg_left (zpow_le_zpow_right₀ one_le_two h) (Nat.cast_nonneg m)

/-- Moving digits from the exponent to the mantissa. -/
theorem magnitude_shift (m k : ℕ) (e : ℤ) : magnitude m (e + k) = magnitude (m * 2 ^ k) e := by
  rw [magnitude, magnitude, zpow_add₀ two_ne_zero, zpow_natCast]
  push_cast
  ring

/-- The least mantissa of 53 digits is half of the bound, which makes the step to the next exponent.
-/
theorem magnitude_half (e : ℤ) : magnitude (2 ^ 52) (e + 1) = magnitude (2 ^ 53) e := by
  have hshift := magnitude_shift (2 ^ 52) 1 e
  rwa [Nat.cast_one] at hshift

/-- A mantissa of 53 digits at a smaller exponent makes a smaller number. -/
theorem magnitude_lt {m j : ℕ} {e q : ℤ} (hm : 2 ^ 52 ≤ m) (hj : j < 2 ^ 53) (hlt : q < e) :
    magnitude j q < magnitude m e := by
  obtain ⟨k, rfl⟩ : ∃ k : ℕ, e = q + k := ⟨(e - q).toNat, by omega⟩
  rw [magnitude_shift]
  refine magnitude_strictMono q (hj.trans_le ?_)
  calc 2 ^ 53 = 2 ^ 52 * 2 ^ 1 := rfl
    _ ≤ m * 2 ^ k := Nat.mul_le_mul hm (Nat.pow_le_pow_right (by decide) (by omega))

/-- A finite number is a multiple of every power of two in range that its exponent is not below,
and not with a mantissa in bounds unless it is stored like that. -/
theorem Canonical.exists_multiple {m : ℕ} {e q : ℤ} (h : Canonical m e) (hmin : -1074 ≤ q)
    (hle : q ≤ e) : ∃ j, magnitude m e = magnitude j q ∧ (j < 2 ^ 53 → m = j ∧ e = q) := by
  obtain ⟨k, rfl⟩ : ∃ k : ℕ, e = q + k := ⟨(e - q).toNat, by omega⟩
  refine ⟨m * 2 ^ k, magnitude_shift _ _ _, fun hj ↦ ?_⟩
  rcases Nat.eq_zero_or_pos k with rfl | hk
  · simp
  · have hm : 2 ^ 52 ≤ m := h.normal.resolve_right (by omega)
    have hge : 2 ^ 52 * 2 ^ 1 ≤ m * 2 ^ k :=
      Nat.mul_le_mul hm (Nat.pow_le_pow_right (by decide) hk)
    omega

/-! ### Rounding, without an algorithm -/

/-- Half a step above the greatest finite number, from where on roundings are infinite. -/
def overflowBound : ℚ := (2 ^ 54 - 1) * 2 ^ 970

/-- The bound as a magnitude, with one digit more than fits. -/
theorem overflowBound_eq : overflowBound = magnitude (2 ^ 54 - 1) 970 := by
  rw [overflowBound, magnitude]
  norm_num

/-- The bound as half a step above the greatest finite number. -/
theorem overflowBound_eq_half : overflowBound = ((2 ^ 53 : ℕ) - 1 / 2) * 2 ^ (971 : ℤ) := by
  rw [overflowBound, show (971 : ℤ) = (970 : ℕ) + 1 from rfl, zpow_add_one₀ two_ne_zero,
    zpow_natCast]
  generalize (2 : ℚ) ^ 970 = p
  push_cast
  ring

/-- `m · 2 ^ e` is the finite number nearest to `x`, and the one with the even mantissa if two
are. -/
structure Nearest (x : ℚ) (m : ℕ) (e : ℤ) : Prop where
  canonical : Canonical m e
  le : ∀ {m' e'}, Canonical m' e' → |magnitude m e - x| ≤ |magnitude m' e' - x|
  even : ∀ {m' e'}, Canonical m' e' → (m', e') ≠ (m, e) →
    |magnitude m' e' - x| = |magnitude m e - x| → Even m

/-- A number is the rounding of `± x`. -/
inductive Rounds (negative : Bool) (x : ℚ) : Binary64 → Prop where
  | finite {m : ℕ} {e : ℤ} : x < overflowBound → Nearest x m e →
      Rounds negative x (.finite negative m e)
  | infinite : overflowBound ≤ x → Rounds negative x (.infinite negative)

/-- **There is one nearest number.** Of two, both would have even mantissas, so that there is
another number between them, which is nearer. -/
theorem Nearest.unique {x : ℚ} {m m' : ℕ} {e e' : ℤ} (h : Nearest x m e)
    (h' : Nearest x m' e') : m = m' ∧ e = e' := by
  by_contra hne
  wlog hlt : e < e' ∨ e = e' ∧ m < m' with hother
  · exact hother h' h (by omega) (by omega)
  have htie : |magnitude m e - x| = |magnitude m' e' - x| :=
    le_antisymm (h.le h'.canonical) (h'.le h.canonical)
  have hne' : (m', e') ≠ (m, e) := fun heq ↦ hne (by simp_all)
  have heven := Nat.even_iff.1 (h.even h'.canonical hne' htie.symm)
  have heven' := Nat.even_iff.1 (h'.even h.canonical hne'.symm htie)
  have hm := h.canonical.mantissa_lt
  have hbetween : Canonical (m + 1) e :=
    { mantissa_lt := by omega
      le_exponent := h.canonical.le_exponent
      exponent_le := h.canonical.exponent_le
      normal := h.canonical.normal.imp_left Nat.le_succ_of_le }
  have hlow : magnitude m e < magnitude (m + 1) e := magnitude_strictMono e (Nat.lt_succ_self m)
  have hhigh : magnitude (m + 1) e < magnitude m' e' := by
    rcases hlt with hlt | ⟨rfl, hlt⟩
    · have hmin := h.canonical.le_exponent
      exact magnitude_lt (h'.canonical.normal.resolve_right (by omega)) hbetween.mantissa_lt hlt
    · exact magnitude_strictMono e (by omega)
  have hnear := h.le hbetween
  have hnear' := h'.le hbetween
  cases abs_cases (magnitude m e - x) <;> cases abs_cases (magnitude m' e' - x) <;>
    cases abs_cases (magnitude (m + 1) e - x) <;> linarith

/-- There is one rounding of a number with a sign, be it finite or not. -/
theorem Rounds.unique {negative : Bool} {x : ℚ} {v v' : Binary64} (h : Rounds negative x v)
    (h' : Rounds negative x v') : v = v' := by
  cases h with
  | finite hx hnear =>
    cases h' with
    | finite _ hnear' =>
      obtain ⟨rfl, rfl⟩ := hnear.unique hnear'
      rfl
    | infinite hx' => exact absurd hx (not_lt.2 hx')
  | infinite hx =>
    cases h' with
    | finite hx' _ => exact absurd hx' (not_lt.2 hx)
    | infinite _ => rfl

/-- Zero is the rounding of what is at most half the least number. -/
theorem rounds_zero (negative : Bool) {x : ℚ} (hx : 0 ≤ x) (hle : x ≤ 2 ^ (-1075 : ℤ)) :
    Rounds negative x (zero negative) := by
  have hbound : (2 : ℚ) ^ (-1075 : ℤ) < overflowBound := by
    calc (2 : ℚ) ^ (-1075 : ℤ) ≤ 1 := zpow_le_one_of_nonpos₀ one_le_two (by decide)
      _ < overflowBound := one_lt_mul_of_lt_of_le (by norm_num) (one_le_pow₀ one_le_two)
  refine .finite (hle.trans_lt hbound) ⟨⟨by decide, by decide, by decide, .inr rfl⟩, ?_,
    fun _ _ _ ↦ ⟨0, rfl⟩⟩
  intro m e h
  have hzero : |magnitude 0 minExponent - x| = x := by
    rw [magnitude, Nat.cast_zero, zero_mul, zero_sub, abs_neg, abs_of_nonneg hx]
  rw [hzero]
  rcases Nat.eq_zero_or_pos m with rfl | hm
  · rw [magnitude, Nat.cast_zero, zero_mul, zero_sub, abs_neg, abs_of_nonneg hx]
  · have hone : (1 : ℚ) ≤ m := by exact_mod_cast hm
    have hleast : 2 * (2 : ℚ) ^ (-1075 : ℤ) ≤ magnitude m e := by
      rw [mul_comm, ← zpow_add_one₀ two_ne_zero, ← one_mul (2 ^ _), magnitude]
      exact mul_le_mul hone (zpow_le_zpow_right₀ one_le_two h.le_exponent) (two_zpow_pos _).le
        (zero_le_one.trans hone)
    exact le_abs.2 (.inl (by linarith))

/-! ### The algorithm -/

/-- Dividing by a power of two is exact, on whichever side of the quotient it is put. -/
theorem scaled_spec (n : ℕ) {d : ℕ} (h : 0 < d) (e : ℤ) :
    0 < (scaled n d e).2 ∧ ((scaled n d e).1 : ℚ) / (scaled n d e).2 = n / d / 2 ^ e := by
  rw [scaled]
  split
  · next he =>
    obtain ⟨k, rfl⟩ := Int.eq_ofNat_of_zero_le he
    refine ⟨Nat.mul_pos h (Nat.pow_pos (by decide)), ?_⟩
    simp only [Int.toNat_natCast, Nat.pow_eq, Nat.cast_mul, Nat.cast_pow, Nat.cast_ofNat,
      zpow_natCast, div_div]
  · next he =>
    obtain ⟨k, rfl⟩ : ∃ k : ℕ, e = -k := ⟨(-e).toNat, by omega⟩
    refine ⟨h, ?_⟩
    simp only [neg_neg, Int.toNat_natCast, Nat.pow_eq, Nat.cast_mul, Nat.cast_pow, Nat.cast_ofNat,
      zpow_neg, zpow_natCast, div_inv_eq_mul]
    ring

/-- A natural number lies between two neighbouring powers of two. -/
theorem log2_spec {n : ℕ} (h : 0 < n) :
    (2 : ℚ) ^ (n.log2 : ℤ) ≤ n ∧ (n : ℚ) < 2 ^ ((n.log2 : ℤ) + 1) := by
  have hlow := Nat.log2_self_le h.ne'
  have hhigh := Nat.lt_log2_self (n := n)
  rw [← Nat.cast_succ, zpow_natCast, zpow_natCast]
  exact_mod_cast And.intro hlow hhigh

/-- A quotient lies between two neighbouring powers of two; the first guess at them, from the
lengths of its two parts, may be off by one. -/
theorem floorLog_spec {n d : ℕ} (hn : 0 < n) (hd : 0 < d) :
    (2 : ℚ) ^ floorLog n d ≤ n / d ∧ (n : ℚ) / d < 2 ^ (floorLog n d + 1) := by
  have hdpos : (0 : ℚ) < d := by exact_mod_cast hd
  obtain ⟨hnlow, hnhigh⟩ := log2_spec hn
  obtain ⟨hdlow, hdhigh⟩ := log2_spec hd
  generalize hk : ((n.log2 : ℤ) - d.log2) = k
  have hhigh : (n : ℚ) / d < 2 ^ (k + 1) := by
    rw [div_lt_iff₀ hdpos]
    calc (n : ℚ) < 2 ^ ((n.log2 : ℤ) + 1) := hnhigh
      _ = 2 ^ (k + 1) * 2 ^ (d.log2 : ℤ) := by rw [← zpow_add₀ two_ne_zero]; congr 1; omega
      _ ≤ 2 ^ (k + 1) * d := by gcongr
  have hlow : (2 : ℚ) ^ (k - 1) ≤ n / d := by
    rw [le_div_iff₀ hdpos]
    calc (2 : ℚ) ^ (k - 1) * d ≤ 2 ^ (k - 1) * 2 ^ ((d.log2 : ℤ) + 1) := by gcongr
      _ = 2 ^ (n.log2 : ℤ) := by rw [← zpow_add₀ two_ne_zero]; congr 1; omega
      _ ≤ n := hnlow
  -- the quotient of the two powers is off by at most one, and one comparison says which
  obtain ⟨hpos, hscaled⟩ := scaled_spec n hd k
  have hpos' : (0 : ℚ) < (scaled n d k).2 := by exact_mod_cast hpos
  have hiff : (scaled n d k).2 ≤ (scaled n d k).1 ↔ (2 : ℚ) ^ k ≤ n / d := by
    rw [← one_le_div₀ (two_zpow_pos k), ← hscaled, one_le_div₀ hpos', Nat.cast_le]
  simp only [floorLog, hk]
  split
  · next hle => exact ⟨hiff.1 hle, hhigh⟩
  · next hgt =>
    rw [sub_add_cancel]
    exact ⟨hlow, not_le.1 (fun h ↦ hgt (hiff.2 h))⟩

/-- The exponent at which `x` is rounded: 53 digits stand before the point, or the exponent is the
least one. -/
structure IsQuantum (x : ℚ) (q : ℤ) : Prop where
  le_exponent : -1074 ≤ q
  lt : x < magnitude (2 ^ 53) q
  le : q = -1074 ∨ magnitude (2 ^ 52) q ≤ x

/-- The exponent that is computed is the one at which the quotient is rounded. -/
theorem isQuantum_quantum {n d : ℕ} (hn : 0 < n) (hd : 0 < d) :
    IsQuantum (n / d) (quantum n d) := by
  obtain ⟨hlow, hhigh⟩ := floorLog_spec hn hd
  have hpow : ∀ (k : ℕ) (q : ℤ), magnitude (2 ^ k) q = 2 ^ (q + k) := fun k q ↦ by
    rw [add_comm, magnitude, zpow_add₀ two_ne_zero, zpow_natCast, Nat.cast_pow, Nat.cast_ofNat]
  have hmin : minExponent = -1074 := rfl
  have hq : quantum n d = max (floorLog n d - 52) minExponent := rfl
  refine ⟨by omega, ?_, ?_⟩
  · rw [hpow]
    exact hhigh.trans_le (zpow_le_zpow_right₀ one_le_two (by omega))
  · refine (eq_or_ne (quantum n d) (-1074)).imp_right fun hne ↦ ?_
    rw [hpow]
    exact (zpow_le_zpow_right₀ one_le_two (by omega)).trans hlow

/-- A mantissa and an exponent with the mantissa kept below its bound. -/
def fitted (m : ℕ) (q : ℤ) : ℕ × ℤ :=
  if m < mantissaBound then (m, q) else (mantissaBound / 2, q + 1)

/-- The algorithm as its three steps: scale, round to an integer, and fit the mantissa. -/
theorem ofRatio_eq {negative : Bool} {n d : ℕ} (h : n ≠ 0) : ofRatio negative n d =
    let e := fitted (roundHalfEven (scaled n d (quantum n d)).1 (scaled n d (quantum n d)).2)
      (quantum n d)
    if maxExponent < e.2 then infinite negative else finite negative e.1 e.2 := by
  rw [ofRatio, if_neg h]
  rfl

namespace IsQuantum

variable {x : ℚ} {q : ℤ} {m : ℕ}

/-- At the quantum, distances are those of integers, scaled. -/
theorem abs_sub (j : ℕ) : |magnitude j q - x| = |(j : ℚ) - x / 2 ^ q| * 2 ^ q := by
  have hpos := two_zpow_pos q
  rw [← abs_of_pos hpos, ← abs_mul, abs_of_pos hpos, sub_mul, div_mul_cancel₀ _ hpos.ne', magnitude]

/-- A rounded mantissa has 53 digits, or is the next power of two. -/
theorem mantissa_le (h : IsQuantum x q) (hm : IsNearest (x / 2 ^ q) m) : m ≤ 2 ^ 53 := by
  have hlt : x / 2 ^ q < (2 ^ 53 : ℕ) := (div_lt_iff₀ (two_zpow_pos q)).2 h.lt
  have hnear := (abs_sub_le_iff.1 hm.near).1
  have hlt' : (m : ℚ) < (2 ^ 53 + 1 : ℕ) := by
    push_cast at hlt ⊢
    linarith
  exact Nat.lt_succ_iff.1 (Nat.cast_lt.1 hlt')

/-- Above the least exponent it has no fewer digits either. -/
theorem le_mantissa (h : IsQuantum x q) (hm : IsNearest (x / 2 ^ q) m) (hq : q ≠ -1074) :
    2 ^ 52 ≤ m := by
  have hle : ((2 ^ 52 : ℕ) : ℚ) ≤ x / 2 ^ q :=
    (le_div_iff₀ (two_zpow_pos q)).2 (h.le.resolve_left hq)
  have hnear := (abs_sub_le_iff.1 hm.near).2
  have hlt : ((2 ^ 52 : ℕ) : ℚ) < (m + 1 : ℕ) := by
    push_cast at hle ⊢
    linarith
  exact Nat.lt_succ_iff.1 (Nat.cast_lt.1 hlt)

/-- A finite number with a smaller exponent is farther away than the multiple that was found. -/
theorem abs_sub_lt (h : IsQuantum x q) (hm : IsNearest (x / 2 ^ q) m) {m' : ℕ} {e' : ℤ}
    (hc : Canonical m' e') (hlt : e' < q) : |magnitude m q - x| < |magnitude m' e' - x| := by
  have hmin := hc.le_exponent
  have hle : magnitude (2 ^ 52) q ≤ x := h.le.resolve_left (by omega)
  have hbelow := magnitude_lt le_rfl hc.mantissa_lt hlt
  calc |magnitude m q - x| ≤ |magnitude (2 ^ 52) q - x| := by
        rw [abs_sub, abs_sub]
        exact mul_le_mul_of_nonneg_right (hm.le _) (two_zpow_pos q).le
    _ = x - magnitude (2 ^ 52) q := by rw [abs_of_nonpos (by linarith), neg_sub]
    _ < x - magnitude m' e' := by linarith
    _ = |magnitude m' e' - x| := by rw [abs_of_nonpos (by linarith), neg_sub]

/-- A mantissa that was rounded up to 54 digits is halved, which loses nothing. -/
theorem fitted_cases (h : IsQuantum x q) (hm : IsNearest (x / 2 ^ q) m) :
    m < 2 ^ 53 ∧ fitted m q = (m, q) ∨ m = 2 ^ 53 ∧ fitted m q = (2 ^ 52, q + 1) := by
  rcases (h.mantissa_le hm).lt_or_eq with hlt | rfl
  · exact .inl ⟨hlt, if_pos hlt⟩
  · exact .inr ⟨rfl, rfl⟩

/-- No finite number is nearer than the multiple of the quantum that is found. -/
theorem abs_sub_le (h : IsQuantum x q) (hm : IsNearest (x / 2 ^ q) m) {m' : ℕ} {e' : ℤ}
    (hc : Canonical m' e') : |magnitude m q - x| ≤ |magnitude m' e' - x| := by
  rcases lt_or_ge e' q with hlt | hge
  · exact (h.abs_sub_lt hm hc hlt).le
  · obtain ⟨j, hj, -⟩ := hc.exists_multiple h.le_exponent hge
    rw [hj, abs_sub, abs_sub]
    exact mul_le_mul_of_nonneg_right (hm.le j) (two_zpow_pos q).le

/-- If another finite number is as near, that one is a multiple of the quantum too. -/
theorem even_of_tie (h : IsQuantum x q) (hm : IsNearest (x / 2 ^ q) m) (hlt : m < 2 ^ 53)
    {m' : ℕ} {e' : ℤ} (hc : Canonical m' e') (hne : (m', e') ≠ (m, q))
    (htie : |magnitude m' e' - x| = |magnitude m q - x|) : Even m := by
  have hge : q ≤ e' := not_lt.1 fun hlt ↦ (h.abs_sub_lt hm hc hlt).ne' htie
  obtain ⟨j, hj, hsame⟩ := hc.exists_multiple h.le_exponent hge
  rw [hj, abs_sub, abs_sub] at htie
  refine hm.even_of_tie (j := j) (fun heq ↦ hne ?_) (mul_right_cancel₀ (two_zpow_pos q).ne' htie)
  obtain ⟨rfl, rfl⟩ := hsame (heq ▸ hlt)
  rw [heq]

/-- What the algorithm finds in range is the nearest finite number. -/
theorem nearest_fitted (h : IsQuantum x q) (hm : IsNearest (x / 2 ^ q) m)
    (hle : (fitted m q).2 ≤ maxExponent) : Nearest x (fitted m q).1 (fitted m q).2 := by
  have hmin := h.le_exponent
  have hle' : (fitted m q).2 ≤ 971 := hle
  rcases h.fitted_cases hm with ⟨hlt, hfit⟩ | ⟨rfl, hfit⟩ <;> rw [hfit] at hle' ⊢
  · have hnormal := (eq_or_ne q (-1074)).symm.imp_left (h.le_mantissa hm)
    exact ⟨⟨hlt, hmin, hle', hnormal⟩, h.abs_sub_le hm, h.even_of_tie hm hlt⟩
  · refine ⟨⟨by norm_num, by omega, hle', .inl le_rfl⟩, fun hc ↦ ?_, fun _ _ _ ↦ ⟨2 ^ 51, rfl⟩⟩
    rw [magnitude_half]
    exact h.abs_sub_le hm hc

/-- The exponent passes the greatest one where it does so itself, or where the greatest one is left
with a mantissa of 54 digits. -/
theorem maxExponent_lt_iff (h : IsQuantum x q) (hm : IsNearest (x / 2 ^ q) m) :
    maxExponent < (fitted m q).2 ↔ 971 < q ∨ q = 971 ∧ 2 ^ 53 ≤ m := by
  have hmax : maxExponent = 971 := rfl
  rcases h.fitted_cases hm with ⟨hlt, hfit⟩ | ⟨hm', hfit⟩ <;> rw [hfit, hmax] <;> omega

theorem overflow_iff (h : IsQuantum x q) (hm : IsNearest (x / 2 ^ q) m) :
    maxExponent < (fitted m q).2 ↔ overflowBound ≤ x := by
  rw [h.maxExponent_lt_iff hm]
  rcases lt_trichotomy q 971 with hq | rfl | hq
  · refine iff_of_false (by omega) (not_le.2 (h.lt.trans_le ?_))
    calc magnitude (2 ^ 53) q ≤ magnitude (2 ^ 53) 970 := magnitude_mono _ (by omega)
      _ ≤ overflowBound := overflowBound_eq ▸ (magnitude_strictMono 970).monotone (by norm_num)
  · -- the bound lies half a step below an even mantissa, which a tie there goes up to
    rw [overflowBound_eq_half, ← le_div_iff₀ (two_zpow_pos 971),
      ← hm.even_le_iff (by decide)]
    simp
  · refine iff_of_true (.inl hq) ((h.le.resolve_left (by omega)).trans' ?_)
    calc overflowBound ≤ magnitude (2 ^ 52 * 2 ^ 2) 970 :=
          overflowBound_eq ▸ (magnitude_strictMono 970).monotone (by norm_num)
      _ = magnitude (2 ^ 52) 972 := (magnitude_shift _ 2 970).symm
      _ ≤ magnitude (2 ^ 52) q := magnitude_mono _ hq

end IsQuantum

/-- **All rounding is correct.** -/
theorem rounds_ofRatio (negative : Bool) (n : ℕ) {d : ℕ} (hd : 0 < d) :
    Rounds negative (n / d) (ofRatio negative n d) := by
  rcases Nat.eq_zero_or_pos n with rfl | hn
  · rw [Nat.cast_zero, zero_div]
    exact rounds_zero negative le_rfl (two_zpow_pos _).le
  · obtain ⟨hpos, hscaled⟩ := scaled_spec n hd (quantum n d)
    have hm := isNearest_roundHalfEven (scaled n d (quantum n d)).1 hpos
    have hq := isQuantum_quantum hn hd
    rw [hscaled] at hm
    rw [ofRatio_eq hn.ne']
    simp only
    split
    · next hlt => exact .infinite ((hq.overflow_iff hm).1 hlt)
    · next hle =>
      exact .finite (not_le.1 (mt (hq.overflow_iff hm).2 hle)) (hq.nearest_fitted hm (not_lt.1 hle))

/-- **Nothing else is a rounding** of a quotient than what the algorithm finds. -/
theorem rounds_iff {negative : Bool} {n d : ℕ} (hd : 0 < d) {v : Binary64} :
    Rounds negative (n / d) v ↔ v = ofRatio negative n d :=
  ⟨fun h ↦ h.unique (rounds_ofRatio negative n hd), fun h ↦ h ▸ rounds_ofRatio negative n hd⟩

end Binary64

end HollowFleet.Number
