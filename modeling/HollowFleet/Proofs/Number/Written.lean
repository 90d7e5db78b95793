import HollowFleet.Number.Decimal
import HollowFleet.Proofs.Number.Rounding
import HollowFleet.Proofs.Text.Decimal
import Mathlib.Data.List.TakeWhile

/-!
# Numbers in decimal notation

The notation as a grammar, with the number that each text stands for (`IsNumber`): a sign or none,
a numeral into which a point may be put anywhere, and an exponent or none.

* `read?_eq_exact_iff`: what is read as an exact number is what the grammar allows, with the
  number that it says. Since reading is a function, a text stands for one number at most.
* `read?_word`: the words for what is no finite number are read as such.
* `rounds_toBinary64`: a number that was read is rounded correctly, also where its exponent
  settles the answer before any power of ten is computed.

The reader takes as many digits as there are. That this is the only way to cut a text rests on one
fact, that what follows the digits never starts with a digit (`span_digits`).

The equivalence is proved part by part, for the sign, the mantissa and the exponent, each with one
lemma that a text of the grammar is read (`takeSign_append`, `unsignedDecimal?_mantissa`) and one
that a text that was read is of the grammar (`exists_sign`, `exists_mantissa`). Put together, the
parts must not run into each other, hence the lemmas on what they start and end with
(`head?_of_isMantissa`, `head?_of_isExponent`, `exists_last`).

For `rounds_toBinary64` the exponents that are settled early need bounds: a number with a greater
exponent is past `overflowBound` (`overflowBound_le_ten_pow`), and one with a smaller exponent is
below half of the least number (`mul_ten_pow_le`), so it is rounded to zero.
-/

namespace HollowFleet.Number

open Binary64 Text

/-! ### The notation -/

/-- A sign or none, and whether it is a minus. -/
inductive IsSign : Bool → List Char → Prop where
  | none : IsSign false []
  | plus : IsSign false ['+']
  | minus : IsSign true ['-']

/-- The digits of `n` with a point before the last `k` of them, or with no point. -/
inductive IsMantissa : ℕ → ℕ → List Char → Prop where
  | whole {n : ℕ} {digits : List Char} : IsNumeral n digits → IsMantissa n 0 digits
  | pointed {n : ℕ} {before after : List Char} : IsNumeral n (before ++ after) →
      IsMantissa n after.length (before ++ '.' :: after)

/-- An integer with a sign or none. -/
inductive IsInteger : ℤ → List Char → Prop where
  | mk {negative : Bool} {n : ℕ} {sign digits : List Char} : IsSign negative sign →
      IsNumeral n digits → IsInteger (if negative then -n else n) (sign ++ digits)

/-- An exponent or none. -/
inductive IsExponent : ℤ → List Char → Prop where
  | none : IsExponent 0 []
  | some {e : ℤ} {letter : Char} {cs : List Char} : letter = 'e' ∨ letter = 'E' →
      IsInteger e cs → IsExponent e (letter :: cs)

/-- A text stands for `x`, or for `-x` if it is negative. -/
inductive IsNumber (negative : Bool) : ℚ → List Char → Prop where
  | mk {n k : ℕ} {e : ℤ} {sign mantissa exponent : List Char} : IsSign negative sign →
      IsMantissa n k mantissa → IsExponent e exponent →
      IsNumber negative (n * 10 ^ (e - k)) (sign ++ (mantissa ++ exponent))

/-- A word for what is no finite number, in any case. -/
def IsWord (cs : List Char) : Prop :=
  cs.map Char.toLower ∈
    [['i', 'n', 'f'], ['i', 'n', 'f', 'i', 'n', 'i', 't', 'y'], ['n', 'a', 'n']]

/-! ### Digits and what follows them -/

/-- Digits end where something else starts. -/
theorem span_digits {digits rest : List Char} (h : ∀ c ∈ digits, isDigit c = true)
    (hrest : ∀ c, rest.head? = some c → isDigit c = false) :
    (digits ++ rest).takeWhile isDigit = digits ∧ (digits ++ rest).dropWhile isDigit = rest := by
  have hstop : rest.takeWhile isDigit = [] ∧ rest.dropWhile isDigit = rest := by
    cases rest with
    | nil => exact ⟨rfl, rfl⟩
    | cons c cs => simp [hrest c rfl]
  rw [List.takeWhile_append_of_pos h, List.dropWhile_append_of_pos h, hstop.1, hstop.2,
    List.append_nil]
  exact ⟨rfl, rfl⟩

/-! ### Signs and exponents -/

namespace Decimal

/-- A sign is taken off where what follows it does not begin with one. -/
theorem takeSign_append {negative : Bool} {sign rest : List Char} (h : IsSign negative sign)
    (hminus : rest.head? ≠ some '-') (hplus : rest.head? ≠ some '+') :
    takeSign (sign ++ rest) = (negative, rest) := by
  cases h with
  | none =>
    rw [List.nil_append, takeSign.eq_def]
    split
    · exact absurd rfl hminus
    · exact absurd rfl hplus
    · rfl
  | plus => rfl
  | minus => rfl

theorem exists_sign (cs : List Char) : ∃ negative sign rest, takeSign cs = (negative, rest) ∧
    IsSign negative sign ∧ cs = sign ++ rest := by
  rw [takeSign.eq_def]
  split
  · exact ⟨_, _, _, rfl, .minus, rfl⟩
  · exact ⟨_, _, _, rfl, .plus, rfl⟩
  · exact ⟨_, _, _, rfl, .none, rfl⟩

theorem map_numeral?_eq_some_iff {f : ℤ → ℤ} {digits : List Char} {e : ℤ} :
    (do let n ← numeral? digits; pure (n : ℤ)).map f = some e ↔
      ∃ n : ℕ, IsNumeral n digits ∧ f n = e := by
  simp only [← numeral?_eq_some_iff]
  cases numeral? digits <;> simp

/-- What is read as an integer are the integers of the notation. -/
theorem signed?_eq_some_iff {e : ℤ} {cs : List Char} :
    signed? cs = some e ↔ IsInteger e cs := by
  constructor
  · intro h
    rw [signed?.eq_def] at h
    split at h <;> obtain ⟨n, hn, rfl⟩ := map_numeral?_eq_some_iff.1 h
    · exact .mk .minus hn
    · exact .mk .plus hn
    · exact .mk .none hn
  · rintro ⟨⟨⟩, hn⟩
    · -- a numeral starts with a digit, so it is not taken for a sign
      rw [List.nil_append, signed?.eq_def]
      split
      · exact absurd (hn.isDigit '-' List.mem_cons_self) (by decide)
      · exact absurd (hn.isDigit '+' List.mem_cons_self) (by decide)
      · exact map_numeral?_eq_some_iff.2 ⟨_, hn, rfl⟩
    · exact map_numeral?_eq_some_iff.2 ⟨_, hn, rfl⟩
    · exact map_numeral?_eq_some_iff.2 ⟨_, hn, rfl⟩

/-- What is read as an exponent are those of the notation, none included. -/
theorem exponent?_eq_some_iff {e : ℤ} {cs : List Char} :
    exponent? cs = some e ↔ IsExponent e cs := by
  constructor
  · intro h
    cases cs with
    | nil =>
      obtain rfl : 0 = e := Option.some.inj h
      exact .none
    | cons letter rest =>
      rw [exponent?, Option.ite_none_right_eq_some] at h
      exact .some h.1 (signed?_eq_some_iff.1 h.2)
  · rintro (_ | ⟨hletter, hint⟩)
    · rfl
    · rw [exponent?, if_pos hletter, signed?_eq_some_iff.2 hint]

/-- An exponent does not start with a digit, nor with a point. -/
theorem head?_of_isExponent {e : ℤ} {cs : List Char} (h : IsExponent e cs) {c : Char}
    (hc : cs.head? = some c) : isDigit c = false ∧ c ≠ '.' := by
  cases h with
  | none => cases hc
  | some hletter _ =>
    cases hc
    rcases hletter with rfl | rfl <;> exact ⟨rfl, by decide⟩

/-! ### Numbers without a sign -/

/-- A fraction is taken where there is a point. -/
theorem takeFraction_cases (cs : List Char) :
    (∃ rest, cs = '.' :: rest ∧
      takeFraction cs = (rest.takeWhile isDigit, rest.dropWhile isDigit)) ∨
    cs.head? ≠ some '.' ∧ takeFraction cs = ([], cs) := by
  rw [takeFraction.eq_def]
  split
  · exact .inl ⟨_, rfl, rfl⟩
  · next hpoint =>
    refine .inr ⟨fun hhead ↦ ?_, rfl⟩
    obtain ⟨rest, hrest⟩ := List.head?_eq_some_iff.1 hhead
    exact hpoint rest hrest

/-- A mantissa with an exponent is read as the number that they stand for. -/
theorem unsignedDecimal?_mantissa (negative : Bool) {n k : ℕ} {e : ℤ}
    {mantissa exponent : List Char} (hm : IsMantissa n k mantissa) (he : IsExponent e exponent) :
    unsignedDecimal? negative (mantissa ++ exponent) = some (exact negative n (e - k)) := by
  have hread := exponent?_eq_some_iff.2 he
  have hstop : ∀ c, exponent.head? = some c → isDigit c = false := fun c hc ↦
    (head?_of_isExponent he hc).1
  cases hm with
  | whole hn =>
    obtain ⟨hne, hdigits, hvalue⟩ := hn.spec
    obtain ⟨htake, hdrop⟩ := span_digits hdigits hstop
    have hfraction : takeFraction exponent = ([], exponent) := by
      rcases takeFraction_cases exponent with ⟨more, rfl, -⟩ | ⟨-, hfraction⟩
      · exact absurd rfl (head?_of_isExponent he rfl).2
      · exact hfraction
    simp [unsignedDecimal?, htake, hdrop, hfraction, hne, hread, hvalue]
  | @pointed before after hn =>
    obtain ⟨hne, hdigits, hvalue⟩ := hn.spec
    have hbefore : ∀ c ∈ before, isDigit c = true := fun c hc ↦
      hdigits c (List.mem_append_left _ hc)
    have hafter : ∀ c ∈ after, isDigit c = true := fun c hc ↦
      hdigits c (List.mem_append_right _ hc)
    have hpoint : ∀ c, ('.' :: (after ++ exponent)).head? = some c → isDigit c = false := by
      rintro c ⟨⟩
      rfl
    obtain ⟨htake, hdrop⟩ := span_digits hbefore hpoint
    obtain ⟨htake', hdrop'⟩ := span_digits hafter hstop
    have hne' : ¬ (before = [] ∧ after = []) := by simpa using hne
    rw [List.append_assoc, List.cons_append]
    simp [unsignedDecimal?, htake, hdrop, takeFraction, htake', hdrop', hne', hread, hvalue]

/-- What is read as a number without a sign is a mantissa with an exponent. -/
theorem exists_mantissa {negative : Bool} {cs : List Char} {d : Decimal}
    (h : unsignedDecimal? negative cs = some d) :
    ∃ n k e mantissa exponent, IsMantissa n k mantissa ∧ IsExponent e exponent ∧
      cs = mantissa ++ exponent ∧ d = exact negative n (e - k) := by
  have htext := (List.takeWhile_append_dropWhile (p := isDigit) (l := cs)).symm
  have hwhole : ∀ c ∈ cs.takeWhile isDigit, isDigit c = true := fun _ ↦ List.mem_takeWhile_imp
  simp only [unsignedDecimal?, Option.ite_none_left_eq_some, Option.map_eq_some_iff,
    exponent?_eq_some_iff] at h
  obtain ⟨hne, e, he, rfl⟩ := h
  generalize cs.takeWhile isDigit = whole at htext hwhole hne ⊢
  generalize cs.dropWhile isDigit = rest at htext hne he ⊢
  rcases takeFraction_cases rest with ⟨more, rfl, hfraction⟩ | ⟨-, hfraction⟩ <;>
    rw [hfraction] at hne he ⊢
  · have hmore := (List.takeWhile_append_dropWhile (p := isDigit) (l := more)).symm
    have hdigits : ∀ c ∈ more.takeWhile isDigit, isDigit c = true := fun _ ↦
      List.mem_takeWhile_imp
    refine ⟨_, _, e, whole ++ '.' :: more.takeWhile isDigit, _,
      .pointed (isNumeral_digitsValue (by simpa using hne) ?_), he, ?_, rfl⟩
    · exact fun c hc ↦ (List.mem_append.1 hc).elim (hwhole c) (hdigits c)
    · rw [htext, List.append_assoc, List.cons_append, ← hmore]
  · refine ⟨_, 0, e, whole, _, .whole (isNumeral_digitsValue (by simpa using hne) hwhole), he,
      htext, ?_⟩
    simp

/-! ### Numbers and words -/

/-- A mantissa starts with a digit or a point. -/
theorem head?_of_isMantissa {n k : ℕ} {cs rest : List Char} (h : IsMantissa n k cs) {c : Char}
    (hc : (cs ++ rest).head? = some c) : isDigit c = true ∨ c = '.' := by
  cases h with
  | whole hn =>
    obtain ⟨hne, hdigits, -⟩ := hn.spec
    rw [List.head?_append_of_ne_nil _ hne] at hc
    exact .inl (hdigits c (List.mem_of_head? hc))
  | @pointed before after hn =>
    cases before with
    | nil => exact .inr (Option.some.inj hc).symm
    | cons b bs =>
      obtain rfl : b = c := Option.some.inj hc
      exact .inl (hn.spec.2.1 b List.mem_cons_self)

/-- No exact number is read from a word. -/
theorem word?_ne_exact {negative negative' : Bool} {cs : List Char} {c : ℕ} {e : ℤ} :
    word? negative cs ≠ some (exact negative' c e) := by
  rw [word?]
  intro h
  split_ifs at h <;> cases h

/-- **What is read as an exact number is what the grammar allows.** -/
theorem read?_eq_exact_iff {negative : Bool} {x : ℚ} {cs : List Char} :
    (∃ (c : ℕ) (e : ℤ), read? cs = some (exact negative c e) ∧ x = c * 10 ^ e) ↔
      IsNumber negative x cs := by
  constructor
  · rintro ⟨c, e, hread, rfl⟩
    obtain ⟨negative', sign, rest, htake, hsign, rfl⟩ := exists_sign cs
    rw [read?, htake] at hread
    cases hdecimal : unsignedDecimal? negative' rest with
    | none =>
      rw [hdecimal] at hread
      exact absurd hread word?_ne_exact
    | some d =>
      rw [hdecimal] at hread
      obtain ⟨n, k, e', mantissa, exponent, hm, he, rfl, rfl⟩ := exists_mantissa hdecimal
      cases hread
      exact .mk hsign hm he
  · rintro ⟨hsign, hm, he⟩
    refine ⟨_, _, ?_, rfl⟩
    rw [read?, takeSign_append hsign, unsignedDecimal?_mantissa negative hm he]
    · intro hc
      exact (head?_of_isMantissa hm hc).elim (by decide) (by decide)
    · intro hc
      exact (head?_of_isMantissa hm hc).elim (by decide) (by decide)

/-- A text stands for one number. -/
theorem isNumber_unique {negative negative' : Bool} {x x' : ℚ} {cs : List Char}
    (h : IsNumber negative x cs) (h' : IsNumber negative' x' cs) :
    negative = negative' ∧ x = x' := by
  obtain ⟨c, e, hread, rfl⟩ := read?_eq_exact_iff.2 h
  obtain ⟨c', e', hread', rfl⟩ := read?_eq_exact_iff.2 h'
  rw [hread] at hread'
  cases hread'
  exact ⟨rfl, rfl⟩

/-- A word starts with a letter. -/
theorem exists_letter {cs : List Char} (h : IsWord cs) :
    ∃ c rest, cs = c :: rest ∧ isDigit c = false ∧ c ≠ '.' ∧ c ≠ '-' ∧ c ≠ '+' := by
  cases cs with
  | nil => simp [IsWord] at h
  | cons c rest =>
    have hlower : c.toLower = 'i' ∨ c.toLower = 'n' := by
      simp only [IsWord, List.map_cons, List.mem_cons, List.cons.injEq, List.not_mem_nil,
        or_false] at h
      rcases h with h | h | h
      · exact .inl h.1
      · exact .inl h.1
      · exact .inr h.1
    have hother : ∀ b : Char, b.toLower ≠ 'i' → b.toLower ≠ 'n' → c ≠ b := by
      rintro b hi hn rfl
      exact hlower.elim hi hn
    refine ⟨c, rest, rfl, ?_, hother _ (by decide) (by decide), hother _ (by decide) (by decide),
      hother _ (by decide) (by decide)⟩
    rw [← Bool.not_eq_true]
    intro hdigit
    obtain ⟨d, hd⟩ := Option.isSome_iff_exists.1 hdigit
    obtain ⟨hlt, hc⟩ := digitChar_of_digit? hd
    have hdigits : ∀ d < 10, (Nat.digitChar d).toLower ≠ 'i' ∧ (Nat.digitChar d).toLower ≠ 'n' := by
      decide
    exact hother _ (hdigits d hlt).1 (hdigits d hlt).2 hc.symm

/-- **The words for what is no finite number are read as such.** -/
theorem read?_word {negative : Bool} {sign word : List Char} (hsign : IsSign negative sign)
    (hword : IsWord word) :
    read? (sign ++ word) = some (infinite negative) ∨ read? (sign ++ word) = some undefined := by
  obtain ⟨c, rest, rfl, hdigit, hpoint, hminus, hplus⟩ := exists_letter hword
  have htake : takeSign (sign ++ c :: rest) = (negative, c :: rest) := takeSign_append hsign
    (fun hc ↦ hminus (Option.some.inj hc)) (fun hc ↦ hplus (Option.some.inj hc))
  have hnone : unsignedDecimal? negative (c :: rest) = none := by
    rcases takeFraction_cases (c :: rest) with ⟨more, hmore, -⟩ | ⟨-, hfraction⟩
    · exact absurd (List.cons.inj hmore).1 hpoint
    · simp [unsignedDecimal?, hdigit, hfraction]
  rw [read?, htake]
  simp only [hnone, word?]
  simp only [IsWord, List.mem_cons, List.not_mem_nil, or_false] at hword
  rcases hword with h | h | h <;> rw [h] <;> simp

/-- A number ends in a digit or a point. -/
theorem exists_last {negative : Bool} {x : ℚ} {cs : List Char} (h : IsNumber negative x cs) :
    ∃ c, cs.getLast? = some c ∧ (isDigit c = true ∨ c = '.') := by
  have hdigits : ∀ {n : ℕ} {digits : List Char} (before : List Char), IsNumeral n digits →
      ∃ c, (before ++ digits).getLast? = some c ∧ (isDigit c = true ∨ c = '.') := by
    intro n digits before hn
    obtain ⟨hne, hdigits, -⟩ := hn.spec
    rw [List.getLast?_append_of_ne_nil _ hne, List.getLast?_eq_some_getLast hne]
    exact ⟨_, rfl, .inl (hdigits _ (List.getLast_mem hne))⟩
  obtain @⟨n, k, e, sign, mantissa, exponent, -, hm, he⟩ := h
  cases he with
  | none =>
    rw [List.append_nil]
    cases hm with
    | whole hn => exact hdigits sign hn
    | @pointed before after hn =>
      rcases List.eq_nil_or_concat after with rfl | ⟨init, c, rfl⟩
      · exact ⟨'.', by simp [← List.append_assoc], .inr rfl⟩
      · refine ⟨c, List.getLast?_eq_some_iff.2 ⟨sign ++ (before ++ '.' :: init), by simp⟩, ?_⟩
        exact .inl (hn.spec.2.1 c (by simp))
  | @some _ letter _ hletter hint =>
    obtain @⟨_, _, sign', digits, -, hn⟩ := hint
    obtain ⟨c, hc⟩ := hdigits (sign ++ (mantissa ++ letter :: sign')) hn
    exact ⟨c, by simpa using hc⟩

/-! ### Rounding what was read -/

/-- Beyond the exponent that is cut off, every number rounds to infinity. -/
theorem overflowBound_le_ten_pow : overflowBound ≤ 10 ^ overflowExponent := by
  calc overflowBound ≤ 2 ^ 54 * 2 ^ 970 :=
        mul_le_mul_of_nonneg_right (by norm_num) (by positivity)
    _ = 2 ^ (54 + 970) := (pow_add _ _ _).symm
    _ ≤ 2 ^ (3 * 400) := pow_le_pow_right₀ one_le_two (by decide)
    _ = (2 ^ 3) ^ 400 := pow_mul _ _ _
    _ ≤ 10 ^ 400 := pow_le_pow_left₀ (by norm_num) (by norm_num) 400
    _ = 10 ^ overflowExponent := (zpow_natCast _ _).symm

/-- A coefficient that is too short for its exponent leaves less than half the least number. -/
theorem mul_ten_pow_le {c k : ℕ} (hc : 0 < c) (hlog : (c.log2 : ℤ) + 1100 < 3 * k) :
    (c : ℚ) / 10 ^ k ≤ 2 ^ (-1075 : ℤ) := by
  have hten : (2 : ℚ) ^ (3 * k : ℤ) ≤ 10 ^ k := by
    rw [zpow_mul, zpow_natCast]
    exact pow_le_pow_left₀ (by norm_num) (by norm_num) k
  rw [div_le_iff₀ (by positivity)]
  calc (c : ℚ) ≤ 2 ^ ((c.log2 : ℤ) + 1) := (log2_spec hc).2.le
    _ ≤ 2 ^ (-1075 + 3 * k : ℤ) := zpow_le_zpow_right₀ one_le_two (by omega)
    _ = 2 ^ (-1075 : ℤ) * 2 ^ (3 * k : ℤ) := zpow_add₀ two_ne_zero _ _
    _ ≤ 2 ^ (-1075 : ℤ) * 10 ^ k := mul_le_mul_of_nonneg_left hten (two_zpow_pos _).le

/-- **A number that was read is rounded correctly.** -/
theorem rounds_toBinary64 (negative : Bool) (c : ℕ) (e : ℤ) :
    Rounds negative (c * 10 ^ e) (toBinary64 (exact negative c e)) := by
  rw [toBinary64]
  split_ifs with hzero hover hnonneg htiny
  · rw [hzero, Nat.cast_zero, zero_mul]
    exact rounds_zero negative le_rfl (two_zpow_pos _).le
  · have hone : (1 : ℚ) ≤ c := by exact_mod_cast Nat.one_le_iff_ne_zero.2 hzero
    refine .infinite ?_
    calc overflowBound ≤ 10 ^ overflowExponent := overflowBound_le_ten_pow
      _ ≤ 10 ^ e := zpow_le_zpow_right₀ (by norm_num) hover
      _ ≤ c * 10 ^ e := le_mul_of_one_le_left (by positivity) hone
  · obtain ⟨k, rfl⟩ := Int.eq_ofNat_of_zero_le hnonneg
    have hvalue : (c : ℚ) * 10 ^ (k : ℤ) = ((c * Nat.pow 10 k : ℕ) : ℚ) / (1 : ℕ) := by simp
    rw [hvalue]
    exact rounds_ofRatio negative _ Nat.one_pos
  all_goals
    obtain ⟨k, rfl⟩ : ∃ k : ℕ, e = -k := ⟨(-e).toNat, by omega⟩
    have hvalue : (c : ℚ) * 10 ^ (-k : ℤ) = (c : ℚ) / (Nat.pow 10 k : ℕ) := by
      simp [div_eq_mul_inv]
    rw [hvalue]
  · rw [neg_neg] at htiny
    refine rounds_zero negative (by positivity) ?_
    simpa using mul_ten_pow_le (Nat.pos_of_ne_zero hzero) htiny
  · rw [neg_neg, Int.toNat_natCast]
    exact rounds_ofRatio negative c (Nat.pow_pos (by decide))

/-- **A finite number is read from a text if the text stands for a number whose rounding it
is.** -/
theorem read?_finite_iff {cs : List Char} {v : Binary64} (hv : v.isFinite = true) :
    (∃ d, read? cs = some d ∧ d.toBinary64 = v) ↔
      ∃ negative x, IsNumber negative x cs ∧ Rounds negative x v := by
  constructor
  · rintro ⟨d, hread, rfl⟩
    cases d with
    | exact negative c e =>
      exact ⟨negative, _, read?_eq_exact_iff.1 ⟨c, e, hread, rfl⟩, rounds_toBinary64 negative c e⟩
    | infinite negative => cases hv
    | undefined => cases hv
  · rintro ⟨negative, x, hnumber, hrounds⟩
    obtain ⟨c, e, hread, rfl⟩ := read?_eq_exact_iff.2 hnumber
    exact ⟨_, hread, (rounds_toBinary64 negative c e).unique hrounds⟩

end Decimal

end HollowFleet.Number
