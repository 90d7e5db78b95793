import HollowFleet.Text.Blank
import HollowFleet.Text.Numeral
import Mathlib.Data.List.Basic
import Mathlib.Data.Nat.Digits.Defs

/-!
# Numbers as they are written

A number is written in decimal digits without leading zeros, and read with any. So what is read
as a number is some zeros and the number as it is written (`numeral?_eq_some_iff`), and an
unsigned field may have a plus before that (`unsigned?_eq_some_iff`).

The one fact behind both is `exists_zeros_append`: a text of digits is some zeros before its
value as it is written. It goes by the text from the left: zeros are set aside, and once a digit
is not zero, each further digit is the last digit of a greater number (`toDigits_append`).

Both equivalences have an easy direction and one that rests on this fact. That a numeral is read as
its number is a computation with `digitsValue`, which zeros in front do not change
(`digitsValue_zeros`, `digitsValue_toString`). That nothing else is read follows because the digits
of a text that was read are a numeral of their own value (`isNumeral_digitsValue`).

What is said of the length and of the first digit of a number as it is written
(`length_toString_le`, `length_of_head?_toString`) is for readers that refuse leading zeros or more
than three digits, such as that of an octet.
-/

namespace HollowFleet.Text

/-! ### Digits -/

theorem digit?_of_isDigit {c : Char} (h : c.isDigit = true) :
    digit? c = some (c.toNat - '0'.toNat) := by
  simp only [Char.isDigit, Bool.and_eq_true, decide_eq_true_eq] at h
  exact if_pos h

/-- The digits are the ten that core knows, and no others. -/
theorem isDigit_iff {c : Char} : isDigit c = true ↔ c.isDigit = true := by
  simp only [isDigit, digit?, Char.isDigit, Option.isSome_ite, Bool.and_eq_true,
    decide_eq_true_eq]
  rfl

theorem isBlank_of_isDigit {c : Char} (h : c.isDigit = true) : isBlank c = false := by
  have hblanks : blanks.all (fun b ↦ !b.isDigit) = true := by decide
  rw [isBlank, ← Bool.not_eq_true, List.contains_iff_mem]
  intro hmem
  have hdigit := List.all_eq_true.1 hblanks c hmem
  rw [h] at hdigit
  cases hdigit

/-- A digit is the one that is written for its value. -/
theorem digitChar_of_digit? {c : Char} {d : ℕ} (h : digit? c = some d) :
    d < 10 ∧ Nat.digitChar d = c := by
  simp only [digit?, Option.ite_none_right_eq_some, Option.some.injEq] at h
  obtain ⟨⟨hlow, hhigh⟩, rfl⟩ := h
  have hlow' : 48 ≤ c.toNat := hlow
  have hhigh' : c.toNat ≤ 57 := hhigh
  have hlt : c.toNat - '0'.toNat < 10 := by
    show c.toNat - 48 < 10
    omega
  refine ⟨hlt, Char.toNat_inj.1 ?_⟩
  rw [Nat.toNat_digitChar_of_lt_ten hlt]
  show 48 + (c.toNat - 48) = c.toNat
  omega

/-! ### A number and its text -/

theorem isDigit_of_mem_toString {n : ℕ} {c : Char} (h : c ∈ (toString n).toList) :
    c.isDigit = true := by
  rw [Nat.toString_eq_repr, Nat.toList_repr] at h
  exact Nat.isDigit_of_mem_toDigits (by decide) (by decide) h

theorem toList_toString_ne_nil (n : ℕ) : (toString n).toList ≠ [] := by
  rw [Nat.toString_eq_repr, Nat.toList_repr]
  exact Nat.toDigits_ne_nil

/-- On digits the value is the one that core computes, which has lemmas of its own. -/
theorem digitsValue_eq_ofDigitChars {cs : List Char} (h : ∀ c ∈ cs, c.isDigit = true) :
    digitsValue cs = Nat.ofDigitChars 10 cs 0 := by
  rw [digitsValue, Nat.ofDigitChars]
  refine List.foldl_ext _ _ _ fun n c hc ↦ ?_
  rw [digit?_of_isDigit (h c hc), Option.getD_some, Nat.mul_comm]

theorem digitsValue_toString (n : ℕ) : digitsValue (toString n).toList = n := by
  rw [digitsValue_eq_ofDigitChars fun _ ↦ isDigit_of_mem_toString, Nat.toString_eq_repr,
    Nat.toList_repr, Nat.ofDigitChars_toDigits (by decide) (by decide)]

/-- Zeros alone are worth nothing, however many there are. -/
@[simp]
theorem digitsValue_zeros (zeros : ℕ) : digitsValue (List.replicate zeros '0') = 0 := by
  induction zeros with
  | zero => rfl
  | succ zeros ih =>
    rw [List.replicate_succ, digitsValue_cons, ih]
    show 0 * _ + 0 = 0
    omega

/-- Digits after a number that is not zero make a greater number. -/
theorem toDigits_append {n : ℕ} (hn : 0 < n) {cs : List Char} (h : cs.all isDigit = true) :
    Nat.toDigits 10 n ++ cs =
      Nat.toDigits 10 (cs.foldl (fun n c ↦ n * 10 + (digit? c).getD 0) n) := by
  induction cs generalizing n with
  | nil => simp
  | cons c rest ih =>
    rw [List.all_cons, Bool.and_eq_true] at h
    obtain ⟨d, hd⟩ := Option.isSome_iff_exists.1 h.1
    obtain ⟨hlt, rfl⟩ := digitChar_of_digit? hd
    have hnext := Nat.toDigits_append_toDigits (by decide : 1 < 10) hn hlt
    rw [Nat.toDigits_of_lt_base hlt, Nat.mul_comm 10] at hnext
    rw [List.foldl_cons, hd, Option.getD_some, ← ih (by omega) h.2, ← hnext]
    simp

/-- Digits are some zeros and their value as it is written. -/
theorem exists_zeros_append {cs : List Char} (hne : cs ≠ []) (h : cs.all isDigit = true) :
    ∃ zeros, cs = List.replicate zeros '0' ++ (toString (digitsValue cs)).toList := by
  induction cs with
  | nil => exact absurd rfl hne
  | cons c rest ih =>
    rw [List.all_cons, Bool.and_eq_true] at h
    obtain ⟨d, hd⟩ := Option.isSome_iff_exists.1 h.1
    obtain ⟨hlt, hc⟩ := digitChar_of_digit? hd
    rcases Nat.eq_zero_or_pos d with rfl | hpos
    · -- a zero stands for itself at the end, and is set aside before other digits
      obtain rfl : c = '0' := hc.symm
      rcases eq_or_ne rest [] with rfl | hrest
      · exact ⟨0, rfl⟩
      · obtain ⟨zeros, hzeros⟩ := ih hrest h.2
        refine ⟨zeros + 1, ?_⟩
        have hvalue : digitsValue ('0' :: rest) = digitsValue rest := by
          rw [digitsValue_cons, hd, Option.getD_some, Nat.zero_mul, Nat.zero_add]
        rw [hvalue, List.replicate_succ, List.cons_append, ← hzeros]
    · refine ⟨0, ?_⟩
      have hwritten := toDigits_append hpos h.2
      rw [Nat.toDigits_of_lt_base hlt, hc, List.singleton_append] at hwritten
      have hvalue : digitsValue (c :: rest) =
          rest.foldl (fun n c ↦ n * 10 + (digit? c).getD 0) d := by
        rw [digitsValue, List.foldl_cons, hd, Option.getD_some, Nat.zero_mul, Nat.zero_add]
      rw [List.replicate_zero, List.nil_append, Nat.toString_eq_repr, Nat.toList_repr, hvalue,
        hwritten]

/-- A number below 1000 has at most three digits. -/
theorem length_toString_le {n : ℕ} (h : n < 1000) : (toString n).toList.length ≤ 3 := by
  rw [Nat.toString_eq_repr, Nat.toList_repr]
  exact Nat.toDigits_length 10 n 3 (by decide) h

/-- Only zero is written with a leading zero. -/
theorem length_of_head?_toString {n : ℕ} (h : (toString n).toList.head? = some '0') :
    (toString n).toList.length = 1 := by
  obtain ⟨rest, hrest⟩ := List.head?_eq_some_iff.1 h
  rcases eq_or_ne rest [] with rfl | hne
  · rw [hrest]
    rfl
  · -- what follows the zero has the same value, so it holds the number once more
    have hdigits : rest.all isDigit = true := List.all_eq_true.2 fun c hc ↦
      isDigit_iff.2 (isDigit_of_mem_toString (n := n) (hrest ▸ List.mem_cons_of_mem _ hc))
    have hvalue : digitsValue rest = n := by
      rw [← digitsValue_toString n, hrest, digitsValue_cons]
      show digitsValue rest = 0 * _ + digitsValue rest
      omega
    obtain ⟨zeros, hzeros⟩ := exists_zeros_append hne hdigits
    have hlength := congrArg List.length hrest
    rw [hzeros, hvalue] at hlength
    simp only [List.length_cons, List.length_append, List.length_replicate] at hlength
    omega

/-! ### Numerals -/

/-- A text is a numeral of a number: some zeros and the number as it is written. -/
def IsNumeral (n : ℕ) (cs : List Char) : Prop :=
  ∃ zeros, cs = List.replicate zeros '0' ++ (toString n).toList

/-- A text is an unsigned field that holds a number: a numeral, with a plus or not. -/
def IsUnsigned (n : ℕ) (cs : List Char) : Prop :=
  IsNumeral n cs ∨ ∃ digits, cs = '+' :: digits ∧ IsNumeral n digits

/-- The way a number is written is the numeral without leading zeros. -/
theorem isNumeral_toString (n : ℕ) : IsNumeral n (toString n).toList := ⟨0, rfl⟩

/-- Zeros in front are digits too, so a numeral has nothing but digits. -/
theorem IsNumeral.isDigit {n : ℕ} {cs : List Char} (h : IsNumeral n cs) :
    ∀ c ∈ cs, c.isDigit = true := by
  obtain ⟨zeros, rfl⟩ := h
  intro c hc
  rcases List.mem_append.1 hc with hzero | hdigit
  · rw [List.eq_of_mem_replicate hzero]
    rfl
  · exact isDigit_of_mem_toString hdigit

/-- An unsigned field holds digits and a plus only. -/
theorem IsUnsigned.not_mem {n : ℕ} {cs : List Char} (h : IsUnsigned n cs) {c : Char}
    (hdigit : c.isDigit = false) (hplus : c ≠ '+') : c ∉ cs := by
  have hnumeral : ∀ digits, IsNumeral n digits → c ∉ digits := by
    intro digits hdigits hmem
    rw [hdigits.isDigit c hmem] at hdigit
    cases hdigit
  rcases h with hdigits | ⟨digits, rfl, hdigits⟩
  · exact hnumeral cs hdigits
  · rw [List.mem_cons, not_or]
    exact ⟨hplus, hnumeral digits hdigits⟩

/-- What is read as a number are its numerals. -/
theorem numeral?_eq_some_iff {n : ℕ} {cs : List Char} :
    numeral? cs = some n ↔ IsNumeral n cs := by
  constructor
  · intro h
    simp only [numeral?, Option.ite_none_right_eq_some, Option.some.injEq] at h
    obtain ⟨⟨hne, hdigits⟩, rfl⟩ := h
    exact exists_zeros_append hne hdigits
  · intro h
    have hdigits : cs.all Text.isDigit = true :=
      List.all_eq_true.2 fun c hc ↦ isDigit_iff.2 (h.isDigit c hc)
    obtain ⟨zeros, rfl⟩ := h
    rw [numeral?, if_pos ⟨List.append_ne_nil_of_right_ne_nil _ (toList_toString_ne_nil n), hdigits⟩,
      digitsValue_append, digitsValue_zeros, digitsValue_toString, Nat.zero_mul, Nat.zero_add]

/-- A text of digits is a numeral of the number that it is read as. -/
theorem isNumeral_digitsValue {cs : List Char} (hne : cs ≠ [])
    (h : ∀ c ∈ cs, isDigit c = true) : IsNumeral (digitsValue cs) cs :=
  exists_zeros_append hne (List.all_eq_true.2 h)

/-- A numeral is a text of digits with the right value, which is all that a reader asks for. -/
theorem IsNumeral.spec {n : ℕ} {cs : List Char} (h : IsNumeral n cs) :
    cs ≠ [] ∧ (∀ c ∈ cs, Text.isDigit c = true) ∧ digitsValue cs = n := by
  have hread := numeral?_eq_some_iff.2 h
  simp only [numeral?, Option.ite_none_right_eq_some, Option.some.injEq, List.all_eq_true] at hread
  exact ⟨hread.1.1, hread.1.2, hread.2⟩

/-- What is read as an unsigned field. A numeral starts with a digit, so there is only one way to
read a text that starts with a plus. -/
theorem unsigned?_eq_some_iff {bound n : ℕ} {cs : List Char} :
    unsigned? bound cs = some n ↔ n < bound ∧ IsUnsigned n cs := by
  have hplus : ∀ rest, ¬ IsNumeral n ('+' :: rest) := fun rest h ↦
    absurd (h.isDigit '+' List.mem_cons_self) (by decide)
  rw [unsigned?.eq_def]
  split
  · next digits =>
    simp only [Option.filter_eq_some_iff, numeral?_eq_some_iff, decide_eq_true_eq, IsUnsigned,
      hplus, false_or, List.cons.injEq, true_and, exists_eq_left', and_comm]
  · next hnone =>
    have hno : ¬ ∃ digits, cs = '+' :: digits ∧ IsNumeral n digits := by
      rintro ⟨digits, rfl, -⟩
      exact hnone digits rfl
    simp only [Option.filter_eq_some_iff, numeral?_eq_some_iff, decide_eq_true_eq, IsUnsigned,
      hno, or_false, and_comm]

end HollowFleet.Text
