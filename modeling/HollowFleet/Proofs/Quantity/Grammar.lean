import HollowFleet.Proofs.Number.Arithmetic
import HollowFleet.Proofs.Number.Written
import HollowFleet.Quantity

/-!
# The grammar of quantities

A quantity is a number and one of the endings, none included (`Reading`). What is accepted is what
has such a reading with a number whose rounding is finite and not below zero, and its value is the
product of that and the factor of the ending (`parse_follows`).

Endings are taken off by trying them one after the other. That the first one that fits is the only
one rests on two facts: a number ends in a digit or a point, and endings are made of letters
(`unsuffixed_of_isNumber`), and no suffix ends in another one (`suffixes_pairwise`). So a text has
one reading at most (`Reading.unique`), and the order of the suffixes would not matter.

## What the main theorem rests on

* `splitSuffix_append` says which ending is taken off, and `exists_ending` that it is one of those
  in the grammar. After that an ending is spoken of with its exact factor, and the table of rounded
  factors is not looked at again (`suffixes_stand`).
* The number in front of the ending is read as in `Decimal.read?_finite_iff`, so that acceptance is
  said with an exact number and its rounding, not with the reader.
* A factor is rounded, and to a finite number (`exists_factor`), and so is the product with it. What
  can be too great is the number in front, which is refused (`Reading.Fits`), and the product, which
  is infinite (`Reading.Gives`).
* An `E` with digits behind it belongs to the number, and one without to the ending. This needs no
  rule of its own: of the two ways to cut the text only one is a reading.
-/

namespace HollowFleet.Quantity

open Number Binary64 Text

/-! ### Endings -/

/-- The endings and the factors that they stand for. -/
def endings : List (List Char × ℚ) :=
  [([], 1),
   (['K', 'i'], 1024 ^ 1), (['M', 'i'], 1024 ^ 2), (['G', 'i'], 1024 ^ 3),
   (['T', 'i'], 1024 ^ 4), (['P', 'i'], 1024 ^ 5), (['E', 'i'], 1024 ^ 6),
   (['m'], 1 / 1000), (['k'], 10 ^ 3), (['M'], 10 ^ 6), (['G'], 10 ^ 9), (['T'], 10 ^ 12),
   (['P'], 10 ^ 15), (['E'], 10 ^ 18)]

/-- The letters that endings are made of. -/
def letters : List Char := ['E', 'G', 'K', 'M', 'P', 'T', 'i', 'k', 'm']

/-- Whatever stands in an ending is one of these letters. -/
theorem mem_letters {ending : List Char × ℚ} (h : ending ∈ endings) {c : Char}
    (hc : c ∈ ending.1) : c ∈ letters := by
  have hletters : (endings.map Prod.fst).all (fun text ↦ text.all letters.contains) = true := by
    decide
  exact List.contains_iff_mem.1
    (List.all_eq_true.1 (List.all_eq_true.1 hletters _ (List.mem_map_of_mem h)) c hc)

/-- The factors of binary suffixes are exact powers, and rounded as such. -/
theorem rounds_binaryFactor (k : ℕ) : Rounds false (1024 ^ k) (binaryFactor k) := by
  have hrounds := rounds_ofNat (1024 ^ k)
  rwa [Nat.cast_pow, Nat.cast_ofNat] at hrounds

theorem rounds_decimalFactor (k : ℕ) : Rounds false (10 ^ k) (decimalFactor k) := by
  have hrounds := rounds_ofNat (10 ^ k)
  rwa [Nat.cast_pow, Nat.cast_ofNat] at hrounds

/-- A suffix is an ending, and its factor is rounded correctly. -/
structure Suffix.Stands (ending : List Char × ℚ) (s : Suffix) : Prop where
  text_eq : s.text = ending.1
  rounds : Rounds false ending.2 s.factor

/-- The table of suffixes is the list of endings, in the same order. -/
theorem suffixes_stand : List.Forall₂ Suffix.Stands endings.tail suffixes := by
  have hbinary : ∀ (text : List Char) (k : ℕ),
      Suffix.Stands (text, 1024 ^ k) ⟨text, binaryFactor k⟩ :=
    fun _ k ↦ ⟨rfl, rounds_binaryFactor k⟩
  have hdecimal : ∀ (text : List Char) (k : ℕ),
      Suffix.Stands (text, 10 ^ k) ⟨text, decimalFactor k⟩ :=
    fun _ k ↦ ⟨rfl, rounds_decimalFactor k⟩
  have hmilli : Suffix.Stands (['m'], 1 / 1000) ⟨['m'], .ofRatio false 1 1000⟩ := by
    have hrounds := rounds_ofRatio false 1 (d := 1000) (by decide)
    rw [Nat.cast_one, Nat.cast_ofNat] at hrounds
    exact ⟨rfl, hrounds⟩
  simp only [endings, suffixes, List.tail_cons, List.forall₂_cons, List.forall₂_nil_left_iff,
    hbinary, hdecimal, hmilli, and_self]

theorem exists_suffix {ending : List Char × ℚ} (h : ending ∈ endings.tail) :
    ∃ s ∈ suffixes, Suffix.Stands ending s := by
  obtain ⟨i, hi, rfl⟩ := List.getElem_of_mem h
  exact ⟨_, List.getElem_mem _, suffixes_stand.get hi (suffixes_stand.length_eq ▸ hi)⟩

theorem exists_stands {s : Suffix} (h : s ∈ suffixes) :
    ∃ ending ∈ endings.tail, Suffix.Stands ending s := by
  obtain ⟨i, hi, rfl⟩ := List.getElem_of_mem h
  exact ⟨_, List.getElem_mem _, suffixes_stand.get (suffixes_stand.length_eq ▸ hi) hi⟩

/-- No suffix ends in another one. -/
theorem suffixes_pairwise :
    (suffixes.map Suffix.text).Pairwise fun text other ↦ ¬ text <:+ other := by decide

/-! ### Taking an ending off -/

/-- A text that ends in none of the letters that endings are made of. -/
def Unsuffixed (cs : List Char) : Prop :=
  ∀ c, cs.getLast? = some c → c ∉ letters

theorem Unsuffixed.not_mem {cs : List Char} (h : Unsuffixed cs) {s : Suffix} (hs : s ∈ suffixes)
    {c : Char} (hc : cs.getLast? = some c) : c ∉ s.text := by
  obtain ⟨ending, hending, hstands⟩ := exists_stands hs
  rw [hstands.text_eq]
  exact fun hmem ↦ h c hc (mem_letters (List.mem_of_mem_tail hending) hmem)

/-- What a text with an ending ends in, the ending ends in already. -/
theorem suffix_of_suffix_append {text number ending : List Char} (h : text <:+ number ++ ending)
    (hnumber : ∀ c, number.getLast? = some c → c ∉ text) : text <:+ ending := by
  rcases List.suffix_or_suffix_of_suffix h (List.suffix_append number ending) with hle | hge
  · exact hle
  · obtain ⟨more, rfl⟩ := hge
    have hmore : more <:+ number := List.suffix_append_self_iff.1 h
    rcases List.eq_nil_or_concat more with rfl | ⟨init, c, rfl⟩
    · exact List.suffix_refl _
    · obtain ⟨before, rfl⟩ := hmore
      refine absurd ?_ (hnumber c ?_)
      · simp
      · simp [← List.append_assoc]

/-- A suffix after a text without endings is taken off, as no other one fits. -/
theorem splitSuffix_of_suffix {number : List Char} (hnumber : Unsuffixed number) {s : Suffix}
    (hs : s ∈ suffixes) : splitSuffix (number ++ s.text) = (number, s.factor) := by
  obtain ⟨before, after, hsplit⟩ := List.append_of_mem hs
  have hfirst : (suffixes.findSome? fun s' ↦ (stripEnding? s'.text (number ++ s.text)).map
      fun number ↦ (number, s'.factor)) = some (number, s.factor) := by
    rw [List.findSome?_eq_some_iff]
    refine ⟨before, s, after, hsplit, by rw [stripEnding?_append]; rfl, fun s' hs' ↦ ?_⟩
    rw [Option.map_eq_none_iff, stripEnding?_eq_none_iff]
    intro hsuffix
    have hmem : s' ∈ suffixes := hsplit ▸ List.mem_append_left _ hs'
    have hpairwise := suffixes_pairwise
    rw [hsplit, List.map_append, List.pairwise_append] at hpairwise
    exact hpairwise.2.2 _ (List.mem_map_of_mem hs') _ (List.mem_map_of_mem List.mem_cons_self)
      (suffix_of_suffix_append hsuffix fun c hc ↦ hnumber.not_mem hmem hc)
  rw [splitSuffix, hfirst]
  rfl

/-- Where there is no ending, the text is left as it is, with the factor one. -/
theorem splitSuffix_of_unsuffixed {number : List Char} (hnumber : Unsuffixed number) :
    splitSuffix number = (number, ofNat 1) := by
  have hnone : (suffixes.findSome? fun s ↦ (stripEnding? s.text number).map
      fun number ↦ (number, s.factor)) = none := by
    rw [List.findSome?_eq_none_iff]
    intro s hs
    rw [Option.map_eq_none_iff, stripEnding?_eq_none_iff]
    intro hsuffix
    have hnil : s.text = [] := by
      rw [← List.append_nil number] at hsuffix
      exact List.suffix_nil.1 (suffix_of_suffix_append hsuffix fun c hc ↦ hnumber.not_mem hs hc)
    have hne : (suffixes.map Suffix.text).all (fun text ↦ !text.isEmpty) = true := by decide
    have hs' := List.all_eq_true.1 hne _ (List.mem_map_of_mem hs)
    rw [hnil] at hs'
    cases hs'
  rw [splitSuffix, hnone]
  rfl

/-- **The ending that is taken off is the one that the text has.** -/
theorem splitSuffix_append {number : List Char} (hnumber : Unsuffixed number)
    {ending : List Char × ℚ} (h : ending ∈ endings) :
    ∃ w, splitSuffix (number ++ ending.1) = (number, w) ∧ Rounds false ending.2 w := by
  rw [show endings = ([], 1) :: endings.tail from rfl, List.mem_cons] at h
  rcases h with rfl | h
  · rw [List.append_nil, splitSuffix_of_unsuffixed hnumber]
    exact ⟨_, rfl, by simpa using rounds_ofNat 1⟩
  · obtain ⟨s, hs, hstands⟩ := exists_suffix h
    rw [← hstands.text_eq, splitSuffix_of_suffix hnumber hs]
    exact ⟨_, rfl, hstands.rounds⟩

/-- What is taken off is an ending. -/
theorem exists_ending (cs : List Char) : ∃ ending ∈ endings,
    cs = (splitSuffix cs).1 ++ ending.1 ∧ Rounds false ending.2 (splitSuffix cs).2 := by
  rw [splitSuffix]
  cases hfirst : suffixes.findSome? fun s ↦ (stripEnding? s.text cs).map
      fun number ↦ (number, s.factor) with
  | none => exact ⟨([], 1), List.mem_cons_self, by simp, by simpa using rounds_ofNat 1⟩
  | some parts =>
    obtain ⟨s, hs, hstrip⟩ := List.exists_of_findSome?_eq_some hfirst
    obtain ⟨number, hnumber, rfl⟩ := Option.map_eq_some_iff.1 hstrip
    obtain ⟨ending, hending, hstands⟩ := exists_stands hs
    refine ⟨ending, List.mem_of_mem_tail hending, ?_, hstands.rounds⟩
    rw [← hstands.text_eq]
    exact stripEnding?_eq_some_iff.1 hnumber

/-! ### Readings -/

/-- A way to read a text as a quantity. -/
@[ext]
structure Reading (cs : List Char) where
  /-- The text of the number. -/
  number : List Char
  /-- The ending and its factor. -/
  ending : List Char × ℚ
  /-- Whether the number has a minus. -/
  negative : Bool
  /-- The number without its sign. -/
  size : ℚ
  text_eq : cs = number ++ ending.1
  isNumber : IsNumber negative size number
  listed : ending ∈ endings

/-- The rounding of the number is finite, and not below zero. -/
def Reading.Fits {cs : List Char} (r : Reading cs) : Prop :=
  ∃ m e, Rounds r.negative r.size (.finite r.negative m e) ∧ (r.negative = true → m = 0)

/-- A number is the product of the rounded number and the rounded factor. -/
def Reading.Gives {cs : List Char} (r : Reading cs) (value : Binary64) : Prop :=
  ∃ m e m' e', Rounds r.negative r.size (.finite r.negative m e) ∧ (r.negative = true → m = 0) ∧
    Rounds false r.ending.2 (.finite false m' e') ∧
    Rounds r.negative (magnitude m e * magnitude m' e') value

/-- A number ends in a digit or a point, so not in a letter. -/
theorem unsuffixed_of_isNumber {negative : Bool} {x : ℚ} {cs : List Char}
    (h : IsNumber negative x cs) : Unsuffixed cs := by
  intro c hc hmem
  obtain ⟨c', hc', hlast⟩ := Decimal.exists_last h
  obtain rfl : c' = c := Option.some.inj (hc'.symm.trans hc)
  have hletters : letters.all (fun c ↦ !isDigit c && c != '.') = true := by decide
  have hletter := List.all_eq_true.1 hletters _ hmem
  rcases hlast with hlast | rfl
  · rw [hlast] at hletter
    cases hletter
  · cases hletter

/-- A word for what is no finite number ends in a letter that no ending is made of. -/
theorem unsuffixed_of_isWord {cs : List Char} (sign : List Char) (h : IsWord cs) :
    Unsuffixed (sign ++ cs) := by
  intro c hc hmem
  have hne : cs ≠ [] := by
    rintro rfl
    simp [IsWord] at h
  have hlast : (cs.map Char.toLower).getLast? = some c.toLower := by
    rw [List.getLast?_append_of_ne_nil _ hne] at hc
    rw [List.getLast?_map, hc]
    rfl
  have hletters : letters.all (fun c ↦ !List.contains ['f', 'y', 'n'] c.toLower) = true := by decide
  have hletter := List.all_eq_true.1 hletters _ hmem
  simp only [IsWord, List.mem_cons, List.not_mem_nil, or_false] at h
  rcases h with h | h | h <;> rw [h] at hlast <;> rw [← Option.some.inj hlast] at hletter <;>
    cases hletter

namespace Reading

variable {cs : List Char}

/-- A text that has a reading is cut where the reading says, and the factor is the rounded one. -/
theorem splitSuffix_eq (r : Reading cs) :
    ∃ w, splitSuffix cs = (r.number, w) ∧ Rounds false r.ending.2 w := by
  obtain ⟨w, hsplit, hw⟩ := splitSuffix_append (unsuffixed_of_isNumber r.isNumber) r.listed
  exact ⟨w, (congrArg splitSuffix r.text_eq).trans hsplit, hw⟩

/-- **A text has one reading at most.** -/
theorem unique (r r' : Reading cs) : r = r' := by
  obtain ⟨w, hsplit, -⟩ := r.splitSuffix_eq
  obtain ⟨w', hsplit', -⟩ := r'.splitSuffix_eq
  have hnumber : r.number = r'.number := congrArg Prod.fst (hsplit.symm.trans hsplit')
  have hending : r.ending.1 = r'.ending.1 :=
    List.append_cancel_left ((r.text_eq.symm.trans r'.text_eq).trans (hnumber ▸ rfl))
  have hnodup : (endings.map Prod.fst).Nodup := by decide
  obtain ⟨hnegative, hsize⟩ := Decimal.isNumber_unique r.isNumber (hnumber ▸ r'.isNumber)
  exact Reading.ext hnumber (List.inj_on_of_nodup_map hnodup r.listed r'.listed hending) hnegative
    hsize

end Reading

/-! ### Values -/

theorem factor_lt_overflowBound {ending : List Char × ℚ} (h : ending ∈ endings) :
    ending.2 < overflowBound := by
  have hle : ∀ ending ∈ endings, ending.2 ≤ 2 ^ 60 := by norm_num [endings]
  calc ending.2 ≤ 2 ^ 60 := hle ending h
    _ < 2 ^ 970 := pow_lt_pow_right₀ one_lt_two (by decide)
    _ ≤ overflowBound := le_mul_of_one_le_left (by positivity) (by norm_num)

/-- A factor is rounded to a finite number. -/
theorem exists_factor {ending : List Char × ℚ} (h : ending ∈ endings) {w : Binary64}
    (hw : Rounds false ending.2 w) : ∃ m e, w = .finite false m e := by
  cases hw with
  | finite _ _ => exact ⟨_, _, rfl⟩
  | infinite hover => exact absurd (factor_lt_overflowBound h) (not_lt.2 hover)

/-- Acceptance as the program computes it: cut, read, round, and multiply. -/
theorem parse_eq_ok_iff {raw : String} {value : Binary64} : parse raw = .ok value ↔
    trim raw.toList ≠ [] ∧ ∃ v : Binary64, v.isFinite = true ∧ v.isBelowZero = false ∧
      value = v.mul (splitSuffix (trim raw.toList)).2 ∧
      ∃ d, Decimal.read? (splitSuffix (trim raw.toList)).1 = some d ∧ d.toBinary64 = v := by
  rw [parse]
  generalize trim raw.toList = cs
  by_cases hnil : cs = []
  · simp [hnil]
  · simp only [hnil, if_false, ne_eq, not_false_eq_true, true_and]
    cases Decimal.read? (splitSuffix cs).1 with
    | none => simp
    | some d =>
      simp only [Option.some.injEq]
      constructor
      · intro h
        split_ifs at h with hfits
        simp only [Bool.and_eq_true, Bool.not_eq_true'] at hfits
        exact ⟨_, hfits.1, hfits.2, (Except.ok.inj h).symm, d, rfl, rfl⟩
      · rintro ⟨_, hfinite, hbelow, rfl, _, rfl, rfl⟩
        simp [hfinite, hbelow]

/-- **The value of a quantity is what its reading gives.** -/
theorem parse_eq_ok_iff_gives {raw : String} {value : Binary64} :
    parse raw = .ok value ↔ ∃ r : Reading (trim raw.toList), r.Gives value := by
  rw [parse_eq_ok_iff]
  generalize trim raw.toList = cs
  constructor
  · rintro ⟨-, v, hfinite, hbelow, rfl, hread⟩
    obtain ⟨negative, x, hnumber, hrounds⟩ := (Decimal.read?_finite_iff hfinite).1 hread
    obtain ⟨ending, hending, htext, hw⟩ := exists_ending cs
    obtain ⟨m', e', hfactor⟩ := exists_factor hending hw
    rw [hfactor] at hw ⊢
    refine ⟨⟨_, ending, negative, x, htext, hnumber, hending⟩, ?_⟩
    cases hrounds with
    | @finite m e hx hnear =>
      have hmul := rounds_mul negative false m m' e e'
      rw [Bool.bne_false] at hmul
      exact ⟨m, e, m', e', .finite hx hnear, isBelowZero_eq_false_iff.1 hbelow, hw, hmul⟩
    | infinite _ => cases hfinite
  · rintro ⟨r, m, e, m', e', hnumber, hzero, hfactor, hvalue⟩
    obtain ⟨w, hsplit, hw⟩ := r.splitSuffix_eq
    obtain rfl := hw.unique hfactor
    have hmul := rounds_mul r.negative false m m' e e'
    rw [Bool.bne_false] at hmul
    refine ⟨?_, .finite r.negative m e, rfl, ?_, ?_, ?_⟩
    · intro hnil
      obtain ⟨c, hc, -⟩ := Decimal.exists_last r.isNumber
      rw [(List.append_eq_nil_iff.1 (r.text_eq.symm.trans hnil)).1] at hc
      cases hc
    · exact isBelowZero_eq_false_iff.2 hzero
    · rw [hsplit]
      exact hvalue.unique hmul
    · rw [hsplit]
      exact (Decimal.read?_finite_iff rfl).2 ⟨_, _, r.isNumber, hnumber⟩

/-- **A quantity is accepted if it has a reading that fits.** -/
theorem exists_parse_eq_ok_iff {raw : String} :
    (∃ value, parse raw = .ok value) ↔ ∃ r : Reading (trim raw.toList), r.Fits := by
  simp only [parse_eq_ok_iff_gives]
  constructor
  · rintro ⟨value, r, m, e, _, _, hnumber, hzero, -⟩
    exact ⟨r, m, e, hnumber, hzero⟩
  · rintro ⟨r, m, e, hnumber, hzero⟩
    obtain ⟨w, -, hw⟩ := r.splitSuffix_eq
    obtain ⟨m', e', rfl⟩ := exists_factor r.listed hw
    have hmul := rounds_mul r.negative false m m' e e'
    rw [Bool.bne_false] at hmul
    exact ⟨_, r, m, e, m', e', hnumber, hzero, hw, hmul⟩

/-! ### The grammar -/

/-- What a text that ends in an `i` is read with is a binary suffix as a whole. -/
theorem Reading.ending_of_binary {cs number : List Char} {c : Char} (r : Reading cs)
    (h : cs = number ++ [c, 'i']) : r.number = number ∧ r.ending.1 = [c, 'i'] := by
  have htext := r.text_eq.symm.trans h
  have hlast : (r.number ++ r.ending.1).getLast? = some 'i' := by simp [htext]
  have htwo : r.ending.1.length = 2 := by
    rcases eq_or_ne r.ending.1 [] with hnil | hne
    · rw [hnil, List.append_nil] at hlast
      exact absurd (by decide) (unsuffixed_of_isNumber r.isNumber 'i' hlast)
    · rw [List.getLast?_append_of_ne_nil _ hne] at hlast
      have hlisted : (endings.map Prod.fst).all
          (fun text ↦ text.getLast? != some 'i' || text.length == 2) = true := by decide
      have htext := List.all_eq_true.1 hlisted _ (List.mem_map_of_mem r.listed)
      simpa [hlast] using htext
  exact List.append_inj' htext htwo

/-- Words for what is no finite number are refused, with any sign and any ending. -/
theorem parse_word {raw : String} {negative : Bool} {sign word : List Char}
    {ending : List Char × ℚ} (hsign : IsSign negative sign) (hword : IsWord word)
    (hending : ending ∈ endings) (h : trim raw.toList = sign ++ word ++ ending.1) :
    parse raw = .error (.invalid (.unboundedQuantity raw)) := by
  obtain ⟨w, hsplit, -⟩ := splitSuffix_append (unsuffixed_of_isWord sign hword) hending
  have hne : sign ++ word ++ ending.1 ≠ [] := by
    obtain ⟨c, rest, rfl, -⟩ := Decimal.exists_letter hword
    simp
  rw [parse, h]
  simp only [hne, if_false, hsplit]
  rcases Decimal.read?_word hsign hword with hread | hread <;> rw [hread] <;> rfl

/-- What a text is as a quantity. -/
structure FollowsGrammar (raw : String) : Prop where
  /-- It is accepted if it is a number and an ending, and the rounded number is finite and not
  below zero. -/
  accepted : (∃ value, parse raw = .ok value) ↔ ∃ r : Reading (trim raw.toList), r.Fits
  /-- Its value is the rounded product of the rounded number and the rounded factor. -/
  value : ∀ value, parse raw = .ok value ↔ ∃ r : Reading (trim raw.toList), r.Gives value
  /-- There is one way to read it at most. -/
  unique : ∀ r r' : Reading (trim raw.toList), r = r'
  /-- An `E` after a number is the suffix. -/
  exa : ∀ (negative : Bool) (x : ℚ) (number : List Char), IsNumber negative x number →
    trim raw.toList = number ++ ['E'] →
    ∃ r : Reading (trim raw.toList), r.number = number ∧ r.size = x ∧ r.ending = (['E'], 10 ^ 18)
  /-- An `E` before an integer is an exponent, whatever ending follows. -/
  exponent : ∀ (negative : Bool) (n k : ℕ) (e : ℤ) (sign mantissa integer : List Char)
    (ending : List Char × ℚ), IsSign negative sign → IsMantissa n k mantissa →
    IsInteger e integer → ending ∈ endings →
    trim raw.toList = sign ++ (mantissa ++ 'E' :: integer) ++ ending.1 →
    ∃ r : Reading (trim raw.toList), r.size = n * 10 ^ (e - k) ∧ r.ending = ending
  /-- An `i` at the end belongs to a suffix of two letters. -/
  binary : ∀ (number : List Char) (c : Char), trim raw.toList = number ++ [c, 'i'] →
    ∀ r : Reading (trim raw.toList), r.number = number ∧ r.ending.1 = [c, 'i']
  /-- A word for what is no finite number is refused, whatever ending follows. -/
  word : ∀ (negative : Bool) (sign word : List Char) (ending : List Char × ℚ),
    IsSign negative sign → IsWord word → ending ∈ endings →
    trim raw.toList = sign ++ word ++ ending.1 →
    parse raw = .error (.invalid (.unboundedQuantity raw))

/-- **What is accepted as a quantity is what the grammar says.** -/
theorem parse_follows (raw : String) : FollowsGrammar raw where
  accepted := exists_parse_eq_ok_iff
  value _ := parse_eq_ok_iff_gives
  unique := Reading.unique
  exa negative x number hnumber h :=
    ⟨⟨number, (['E'], 10 ^ 18), negative, x, h, hnumber, by simp [endings]⟩, rfl, rfl, rfl⟩
  exponent negative n k e sign mantissa integer ending hsign hm he hending h :=
    ⟨⟨_, ending, negative, _, h, .mk hsign hm (.some (.inr rfl) he), hending⟩, rfl, rfl⟩
  binary _ _ h r := r.ending_of_binary h
  word _ _ _ _ hsign hword hending h := parse_word hsign hword hending h

/-- A negative zero, an `E` of each kind, and a word with a suffix. -/
theorem parse_follows_of_samples :
    (∃ value, parse "-0" = .ok value) ∧
    (∃ r : Reading (trim " 1e1E".toList), r.number = ['1', 'e', '1'] ∧
      r.size = (1 : ℕ) * 10 ^ (1 - (0 : ℕ) : ℤ) ∧ r.ending = (['E'], 10 ^ 18)) ∧
    (∃ r : Reading (trim ".5E-1Ki".toList),
      r.size = (5 : ℕ) * 10 ^ (-1 - (1 : ℕ) : ℤ) ∧ r.ending = (['K', 'i'], 1024 ^ 1)) ∧
    parse "+NaNm" = .error (.invalid (.unboundedQuantity "+NaNm")) := by
  have hone : IsInteger 1 ['1'] := .mk (n := 1) .none ⟨0, by decide⟩
  have hminus : IsInteger (-1) ['-', '1'] := .mk (n := 1) .minus ⟨0, by decide⟩
  have hzero : IsNumber true 0 ['-', '0'] := by
    have hnumber := @IsNumber.mk true 0 0 0 _ ['0'] _ .minus (.whole ⟨0, by decide⟩) .none
    rwa [Nat.cast_zero, zero_mul] at hnumber
  refine ⟨?_, ?_, ?_, ?_⟩
  · exact (parse_follows "-0").accepted.2 ⟨⟨['-', '0'], ([], 1), true, 0, by decide, hzero,
      List.mem_cons_self⟩, 0, -1074, rounds_zero true le_rfl (two_zpow_pos _).le, fun _ ↦ rfl⟩
  · exact (parse_follows " 1e1E").exa false _ _ (@IsNumber.mk false 1 0 1 _ ['1'] _ .none
      (.whole ⟨0, by decide⟩) (.some (.inl rfl) hone)) (by decide)
  · exact (parse_follows ".5E-1Ki").exponent false 5 1 (-1) [] ['.', '5'] ['-', '1'] _ .none
      (@IsMantissa.pointed 5 [] ['5'] ⟨0, by decide⟩) hminus (by simp [endings])
      (by decide)
  · exact (parse_follows "+NaNm").word false ['+'] ['N', 'a', 'N'] (['m'], 1 / 1000) .plus
      (by simp [IsWord]) (by simp [endings]) (by decide)

end HollowFleet.Quantity
