/-!
# Cutting a text

Cutting at the first or the last occurrence of a character, and cutting off a known ending.
The laws say that a cut loses exactly the character it cuts at, and which occurrence that
was.

For each way to cut there are two laws: there is nothing to cut exactly if the character or the
ending does not occur, and otherwise the parts are described up to equality. A caller goes by these
equivalences and never by the recursion. For an ending the second one is that the text is what
stands before it with the ending behind it (`stripEnding?_eq_some_iff`), so a cut is the inverse of
putting two parts together.
-/

namespace HollowFleet.Text

/-- The parts before and after the first `sep`. -/
def splitFirst? (sep : Char) : List Char → Option (List Char × List Char)
  | [] => none
  | c :: rest =>
    if c = sep then some ([], rest)
    else (splitFirst? sep rest).map fun parts ↦ (c :: parts.1, parts.2)

/-- The parts before and after the last `sep`. -/
def splitLast? (sep : Char) : List Char → Option (List Char × List Char)
  | [] => none
  | c :: rest =>
    match splitLast? sep rest with
    | some parts => some (c :: parts.1, parts.2)
    | none => if c = sep then some ([], rest) else none

/-- What stands before `ending`, if `cs` ends so. -/
def stripEnding? (ending cs : List Char) : Option (List Char) :=
  if ending.isSuffixOf cs then some (cs.take (cs.length - ending.length)) else none

theorem stripEnding?_eq_none_iff {ending cs : List Char} :
    stripEnding? ending cs = none ↔ ¬ ending <:+ cs := by
  rw [stripEnding?, ← List.isSuffixOf_iff_suffix]
  cases ending.isSuffixOf cs <;> simp

theorem stripEnding?_append (before ending : List Char) :
    stripEnding? ending (before ++ ending) = some before := by
  have hsuffix := List.isSuffixOf_iff_suffix.2 (List.suffix_append before ending)
  rw [stripEnding?, if_pos hsuffix, List.length_append, Nat.add_sub_cancel, List.take_left']
  rfl

theorem stripEnding?_eq_some_iff {ending cs before : List Char} :
    stripEnding? ending cs = some before ↔ cs = before ++ ending := by
  constructor
  · intro h
    by_cases hsuffix : ending <:+ cs
    · obtain ⟨before', rfl⟩ := hsuffix
      rw [stripEnding?_append, Option.some.injEq] at h
      rw [h]
    · rw [stripEnding?_eq_none_iff.2 hsuffix] at h
      cases h
  · rintro rfl
    exact stripEnding?_append before ending

theorem splitFirst?_eq_none_iff {sep : Char} {cs : List Char} :
    splitFirst? sep cs = none ↔ sep ∉ cs := by
  induction cs with
  | nil => simp [splitFirst?]
  | cons c rest ih =>
    by_cases h : c = sep
    · simp [splitFirst?, h]
    · simp [splitFirst?, h, ih, Ne.symm h]

theorem splitFirst?_eq_some_iff {sep : Char} {cs before after : List Char} :
    splitFirst? sep cs = some (before, after) ↔ cs = before ++ sep :: after ∧ sep ∉ before := by
  induction cs generalizing before with
  | nil => simp [splitFirst?]
  | cons c rest ih =>
    by_cases h : c = sep
    · subst h
      cases before with
      | nil => simp [splitFirst?, eq_comm]
      | cons b bs =>
        simp only [splitFirst?, if_true, Option.some.injEq, Prod.mk.injEq, List.cons_append,
          List.cons.injEq, List.mem_cons, not_or]
        refine ⟨fun hc ↦ absurd hc.1 (by simp), fun hc ↦ absurd hc.1.1 hc.2.1⟩
    · cases before with
      | nil => simp [splitFirst?, h]
      | cons b bs =>
        simp only [splitFirst?, h, if_false, Option.map_eq_some_iff, Prod.mk.injEq,
          List.cons.injEq, List.cons_append, List.mem_cons, not_or]
        constructor
        · rintro ⟨⟨b', a'⟩, hrest, ⟨rfl, rfl⟩, rfl⟩
          have := ih.1 hrest
          exact ⟨⟨rfl, this.1⟩, Ne.symm h, this.2⟩
        · rintro ⟨⟨rfl, hrest⟩, -, hbs⟩
          exact ⟨(bs, after), ih.2 ⟨hrest, hbs⟩, ⟨rfl, rfl⟩, rfl⟩

theorem splitLast?_eq_none_iff {sep : Char} {cs : List Char} :
    splitLast? sep cs = none ↔ sep ∉ cs := by
  induction cs with
  | nil => simp [splitLast?]
  | cons c rest ih =>
    cases hrest : splitLast? sep rest with
    | none =>
      have := ih.1 hrest
      by_cases h : c = sep
      · simp [splitLast?, hrest, h]
      · simp [splitLast?, hrest, h, this, Ne.symm h]
    | some parts =>
      have : sep ∈ rest := by
        refine Decidable.by_contra fun hn ↦ ?_
        simp [ih.2 hn] at hrest
      simp [splitLast?, hrest, this]

theorem splitLast?_append {sep : Char} {after : List Char} (h : sep ∉ after)
    (before : List Char) : splitLast? sep (before ++ sep :: after) = some (before, after) := by
  induction before with
  | nil => simp [splitLast?, splitLast?_eq_none_iff.2 h]
  | cons c rest ih => simp [splitLast?, ih]

theorem splitLast?_eq_some_iff {sep : Char} {cs before after : List Char} :
    splitLast? sep cs = some (before, after) ↔ cs = before ++ sep :: after ∧ sep ∉ after := by
  refine ⟨fun h ↦ ?_, fun ⟨hcs, hafter⟩ ↦ hcs ▸ splitLast?_append hafter before⟩
  induction cs generalizing before with
  | nil => cases h
  | cons c rest ih =>
    cases hrest : splitLast? sep rest with
    | none =>
      have hnone := splitLast?_eq_none_iff.1 hrest
      simp only [splitLast?, hrest, Option.ite_none_right_eq_some, Option.some.injEq,
        Prod.mk.injEq] at h
      obtain ⟨rfl, rfl, rfl⟩ := h
      exact ⟨rfl, hnone⟩
    | some parts =>
      simp only [splitLast?, hrest, Option.some.injEq, Prod.mk.injEq] at h
      obtain ⟨rfl, rfl⟩ := h
      obtain ⟨rfl, hafter⟩ := ih hrest
      exact ⟨rfl, hafter⟩

end HollowFleet.Text
