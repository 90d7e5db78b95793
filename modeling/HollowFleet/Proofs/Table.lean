import HollowFleet.Table
import Mathlib.Algebra.GroupWithZero.Nat
import Mathlib.Data.List.Basic

/-!
# Entries and values of tables

The view of a table is `Table.find?`; here the lists behind it are tied to it. An entry is
filed exactly when it is found (`mem_entries_iff`), so a table whose values tell the name under
which they are filed has at most one value of a name (`filter_values`). A measure of the values
adds up to a total, which filing and dropping an entry change by the value that goes and the
value that comes (`total_insert`, `total_erase`).

All of this rests on one property of the lists: no name occurs twice in them, which every table
carries along. The lemmas on lists come first, by induction on the entries, and take that property
as a hypothesis where they need it; the lemmas on tables supply it.

The totals are stated as sums, with what goes on one side and what comes on the other, and not as
differences. Amounts are natural numbers, and a difference would need a proof that it does not go
below zero wherever it is used.
-/

namespace HollowFleet

variable {α : Type}

/-! ### Entry lists -/

namespace Entries

/-- Without repeated names, an entry is in the list exactly if it is the first of its name. -/
theorem mem_iff_lookup {entries : List (String × α)} (h : (entries.map Prod.fst).Nodup)
    (k : String) (v : α) : (k, v) ∈ entries ↔ entries.lookup k = some v := by
  induction entries with
  | nil => simp
  | cons e rest ih =>
    obtain ⟨k₀, v₀⟩ := e
    rw [List.map_cons, List.nodup_cons] at h
    rw [lookup_cons, List.mem_cons, ih h.2]
    by_cases hk : k = k₀
    · subst hk
      have hrest : rest.lookup k ≠ some v := by
        intro hv
        exact h.1 ((mem_keys_iff_lookup k rest).2 (by simp [hv]))
      simp [hrest, eq_comm]
    · simp [hk]

/-- The values that claim a name are those that are filed under it. -/
theorem filter_values {entries : List (String × α)} (h : (entries.map Prod.fst).Nodup)
    {name : α → String} (hname : ∀ e ∈ entries, name e.2 = e.1) (k : String) :
    (entries.map Prod.snd).filter (fun v ↦ decide (name v = k)) = (entries.lookup k).toList := by
  induction entries with
  | nil => rfl
  | cons e rest ih =>
    obtain ⟨k₀, v₀⟩ := e
    rw [List.map_cons, List.nodup_cons] at h
    have hv₀ : name v₀ = k₀ := hname (k₀, v₀) (by simp)
    have hrest := ih h.2 fun e he ↦ hname e (List.mem_cons_of_mem _ he)
    rw [List.map_cons, List.filter_cons, hrest, lookup_cons, hv₀]
    by_cases hk : k₀ = k
    · subst hk
      have hnone : rest.lookup k₀ = none := by
        rw [← Option.not_isSome_iff_eq_none, ← mem_keys_iff_lookup]
        exact h.1
      simp [hnone]
    · simp [hk, Ne.symm hk]

/-- Filing a value adds its measure and takes off that of the value which had the name before. -/
theorem sum_put (measure : α → ℕ) (key : String) (value : α) (entries : List (String × α)) :
    ((put key value entries).map fun e ↦ measure e.2).sum +
        ((entries.lookup key).map measure).getD 0 =
      (entries.map fun e ↦ measure e.2).sum + measure value := by
  induction entries with
  | nil => simp [put]
  | cons e rest ih =>
    obtain ⟨k₀, v₀⟩ := e
    by_cases hk : k₀ = key
    · subst hk
      simp only [put, if_true, lookup_cons, Option.map_some, Option.getD_some, List.map_cons,
        List.sum_cons]
      omega
    · simp only [put, hk, Ne.symm hk, if_false, lookup_cons, List.map_cons, List.sum_cons]
      omega

/-- Dropping a name takes off the measure of its value, if there is one. -/
theorem sum_filter_ne (measure : α → ℕ) {entries : List (String × α)}
    (h : (entries.map Prod.fst).Nodup) (key : String) :
    ((entries.filter fun e ↦ decide (e.1 ≠ key)).map fun e ↦ measure e.2).sum +
        ((entries.lookup key).map measure).getD 0 =
      (entries.map fun e ↦ measure e.2).sum := by
  induction entries with
  | nil => rfl
  | cons e rest ih =>
    obtain ⟨k₀, v₀⟩ := e
    rw [List.map_cons, List.nodup_cons] at h
    have hrest := ih h.2
    by_cases hk : k₀ = key
    · subst hk
      have hnone : rest.lookup k₀ = none := by
        rw [← Option.not_isSome_iff_eq_none, ← mem_keys_iff_lookup]
        exact h.1
      rw [hnone] at hrest
      simp only [List.filter_cons, ne_eq, not_true_eq_false, decide_false, lookup_cons,
        Option.map_none, Option.getD_none, Nat.add_zero, Option.map_some, Option.getD_some,
        List.map_cons, List.sum_cons, if_true, Bool.false_eq_true, if_false] at hrest ⊢
      omega
    · simp only [List.filter_cons, ne_eq, hk, not_false_eq_true, decide_true, lookup_cons,
        Ne.symm hk, List.map_cons, List.sum_cons, if_true, if_false] at hrest ⊢
      omega

end Entries

/-! ### Tables -/

namespace Table

/-- An entry is filed exactly when it is found. -/
theorem mem_entries_iff (t : Table α) (k : String) (v : α) :
    (k, v) ∈ t.entries ↔ t.find? k = some v :=
  Entries.mem_iff_lookup t.nodup_keys k v

/-- A value is in the table exactly if some name leads to it. -/
theorem mem_values_iff (t : Table α) {v : α} : v ∈ t.values ↔ ∃ k, t.find? k = some v := by
  simp only [values, List.mem_map, Prod.exists, mem_entries_iff, exists_eq_right]

/-- Where every value tells its own name, the values of a name are what is filed under it. -/
theorem filter_values (t : Table α) {name : α → String}
    (hname : ∀ k v, t.find? k = some v → name v = k) (k : String) :
    t.values.filter (fun v ↦ decide (name v = k)) = (t.find? k).toList :=
  Entries.filter_values t.nodup_keys (fun e he ↦ hname e.1 e.2 ((t.mem_entries_iff _ _).1 he)) k

/-- What the values add up to in some measure. -/
def total (t : Table α) (measure : α → ℕ) : ℕ := (t.entries.map fun e ↦ measure e.2).sum

@[simp]
theorem total_empty (measure : α → ℕ) : (∅ : Table α).total measure = 0 := rfl

theorem total_eq_zero_of_keys_eq_nil {t : Table α} (h : t.keys = []) (measure : α → ℕ) :
    t.total measure = 0 := by
  rw [total, List.map_eq_nil_iff.1 h]
  rfl

/-- A new value takes the place of the old one in the total. -/
theorem total_insert (t : Table α) (measure : α → ℕ) (key : String) (value : α) :
    (t.insert key value).total measure + ((t.find? key).map measure).getD 0 =
      t.total measure + measure value :=
  Entries.sum_put measure key value t.entries

/-- What is dropped is taken off the total. -/
theorem total_erase (t : Table α) (measure : α → ℕ) (key : String) :
    (t.erase key).total measure + ((t.find? key).map measure).getD 0 = t.total measure :=
  Entries.sum_filter_ne measure t.nodup_keys key

end Table

end HollowFleet
