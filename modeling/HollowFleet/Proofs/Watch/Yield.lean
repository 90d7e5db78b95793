import HollowFleet.Proofs.Watch.History
import HollowFleet.Rehearsal.Feed
import Mathlib.Data.Seq.Defs

/-!
# What a watch yields

The items of a watch are reports and failures, and there may be no end of them. What they yield is
what a filter makes of the reports, one after the other (`Source.told_eq_run`); a failure yields
nothing and is not seen by the filter. The events of one report may come in any order, which matters
for complete lists only (`Arrangement.arrange_step`).

A source is a lazy list of items together with an order for each place, so that a watch without end
is a source like any other. All that is said of it is said of its first items, as many as one likes:
the filter after them (`filterAt`) and what they told (`told`). Each grows by one item at a time,
and what was told at some place is a prefix of what is told at any later one (`told_prefix`). In
this way a passage through a pipe can be compared with what the items yield without a word about the
pipe, and a watch that comes to an end tells no more from there on (`told_of_over`).

The order is a parameter because a filter takes what is gone from a table whose order means nothing.
Theorems about passages hold for every order; `told_eq_run` is the case of the order of the filter.
-/

namespace HollowFleet.Watch

open Rehearsal (Item)

variable {κ : Type}

/-- The report that an item is, unless it failed. -/
def report? : Item κ → Option (Report κ)
  | .report r => some r
  | .failure => none

/-- An order in which the events of one report come. -/
structure Arrangement (κ : Type) where
  /-- Puts the events in order. -/
  arrange : List (Event κ) → List (Event κ)
  /-- No event is lost or made up. -/
  perm : ∀ events, (arrange events).Perm events

/-- The items of a watch, which may come to an end or not, and for each the order of what it
yields. -/
structure Source (κ : Type) where
  /-- The items. -/
  items : Stream'.Seq (Item κ)
  /-- The orders. -/
  order : ℕ → Arrangement κ

section

variable [Watched κ]

/-- Only the completion of a list yields more than one event. -/
theorem Filter.length_step_le_one (f : Filter κ) {r : Report κ} (h : r ≠ .initDone) :
    (f.step r).2.length ≤ 1 := by
  have hseen : ∀ object, (f.seen object).2.length ≤ 1 := by
    intro object
    rw [seen]
    split
    · cases classify (f.known.find? (key object)) object <;> simp
    · exact Nat.zero_le 1
  have hone : ∀ (emitted : Bool) (event : Event κ),
      (if emitted then [event] else []).length ≤ 1 := by
    intro emitted event
    cases emitted with
    | false => exact Nat.zero_le 1
    | true => exact Nat.le_refl 1
  cases r with
  | init => exact Nat.zero_le 1
  | initApply object => exact hseen object
  | initDone => exact absurd rfl h
  | apply object => exact hseen object
  | delete object => exact hone _ _

/-- Of any other report at most one event comes, so there is nothing to arrange: only at the end of
a complete list can the order matter. -/
theorem Arrangement.arrange_step (order : Arrangement κ) (f : Filter κ) {r : Report κ}
    (h : r ≠ .initDone) : order.arrange (f.step r).2 = (f.step r).2 := by
  have hlength := f.length_step_le_one h
  have hperm := order.perm (f.step r).2
  cases hevents : (f.step r).2 with
  | nil =>
    rw [hevents] at hperm
    exact List.perm_nil.1 hperm
  | cons event rest =>
    rw [hevents, List.length_cons] at hlength
    obtain rfl : rest = [] := List.length_eq_zero_iff.1 (by omega)
    rw [hevents] at hperm
    exact List.perm_singleton.1 hperm

namespace Source

variable (w : Source κ)

/-- The report at a place, if there is one. -/
def reportAt? (n : ℕ) : Option (Report κ) := (w.items.get? n).bind report?

/-- The reports among the first items. -/
def reports (n : ℕ) : List (Report κ) := (List.range n).filterMap w.reportAt?

omit [Watched κ] in
theorem reports_succ (n : ℕ) :
    w.reports (n + 1) = w.reports n ++ (w.reportAt? n).toList := by
  rw [reports, List.range_succ, List.filterMap_append, reports]
  cases h : w.reportAt? n with
  | none => rw [List.filterMap_cons_none h, List.filterMap_nil, Option.toList_none]
  | some r => rw [List.filterMap_cons_some h, List.filterMap_nil, Option.toList_some]

/-- The filter after the first items. -/
def filterAt (n : ℕ) : Filter κ := (Filter.run {} (w.reports n)).1

/-- What an item yields. -/
def batch (n : ℕ) : List (Event κ) :=
  match w.reportAt? n with
  | some r => (w.order n).arrange ((w.filterAt n).step r).2
  | none => []

/-- What the first items yield, one after the other. -/
def told (n : ℕ) : List (Event κ) := (List.range n).flatMap w.batch

theorem told_succ (n : ℕ) : w.told (n + 1) = w.told n ++ w.batch n := by
  rw [told, List.range_succ, List.flatMap_append, List.flatMap_singleton, told]

theorem told_prefix {m n : ℕ} (h : m ≤ n) : w.told m <+: w.told n := by
  induction n, h using Nat.le_induction with
  | base => exact List.prefix_rfl
  | succ n _ ih =>
    rw [told_succ]
    exact ih.trans (List.prefix_append _ _)

/-- One more item is one more step of the filter, or none if it failed. -/
theorem filterAt_succ (n : ℕ) :
    w.filterAt (n + 1) = match w.reportAt? n with
      | some r => ((w.filterAt n).step r).1
      | none => w.filterAt n := by
  rw [filterAt, reports_succ]
  cases w.reportAt? n with
  | none => rw [Option.toList_none, List.append_nil, filterAt]
  | some r => rw [Option.toList_some, Filter.run_append, Filter.run_singleton, filterAt]

variable {w}

/-- Nothing comes after the end. -/
theorem told_of_over {m n : ℕ} (h : w.items.get? m = none) (hmn : m ≤ n) :
    w.told n = w.told m := by
  induction n, hmn using Nat.le_induction with
  | base => rfl
  | succ n hmn ih =>
    have hbatch : w.batch n = [] := by
      rw [batch, reportAt?, w.items.le_stable hmn h, Option.bind_none]
    rw [told_succ, hbatch, List.append_nil, ih]

/-- In the order of the filter, the items yield what the filter makes of their reports. -/
theorem told_eq_run (h : ∀ n events, (w.order n).arrange events = events) (n : ℕ) :
    w.told n = (Filter.run {} (w.reports n)).2 := by
  induction n with
  | zero => rfl
  | succ n ih =>
    rw [told_succ, batch, reports_succ, Filter.run_append, ih]
    cases w.reportAt? n with
    | none => rw [Option.toList_none, Filter.run]
    | some r =>
      show _ ++ (w.order n).arrange ((w.filterAt n).step r).2 = _
      rw [Option.toList_some, Filter.run_singleton, h, filterAt]

end Source

end

end HollowFleet.Watch
