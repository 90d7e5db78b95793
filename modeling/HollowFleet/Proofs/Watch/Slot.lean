import HollowFleet.Proofs.Table
import HollowFleet.Watch.Filter

/-!
# Filters, key by key

A filter holds one slot for each key, and a report means something else to each of them:
`Filter.touch` is what it means to one key, and `Touch.effect` is what becomes of the slot and
what is reported for the key. A step of a filter is that at every key at once (`find?_step`,
`eventsOf_step`), so nothing that is said about single keys has to look into a step again.

The events of a key are picked out by the key of their object. That they are those of the slot
rests on objects being filed under their own keys (`Filter.Keyed`), which every step keeps.

A key is touched in one of four ways: it is passed over, its object is seen or gone, or it is
missing from a list that is complete. The slot is in one of three states: it is empty, its object
is there, or its object was reported as deleted. There is a lemma on `Touch.effect` for each pair
that matters, and are what all later case splits end in.

Only the completion of a list touches several keys at once. There the reports for the keys that are
gone come in some order, from a table, and `eventsOf_complete` picks out of them the one for the
key at hand; it is the only place where the order of a table could have mattered.
-/

namespace HollowFleet.Watch

variable {κ : Type} [Watched κ]

/-- The version of an object. -/
def version (object : κ) : Option String := (Watched.metadata object).resourceVersion

/-! ### Events of a key -/

/-- The events of a key, in order. -/
def eventsOf (k : String) (events : List (Event κ)) : List (Event κ) :=
  events.filter fun e ↦ decide (key e.object = k)

@[simp]
theorem eventsOf_nil (k : String) : eventsOf k ([] : List (Event κ)) = [] := rfl

theorem eventsOf_cons (k : String) (e : Event κ) (events : List (Event κ)) :
    eventsOf k (e :: events) =
      if key e.object = k then e :: eventsOf k events else eventsOf k events := by
  simp only [eventsOf, List.filter_cons, decide_eq_true_eq]

@[simp]
theorem eventsOf_append (k : String) (first second : List (Event κ)) :
    eventsOf k (first ++ second) = eventsOf k first ++ eventsOf k second :=
  List.filter_append _ _

/-- All events of one object are events of its key, and of no other. -/
theorem eventsOf_of_forall {k k' : String} {events : List (Event κ)}
    (h : ∀ e ∈ events, key e.object = k') :
    eventsOf k events = if k' = k then events else [] := by
  split
  · next heq => exact List.filter_eq_self.2 fun e he ↦ by simp [h e he, heq]
  · next hne => exact List.filter_eq_nil_iff.2 fun e he ↦ by simp [h e he, hne]

/-! ### Slots -/

/-- What a report means to one key. -/
inductive Touch (κ : Type) where
  /-- Nothing. -/
  | pass
  /-- An object of the key was seen. -/
  | seen (object : κ)
  /-- The object of the key is gone. -/
  | gone (object : κ)
  /-- A list is complete, and the key was not in it. -/
  | unlisted

namespace Touch

/-- What becomes of the slot of a key, and what is reported for the key. -/
def effect (slot : Option (Known κ)) : Touch κ → Option (Known κ) × List (Event κ)
  | pass => (slot, [])
  | seen object =>
    (some ⟨object,
        Watched.terminating object || (slot.map Known.terminating).getD false⟩,
      ((Filter.classify slot object).map fun op ↦ ⟨op, object⟩).toList)
  | gone object =>
    (none,
      if (slot.map fun known ↦ !known.terminating).getD (Watched.relevant object) then
        [⟨.deleted, object⟩]
      else [])
  | unlisted =>
    (none,
      ((slot.filter fun known ↦ !known.terminating).map fun known ↦
        ⟨.deleted, known.object⟩).toList)

/-! What each touch does to an empty slot, to one whose object is there, and to one whose
object was reported as deleted. -/

/-- An object that was not known is added, or deleted at once if it is on its way out. -/
theorem effect_seen_none (object : κ) :
    (seen object).effect none =
      (some ⟨object, Watched.terminating object⟩,
        [⟨if Watched.terminating object then .deleted else .added, object⟩]) := by
  simp [effect, Filter.classify]

theorem effect_seen_of_terminating {known : Known κ} (h : known.terminating = true)
    (object : κ) : (seen object).effect (some known) = (some ⟨object, true⟩, []) := by
  simp [effect, Filter.classify, h]

theorem effect_seen_terminating {known : Known κ} (h : known.terminating = false)
    {object : κ} (ht : Watched.terminating object = true) :
    (seen object).effect (some known) = (some ⟨object, true⟩, [⟨.deleted, object⟩]) := by
  simp [effect, Filter.classify, h, ht]

/-- The same version again is not news, but the object that was just seen takes the place of the
other. -/
theorem effect_seen_same {known : Known κ} (h : known.terminating = false)
    {object : κ} (ht : Watched.terminating object = false)
    (hv : version known.object = version object) :
    (seen object).effect (some known) = (some ⟨object, false⟩, []) := by
  have hv' : (Watched.metadata known.object).resourceVersion =
      (Watched.metadata object).resourceVersion := hv
  simp [effect, Filter.classify, h, ht, hv']

theorem effect_seen_changed {known : Known κ} (h : known.terminating = false)
    {object : κ} (ht : Watched.terminating object = false)
    (hv : version known.object ≠ version object) :
    (seen object).effect (some known) = (some ⟨object, false⟩, [⟨.updated, object⟩]) := by
  have hv' : (Watched.metadata known.object).resourceVersion ≠
      (Watched.metadata object).resourceVersion := hv
  simp [effect, Filter.classify, h, ht, hv']

/-- What goes without having been known is reported if it concerns the fleet. -/
theorem effect_gone_none (object : κ) :
    (gone object).effect none =
      (none, if Watched.relevant object then [⟨.deleted, object⟩] else []) := rfl

theorem effect_gone_some (object : κ) (known : Known κ) :
    (gone object).effect (some known) =
      (none, if known.terminating then [] else [⟨.deleted, object⟩]) := by
  cases h : known.terminating <;> simp [effect, h]

theorem effect_unlisted_none : (unlisted : Touch κ).effect none = (none, []) := rfl

/-- What is missing from a list is reported with the object as it was last known. -/
theorem effect_unlisted_some (known : Known κ) :
    unlisted.effect (some known) =
      (none, if known.terminating then [] else [⟨.deleted, known.object⟩]) := by
  cases h : known.terminating <;> simp [effect, h, Option.filter]

end Touch

namespace Filter

/-- What a report means to a key. -/
def touch (f : Filter κ) (k : String) : Report κ → Touch κ
  | .init => .pass
  | .initApply object | .apply object =>
    if Watched.relevant object = true ∧ key object = k then .seen object else .pass
  | .initDone =>
    match f.listed with
    | some keys => if k ∈ keys then .pass else .unlisted
    | none => .pass
  | .delete object => if key object = k then .gone object else .pass

/-- Every object is known under its own key. -/
def Keyed (f : Filter κ) : Prop :=
  ∀ k known, f.known.find? k = some known → key known.object = k

/-- Where nothing is known, nothing is under a wrong key. -/
theorem keyed_empty : ({} : Filter κ).Keyed := by
  intro k known h
  cases h

/-! ### A step at a key -/

/-- What the sight of an object leaves in the slot of a key, be it its own or another one. -/
theorem find?_seen (f : Filter κ) (object : κ) (k : String) :
    (f.seen object).1.known.find? k =
      ((f.touch k (.apply object)).effect (f.known.find? k)).1 := by
  by_cases hr : Watched.relevant object = true
  · by_cases hk : key object = k
    · subst hk
      simp [seen, touch, Touch.effect, hr]
    · simp [seen, touch, Touch.effect, hr, hk, Table.find?_insert, Ne.symm hk]
  · simp [seen, touch, Touch.effect, hr]

/-- What the sight of an object reports for a key, which is nothing for another one. -/
theorem eventsOf_seen (f : Filter κ) (object : κ) (k : String) :
    eventsOf k (f.seen object).2 =
      ((f.touch k (.apply object)).effect (f.known.find? k)).2 := by
  by_cases hr : Watched.relevant object = true
  · have hall : ∀ e ∈ (f.seen object).2, key e.object = key object := by
      intro e he
      simp only [seen, hr, if_true, Option.mem_toList, Option.map_eq_some_iff] at he
      obtain ⟨op, -, rfl⟩ := he
      rfl
    rw [eventsOf_of_forall hall]
    by_cases hk : key object = k
    · subst hk
      simp [seen, touch, Touch.effect, hr]
    · simp [touch, Touch.effect, hk]
  · simp [seen, touch, Touch.effect, hr]

theorem find?_gone (f : Filter κ) (object : κ) (k : String) :
    (f.gone object).1.known.find? k =
      ((f.touch k (.delete object)).effect (f.known.find? k)).1 := by
  by_cases hk : key object = k
  · subst hk
    simp [gone, touch, Touch.effect]
  · simp [gone, touch, Touch.effect, hk, Table.find?_erase, Ne.symm hk]

theorem eventsOf_gone (f : Filter κ) (object : κ) (k : String) :
    eventsOf k (f.gone object).2 =
      ((f.touch k (.delete object)).effect (f.known.find? k)).2 := by
  have hall : ∀ e ∈ (f.gone object).2, key e.object = key object := by
    intro e he
    simp only [gone, List.mem_ite_nil_right, List.mem_singleton] at he
    rw [he.2]
  rw [eventsOf_of_forall hall]
  by_cases hk : key object = k
  · subst hk
    cases hslot : f.known.find? (key object) <;> simp [gone, touch, Touch.effect, hslot]
  · simp [touch, Touch.effect, hk]

theorem find?_complete (f : Filter κ) (k : String) :
    f.complete.1.known.find? k = ((f.touch k .initDone).effect (f.known.find? k)).1 := by
  cases hl : f.listed with
  | none => simp [complete, touch, Touch.effect, hl]
  | some keys =>
    by_cases hk : k ∈ keys <;> simp [complete, touch, Touch.effect, hl, hk, Table.find?_filter]

/-- Of what is gone after a list, the events of a key are that of its slot: the objects are
filed under their own keys, so no other slot reports for the key. -/
theorem eventsOf_complete {f : Filter κ} (hf : f.Keyed) (k : String) :
    eventsOf k f.complete.2 = ((f.touch k .initDone).effect (f.known.find? k)).2 := by
  cases hl : f.listed with
  | none => simp [complete, touch, Touch.effect, hl]
  | some keys =>
    have hkeyed : ∀ k' known, (f.known.filter fun k ↦ !keys.contains k).find? k' = some known →
        key known.object = k' := by
      intro k' known h
      rw [Table.find?_filter] at h
      split at h
      · exact hf k' known h
      · cases h
    -- picking the events of the key commutes with leaving out what was reported before
    have hvalues := Table.filter_values _ hkeyed k
    simp only [complete, hl, eventsOf, List.filter_map, Function.comp_def]
    rw [List.filter_comm, hvalues, Table.find?_filter]
    by_cases hk : k ∈ keys
    · simp [touch, Touch.effect, hl, hk]
    · cases hslot : f.known.find? k with
      | none => simp [touch, Touch.effect, hl, hk]
      | some known =>
        cases ht : known.terminating <;> simp [touch, Touch.effect, hl, hk, ht, Option.filter]

/-- What a step leaves in the slot of a key. -/
theorem find?_step (f : Filter κ) (r : Report κ) (k : String) :
    (f.step r).1.known.find? k = ((f.touch k r).effect (f.known.find? k)).1 := by
  cases r with
  | init => rfl
  | initApply object => exact f.find?_seen object k
  | initDone => exact f.find?_complete k
  | apply object => exact f.find?_seen object k
  | delete object => exact f.find?_gone object k

/-- What a step reports for a key. -/
theorem eventsOf_step {f : Filter κ} (hf : f.Keyed) (r : Report κ) (k : String) :
    eventsOf k (f.step r).2 = ((f.touch k r).effect (f.known.find? k)).2 := by
  cases r with
  | init => rfl
  | initApply object => exact f.eventsOf_seen object k
  | initDone => exact eventsOf_complete hf k
  | apply object => exact f.eventsOf_seen object k
  | delete object => exact f.eventsOf_gone object k

/-- A key is touched by the sight of an object only where a report shows one that concerns the
fleet. -/
theorem touch_eq_seen {f : Filter κ} {k : String} {r : Report κ} {object : κ}
    (h : f.touch k r = .seen object) :
    (r = .apply object ∨ r = .initApply object) ∧
      Watched.relevant object = true ∧ key object = k := by
  cases r with
  | init => cases h
  | initApply seen | apply seen =>
    simp only [touch] at h
    split at h
    · next hc =>
      obtain rfl := Touch.seen.inj h
      exact ⟨by simp, hc⟩
    · cases h
  | initDone =>
    simp only [touch] at h
    repeat' split at h
    all_goals cases h
  | delete gone =>
    simp only [touch] at h
    split at h <;> cases h

/-- What holds of everything that is known, and of every object that is seen, holds after a
step. -/
theorem forall_known_step {P : String → Known κ → Prop}
    (hseen : ∀ object marked, Watched.relevant object = true →
      P (key object) ⟨object, Watched.terminating object || marked⟩)
    {f : Filter κ} (hf : ∀ k known, f.known.find? k = some known → P k known) (r : Report κ)
    (k : String) (known : Known κ) (h : (f.step r).1.known.find? k = some known) : P k known := by
  rw [find?_step] at h
  cases ht : f.touch k r with
  | pass =>
    rw [ht] at h
    exact hf k known h
  | seen object =>
    obtain ⟨-, hr, rfl⟩ := touch_eq_seen ht
    rw [ht] at h
    exact Option.some.inj h ▸ hseen object _ hr
  | gone object =>
    rw [ht] at h
    cases h
  | unlisted =>
    rw [ht] at h
    cases h

/-- What holds of every known object at first, and of every object that is seen, holds of the known
objects after any reports. -/
theorem forall_known_run {P : String → Known κ → Prop}
    (hseen : ∀ object marked, Watched.relevant object = true →
      P (key object) ⟨object, Watched.terminating object || marked⟩)
    {f : Filter κ} (hf : ∀ k known, f.known.find? k = some known → P k known)
    (reports : List (Report κ)) :
    ∀ k known, (f.run reports).1.known.find? k = some known → P k known := by
  induction reports generalizing f with
  | nil => exact hf
  | cons r rest ih => exact ih (forall_known_step hseen hf r)

/-- A step keeps objects under their own keys. -/
theorem Keyed.step {f : Filter κ} (hf : f.Keyed) (r : Report κ) : (f.step r).1.Keyed :=
  forall_known_step (fun _ _ _ ↦ rfl) hf r

theorem Keyed.run {f : Filter κ} (hf : f.Keyed) (reports : List (Report κ)) :
    (f.run reports).1.Keyed :=
  forall_known_run (fun _ _ _ ↦ rfl) hf reports

end Filter

end HollowFleet.Watch
