import HollowFleet.Proofs.Watch.Relist

/-!
# What vanishes with a relist

When a list is complete, the filter reports as deleted what it knows and did not see, and
forgets it. `deleted_of_vanished` tells which objects those are, and which keys are left, from
what was known before the list began and from the list alone. An object that is listed but does
not concern the fleet does not save its key, nor does an earlier list that was broken off; and
what was reported as deleted before is dropped in silence.

That a key was dropped shows when an object is seen under it again. An empty slot stays empty
until then, whatever else is reported (`find?_run_of_unsighted`), so the object is news.

## What the main theorem rests on

* Whether a key is listed is told by what is sighted under it (`sightings_eq_nil_iff`). A listed key
  is filled when the list is complete, and passed over then (`initDone_of_listed`); any other one is
  as it was before the list began, and is dropped (`initDone_of_not_listed`).
* That each object is reported once, and nothing else with it, is read off the events key by key: a
  key is touched once by the completion, and reports its own object or nothing.
* For the next appearance, `find?_run_of_unsighted` is by induction on the reports until the object
  is seen. Nothing but a sight fills a slot (`Touch.effect_none`), and a deletion of what is not
  known leaves it empty.
-/

namespace HollowFleet.Watch

variable {κ : Type} [Watched κ]

/-- An object of a list concerns the fleet and has a key. -/
def Listed (k : String) (objects : List κ) : Prop :=
  ∃ object ∈ objects, Watched.relevant object = true ∧ key object = k

theorem sightings_eq_nil_iff {k : String} {objects : List κ} :
    sightings k objects = [] ↔ ¬ Listed k objects := by
  rw [sightings, List.filter_eq_nil_iff, Listed, not_exists]
  simp only [decide_eq_true_eq, not_and]

/-- None of some reports shows an object that concerns the fleet and has a key. -/
def Unsighted (k : String) (reports : List (Report κ)) : Prop :=
  ∀ object : κ, Watched.relevant object = true → key object = k →
    .apply object ∉ reports ∧ .initApply object ∉ reports

/-- What none of the reports shows, none of the later ones shows. -/
theorem Unsighted.tail {k : String} {r : Report κ} {rest : List (Report κ)}
    (h : Unsighted k (r :: rest)) : Unsighted k rest := by
  intro object hr hk
  obtain ⟨happly, hinit⟩ := h object hr hk
  exact ⟨fun hmem ↦ happly (List.mem_cons_of_mem _ hmem),
    fun hmem ↦ hinit (List.mem_cons_of_mem _ hmem)⟩

/-- A slot under which something was seen is filled. -/
theorem isSome_sight {objects : List κ} (h : objects ≠ []) (slot : Option (Known κ)) :
    (sight slot objects).1.isSome := by
  induction objects generalizing slot with
  | nil => exact absurd rfl h
  | cons object rest ih =>
    rcases eq_or_ne rest [] with rfl | hrest
    · rfl
    · exact ih hrest _

/-- Nothing but the sight of an object fills a slot. -/
theorem Touch.effect_none {t : Touch κ} (h : ∀ object, t ≠ .seen object) :
    (t.effect none).1 = none := by
  cases t with
  | pass => rfl
  | seen object => exact absurd rfl (h object)
  | gone object => rfl
  | unlisted => rfl

/-- Only what was there is reported as missing from a list. -/
theorem Touch.mem_effect_unlisted {slot : Option (Known κ)} {e : Event κ}
    (h : e ∈ (Touch.unlisted.effect slot).2) :
    ∃ known, slot = some known ∧ known.terminating = false ∧ e = ⟨.deleted, known.object⟩ := by
  simp only [effect, Option.mem_toList, Option.map_eq_some_iff, Option.filter_eq_some_iff] at h
  obtain ⟨known, ⟨hknown, hmark⟩, rfl⟩ := h
  exact ⟨known, hknown, by simpa using hmark, rfl⟩

namespace Filter

/-! ### The end of a list -/

/-- The key of a listed object is kept, and nothing is reported for it when the list is
complete. -/
theorem initDone_of_listed {f : Filter κ} (hf : f.Keyed) {objects : List κ} {k : String}
    (h : Listed k objects) :
    ((f.run (listing objects)).1.step .initDone).1.known.contains k = true ∧
      eventsOf k ((f.run (listing objects)).1.step .initDone).2 = [] := by
  have hsome : sightings k objects ≠ [] := fun hnone ↦ sightings_eq_nil_iff.1 hnone h
  obtain ⟨hslot, -⟩ := Prod.mk.inj (listing_at hf objects k)
  rw [Table.contains, find?_step, eventsOf_step (hf.run _), touch_initDone, if_neg hsome, hslot]
  exact ⟨isSome_sight hsome _, rfl⟩

/-- A key without a listed object is dropped, and its object is reported as deleted unless it
was before. -/
theorem initDone_of_not_listed {f : Filter κ} (hf : f.Keyed) {objects : List κ} {k : String}
    (h : ¬ Listed k objects) :
    ((f.run (listing objects)).1.step .initDone).1.known.find? k = none ∧
      eventsOf k ((f.run (listing objects)).1.step .initDone).2 =
        (Touch.unlisted.effect (f.known.find? k)).2 := by
  have hnone : sightings k objects = [] := sightings_eq_nil_iff.2 h
  obtain ⟨hslot, -⟩ := Prod.mk.inj (listing_at hf objects k)
  rw [find?_step, eventsOf_step (hf.run _), touch_initDone, if_pos hnone, hslot, hnone]
  exact ⟨rfl, rfl⟩

/-! ### Until an object is seen -/

/-- A report that does not show an object of the key is no sight to it. -/
theorem touch_ne_seen_of_unsighted {f : Filter κ} {k : String} {r : Report κ}
    {rest : List (Report κ)} (h : Unsighted k (r :: rest)) (object : κ) :
    f.touch k r ≠ .seen object := by
  intro ht
  obtain ⟨hreport, hr, hk⟩ := touch_eq_seen ht
  obtain ⟨happly, hinit⟩ := h object hr hk
  rcases hreport with rfl | rfl
  · exact happly List.mem_cons_self
  · exact hinit List.mem_cons_self

/-- An empty slot stays empty until an object is seen, by induction on the reports. -/
theorem find?_run_of_unsighted {f : Filter κ} {k : String} (hnone : f.known.find? k = none)
    {reports : List (Report κ)} (h : Unsighted k reports) :
    (f.run reports).1.known.find? k = none := by
  induction reports generalizing f with
  | nil => exact hnone
  | cons r rest ih =>
    refine ih ?_ h.tail
    rw [find?_step, hnone]
    exact Touch.effect_none (touch_ne_seen_of_unsighted h)

/-- The first object that is seen under a key is news, if it concerns the fleet. -/
theorem seen_of_unknown {f : Filter κ} {object : κ} (h : f.known.find? (key object) = none) :
    (f.seen object).2 =
      if Watched.relevant object then
        [⟨if Watched.terminating object then .deleted else .added, object⟩]
      else [] := by
  simp only [seen, h, classify]
  split <;> rfl

/-! ### The whole -/

/-- **A complete list deletes what it does not hold.** For each object that was known before the
list, was not reported as deleted and is not listed, the completion of the list reports one
deletion, and nothing else. What is known then are the keys of the listed objects that concern
the fleet; and the next object of a dropped key is reported as new, or as deleted if it is on
its way out. -/
theorem deleted_of_vanished (history : List (Report κ)) (objects : List κ) :
    let f := (({} : Filter κ).run history).1
    let done := (f.run (listing objects)).1.step .initDone
    (∀ k known, f.known.find? k = some known → known.terminating = false →
        ¬ Listed k objects → eventsOf k done.2 = [⟨.deleted, known.object⟩]) ∧
      (∀ e ∈ done.2, ∃ known, f.known.find? (key e.object) = some known ∧
        known.terminating = false ∧ ¬ Listed (key e.object) objects ∧
          e = ⟨.deleted, known.object⟩) ∧
      (∀ k, done.1.known.contains k = true ↔ Listed k objects) ∧
      ∀ k, f.known.contains k = true → ¬ Listed k objects →
        ∀ later, Unsighted k later → ∀ object, key object = k →
          ∀ r, r = .apply object ∨ r = .initApply object →
            ((done.1.run later).1.step r).2 =
              if Watched.relevant object then
                [⟨if Watched.terminating object then .deleted else .added, object⟩]
              else [] := by
  intro f done
  have hf : f.Keyed := keyed_empty.run history
  refine ⟨?_, ?_, ?_, ?_⟩
  · intro k known hknown hmark hunlisted
    show eventsOf k done.2 = _
    rw [(initDone_of_not_listed hf hunlisted).2, hknown, Touch.effect_unlisted_some, hmark]
    rfl
  · intro e he
    have hmem : e ∈ eventsOf (key e.object) done.2 :=
      List.mem_filter.2 ⟨he, decide_eq_true rfl⟩
    by_cases hlisted : Listed (key e.object) objects
    · rw [(initDone_of_listed hf hlisted).2] at hmem
      cases hmem
    · rw [(initDone_of_not_listed hf hlisted).2] at hmem
      obtain ⟨known, hknown, hmark, hevent⟩ := Touch.mem_effect_unlisted hmem
      exact ⟨known, hknown, hmark, hlisted, hevent⟩
  · intro k
    refine ⟨fun hcontains ↦ ?_, fun hlisted ↦ (initDone_of_listed hf hlisted).1⟩
    by_contra hunlisted
    rw [Table.contains, (initDone_of_not_listed hf hunlisted).1] at hcontains
    cases hcontains
  · rintro k - hunlisted later hlater object rfl r hr
    have hnone : (done.1.run later).1.known.find? (key object) = none :=
      find?_run_of_unsighted (initDone_of_not_listed hf hunlisted).1 hlater
    rcases hr with rfl | rfl
    · exact seen_of_unknown hnone
    · exact seen_of_unknown hnone

/-- A pod that only the list before this one showed, and whose successor is not bound yet, is
gone. -/
theorem deleted_of_vanished_of_unbound :
    let f := (({} : Filter Pod).run
      [.apply (webPod "first" "1" none), .init, .initApply (webPod "first" "1" none)]).1
    let done := (f.run (listing [{ webPod "second" "2" none with spec := none }])).1.step .initDone
    eventsOf (key (webPod "first" "1" none)) done.2 = [⟨.deleted, webPod "first" "1" none⟩] := by
  intro f done
  have h := deleted_of_vanished
    [.apply (webPod "first" "1" none), .init, .initApply (webPod "first" "1" none)]
    [{ webPod "second" "2" none with spec := none }]
  refine h.1 _ ⟨webPod "first" "1" none, false⟩ rfl rfl ?_
  rintro ⟨pod, hpod, hbound, -⟩
  obtain rfl := List.mem_singleton.1 hpod
  cases hbound

end Filter

end HollowFleet.Watch
