import HollowFleet.Proofs.Watch.History

/-!
# Relists

A watch that lost its connection lists all objects anew. What such a relist does to a key is
said by `relist_at`: the listed objects of the key are seen in their order, and a key without
one is unlisted. Which keys those are is kept by the filter itself (`listed_run_listing`).

A pod that is bound and not on its way out ought to be there for the receiver once it was
listed. That is so exactly when its slot is not marked (`live_after_relist_iff`): the mark of a
reported deletion outlives the object that it was made for. When the final deletion of a pod
is missed and another pod of its name is listed, the new pod inherits the mark and nothing is
reported for it (`not_live_after_relist_of_recreated`).

## What the condition rests on

* `run_listing_at` is by induction on the list. A list that was broken off before it plays no part,
  since its keys are forgotten when a new one begins (`listing_at`).
* Where the keys of the list differ, one object at most is sighted under a key
  (`sightings_eq_singleton`), so a relist is to that key the sight of this object (`relist_at_key`).
* What the sight of an object makes of a slot depends on the mark and not on whose mark it is
  (`shown_effect_seen_isSome_iff`). This is the exact condition, and also why the uid of the new pod
  cannot help it.
* That the receiver knows what the slot shows is the agreement of the two along any reports
  (`Filter.shown_eq_announced`); so the condition is on the reports before the relist alone.
-/

namespace HollowFleet.Watch

variable {κ : Type} [Watched κ]

/-- The reports of a complete list and nothing else. -/
def relist (objects : List κ) : List (Report κ) :=
  .init :: (objects.map .initApply ++ [.initDone])

/-- The reports of a list that is not complete yet. -/
def listing (objects : List κ) : List (Report κ) := .init :: objects.map .initApply

/-- The objects of a list that concern the fleet and have a key. -/
def sightings (k : String) (objects : List κ) : List κ :=
  objects.filter fun object ↦ decide (Watched.relevant object = true ∧ key object = k)

/-- What becomes of a slot when objects of its key are seen, and what is reported. -/
def sight (slot : Option (Known κ)) : List κ → Option (Known κ) × List (Event κ)
  | [] => (slot, [])
  | object :: rest =>
    let first := (Touch.seen object).effect slot
    let others := sight first.1 rest
    (others.1, first.2 ++ others.2)

/-- Of objects with different keys, one at most is sighted under a key. -/
theorem sightings_eq_singleton {objects : List κ} (hdistinct : (objects.map key).Nodup)
    {object : κ} (hmem : object ∈ objects) (hr : Watched.relevant object = true) :
    sightings (key object) objects = [object] := by
  induction objects with
  | nil => cases hmem
  | cons first rest ih =>
    rw [List.map_cons, List.nodup_cons] at hdistinct
    rcases List.mem_cons.1 hmem with rfl | hrest
    · have hnone : sightings (key object) rest = [] := by
        refine List.filter_eq_nil_iff.2 fun other hother ↦ ?_
        have hne : key other ≠ key object := fun h ↦
          hdistinct.1 (h ▸ List.mem_map_of_mem hother)
        simp [hne]
      rw [sightings, List.filter_cons, ← sightings, hnone]
      simp [hr]
    · have hne : key first ≠ key object := fun h ↦
        hdistinct.1 (h ▸ List.mem_map_of_mem hrest)
      rw [sightings, List.filter_cons, ← sightings, ih hdistinct.2 hrest]
      simp [hne]

namespace Filter

/-! ### The list -/

/-- What listing some objects does to a key. -/
theorem run_listing_at {f : Filter κ} (hf : f.Keyed) (objects : List κ) (k : String) :
    ((f.run (objects.map .initApply)).1.known.find? k,
        eventsOf k (f.run (objects.map .initApply)).2) =
      sight (f.known.find? k) (sightings k objects) := by
  induction objects generalizing f with
  | nil => rfl
  | cons object rest ih =>
    have hrest := ih (hf.step (.initApply object))
    rw [find?_step] at hrest
    -- only an object that concerns the fleet and has the key touches the slot
    by_cases h : Watched.relevant object = true ∧ key object = k
    · have ht : f.touch k (.initApply object) = .seen object := if_pos h
      have hs : sightings k (object :: rest) = object :: sightings k rest := by
        rw [sightings, List.filter_cons_of_pos (by simpa using h), ← sightings]
      rw [ht] at hrest
      rw [List.map_cons, eventsOf_run_cons hf, ht, hs, sight, ← hrest, run]
    · have ht : f.touch k (.initApply object) = .pass := if_neg h
      have hs : sightings k (object :: rest) = sightings k rest := by
        rw [sightings, List.filter_cons_of_neg (by simpa using h), ← sightings]
      rw [ht] at hrest
      rw [List.map_cons, eventsOf_run_cons hf, ht, hs, run]
      exact hrest

/-- While a list goes on, the filter collects the keys of the objects that concern the
fleet. -/
theorem listed_run_listing {f : Filter κ} {keys : List String} (h : f.listed = some keys)
    (objects : List κ) :
    ∃ keys', (f.run (objects.map .initApply)).1.listed = some keys' ∧
      ∀ k, k ∈ keys' ↔ k ∈ keys ∨ sightings k objects ≠ [] := by
  induction objects generalizing f keys with
  | nil => exact ⟨keys, h, fun k ↦ by simp [sightings]⟩
  | cons object rest ih =>
    by_cases hr : Watched.relevant object = true
    · have hseen : (f.step (.initApply object)).1.listed = some (key object :: keys) := by
        simp [step, seen, hr, h]
      obtain ⟨keys', hlisted, hkeys⟩ := ih hseen
      refine ⟨keys', hlisted, fun k ↦ ?_⟩
      rw [hkeys, List.mem_cons]
      by_cases hk : key object = k
      · simp [sightings, hr, hk]
      · simp [sightings, hr, hk, Ne.symm hk]
    · have hpass : (f.step (.initApply object)).1.listed = some keys := by
        simpa [step, seen, hr] using h
      obtain ⟨keys', hlisted, hkeys⟩ := ih hpass
      refine ⟨keys', hlisted, fun k ↦ ?_⟩
      rw [hkeys]
      simp [sightings, hr]

/-! ### The whole relist -/

/-- What a list does to a key, an earlier list that was not completed playing no part. -/
theorem listing_at {f : Filter κ} (hf : f.Keyed) (objects : List κ) (k : String) :
    ((f.run (listing objects)).1.known.find? k, eventsOf k (f.run (listing objects)).2) =
      sight (f.known.find? k) (sightings k objects) :=
  run_listing_at (hf.step .init) objects k

/-- What it means to a key that the list is complete. -/
theorem touch_initDone (f : Filter κ) (objects : List κ) (k : String) :
    (f.run (listing objects)).1.touch k .initDone =
      if sightings k objects = [] then .unlisted else .pass := by
  obtain ⟨keys, hlisted, hkeys⟩ :=
    listed_run_listing (rfl : (f.step .init).1.listed = some []) objects
  have hlisted' : (f.run (listing objects)).1.listed = some keys := hlisted
  have hmem : k ∈ keys ↔ sightings k objects ≠ [] := by simp [hkeys]
  simp only [touch, hlisted', hmem, ne_eq, ite_not]

/-- A relist is its list and then the word that it is complete. -/
theorem run_relist (f : Filter κ) (objects : List κ) :
    f.run (relist objects) =
      (((f.run (listing objects)).1.step .initDone).1,
        (f.run (listing objects)).2 ++ ((f.run (listing objects)).1.step .initDone).2) := by
  rw [← run_singleton, ← run_append]
  rfl

/-- What a relist does to a key: the listed objects of the key are seen, and a key without
one is unlisted. -/
theorem relist_at {f : Filter κ} (hf : f.Keyed) (objects : List κ) (k : String) :
    ((f.run (relist objects)).1.known.find? k, eventsOf k (f.run (relist objects)).2) =
      if sightings k objects = [] then Touch.unlisted.effect (f.known.find? k)
      else sight (f.known.find? k) (sightings k objects) := by
  obtain ⟨hslot, hout⟩ := Prod.mk.inj (listing_at hf objects k)
  rw [run_relist, find?_step, eventsOf_append, eventsOf_step (hf.run _), touch_initDone, hslot,
    hout]
  split
  · next hnone =>
    rw [hnone]
    rfl
  · simp [Touch.effect]

/-- An object that concerns the fleet, listed with objects of other keys only, is seen once. -/
theorem relist_at_key {f : Filter κ} (hf : f.Keyed) {objects : List κ}
    (hdistinct : (objects.map key).Nodup) {object : κ} (hmem : object ∈ objects)
    (hr : Watched.relevant object = true) :
    ((f.run (relist objects)).1.known.find? (key object),
        eventsOf (key object) (f.run (relist objects)).2) =
      (Touch.seen object).effect (f.known.find? (key object)) := by
  rw [relist_at hf, sightings_eq_singleton hdistinct hmem hr, if_neg (List.cons_ne_nil _ _)]
  simp [sight]

/-! ### What a relist makes known -/

/-- The slot of an object that was seen and is not on its way out shows it, unless the slot
was marked. -/
theorem shown_effect_seen_isSome_iff {object : κ} (ht : Watched.terminating object = false)
    (slot : Option (Known κ)) :
    (shown ((Touch.seen object).effect slot).1).isSome ↔
      ∀ known, slot = some known → known.terminating = false := by
  rcases slot with - | known
  · simp [Touch.effect_seen_none, ht, shown_some]
  · cases hk : known.terminating <;> simp [Touch.effect, ht, hk, shown_some]

/-- **Relist completeness, with its exact condition.** A pod that is listed with pods of other
keys, is bound and is not on its way out is there for the receiver after the relist exactly
when its slot was not marked before it. For a marked slot the relist reports nothing. -/
theorem live_after_relist_iff (history : List (Report Pod)) (pods : List Pod)
    (hdistinct : (pods.map key).Nodup) (pod : Pod) (hmem : pod ∈ pods)
    (hbound : pod.node?.isSome = true) (hlasting : pod.metadata.deletionTimestamp = none) :
    let f := (({} : Filter Pod).run history).1
    (Live (eventsOf (key pod) (({} : Filter Pod).run (history ++ relist pods)).2) ↔
        ∀ known, f.known.find? (key pod) = some known → known.terminating = false) ∧
      ∀ known, f.known.find? (key pod) = some known → known.terminating = true →
        eventsOf (key pod) (f.run (relist pods)).2 = [] := by
  intro f
  have hf : f.Keyed := keyed_empty.run history
  have ht : Watched.terminating pod = false := by
    show pod.metadata.deletionTimestamp.isSome = false
    rw [hlasting]
    rfl
  have hrelist := relist_at_key hf hdistinct hmem hbound
  have hslot : (f.run (relist pods)).1.known.find? (key pod) =
      ((Touch.seen pod).effect (f.known.find? (key pod))).1 := congrArg Prod.fst hrelist
  have hout : eventsOf (key pod) (f.run (relist pods)).2 =
      ((Touch.seen pod).effect (f.known.find? (key pod))).2 := congrArg Prod.snd hrelist
  constructor
  · have hpicture : announced (eventsOf (key pod) (({} : Filter Pod).run
        (history ++ relist pods)).2) =
        shown ((({} : Filter Pod).run (history ++ relist pods)).1.known.find? (key pod)) :=
      shown_eq_announced keyed_empty announced_nil (history ++ relist pods)
    rw [live_iff, hpicture, run_append, hslot]
    exact shown_effect_seen_isSome_iff ht _
  · intro known hknown hmark
    rw [hout, hknown, Touch.effect_seen_of_terminating hmark]

/-! ### A pod of the name of another -/

/-- A bound pod named `web`, in one of its lives and versions. -/
def webPod (uid version : String) (deletionTimestamp : Option Timestamp) : Pod where
  metadata :=
    { name := some "web", space := some "default", uid := some uid
      resourceVersion := some version, deletionTimestamp }
  spec := some { nodeName := some "mock-node-0" }

/-- The first `web` was seen, and then that it was to be deleted. -/
def webTold : List (Report Pod) :=
  [.apply (webPod "first" "1" none), .apply (webPod "first" "2" (some ⟨0, false⟩))]

/-- Where the last report of the first `web` did arrive, its successor is there after a
relist. -/
theorem live_after_relist_of_final_delete :
    Live (eventsOf (key (webPod "second" "3" none)) (({} : Filter Pod).run
      ((webTold ++ [.delete (webPod "first" "2" (some ⟨0, false⟩))]) ++
        relist [webPod "second" "3" none])).2) := by
  have h := live_after_relist_iff
    (webTold ++ [.delete (webPod "first" "2" (some ⟨0, false⟩))]) [webPod "second" "3" none]
    (by simp) (webPod "second" "3" none) (by simp) rfl rfl
  refine h.1.2 fun known hknown ↦ ?_
  have hnone : (({} : Filter Pod).run
      (webTold ++ [.delete (webPod "first" "2" (some ⟨0, false⟩))])).1.known.find?
        (key (webPod "second" "3" none)) = none := by decide
  rw [hnone] at hknown
  cases hknown

/-- **A pod inherits the mark of its predecessor.** The first `web` went while nobody watched,
and the relist holds the second one; still the receiver is left with the deletion. -/
theorem not_live_after_relist_of_recreated :
    ¬ ∀ (history : List (Report Pod)) (pods : List Pod), (pods.map key).Nodup →
      ∀ pod ∈ pods, pod.node?.isSome = true → pod.metadata.deletionTimestamp = none →
        Live (eventsOf (key pod) (({} : Filter Pod).run (history ++ relist pods)).2) := by
  intro h
  have hlive := h webTold [webPod "second" "3" none] (by simp) (webPod "second" "3" none)
    (by simp) rfl rfl
  revert hlive
  decide

end Filter

end HollowFleet.Watch
