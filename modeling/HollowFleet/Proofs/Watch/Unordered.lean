import HollowFleet.Proofs.Watch.Relist

/-!
# Relists in any order

A cluster promises no order of a list, and a filter does not care: listed in any order, objects
with different keys leave the same objects known and yield the same events, only in another
order. That is said key by key, for a key sees of the list its own object alone
(`sightings_eq_of_perm`), and the events of all keys are all events (`perm_of_eventsOf`).

A list of exactly what is known tells nothing and changes nothing. Here it matters what a slot
may hold: an object that concerns the fleet, and one that is on its way out only if the slot is
marked (`Filter.Faithful`). Every step keeps that.

## What the main theorem rests on

* Two filters that hold the same in every slot are the same for all that follows, and two lists of
  events with the same events of every key are permutations of each other. So `relist_perm` comes
  down to one key and to `relist_at`, which is the same on both sides.
* That keys differ cannot be left out. Of two objects of one key in a list the later one stays, so
  their order is seen in the slot and in the events.
* `relist_objects_at` is what a list of what is known does to one key: its object is seen again in
  the same version (`effect_seen_known`), so a filled slot stays as it is with its mark, and an
  empty one is not touched, since nothing is listed under it.
-/

namespace HollowFleet.Watch

variable {κ : Type} [Watched κ]

/-- Lists of events that agree on every key agree up to their order. -/
theorem perm_of_eventsOf {first second : List (Event κ)}
    (h : ∀ k, eventsOf k first = eventsOf k second) : first.Perm second := by
  classical
  refine List.perm_iff_count.2 fun e ↦ ?_
  have hcount : ∀ events, (eventsOf (key e.object) events).count e = events.count e :=
    fun events ↦ List.count_filter (decide_eq_true rfl)
  rw [← hcount first, h, hcount second]

/-- Objects with different keys show the same to a key in any order. -/
theorem sightings_eq_of_perm {objects objects' : List κ} (hdistinct : (objects.map key).Nodup)
    (h : objects'.Perm objects) (k : String) : sightings k objects' = sightings k objects := by
  have hperm : (sightings k objects').Perm (sightings k objects) := h.filter _
  cases hsight : sightings k objects with
  | nil =>
    rw [hsight] at hperm
    exact List.perm_nil.1 hperm
  | cons object rest =>
    have hmem : object ∈ sightings k objects := hsight ▸ List.mem_cons_self
    obtain ⟨hobject, hseen⟩ := List.mem_filter.1 hmem
    obtain ⟨hr, rfl⟩ := of_decide_eq_true hseen
    -- the object is the only one of its key
    rw [sightings_eq_singleton hdistinct hobject hr] at hsight hperm
    rw [List.perm_singleton.1 hperm, hsight]

namespace Filter

/-! ### What a slot may hold -/

/-- What is known concerns the fleet, and what is on its way out is marked. -/
def Faithful (f : Filter κ) : Prop :=
  ∀ k known, f.known.find? k = some known →
    Watched.relevant known.object = true ∧
      (Watched.terminating known.object = true → known.terminating = true)

/-- Where nothing is known, there is nothing to hold against it. -/
theorem faithful_empty : ({} : Filter κ).Faithful := by
  intro k known h
  cases h

/-- What a slot may hold is kept by any reports, since only what is seen gets into slots. -/
theorem Faithful.run {f : Filter κ} (hf : f.Faithful) (reports : List (Report κ)) :
    (f.run reports).1.Faithful := by
  refine forall_known_run (fun object marked hr ↦ ⟨hr, fun hleaving ↦ ?_⟩) hf reports
  show (Watched.terminating object || marked) = true
  rw [hleaving, Bool.true_or]

/-- To see again what is known changes nothing and tells nothing. -/
theorem effect_seen_known {f : Filter κ} (hf : f.Faithful) {k : String} {known : Known κ}
    (h : f.known.find? k = some known) :
    (Touch.seen known.object).effect (some known) = (some known, []) := by
  obtain ⟨object, marked⟩ := known
  cases marked with
  | true => exact Touch.effect_seen_of_terminating rfl object
  | false =>
    have hstays : Watched.terminating object = false := by
      by_contra hleaving
      have hmark := (hf k _ h).2 (by simpa using hleaving)
      cases hmark
    exact Touch.effect_seen_same rfl hstays rfl

/-! ### Listing what is known -/

/-- The known objects. -/
def objects (f : Filter κ) : List κ := f.known.values.map Known.object

/-- The keys of the known objects are those of the table, each once. -/
theorem Keyed.map_key_objects {f : Filter κ} (hf : f.Keyed) :
    f.objects.map key = f.known.keys := by
  rw [objects, Table.values, Table.keys, List.map_map, List.map_map]
  refine List.map_congr_left fun e he ↦ ?_
  exact hf e.1 e.2 ((f.known.mem_entries_iff _ _).1 he)

/-- A key sees of the known objects the one in its slot. -/
theorem sightings_objects {f : Filter κ} (hkeyed : f.Keyed) (hf : f.Faithful) (k : String) :
    sightings k f.objects = ((f.known.find? k).map Known.object).toList := by
  have hrelevant : ∀ known ∈ f.known.values,
      decide (Watched.relevant known.object = true ∧ key known.object = k) =
        decide (key known.object = k) := by
    intro known hmem
    obtain ⟨k', hslot⟩ := f.known.mem_values_iff.1 hmem
    simp [(hf k' known hslot).1]
  rw [sightings, objects, List.filter_map]
  show (f.known.values.filter fun known ↦
    decide (Watched.relevant known.object = true ∧ key known.object = k)).map Known.object = _
  rw [List.filter_congr hrelevant, f.known.filter_values hkeyed, Option.toList_map]

/-- A relist of exactly what is known leaves every slot alone. -/
theorem relist_objects_at {f : Filter κ} (hkeyed : f.Keyed) (hf : f.Faithful) {listed : List κ}
    (h : listed.Perm f.objects) (k : String) :
    ((f.run (relist listed)).1.known.find? k, eventsOf k (f.run (relist listed)).2) =
      (f.known.find? k, []) := by
  have hdistinct : (f.objects.map key).Nodup := hkeyed.map_key_objects ▸ f.known.nodup_keys
  rw [relist_at hkeyed, sightings_eq_of_perm hdistinct h, sightings_objects hkeyed hf]
  rcases hslot : f.known.find? k with - | known
  · rfl
  · show sight (some known) [known.object] = (some known, [])
    rw [sight, effect_seen_known hf hslot]
    rfl

/-! ### The whole -/

/-- **The order of a relist does not matter, and a relist of what is known is silent.** Objects
with different keys, listed in any two orders, yield the same events up to their order and leave
the same known. The known objects, listed in any order, yield nothing and leave every slot as it
was, the mark included. -/
theorem relist_perm (history : List (Report κ)) :
    let f := (({} : Filter κ).run history).1
    (∀ listed listed' : List κ, (listed.map key).Nodup → listed'.Perm listed →
        (f.run (relist listed')).2.Perm (f.run (relist listed)).2 ∧
          ∀ k, (f.run (relist listed')).1.known.find? k =
            (f.run (relist listed)).1.known.find? k) ∧
      ∀ listed : List κ, listed.Perm f.objects →
        (f.run (relist listed)).2 = [] ∧
          ∀ k, (f.run (relist listed)).1.known.find? k = f.known.find? k := by
  intro f
  have hkeyed : f.Keyed := keyed_empty.run history
  have hfaithful : f.Faithful := faithful_empty.run history
  constructor
  · intro listed listed' hdistinct hperm
    have hsame : ∀ k, ((f.run (relist listed')).1.known.find? k,
        eventsOf k (f.run (relist listed')).2) = ((f.run (relist listed)).1.known.find? k,
          eventsOf k (f.run (relist listed)).2) := by
      intro k
      rw [relist_at hkeyed, relist_at hkeyed, sightings_eq_of_perm hdistinct hperm]
    exact ⟨perm_of_eventsOf fun k ↦ congrArg Prod.snd (hsame k),
      fun k ↦ congrArg Prod.fst (hsame k)⟩
  · intro listed hperm
    have hsilent := relist_objects_at hkeyed hfaithful hperm
    refine ⟨?_, fun k ↦ congrArg Prod.fst (hsilent k)⟩
    exact List.perm_nil.1 (perm_of_eventsOf fun k ↦ congrArg Prod.snd (hsilent k))

/-- With one slot marked and another one not known yet, in both orders and in silence. -/
theorem relist_perm_of_two :
    let api : Pod := { webPod "third" "1" none with metadata := { name := some "api" } }
    let f := (({} : Filter Pod).run webTold).1
    (f.run (relist [api, webPod "second" "3" none])).2.Perm
        (f.run (relist [webPod "second" "3" none, api])).2 ∧
      (f.run (relist [webPod "first" "2" (some ⟨0, false⟩)])).2 = [] := by
  intro api f
  have h := relist_perm webTold
  exact ⟨(h.1 [webPod "second" "3" none, api] [api, webPod "second" "3" none] (by decide)
      (List.Perm.swap _ _ _)).1,
    (h.2 [webPod "first" "2" (some ⟨0, false⟩)] (.refl _)).1⟩

end Filter

end HollowFleet.Watch
