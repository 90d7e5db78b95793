import HollowFleet.Proofs.Watch.Slot

/-!
# What a filter told

Whoever receives the events of a filter has a picture of each key: an object is there once it
was added or updated, until it is deleted (`Live`). The picture agrees with the filter: at every
moment the slot of a key shows an object exactly when the last event of the key says that there
is one, in the same version (`shown_eq_announced`).

* The agreement is carried by one fact about single slots, `Touch.announced_effect`: what a
  report changes in the slot it also announces.
* That nothing follows a deletion while the slot is filled rests on the flag of the slot alone,
  not on the events so far (`eventsOf_run_of_terminating`).

Each law in `known_iff_live` is a statement about one key, proved in the same two steps. What one
report does to a slot is by cases on what the report means to the key, and takes no induction. What
a run does follows by induction on the reports, since a key sees of a run what it sees of the first
report and then of the others (`eventsOf_run_cons`). The order of events (`Orderly`) is the one law
that mentions the past: an event must fit what was announced before it, and what was announced is
what the slot shows, so the slot is all that the induction has to carry.
-/

namespace HollowFleet.Watch

variable {κ : Type} [Watched κ]

/-- The last event says that the object is there. -/
def Live (events : List (Event κ)) : Prop :=
  ∃ e, events.getLast? = some e ∧ (e.op = .added ∨ e.op = .updated)

/-- The version of the object that is there according to the last event. -/
def announced (events : List (Event κ)) : Option (Option String) :=
  (events.getLast?.filter fun e ↦ decide (e.op ≠ .deleted)).map fun e ↦ version e.object

/-- The version of the object of a slot, unless its deletion was reported. -/
def shown (slot : Option (Known κ)) : Option (Option String) :=
  (slot.filter fun known ↦ !known.terminating).map fun known ↦ version known.object

/-- What is no deletion tells of an object that is there. -/
theorem Op.ne_deleted_iff (op : Op) : op ≠ .deleted ↔ op = .added ∨ op = .updated := by
  cases op <;> decide

theorem announced_eq_some_iff {events : List (Event κ)} {v : Option String} :
    announced events = some v ↔
      ∃ e, events.getLast? = some e ∧ (e.op = .added ∨ e.op = .updated) ∧
        version e.object = v := by
  simp only [announced, Option.map_eq_some_iff, Option.filter_eq_some_iff, decide_eq_true_eq,
    Op.ne_deleted_iff, and_assoc]

/-- An object is there if some version of it was announced and not taken back. -/
theorem live_iff (events : List (Event κ)) : Live events ↔ (announced events).isSome := by
  rw [Option.isSome_iff_exists]
  constructor
  · rintro ⟨e, he, hop⟩
    exact ⟨_, announced_eq_some_iff.2 ⟨e, he, hop, rfl⟩⟩
  · rintro ⟨v, hv⟩
    obtain ⟨e, he, hop, -⟩ := announced_eq_some_iff.1 hv
    exact ⟨e, he, hop⟩

instance (events : List (Event κ)) : Decidable (Live events) :=
  decidable_of_iff _ (live_iff events).symm

theorem shown_eq_some_iff {slot : Option (Known κ)} {v : Option String} :
    shown slot = some v ↔
      ∃ known, slot = some known ∧ known.terminating = false ∧ version known.object = v := by
  simp only [shown, Option.map_eq_some_iff, Option.filter_eq_some_iff, Bool.not_eq_true',
    and_assoc]

@[simp]
theorem announced_nil : announced ([] : List (Event κ)) = none := rfl

/-- One more event replaces whatever was announced before. -/
theorem announced_concat (events : List (Event κ)) (e : Event κ) :
    announced (events ++ [e]) = if e.op = .deleted then none else some (version e.object) := by
  by_cases h : e.op = .deleted <;> simp [announced, h, Option.filter]

@[simp]
theorem shown_none : shown (none : Option (Known κ)) = none := rfl

theorem shown_some (known : Known κ) :
    shown (some known) = if known.terminating then none else some (version known.object) := by
  cases h : known.terminating <;> simp [shown, h, Option.filter]

/-! ### One slot -/

/-- A deletion is read off the object that was seen. -/
theorem Filter.terminating_of_classify {slot : Option (Known κ)} {object : κ} {op : Op}
    (h : classify slot object = some op) (hop : op = .deleted) :
    Watched.terminating object = true := by
  subst hop
  cases ht : Watched.terminating object with
  | true => rfl
  | false =>
    rcases slot with - | known
    · simp [classify, ht] at h
    · cases hk : known.terminating <;> simp [classify, ht, hk] at h

namespace Touch

/-- A report changes in a slot what it announces, and nothing else. -/
theorem announced_effect (t : Touch κ) {slot : Option (Known κ)} {told : List (Event κ)}
    (h : announced told = shown slot) :
    announced (told ++ (t.effect slot).2) = shown (t.effect slot).1 := by
  cases t with
  | pass => simpa [effect] using h
  | seen object =>
    rcases slot with - | known
    · cases ht : Watched.terminating object <;>
        simp [effect_seen_none, ht, announced_concat, shown_some]
    cases hk : known.terminating with
    | true => simpa [effect_seen_of_terminating hk, shown_some, hk] using h
    | false =>
      cases ht : Watched.terminating object with
      | true => simp [effect_seen_terminating hk ht, announced_concat, shown_some]
      | false =>
        by_cases hv : version known.object = version object
        · -- the version stands for the object, so the slot shows what it showed before
          simpa [effect_seen_same hk ht hv, shown_some, hk, hv] using h
        · simp [effect_seen_changed hk ht hv, announced_concat, shown_some]
  | gone object =>
    rcases slot with - | known
    · cases hr : Watched.relevant object
      · simpa [effect_gone_none, hr] using h
      · simp [effect_gone_none, hr, announced_concat]
    · cases hk : known.terminating
      · simp [effect_gone_some, hk, announced_concat]
      · simpa [effect_gone_some, hk, shown_some] using h
  | unlisted =>
    rcases slot with - | known
    · simpa [effect_unlisted_none] using h
    · cases hk : known.terminating
      · simp [effect_unlisted_some, hk, announced_concat]
      · simpa [effect_unlisted_some, hk, shown_some] using h

/-- A report is at most one event for a key. -/
theorem effect_eq_nil_or_singleton (t : Touch κ) (slot : Option (Known κ)) :
    (t.effect slot).2 = [] ∨ ∃ e, (t.effect slot).2 = [e] := by
  cases t with
  | pass => exact .inl rfl
  | seen object =>
    cases h : Filter.classify slot object with
    | none => exact .inl (by simp [effect, h])
    | some op => exact .inr ⟨⟨op, object⟩, by simp [effect, h]⟩
  | gone object =>
    simp only [effect]
    split
    · exact .inr ⟨_, rfl⟩
    · exact .inl rfl
  | unlisted =>
    rcases slot with - | known
    · exact .inl rfl
    · rw [effect_unlisted_some]
      split
      · exact .inl rfl
      · exact .inr ⟨_, rfl⟩

/-- Only what was not there is added, and only a change of what is there is an update. -/
theorem shown_of_mem_effect {t : Touch κ} {slot : Option (Known κ)} {e : Event κ}
    (h : e ∈ (t.effect slot).2) :
    (e.op = .added → shown slot = none) ∧
      (e.op = .updated → ∃ v, shown slot = some v ∧ v ≠ version e.object) := by
  cases t with
  | pass => cases h
  | seen object =>
    rcases slot with - | known
    · rw [effect_seen_none, List.mem_singleton] at h
      subst h
      cases ht : Watched.terminating object <;> simp
    cases hk : known.terminating with
    | true => simp [effect_seen_of_terminating hk] at h
    | false =>
      cases ht : Watched.terminating object with
      | true =>
        rw [effect_seen_terminating hk ht, List.mem_singleton] at h
        simp [h]
      | false =>
        by_cases hv : version known.object = version object
        · simp [effect_seen_same hk ht hv] at h
        · rw [effect_seen_changed hk ht hv, List.mem_singleton] at h
          simpa [h, shown_some, hk] using hv
  | gone object =>
    simp only [effect, List.mem_ite_nil_right, List.mem_singleton] at h
    simp [h.2]
  | unlisted =>
    simp only [effect, Option.mem_toList, Option.map_eq_some_iff] at h
    obtain ⟨known, -, rfl⟩ := h
    simp

/-- While the slot stays filled, nothing is reported after the deletion, and the slot keeps
the mark of it. -/
theorem effect_of_terminating {t : Touch κ} {known : Known κ} (h : known.terminating = true)
    (hstay : (t.effect (some known)).1.isSome) :
    (t.effect (some known)).2 = [] ∧
      ∃ later, (t.effect (some known)).1 = some later ∧ later.terminating = true := by
  cases t with
  | pass => exact ⟨rfl, known, rfl, h⟩
  | seen object =>
    rw [effect_seen_of_terminating h]
    exact ⟨rfl, _, rfl, rfl⟩
  | gone object => simp [effect] at hstay
  | unlisted => simp [effect] at hstay

/-- A deletion that leaves the slot filled marks it. -/
theorem terminating_of_deleted {t : Touch κ} {slot : Option (Known κ)} {e : Event κ}
    (he : e ∈ (t.effect slot).2) (hop : e.op = .deleted) (hstay : (t.effect slot).1.isSome) :
    ∃ later, (t.effect slot).1 = some later ∧ later.terminating = true := by
  cases t with
  | pass => cases he
  | seen object =>
    refine ⟨_, rfl, ?_⟩
    simp only [effect, Option.mem_toList, Option.map_eq_some_iff] at he
    obtain ⟨op, hclass, rfl⟩ := he
    rw [Filter.terminating_of_classify hclass hop, Bool.true_or]
  | gone object => simp [effect] at hstay
  | unlisted => simp [effect] at hstay

end Touch

/-! ### Runs -/

namespace Filter

theorem run_cons (f : Filter κ) (r : Report κ) (rest : List (Report κ)) :
    f.run (r :: rest) =
      (((f.step r).1.run rest).1, (f.step r).2 ++ ((f.step r).1.run rest).2) := rfl

theorem run_singleton (f : Filter κ) (r : Report κ) : f.run [r] = f.step r := by
  rw [run_cons, run, List.append_nil]

/-- A key sees of a run what it sees of the first report, and then of the others. -/
theorem eventsOf_run_cons {f : Filter κ} (hf : f.Keyed) (r : Report κ)
    (rest : List (Report κ)) (k : String) :
    eventsOf k (f.run (r :: rest)).2 =
      ((f.touch k r).effect (f.known.find? k)).2 ++ eventsOf k ((f.step r).1.run rest).2 := by
  rw [run_cons, eventsOf_append, eventsOf_step hf]

/-- **A run keeps the picture.** If the slot of a key shows what was announced, it does so
after any reports. -/
theorem shown_eq_announced {f : Filter κ} (hf : f.Keyed) {k : String} {told : List (Event κ)}
    (h : announced told = shown (f.known.find? k)) (reports : List (Report κ)) :
    announced (told ++ eventsOf k (f.run reports).2) =
      shown ((f.run reports).1.known.find? k) := by
  induction reports generalizing f told with
  | nil => simpa [run] using h
  | cons r rest ih =>
    rw [eventsOf_run_cons hf, ← List.append_assoc]
    refine ih (hf.step r) ?_
    rw [find?_step]
    exact (f.touch k r).announced_effect h

/-- Every event of one key fits what was told before it: what is added was not there, and
what is updated was there in another version. -/
def Orderly (told : List (Event κ)) : Prop :=
  ∀ before e after, told = before ++ e :: after →
    (e.op = .added → announced before = none) ∧
      (e.op = .updated → ∃ v, announced before = some v ∧ v ≠ version e.object)

theorem orderly_nil : Orderly ([] : List (Event κ)) := by
  intro before e after h
  simp at h

/-- An order is kept by one more event if the event fits what was announced. -/
theorem Orderly.concat {told : List (Event κ)} (h : Orderly told) {e : Event κ}
    (he : (e.op = .added → announced told = none) ∧
      (e.op = .updated → ∃ v, announced told = some v ∧ v ≠ version e.object)) :
    Orderly (told ++ [e]) := by
  intro before e' after heq
  -- either `e'` is the new event, or it was told before
  rcases List.eq_nil_or_concat after with rfl | ⟨init, last, rfl⟩
  · obtain ⟨rfl, hlast⟩ := List.append_inj' heq rfl
    rw [List.singleton_inj] at hlast
    exact hlast ▸ he
  · rw [List.concat_eq_append, ← List.cons_append, ← List.append_assoc] at heq
    exact h before e' init (List.append_inj' heq rfl).1

/-- **A run keeps the order.** -/
theorem orderly_run {f : Filter κ} (hf : f.Keyed) {k : String} {told : List (Event κ)}
    (horder : Orderly told) (h : announced told = shown (f.known.find? k))
    (reports : List (Report κ)) : Orderly (told ++ eventsOf k (f.run reports).2) := by
  induction reports generalizing f told with
  | nil => simpa [run] using horder
  | cons r rest ih =>
    rw [eventsOf_run_cons hf, ← List.append_assoc]
    have hnext := (f.touch k r).announced_effect h
    rw [← find?_step] at hnext
    refine ih (hf.step r) ?_ hnext
    rcases (f.touch k r).effect_eq_nil_or_singleton (f.known.find? k) with hnil | ⟨e, he⟩
    · simpa [hnil] using horder
    · rw [he]
      refine horder.concat ?_
      rw [h]
      exact Touch.shown_of_mem_effect (by rw [he]; exact List.mem_singleton_self e)

/-! ### While a slot stays filled -/

/-- The slot of a key is filled after each of some reports. -/
def StaysKnown (f : Filter κ) (k : String) (reports : List (Report κ)) : Prop :=
  ∀ part, part <+: reports → part ≠ [] → (f.run part).1.known.contains k = true

/-- A slot that stays filled is filled after the first report. -/
theorem StaysKnown.head {f : Filter κ} {k : String} {r : Report κ} {rest : List (Report κ)}
    (h : f.StaysKnown k (r :: rest)) :
    ((f.touch k r).effect (f.known.find? k)).1.isSome := by
  rw [← find?_step]
  exact h [r] (by simp) (by simp)

theorem StaysKnown.tail {f : Filter κ} {k : String} {r : Report κ} {rest : List (Report κ)}
    (h : f.StaysKnown k (r :: rest)) : (f.step r).1.StaysKnown k rest := by
  intro part hpart hne
  exact h (r :: part) (List.cons_prefix_cons.2 ⟨rfl, hpart⟩) (by simp)

/-- Nothing is reported for a slot that is marked, as long as it stays filled. -/
theorem eventsOf_run_of_terminating {f : Filter κ} (hf : f.Keyed) {k : String}
    {known : Known κ} (hslot : f.known.find? k = some known) (hmark : known.terminating = true)
    {reports : List (Report κ)} (hstay : f.StaysKnown k reports) :
    eventsOf k (f.run reports).2 = [] := by
  induction reports generalizing f known with
  | nil => rfl
  | cons r rest ih =>
    have hhead := hstay.head
    rw [hslot] at hhead
    obtain ⟨hnone, later, hlater, hmark'⟩ := Touch.effect_of_terminating hmark hhead
    rw [eventsOf_run_cons hf, hslot, hnone, List.nil_append]
    exact ih (hf.step r) (by rw [find?_step, hslot, hlater]) hmark' hstay.tail

/-- **At most one deletion.** As long as the slot of a key stays filled, a deletion is the last
thing that is reported for the key. -/
theorem eq_nil_after_deleted {f : Filter κ} (hf : f.Keyed) {k : String}
    {reports : List (Report κ)} (hstay : f.StaysKnown k reports)
    {before after : List (Event κ)} {e : Event κ}
    (heq : eventsOf k (f.run reports).2 = before ++ e :: after) (hop : e.op = .deleted) :
    after = [] := by
  induction reports generalizing f before with
  | nil => simp [run] at heq
  | cons r rest ih =>
    rw [eventsOf_run_cons hf] at heq
    rcases (f.touch k r).effect_eq_nil_or_singleton (f.known.find? k) with hnil | ⟨e₀, he₀⟩
    · rw [hnil, List.nil_append] at heq
      exact ih (hf.step r) hstay.tail heq
    · rw [he₀, List.singleton_append] at heq
      -- the deletion is either the event of this report, which marks the slot, or a later one
      rcases before with - | ⟨b, before⟩
      · obtain ⟨rfl, hafter⟩ := List.cons.inj heq
        obtain ⟨later, hlater, hmark⟩ :=
          Touch.terminating_of_deleted (by rw [he₀]; exact List.mem_singleton_self e₀) hop
            hstay.head
        rw [← hafter]
        exact eventsOf_run_of_terminating (hf.step r) (by rw [find?_step, hlater]) hmark
          hstay.tail
      · exact ih (hf.step r) hstay.tail (List.cons.inj heq).2

/-! ### The two together -/

/-- After any reports, the slot of a key shows an object exactly when the last event of the
key says that there is one, in the same version. So what is added was not there, what is
updated was there in another version, and while the slot stays filled at most one deletion is
reported and nothing after it. -/
theorem known_iff_live (reports : List (Report κ)) (k : String) :
    let f := (({} : Filter κ).run reports).1
    let told := eventsOf k (({} : Filter κ).run reports).2
    ((∃ known, f.known.find? k = some known ∧ known.terminating = false) ↔ Live told) ∧
      (∀ known e, f.known.find? k = some known → known.terminating = false →
        told.getLast? = some e → version known.object = version e.object) ∧
      (∀ before e after, told = before ++ e :: after →
        (e.op = .added → ¬ Live before) ∧
          (e.op = .updated → ∃ last, before.getLast? = some last ∧
            (last.op = .added ∨ last.op = .updated) ∧
              version last.object ≠ version e.object)) ∧
      ∀ later, f.StaysKnown k later → ∀ before e after,
        eventsOf k (f.run later).2 = before ++ e :: after → e.op = .deleted → after = [] := by
  intro f told
  have hf : f.Keyed := keyed_empty.run reports
  have hpicture : announced told = shown (f.known.find? k) :=
    shown_eq_announced keyed_empty announced_nil reports
  have horder : Orderly told := orderly_run keyed_empty orderly_nil rfl reports
  refine ⟨?_, ?_, ?_, ?_⟩
  · rw [live_iff, hpicture, Option.isSome_iff_exists]
    simp only [shown_eq_some_iff]
    constructor
    · rintro ⟨known, hknown, hmark⟩
      exact ⟨_, known, hknown, hmark, rfl⟩
    · rintro ⟨-, known, hknown, hmark, -⟩
      exact ⟨known, hknown, hmark⟩
  · intro known e hknown hmark hlast
    have hshown : shown (f.known.find? k) = some (version known.object) :=
      shown_eq_some_iff.2 ⟨known, hknown, hmark, rfl⟩
    rw [← hpicture] at hshown
    obtain ⟨e', he', -, hversion⟩ := announced_eq_some_iff.1 hshown
    rw [hlast] at he'
    rw [← hversion, Option.some.inj he']
  · intro before e after heq
    obtain ⟨hadded, hupdated⟩ := horder before e after heq
    refine ⟨fun hop ↦ ?_, fun hop ↦ ?_⟩
    · rw [live_iff, hadded hop]
      simp
    · obtain ⟨v, hv, hne⟩ := hupdated hop
      obtain ⟨last, hlast, hlive, rfl⟩ := announced_eq_some_iff.1 hv
      exact ⟨last, hlast, hlive, hne⟩
  · intro later hstay before e after heq hop
    exact eq_nil_after_deleted hf hstay heq hop

end Filter

end HollowFleet.Watch
