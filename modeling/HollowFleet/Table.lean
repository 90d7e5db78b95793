/-!
# Tables

A table files values under names. Every name occurs at most once, and the entries keep the
order in which their names were first filed. The only view the rest of the library uses is
`Table.find?`; each operation is described by one equation through that view
(`find?_insert`, `find?_erase`, `find?_filter`), and `mem_keys_iff` ties the list of names
to it.

A table carries the proof that no name is filed twice. So the number of entries is the number of
names, and the value under a name is the value of its only entry. The facts behind the equations are
stated for lists of entries first (`Entries`), by induction on the list, since a list may have a
name twice on the way to a table that has not.

The order of the entries is there to make tables computable and comparable, and nothing should be
concluded from it: two tables with equal views may differ in it, and where names are visited in the
order of a table, the result is one for every order or is stated for this one.
-/

namespace HollowFleet

variable {α : Type}

/-! ### Entry lists -/

namespace Entries

/-- Files `value` under `key`: in the place of an earlier entry of that name, else at the
end. -/
def put (key : String) (value : α) : List (String × α) → List (String × α)
  | [] => [(key, value)]
  | (k, v) :: rest => if k = key then (key, value) :: rest else (k, v) :: put key value rest

theorem mem_keys_put {key k : String} {value : α} {entries : List (String × α)} :
    k ∈ (put key value entries).map Prod.fst ↔ k = key ∨ k ∈ entries.map Prod.fst := by
  induction entries with
  | nil => simp [put]
  | cons e rest ih =>
    obtain ⟨k₀, v₀⟩ := e
    by_cases h : k₀ = key
    · simp [put, h]
    · simp only [put, h, if_false, List.map_cons, List.mem_cons, ih]
      exact or_left_comm

theorem nodup_keys_put {key : String} {value : α} {entries : List (String × α)}
    (h : (entries.map Prod.fst).Nodup) : ((put key value entries).map Prod.fst).Nodup := by
  induction entries with
  | nil => simp [put]
  | cons e rest ih =>
    obtain ⟨k₀, v₀⟩ := e
    rw [List.map_cons, List.nodup_cons] at h
    by_cases hk : k₀ = key
    · subst hk
      simpa [put] using h
    · simp only [put, hk, if_false, List.map_cons, List.nodup_cons]
      refine ⟨fun hm ↦ ?_, ih h.2⟩
      rcases mem_keys_put.1 hm with he | he
      · exact hk he
      · exact h.1 he

theorem lookup_cons (k k₀ : String) (v₀ : α) (rest : List (String × α)) :
    ((k₀, v₀) :: rest).lookup k = if k = k₀ then some v₀ else rest.lookup k := by
  show (match k == k₀ with
    | true => some v₀
    | false => rest.lookup k) = _
  by_cases h : k = k₀
  · simp [h]
  · have hb : (k == k₀) = false := by simp [h]
    simp [h, hb]

theorem lookup_put (key k : String) (value : α) (entries : List (String × α)) :
    (put key value entries).lookup k = if k = key then some value else entries.lookup k := by
  induction entries with
  | nil => simp [put, lookup_cons]
  | cons e rest ih =>
    obtain ⟨k₀, v₀⟩ := e
    by_cases h₀ : k₀ = key
    · subst h₀
      by_cases h : k = k₀ <;> simp [put, lookup_cons, h]
    · by_cases h : k = k₀
      · subst h
        simp [put, h₀]
      · simp [put, lookup_cons, h₀, h, ih]

theorem lookup_filter (p : String → Bool) (k : String) (entries : List (String × α)) :
    (entries.filter fun e ↦ p e.1).lookup k = if p k then entries.lookup k else none := by
  induction entries with
  | nil => simp
  | cons e rest ih =>
    obtain ⟨k₀, v₀⟩ := e
    by_cases h : k = k₀
    · subst h
      by_cases hp : p k <;> simp [List.filter, hp, ih]
    · by_cases hp : p k₀ <;> simp [List.filter, lookup_cons, hp, h, ih]

theorem mem_keys_iff_lookup (k : String) (entries : List (String × α)) :
    k ∈ entries.map Prod.fst ↔ (entries.lookup k).isSome := by
  induction entries with
  | nil => simp
  | cons e rest ih =>
    obtain ⟨k₀, v₀⟩ := e
    by_cases h : k = k₀
    · simp [h]
    · simp only [List.map_cons, List.mem_cons, h, false_or, ih, lookup_cons, if_false]

end Entries

/-! ### Tables -/

/-- Values filed under names, each name once. -/
@[ext]
structure Table (α : Type) where
  /-- The entries, in the order in which their names were first filed. -/
  entries : List (String × α)
  /-- No name is filed twice. -/
  nodup_keys : (entries.map Prod.fst).Nodup

namespace Table

/-- The table without entries. -/
def empty : Table α := ⟨[], by simp⟩

instance : EmptyCollection (Table α) := ⟨empty⟩

instance : Inhabited (Table α) := ⟨empty⟩

instance [DecidableEq α] : DecidableEq (Table α) := fun s t ↦
  if h : s.entries = t.entries then isTrue (Table.ext h)
  else isFalse fun heq ↦ h (congrArg Table.entries heq)

/-- The value filed under `key`. -/
def find? (t : Table α) (key : String) : Option α := t.entries.lookup key

/-- Whether something is filed under `key`. -/
def contains (t : Table α) (key : String) : Bool := (t.find? key).isSome

/-- The names in use, in filing order. -/
def keys (t : Table α) : List String := t.entries.map Prod.fst

/-- The values, in filing order. -/
def values (t : Table α) : List α := t.entries.map Prod.snd

/-- The number of names in use. -/
def size (t : Table α) : Nat := t.entries.length

/-- Files `value` under `key`, in the place of what was filed there. -/
def insert (t : Table α) (key : String) (value : α) : Table α :=
  ⟨Entries.put key value t.entries, Entries.nodup_keys_put t.nodup_keys⟩

/-- Keeps the entries whose name passes `p`. -/
def filter (t : Table α) (p : String → Bool) : Table α :=
  ⟨t.entries.filter fun e ↦ p e.1,
    t.nodup_keys.sublist (List.filter_sublist.map Prod.fst)⟩

/-- Drops the entry of `key`, if there is one. -/
def erase (t : Table α) (key : String) : Table α := t.filter fun k ↦ decide (k ≠ key)

/-- Files the pairs one after the other, so that of two pairs of one name the later
counts. -/
def ofList (pairs : List (String × α)) : Table α :=
  pairs.foldl (fun t e ↦ t.insert e.1 e.2) empty

@[simp]
theorem find?_empty (k : String) : (empty : Table α).find? k = none := rfl

theorem find?_insert (t : Table α) (key k : String) (value : α) :
    (t.insert key value).find? k = if k = key then some value else t.find? k :=
  Entries.lookup_put key k value t.entries

@[simp]
theorem find?_insert_self (t : Table α) (key : String) (value : α) :
    (t.insert key value).find? key = some value := by
  simp [find?_insert]

theorem find?_filter (t : Table α) (p : String → Bool) (k : String) :
    (t.filter p).find? k = if p k then t.find? k else none :=
  Entries.lookup_filter p k t.entries

theorem find?_erase (t : Table α) (key k : String) :
    (t.erase key).find? k = if k = key then none else t.find? k := by
  rw [erase, find?_filter]
  by_cases h : k = key <;> simp [h]

@[simp]
theorem find?_erase_self (t : Table α) (key : String) : (t.erase key).find? key = none := by
  simp [find?_erase]

/-- A name is in use exactly when something is filed under it. -/
theorem mem_keys_iff (t : Table α) (k : String) : k ∈ t.keys ↔ (t.find? k).isSome :=
  Entries.mem_keys_iff_lookup k t.entries

end Table

end HollowFleet
