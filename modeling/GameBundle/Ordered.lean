set_option autoImplicit false

/-! # Maps that remember the order of their keys

Declaration order is meaningful in a project: it fixes the number of every script, map and entity
type. An `Ordered α` is a finite map from names to `α` that lists its entries in the order in which
their keys were first put. Putting a key again replaces its value and keeps its place.

`find?_put` and `keys_put` say all that later modules need to know about `put`. -/

namespace GameBundle

variable {κ α β : Type} [DecidableEq κ]

/-! ## Entry lists -/

/-- Replace the value of `key` where it stands, or add the entry at the end. -/
def putEntry (key : κ) (value : α) : List (κ × α) → List (κ × α)
  | [] => [(key, value)]
  | (k, v) :: rest =>
    if k = key then (key, value) :: rest else (k, v) :: putEntry key value rest

theorem keys_putEntry (key : κ) (value : α) (entries : List (κ × α)) :
    (putEntry key value entries).map Prod.fst =
      if key ∈ entries.map Prod.fst then entries.map Prod.fst
      else entries.map Prod.fst ++ [key] := by
  induction entries with
  | nil => simp [putEntry]
  | cons e rest ih =>
    obtain ⟨k, v⟩ := e
    by_cases h : k = key
    · simp [putEntry, h]
    · have h' : key ≠ k := fun e => h e.symm
      simp only [putEntry, h, if_false, List.map_cons, ih, List.mem_cons, h', false_or]
      split <;> simp

theorem lookup_putEntry (key : κ) (value : α) (entries : List (κ × α)) (k : κ) :
    (putEntry key value entries).lookup k = if k = key then some value else entries.lookup k := by
  induction entries with
  | nil => by_cases h : k = key <;> simp [putEntry, List.lookup_cons, h, beq_eq_false_iff_ne.2]
  | cons e rest ih =>
    obtain ⟨k', v'⟩ := e
    by_cases hk : k = k'
    · subst hk
      by_cases h : k = key <;> simp [putEntry, h]
    · have hb : (k == k') = false := by simp [hk]
      by_cases h : k' = key
      · subst h
        simp [putEntry, List.lookup_cons, hb, hk]
      · simp [putEntry, h, List.lookup_cons, hb, ih]

theorem mem_of_lookup {key : κ} {value : α} {entries : List (κ × α)}
    (h : entries.lookup key = some value) : (key, value) ∈ entries := by
  obtain ⟨before, after, heq, -⟩ := List.lookup_eq_some_iff.1 h
  simp [heq]

theorem putEntry_of_lookup_eq_none {key : κ} {entries : List (κ × α)} (value : α)
    (h : entries.lookup key = none) : putEntry key value entries = entries ++ [(key, value)] := by
  induction entries with
  | nil => rfl
  | cons e rest ih =>
    obtain ⟨k, v⟩ := e
    rw [List.lookup_eq_none_iff] at h
    have hne : k ≠ key := by
      rintro rfl
      simpa using h _ List.mem_cons_self
    rw [putEntry, if_neg hne, List.cons_append, ih]
    exact List.lookup_eq_none_iff.2 fun p hp => h p (List.mem_cons_of_mem _ hp)

/-! ## The map -/

/-- A finite map from names that lists its entries in the order of first insertion. -/
structure Ordered (α : Type) where
  entries : List (String × α)
  nodup_keys : (entries.map Prod.fst).Nodup

namespace Ordered

/-- The map without entries. -/
def empty : Ordered α := ⟨[], by simp⟩

instance : EmptyCollection (Ordered α) := ⟨empty⟩
instance : Inhabited (Ordered α) := ⟨empty⟩

/-- The keys in the order of first insertion. -/
def keys (m : Ordered α) : List String := m.entries.map Prod.fst

/-- The values in the order of their keys. -/
def values (m : Ordered α) : List α := m.entries.map Prod.snd

/-- The number of entries. -/
def size (m : Ordered α) : Nat := m.entries.length

/-- The value of `key`. -/
def find? (m : Ordered α) (key : String) : Option α := m.entries.lookup key

/-- Does the map have an entry for `key`? -/
def contains (m : Ordered α) (key : String) : Bool := (m.find? key).isSome

/-- Replace the value of `key` where it stands, or add the entry at the end. -/
def put (m : Ordered α) (key : String) (value : α) : Ordered α where
  entries := putEntry key value m.entries
  nodup_keys := by
    rw [keys_putEntry]
    split
    · exact m.nodup_keys
    · next h =>
      refine List.nodup_append.2 ⟨m.nodup_keys, by simp, ?_⟩
      intro a ha b hb
      simp only [List.mem_singleton] at hb
      rintro rfl
      exact h (hb ▸ ha)

theorem find?_put (m : Ordered α) (key : String) (value : α) (k : String) :
    (m.put key value).find? k = if k = key then some value else m.find? k :=
  lookup_putEntry key value m.entries k

theorem keys_put (m : Ordered α) (key : String) (value : α) :
    (m.put key value).keys = if key ∈ m.keys then m.keys else m.keys ++ [key] :=
  keys_putEntry key value m.entries

theorem entries_put {m : Ordered α} {key : String} (value : α) (h : m.find? key = none) :
    (m.put key value).entries = m.entries ++ [(key, value)] :=
  putEntry_of_lookup_eq_none value h

theorem mem_entries {m : Ordered α} {key : String} {value : α} (h : m.find? key = some value) :
    (key, value) ∈ m.entries :=
  mem_of_lookup h

theorem mem_keys {m : Ordered α} {key : String} {value : α} (h : m.find? key = some value) :
    key ∈ m.keys :=
  List.mem_map.2 ⟨(key, value), mem_entries h, rfl⟩

/-- Keys are different, so every entry can be found. -/
theorem find?_of_mem {m : Ordered α} {key : String} {value : α} (h : (key, value) ∈ m.entries) :
    m.find? key = some value := by
  obtain ⟨before, after, heq⟩ := List.append_of_mem h
  refine List.lookup_eq_some_iff.2 ⟨before, after, heq, fun e he => ?_⟩
  have hnodup := m.nodup_keys
  rw [heq, List.map_append, List.map_cons] at hnodup
  have hother := (List.nodup_append.1 hnodup).2.2 e.1 (List.mem_map_of_mem he) key
    List.mem_cons_self
  exact bne_iff_ne.2 (Ne.symm hother)

theorem exists_find? {m : Ordered α} {key : String} (h : key ∈ m.keys) :
    ∃ value, m.find? key = some value := by
  obtain ⟨⟨_, value⟩, hentry, rfl⟩ := List.mem_map.1 h
  exact ⟨value, find?_of_mem hentry⟩

theorem contains_iff {m : Ordered α} {key : String} : m.contains key = true ↔ key ∈ m.keys := by
  rw [contains, Option.isSome_iff_exists]
  exact ⟨fun ⟨_, h⟩ => mem_keys h, exists_find?⟩

theorem keys_put_new {m : Ordered α} {key : String} {value : α} (h : key ∉ m.keys) :
    (m.put key value).keys = m.keys ++ [key] := by
  rw [keys_put, if_neg h]

theorem ext_entries {m n : Ordered α} (h : m.entries = n.entries) : m = n := by
  cases m
  cases n
  cases h
  rfl

@[simp] theorem find?_empty (k : String) : (empty : Ordered α).find? k = none := rfl

@[simp] theorem keys_empty : (empty : Ordered α).keys = [] := rfl

/-- Put entries one after the other: of two with the same key the later value stays, at the place
    of the earlier. -/
def putAll (m : Ordered α) (entries : List (String × α)) : Ordered α :=
  entries.foldl (fun acc e => acc.put e.1 e.2) m

/-- The map made of `entries`. -/
def ofList (entries : List (String × α)) : Ordered α := putAll empty entries

theorem find?_putAll (m : Ordered α) (entries : List (String × α)) (key : String) :
    (m.putAll entries).find? key = (entries.reverse.lookup key <|> m.find? key) := by
  induction entries generalizing m with
  | nil => rfl
  | cons e rest ih =>
    obtain ⟨k, v⟩ := e
    have hput : m.putAll ((k, v) :: rest) = (m.put k v).putAll rest := rfl
    rw [hput, ih, find?_put, List.reverse_cons, List.lookup_append]
    cases rest.reverse.lookup key with
    | some value => rfl
    | none =>
      by_cases h : key = k
      · simp [h]
      · simp [h, List.lookup_cons, beq_eq_false_iff_ne.2 h]

/-- Of two entries with one key the last one counts. -/
theorem find?_ofList (entries : List (String × α)) (key : String) :
    (ofList entries).find? key = entries.reverse.lookup key := by
  rw [ofList, find?_putAll, find?_empty]
  cases entries.reverse.lookup key <;> rfl

/-- Change every value and keep the keys. -/
def map (f : α → β) (m : Ordered α) : Ordered β where
  entries := m.entries.map fun e => (e.1, f e.2)
  nodup_keys := by
    rw [List.map_map]
    exact m.nodup_keys

end Ordered

end GameBundle
