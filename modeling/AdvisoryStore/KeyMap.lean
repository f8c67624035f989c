import AdvisoryStore.Bytes

/-!
# Finite maps keyed by byte strings

A **key map** is a list of pairs in which no key occurs twice. The list is
the representation and `get?` is the meaning: every operation is told
apart from the others by what it does to `get?`, and by what it does to
`size`, and nothing outside this module looks at the order of the list.

That a key occurs once is part of the type. An entry found is therefore
*the* entry, and erasing a key removes at most one pair.
-/

namespace AdvisoryStore

/-- **A finite map from byte strings.** -/
structure KeyMap (α : Type) where
  /-- The pairs, in no order that matters. -/
  entries : List (Bytes × α)
  /-- No key occurs twice. -/
  nodup : (entries.map Prod.fst).Nodup

namespace KeyMap

variable {α : Type}

/-- The map without entries. -/
def empty : KeyMap α := ⟨[], List.nodup_nil⟩

instance : Inhabited (KeyMap α) := ⟨empty⟩

/-- The value stored under a key. -/
def get? (m : KeyMap α) (key : Bytes) : Option α := m.entries.lookup key

/-- How many keys have a value. -/
def size (m : KeyMap α) : Nat := m.entries.length

/-- The keys that have a value. -/
def keys (m : KeyMap α) : List Bytes := m.entries.map Prod.fst

/-- Keeps the entries that pass a test. -/
def filter (p : Bytes → α → Bool) (m : KeyMap α) : KeyMap α :=
  ⟨m.entries.filter (fun e => p e.1 e.2), m.nodup.sublist (List.filter_sublist.map _)⟩

/-- Forgets the value of a key. -/
def erase (m : KeyMap α) (key : Bytes) : KeyMap α := m.filter (fun k _ => k ≠ key)

/-- No entry of `m.erase key` has that key. -/
theorem not_mem_keys_erase (m : KeyMap α) (key : Bytes) : key ∉ (m.erase key).keys := by
  intro h
  obtain ⟨e, he, rfl⟩ := List.mem_map.mp h
  simpa using (List.mem_filter.mp he).2

/-- Stores a value under a key, in place of what was there. -/
def insert (m : KeyMap α) (key : Bytes) (value : α) : KeyMap α :=
  ⟨(key, value) :: (m.erase key).entries,
    List.nodup_cons.mpr ⟨m.not_mem_keys_erase key, (m.erase key).nodup⟩⟩

/-! ## What the operations do to `get?` -/

/-- An entry of the list is what its key maps to, and nothing else is. -/
theorem get?_eq_some_iff {m : KeyMap α} {key : Bytes} {value : α} :
    m.get? key = some value ↔ (key, value) ∈ m.entries := by
  obtain ⟨entries, nodup⟩ := m
  simp only [get?]
  induction entries with
  | nil => simp
  | cons e rest ih =>
    obtain ⟨k, v⟩ := e
    obtain ⟨hk, hrest⟩ := List.nodup_cons.mp nodup
    by_cases h : key = k
    · subst h
      have absent : (key, value) ∉ rest := fun hm => hk (List.mem_map.mpr ⟨_, hm, rfl⟩)
      simp [absent, eq_comm]
    · rw [List.lookup_cons, beq_false_of_ne h, ih hrest]
      simp [h]

/-- A key has no value exactly when no pair has it. -/
theorem get?_eq_none_iff {m : KeyMap α} {key : Bytes} : m.get? key = none ↔ key ∉ m.keys := by
  rw [Option.eq_none_iff_forall_not_mem]
  simp only [Option.mem_def, get?_eq_some_iff, keys, List.mem_map, not_exists, not_and]
  exact ⟨fun h e he hk => h e.2 (by rw [← hk]; exact he), fun h v hv => h (key, v) hv rfl⟩

@[simp] theorem get?_empty (key : Bytes) : (empty : KeyMap α).get? key = none := rfl

/-- A filter keeps the value of a key, or drops it. -/
theorem get?_filter (p : Bytes → α → Bool) (m : KeyMap α) (key : Bytes) :
    (m.filter p).get? key = (m.get? key).filter (p key) := by
  ext value
  rw [Option.filter_eq_some_iff, get?_eq_some_iff, get?_eq_some_iff, filter, List.mem_filter]

/-- A key that is erased is gone, and no other. -/
theorem get?_erase (m : KeyMap α) (key other : Bytes) :
    (m.erase key).get? other = if other = key then none else m.get? other := by
  rw [erase, get?_filter]
  by_cases h : other = key <;> cases m.get? other <;> simp [h, Option.filter]

/-- **A key has the value that was inserted last**, and all others have theirs. -/
theorem get?_insert (m : KeyMap α) (key other : Bytes) (value : α) :
    (m.insert key value).get? other = if other = key then some value else m.get? other := by
  by_cases h : other = key
  · subst h
    simp [get?, insert]
  · have := m.get?_erase key other
    simp only [h, if_false] at this ⊢
    rw [← this]
    simp [get?, insert, List.lookup_cons, beq_false_of_ne h]

/-! ## What they do to `size` -/

@[simp] theorem size_empty : (empty : KeyMap α).size = 0 := rfl

/-- Erasing a key that has a value makes the map one smaller. -/
theorem size_erase_of_get? {m : KeyMap α} {key : Bytes} {value : α} (h : m.get? key = some value) :
    (m.erase key).size + 1 = m.size := by
  obtain ⟨entries, nodup⟩ := m
  simp only [get?] at h
  simp only [size, erase, filter]
  induction entries with
  | nil => simp at h
  | cons e rest ih =>
    obtain ⟨k, v⟩ := e
    obtain ⟨hk, hrest⟩ := List.nodup_cons.mp nodup
    by_cases hkey : key = k
    · subst hkey
      have kept : rest.filter (fun e => decide (e.1 ≠ key)) = rest :=
        List.filter_eq_self.mpr (fun e he => by
          simpa using fun eq : e.1 = key => hk (List.mem_map.mpr ⟨e, he, eq⟩))
      simp only [List.filter_cons, ne_eq, not_true_eq_false, decide_false, List.length_cons]
      simpa using congrArg List.length kept
    · rw [List.lookup_cons, beq_false_of_ne hkey] at h
      simp only [List.filter_cons, ne_eq, Ne.symm hkey, not_false_eq_true, decide_true, if_true,
        List.length_cons]
      exact congrArg (· + 1) (ih hrest h)

/-- Erasing a key without a value changes nothing. -/
theorem erase_of_get?_eq_none {m : KeyMap α} {key : Bytes} (h : m.get? key = none) :
    m.erase key = m := by
  obtain ⟨entries, nodup⟩ := m
  simp only [erase, filter, mk.injEq]
  exact List.filter_eq_self.mpr (fun e he => by
    simpa using fun eq : e.1 = key => get?_eq_none_iff.mp h (List.mem_map.mpr ⟨e, he, eq⟩))

/-- Storing under a key without a value makes the map one larger. -/
theorem size_insert_of_get?_eq_none {m : KeyMap α} {key : Bytes} (h : m.get? key = none)
    (value : α) : (m.insert key value).size = m.size + 1 := by
  have := erase_of_get?_eq_none h
  simp [size, insert, this]

end KeyMap

end AdvisoryStore
