import AdvisoryStore.Bytes

/-!
# Sharding

State that is kept per key is spread over **cells**, and a hash sends each
key to one of them. The hash is a parameter: it is brought by whoever
builds the state, and no law of this module says anything about it. Zero
cells are read as one, so that every key has a cell.

An operation on a key reads its cell and writes its cell. `get_update` is
all that is needed to see that keys of different cells do not meet, and
`total_update` what a change does to a quantity that is summed over all
cells.
-/

namespace AdvisoryStore

/-- **State spread over cells**, one of which belongs to each key. -/
structure Sharded (σ : Type) where
  /-- How many cells there are. -/
  count : Nat
  /-- The cell of a key. -/
  pick : Bytes → Fin count
  /-- The cells. -/
  cells : Vector σ count

namespace Sharded

variable {σ : Type}

/-- How many cells a request for `n` of them gives. -/
def cellCount (n : Nat) : Nat := max n 1

theorem cellCount_pos (n : Nat) : 0 < cellCount n :=
  Nat.lt_of_lt_of_le Nat.one_pos (Nat.le_max_right n 1)

/-- Fresh state in which every cell is the same. -/
def replicate (hash : Bytes → Nat) (n : Nat) (cell : σ) : Sharded σ where
  count := cellCount n
  pick key := ⟨hash key % cellCount n, Nat.mod_lt _ (cellCount_pos n)⟩
  cells := Vector.replicate _ cell

instance [Inhabited σ] : Inhabited (Sharded σ) := ⟨replicate (fun _ => 0) 1 default⟩

/-- The cell of a key. -/
def get (s : Sharded σ) (key : Bytes) : σ := s.cells[(s.pick key).val]

/-- Changes the cell of a key. -/
def update (s : Sharded σ) (key : Bytes) (f : σ → σ) : Sharded σ :=
  { s with cells := s.cells.set (s.pick key) (f (s.get key)) }

/-- Changes every cell. -/
def map (s : Sharded σ) (f : σ → σ) : Sharded σ := { s with cells := s.cells.map f }

/-- The cells in order. -/
def toList (s : Sharded σ) : List σ := s.cells.toList

/-- A quantity summed over the cells. -/
def total (s : Sharded σ) (f : σ → Nat) : Nat := (s.toList.map f).foldr (· + ·) 0

/-! ## Reading a cell after a change -/

@[simp] theorem get_replicate (hash : Bytes → Nat) (n : Nat) (cell : σ) (key : Bytes) :
    (replicate hash n cell).get key = cell := by
  simp [get, replicate]

@[simp] theorem get_map (s : Sharded σ) (f : σ → σ) (key : Bytes) :
    (s.map f).get key = f (s.get key) := by
  simp [get, map]

/-- **A change shows in the keys of the cell**, and in no others. -/
theorem get_update (s : Sharded σ) (key other : Bytes) (f : σ → σ) :
    (s.update key f).get other
      = if s.pick other = s.pick key then f (s.get other) else s.get other := by
  by_cases h : s.pick other = s.pick key
  · simp [get, update, h]
  · have apart : (s.pick key : Nat) ≠ s.pick other := fun eq => h (Fin.ext eq.symm)
    simp [get, update, h, apart]

/-! ## Sums over the cells -/

/-- The cell of a key stands between the cells before it and those behind it. -/
theorem toList_eq_append (s : Sharded σ) (key : Bytes) :
    s.toList = s.toList.take (s.pick key) ++ s.get key :: s.toList.drop (s.pick key + 1) := by
  have there : (s.pick key : Nat) < s.toList.length := by simp [toList]
  have own : s.get key = s.toList[(s.pick key : Nat)] := by simp [get, toList]
  rw [own, List.getElem_cons_drop, List.take_append_drop]

/-- A change of a key's cell puts another in its place. -/
theorem toList_update (s : Sharded σ) (key : Bytes) (f : σ → σ) :
    (s.update key f).toList
      = s.toList.take (s.pick key) ++ f (s.get key) :: s.toList.drop (s.pick key + 1) := by
  have there : (s.pick key : Nat) < s.toList.length := by simp [toList]
  rw [toList, update, Vector.toList_set, List.set_eq_take_append_cons_drop]
  exact if_pos there

/-- **A change of one cell changes a sum by what it changes the cell's term.** -/
theorem total_update (s : Sharded σ) (key : Bytes) (f : σ → σ) (size : σ → Nat) :
    (s.update key f).total size + size (s.get key) = s.total size + size (f (s.get key)) := by
  have before : s.total size = _ := congrArg (fun cells => (cells.map size).sum)
    (s.toList_eq_append key)
  have after : (s.update key f).total size = _ := congrArg (fun cells => (cells.map size).sum)
    (s.toList_update key f)
  rw [before, after]
  simp only [List.map_append, List.map_cons, List.sum_append_nat, List.sum_cons]
  omega

/-- A change of every cell changes the term of each. -/
@[simp] theorem total_map (s : Sharded σ) (f : σ → σ) (size : σ → Nat) :
    (s.map f).total size = s.total (fun cell => size (f cell)) := by
  simp only [total, toList, map, Vector.toList_map, List.map_map]
  rfl

end Sharded

end AdvisoryStore
