import Mathlib.Data.List.Dedup
import Mathlib.Data.List.Induction
import Mathlib.Data.List.ReduceOption
import AdvisoryStore.Proofs.Placement

/-!
# Records after any history

Records are spread over cells, by a hash that nothing is known of, and cells
may be one or many. None of this shows. Whatever was stored and cleared
away, in whatever order, the records are those of a list that was written from the
top: what was stored since the last clearing, the latest first
(`Records.sinceClear`). A key's record is the first entry with that key, and
there are as many records as there are keys in the list
(`Records.eq_sinceClear`).

That a key is counted once is where the cells come in. A key is only ever put
into its own cell (`Records.Placed`), and a cell has it once.
-/

namespace AdvisoryStore.Records

variable {r : Records}

/-- **A change of the records.** -/
inductive Edit
  | put (key : Bytes) (content : Content)
  | clear
  deriving DecidableEq, Repr

/-- What a change stores, if it is not a clearing. -/
def Edit.entry? : Edit → Option (Bytes × Content)
  | put key content => some (key, content)
  | clear => none

/-- The records after a change. -/
def edit (r : Records) : Edit → Records
  | .put key content => r.put key content
  | .clear => r.clear

/-- The records after changes, made one after the other. -/
def editAll (r : Records) (edits : List Edit) : Records := edits.foldl edit r

/-- **A record as it is handed out**, with its key. -/
def record? (r : Records) (key : Bytes) : Option (Bytes × Content) := (r.get? key).map (key, ·)

/-- **What was stored since the last clearing**, the latest first. -/
def sinceClear (edits : List Edit) : List (Bytes × Content) :=
  ((edits.reverse.map Edit.entry?).takeWhile Option.isSome).reduceOption

theorem sinceClear_put (edits : List Edit) (key : Bytes) (content : Content) :
    sinceClear (edits ++ [.put key content]) = (key, content) :: sinceClear edits := by
  simp [sinceClear, Edit.entry?]

theorem sinceClear_clear (edits : List Edit) : sinceClear (edits ++ [.clear]) = [] := by
  simp [sinceClear, Edit.entry?]

/-! ## One key -/

/-- A record that is handed out after one was stored. -/
theorem record?_put (r : Records) (key other : Bytes) (content : Content) :
    (r.put key content).record? other
      = if key = other then some (key, content) else r.record? other := by
  rw [record?, get?_put]
  by_cases same : other = key
  · rw [if_pos same, if_pos same.symm, same, Option.map_some]
  · rw [if_neg same, if_neg (Ne.symm same), record?]

/-- **A key's record is the latest that was stored**, since the last clearing. -/
theorem record?_editAll (hash : Bytes → Nat) (shards : Nat) (edits : List Edit) (key : Bytes) :
    ((new hash shards).editAll edits).record? key
      = (sinceClear edits).find? (fun e => e.1 = key) := by
  induction edits using List.reverseRecOn with
  | nil => simp [editAll, record?, sinceClear]
  | append_singleton edits e ih =>
    rw [editAll, List.foldl_append, List.foldl_cons, List.foldl_nil]
    cases e with
    | put stored content =>
      rw [edit, record?_put, ← editAll, ih, sinceClear_put, List.find?_cons]
      by_cases same : stored = key <;> simp [same]
    | clear => simp [edit, record?, sinceClear_clear]

/-! ## All keys -/

/-- The keys of each cell belong to it. -/
def Placed (r : Records) : Prop := r.cells.Placed KeyMap.keys

/-- **No change puts a record out of its place.** -/
theorem Placed.edit (placed : r.Placed) (e : Edit) : (r.edit e).Placed := by
  cases e with
  | put => exact Sharded.Placed.update placed (fun _ mem => KeyMap.mem_keys_insert mem)
  | clear => exact Sharded.Placed.map placed (fun _ => List.nil_subset _)

/-- However a table was changed, every key is at its place. -/
theorem placed_editAll (hash : Bytes → Nat) (shards : Nat) (edits : List Edit) :
    ((new hash shards).editAll edits).Placed := by
  induction edits using List.reverseRecOn with
  | nil => exact Sharded.placed_replicate hash shards rfl
  | append_singleton edits e ih =>
    rw [editAll, List.foldl_append]
    exact ih.edit e

/-- **There are as many records as there are keys that have one.** -/
theorem exists_keys (placed : r.Placed) :
    ∃ keys : List Bytes, keys.Nodup ∧ (∀ key, key ∈ keys ↔ (r.record? key).isSome)
      ∧ keys.length = r.size := by
  refine ⟨r.cells.toList.flatMap KeyMap.keys, placed.nodup KeyMap.nodup, fun key => ?_, ?_⟩
  · rw [placed.mem_iff, KeyMap.mem_keys_iff, record?, Option.isSome_map]
    rfl
  · rw [List.length_flatMap]
    exact congrArg (fun f => r.cells.total f) (funext fun m => List.length_map ..)

/-- **Records are what was stored since the last clearing**, for any hash and any
number of cells: each key has the latest that was stored under it, and each
key counts once. -/
theorem eq_sinceClear (hash : Bytes → Nat) (shards : Nat) (edits : List Edit) :
    (∀ key, ((new hash shards).editAll edits).record? key
        = (sinceClear edits).find? (fun e => e.1 = key))
      ∧ (∀ key, ((new hash shards).editAll edits).contains key
        = (((new hash shards).editAll edits).record? key).isSome)
      ∧ ((new hash shards).editAll edits).size
        = ((sinceClear edits).map Prod.fst).dedup.length := by
  have record := record?_editAll hash shards edits
  refine ⟨record, fun key => (Option.isSome_map ..).symm, ?_⟩
  obtain ⟨keys, nodup, mem_iff, length_eq⟩ := exists_keys (placed_editAll hash shards edits)
  have perm : keys.Perm ((sinceClear edits).map Prod.fst).dedup := by
    refine (List.perm_ext_iff_of_nodup nodup (List.nodup_dedup _)).mpr (fun key => ?_)
    rw [mem_iff, record, List.find?_isSome, List.mem_dedup, List.mem_map]
    simp only [decide_eq_true_eq]
  rw [← length_eq, perm.length_eq]

-- All keys in one cell, which is what a request for no cells comes to.
example :
    let r := (new (fun _ => 7) 0).editAll
      [.put [1] ⟨[], []⟩, .clear, .put [2] ⟨[], []⟩, .put [1] ⟨[5], []⟩, .put [2] ⟨[6], []⟩]
    r.record? [2] = some ([2], ⟨[6], []⟩) ∧ r.record? [1] = some ([1], ⟨[5], []⟩)
      ∧ r.record? [] = none ∧ r.size = 2 := by
  decide +kernel

end AdvisoryStore.Records
