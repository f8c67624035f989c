import Mathlib.Data.List.Nodup
import AdvisoryStore.Proofs.Conservation

/-!
# Every key in its place

State that is spread over cells is read through the cell of a key, and
counted by going through all cells. The two fit together if nothing is
stored in a cell that its key does not belong to (`Sharded.Placed`). Every
operation on a key writes in the key's own cell, so that nothing gets out
of place; and then the cells together hold each key once, wherever the hash
sends it (`Sharded.Placed.nodup`), and counting live holds is counting the
keys that are held (`Locks.exists_liveKeys`).
-/

namespace AdvisoryStore

namespace Sharded

variable {σ : Type} {keys : σ → List Bytes} {s : Sharded σ}

/-- **Nothing is out of place**: the keys of each cell belong to it. -/
def Placed (keys : σ → List Bytes) (s : Sharded σ) : Prop :=
  ∀ n (there : n < s.count) key, key ∈ keys s.cells[n] → (s.pick key : Nat) = n

theorem placed_replicate (hash : Bytes → Nat) (n : Nat) {cell : σ} (none : keys cell = []) :
    (replicate hash n cell).Placed keys := by
  intro i there key mem
  have same : (replicate hash n cell).cells[i] = cell := Vector.getElem_replicate ..
  rw [same, none] at mem
  cases mem

/-- A change of a key's cell may add that key and no other. -/
theorem Placed.update (placed : s.Placed keys) {key : Bytes} {f : σ → σ}
    (adds : ∀ other ∈ keys (f (s.get key)), other = key ∨ other ∈ keys (s.get key)) :
    (s.update key f).Placed keys := by
  intro n there other mem
  have there : n < s.count := there
  have inside : other ∈ keys (if (s.pick key : Nat) = n then f (s.get key) else s.cells[n]) := by
    rwa [← Vector.getElem_set (s.pick key).isLt there]
  by_cases here : (s.pick key : Nat) = n
  · rw [if_pos here] at inside
    obtain rfl | inside := adds other inside
    · exact here
    · exact (placed _ (s.pick key).isLt other inside).trans here
  · rw [if_neg here] at inside
    exact placed n there other inside

/-- A change of all cells that adds no key leaves every key in its place. -/
theorem Placed.map (placed : s.Placed keys) {f : σ → σ}
    (adds : ∀ cell, keys (f cell) ⊆ keys cell) : (s.map f).Placed keys := by
  intro n there key mem
  have there : n < s.count := there
  have mem : key ∈ keys (f s.cells[n]) := by rwa [← Vector.getElem_map f there]
  exact placed n there key (adds _ mem)

/-- Fewer keys are in their places too. -/
theorem Placed.mono {fewer : σ → List Bytes} (placed : s.Placed keys)
    (sub : ∀ cell, fewer cell ⊆ keys cell) : s.Placed fewer :=
  fun n there key mem => placed n there key (sub _ mem)

/-- **A key that is in some cell is in its own.** -/
theorem Placed.mem_iff (placed : s.Placed keys) {key : Bytes} :
    key ∈ s.toList.flatMap keys ↔ key ∈ keys (s.get key) := by
  rw [List.mem_flatMap]
  constructor
  · rintro ⟨cell, cell_mem, mem⟩
    obtain ⟨n, there, rfl⟩ := Vector.mem_iff_getElem.mp (Vector.mem_toList_iff.mp cell_mem)
    have own := placed n there key mem
    subst own
    exact mem
  · intro mem
    exact ⟨s.get key, by simp [toList, get], mem⟩

/-- **The cells together hold each key once.** -/
theorem Placed.nodup (placed : s.Placed keys) (once : ∀ cell, (keys cell).Nodup) :
    (s.toList.flatMap keys).Nodup := by
  refine List.nodup_flatMap.mpr ⟨fun cell _ => once cell, ?_⟩
  refine List.pairwise_iff_getElem.mpr (fun i j hi hj lt => ?_)
  have hi : i < s.count := by simpa [toList] using hi
  have hj : j < s.count := by simpa [toList] using hj
  intro key mem_i mem_j
  -- a key of two cells would belong to both
  have own_i := placed i hi key (by simpa [toList] using mem_i)
  have own_j := placed j hj key (by simpa [toList] using mem_j)
  exact Nat.ne_of_lt lt (own_i.symm.trans own_j)

end Sharded

/-! ## Keys of a map -/

namespace KeyMap

variable {α : Type}

theorem keys_filter_subset (p : Bytes → α → Bool) (m : KeyMap α) : (m.filter p).keys ⊆ m.keys :=
  List.map_subset _ (List.filter_subset_self _)

theorem keys_erase_subset (m : KeyMap α) (key : Bytes) : (m.erase key).keys ⊆ m.keys :=
  m.keys_filter_subset _

theorem mem_keys_insert {m : KeyMap α} {key other : Bytes} {value : α}
    (mem : other ∈ (m.insert key value).keys) : other = key ∨ other ∈ m.keys :=
  (List.mem_cons.mp mem).imp_right (fun mem => m.keys_erase_subset key mem)

theorem mem_keys_iff {m : KeyMap α} {key : Bytes} : key ∈ m.keys ↔ (m.get? key).isSome := by
  rw [Option.isSome_iff_ne_none, ne_eq, get?_eq_none_iff, Classical.not_not]

end KeyMap

/-! ## Holds in their places -/

namespace Locks

variable {l m : Locks} {now : Instant} {happened : List Happening}

/-- The holds of each cell are of keys that belong to it. -/
def Placed (l : Locks) : Prop := l.cells.Placed (fun c => c.holds.keys)

/-- A new table has every key at its place, as it has none. -/
theorem placed_new (hash : Bytes → Nat) (shards : Nat) : (new hash shards).Placed :=
  Sharded.placed_replicate hash shards rfl

/-- **Nothing that happens to the locks puts a hold out of its place.** -/
theorem Occurs.placed (occurs : l.Occurs now happened m) (placed : l.Placed) : m.Placed := by
  have dropped (key : Bytes) : (l.drop key).Placed :=
    Sharded.Placed.update placed (fun _ mem => .inr (KeyMap.keys_erase_subset _ _ mem))
  cases occurs with
  | expire => exact dropped _
  | grant => exact Sharded.Placed.update placed (fun _ mem => KeyMap.mem_keys_insert mem)
  | @release key => exact Sharded.Placed.update (dropped key) (fun _ mem => .inr mem)
  | sweep =>
    refine Sharded.Placed.map placed (fun c => ?_)
    rw [LockCell.holds_sweep]
    exact KeyMap.keys_filter_subset ..
  | clear => exact Sharded.Placed.map placed (fun _ => List.nil_subset _)
  | remark => exact placed

/-- **As many holds are live as there are keys that are held.** -/
theorem exists_liveKeys (placed : l.Placed) (now : Instant) :
    ∃ keys : List Bytes, keys.Nodup ∧ (∀ key, key ∈ keys ↔ (l.live? now key).isSome)
      ∧ keys.length = l.liveCount now := by
  let lasting (c : LockCell) : KeyMap Hold := c.holds.filter (fun _ h => !h.expired now)
  have placed : l.cells.Placed (fun c => (lasting c).keys) :=
    Sharded.Placed.mono placed (fun c => KeyMap.keys_filter_subset ..)
  refine ⟨l.cells.toList.flatMap (fun c => (lasting c).keys), ?_, fun key => ?_, ?_⟩
  · exact placed.nodup (fun c => (lasting c).nodup)
  · rw [placed.mem_iff, KeyMap.mem_keys_iff, KeyMap.get?_filter]
    rfl
  · rw [List.length_flatMap]
    exact congrArg (fun f => l.cells.total f) (funext fun c => List.length_map ..)

/-- Locks that are live for the same keys are equally many. -/
theorem liveCount_eq_of_live? (placed : l.Placed) (placed' : m.Placed)
    (same : ∀ key, (l.live? now key).isSome = (m.live? now key).isSome) :
    l.liveCount now = m.liveCount now := by
  obtain ⟨keys, nodup, mem_iff, length_eq⟩ := exists_liveKeys placed now
  obtain ⟨keys', nodup', mem_iff', length_eq'⟩ := exists_liveKeys placed' now
  have perm : keys.Perm keys' :=
    (List.perm_ext_iff_of_nodup nodup nodup').mpr
      (fun key => by rw [mem_iff, mem_iff', same key])
  rw [← length_eq, ← length_eq', perm.length_eq]

end Locks

namespace Scene

/-- In every scene that a session may come to no hold is out of its place. -/
theorem Leads.placed {s : Scene} {hash : Bytes → Nat} {settings : StoreSettings}
    {environment : Environment} {now : Instant}
    (reached : Leads ⟨now, .new hash settings environment, []⟩ s) (i : Nat) :
    (s.world.store i).locks.Placed := by
  refine reached.invariant (I := fun t => t.locks.Placed) ?_ ?_ i
  · exact fun hash settings => Locks.placed_new hash settings.shards
  · intro now s t happened occurs placed
    cases occurs with
    | locks occurs => exact occurs.placed placed
    | write => exact placed
    | remark => exact placed

end Scene

end AdvisoryStore
