import AdvisoryStore.KeyMap
import AdvisoryStore.Sharded

/-!
# Records

A **record** is what was stored under a key: metadata and a payload, both
of them bytes that the store returns as it got them. Records are spread
over cells, and `Records.get?` reads through the cell of the key.
-/

namespace AdvisoryStore

/-- **What is stored under a key.** -/
structure Content where
  metadata : Bytes
  payload : Bytes
  deriving DecidableEq, Repr, Inhabited

/-- **The records of a store**, by key. -/
structure Records where
  /-- The cells the keys are spread over. -/
  cells : Sharded (KeyMap Content)

namespace Records

/-- No records, in a number of cells. -/
def new (hash : Bytes → Nat) (shards : Nat) : Records := ⟨.replicate hash shards .empty⟩

instance : Inhabited Records := ⟨new (fun _ => 0) 1⟩

/-- The record of a key. -/
def get? (r : Records) (key : Bytes) : Option Content := (r.cells.get key).get? key

/-- Whether a key has a record. -/
def contains (r : Records) (key : Bytes) : Bool := (r.get? key).isSome

/-- Stores a record, in place of what was there. -/
def put (r : Records) (key : Bytes) (content : Content) : Records :=
  ⟨r.cells.update key (·.insert key content)⟩

/-- How many records there are. -/
def size (r : Records) : Nat := r.cells.total KeyMap.size

/-- Forgets all records. -/
def clear (r : Records) : Records := ⟨r.cells.map (fun _ => .empty)⟩

/-- There is no record to begin with. -/
@[simp] theorem get?_new (hash : Bytes → Nat) (shards : Nat) (key : Bytes) :
    (new hash shards).get? key = none := by
  simp [get?, new]

/-- After a clearing there is no record. -/
@[simp] theorem get?_clear (r : Records) (key : Bytes) : r.clear.get? key = none := by
  simp [get?, clear]

/-- **A record is what was last stored under its key**, whatever cells the
keys fall into. -/
theorem get?_put (r : Records) (key other : Bytes) (content : Content) :
    (r.put key content).get? other = if other = key then some content else r.get? other := by
  unfold get? put
  rw [Sharded.get_update]
  split
  · rw [KeyMap.get?_insert]
  · next apart => rw [if_neg (fun eq => apart (by rw [eq]))]

/-- A key without a record has one more after it is stored. -/
theorem size_put_of_get?_eq_none {r : Records} {key : Bytes} (absent : r.get? key = none)
    (content : Content) : (r.put key content).size = r.size + 1 := by
  have changed := r.cells.total_update key (·.insert key content) KeyMap.size
  rw [KeyMap.size_insert_of_get?_eq_none absent] at changed
  simp only [size, put]
  omega

end Records

end AdvisoryStore
