import AdvisoryStore.Locks

/-!
# What the operations on locks do to a key

A reader of the locks sees three things of a key: the hold that is stored
(`stored?`), the hold that is live (`live?`), and how often its bell has
rung (`rings`). Here every operation is told by what it does to these.

Two statements carry most of what follows from them. Looking at a key
changes what is live of no key, now or later (`live?_consult`); and each
operation comes down to a case distinction on the live hold of its key –
none, the asker's own, another's – in which it either leaves the locks as
they were or makes one change (`attempt_of_live?_eq_none` and the
equations beside it).
-/

namespace AdvisoryStore

/-- What is over stays over. -/
theorem Hold.expired_mono {h : Hold} {now later : Instant} (le : now ≤ later)
    (past : h.expired now) : h.expired later := by
  unfold Hold.expired at past ⊢
  split <;> grind

/-- A hold is not over up to its deadline. -/
theorem Hold.expired_eq_false_iff {h : Hold} {now : Instant} :
    h.expired now = false ↔ ∀ d, h.deadline = some d → now ≤ d := by
  unfold Hold.expired
  split <;> grind

/-- A sweep of a cell drops the holds that are over, and no others. -/
theorem LockCell.holds_sweep (c : LockCell) (now : Instant) :
    (c.sweep now).holds = c.holds.filter (fun _ h => !h.expired now) := by
  unfold sweep
  simp only
  split <;> rfl

namespace Locks

/-- A hold is live if it is stored and not over. -/
theorem live?_eq_some_iff {l : Locks} {now : Instant} {key : Bytes} {h : Hold} :
    l.live? now key = some h ↔ l.stored? key = some h ∧ h.expired now = false := by
  rw [live?, Option.filter_eq_some_iff, Bool.not_eq_true']

/-! ## The changes -/

theorem stored?_drop (l : Locks) (key other : Bytes) :
    (l.drop key).stored? other = if other = key then none else l.stored? other := by
  unfold stored? drop
  rw [Sharded.get_update]
  split
  · rw [LockCell.drop, KeyMap.get?_erase]
  · next apart => rw [if_neg (fun eq => apart (by rw [eq]))]

theorem stored?_grant (l : Locks) (key other holder : Bytes) (now : Instant)
    (deadline : Option Instant) :
    (l.grant key holder now deadline).stored? other
      = if other = key then some ⟨holder, now, deadline, (l.cells.get key).grants⟩
        else l.stored? other := by
  unfold stored? grant
  rw [Sharded.get_update]
  split
  · next same =>
    rw [LockCell.grant, KeyMap.get?_insert]
    split
    · next eq => rw [eq]
    · rfl
  · next apart => rw [if_neg (fun eq => apart (by rw [eq]))]

@[simp] theorem stored?_ring (l : Locks) (key other : Bytes) :
    (l.ring key).stored? other = l.stored? other := by
  unfold stored? ring
  rw [Sharded.get_update]
  split <;> rfl

theorem live?_drop (l : Locks) (now : Instant) (key other : Bytes) :
    (l.drop key).live? now other = if other = key then none else l.live? now other := by
  unfold live?
  rw [stored?_drop]
  split <;> rfl

@[simp] theorem live?_ring (l : Locks) (now : Instant) (key other : Bytes) :
    (l.ring key).live? now other = l.live? now other := by
  rw [live?, stored?_ring, live?]

@[simp] theorem rings_drop (l : Locks) (key other : Bytes) :
    (l.drop key).rings other = l.rings other := by
  unfold rings drop
  rw [Sharded.get_update]
  split <;> rfl

@[simp] theorem rings_grant (l : Locks) (key other holder : Bytes) (now : Instant)
    (deadline : Option Instant) :
    (l.grant key holder now deadline).rings other = l.rings other := by
  unfold rings grant
  rw [Sharded.get_update]
  split <;> rfl

theorem rings_ring (l : Locks) (key other : Bytes) :
    (l.ring key).rings other
      = if l.cells.pick other = l.cells.pick key then l.rings other + 1 else l.rings other := by
  unfold rings ring
  rw [Sharded.get_update]
  split <;> rfl

/-! ## Looking -/

/-- Looking answers with the live hold. -/
@[simp] theorem answer_consult (l : Locks) (now : Instant) (key : Bytes) :
    (l.consult now key).answer = l.live? now key := by
  unfold consult live?
  cases l.stored? key with
  | none => rfl
  | some h => by_cases gone : h.expired now <;> simp [gone, Option.filter]

/-- **Looking at a live hold changes nothing.** -/
theorem consult_of_live? {l : Locks} {now : Instant} {key : Bytes} {h : Hold}
    (live : l.live? now key = some h) : l.consult now key = ⟨l, [], some h⟩ := by
  obtain ⟨stored, lasting⟩ := live?_eq_some_iff.mp live
  simp [consult, stored, lasting]

/-- After looking, what is stored of the key is what is live of it. -/
theorem stored?_consult (l : Locks) (now : Instant) (key other : Bytes) :
    (l.consult now key).after.stored? other
      = if other = key then l.live? now key else l.stored? other := by
  unfold consult live?
  split
  · next absent =>
    split
    · next eq => rw [eq, absent]; rfl
    · rfl
  · next h stored =>
    rw [stored]
    by_cases gone : h.expired now
    · simp [gone, stored?_drop, Option.filter]
    · by_cases eq : other = key
      · simp [gone, eq, stored, Option.filter]
      · simp [gone, eq]

/-- **Looking changes what is live of no key**, now or later. -/
theorem live?_consult (l : Locks) {now later : Instant} (le : now ≤ later) (key other : Bytes) :
    (l.consult now key).after.live? later other = l.live? later other := by
  unfold live?
  rw [stored?_consult]
  split
  · next eq =>
    subst eq
    unfold live?
    cases l.stored? other with
    | none => rfl
    | some h =>
      by_cases gone : h.expired now
      · simp [gone, Hold.expired_mono le gone, Option.filter]
      · simp [gone, Option.filter]
  · rfl

/-- Looking rings no bell. -/
@[simp] theorem rings_consult (l : Locks) (now : Instant) (key other : Bytes) :
    (l.consult now key).after.rings other = l.rings other := by
  unfold consult
  split
  · rfl
  · split
    · exact rings_drop ..
    · rfl

/-! ## Taking a lock -/

/-- A key that nobody holds is granted. -/
theorem attempt_of_live?_eq_none {l : Locks} {now : Instant} {r : LockRequest}
    (free : l.live? now r.key = none) (waited : Bool) :
    l.attempt now r waited
      = ⟨(l.consult now r.key).after.grant r.key r.holder now (r.hold.bind now.after?),
          (l.consult now r.key).happened ++ [.acquired r.claimant r.key r.holder waited],
          .granted⟩ := by
  have answer := l.answer_consult now r.key
  unfold attempt
  generalize l.consult now r.key = looked at answer
  obtain ⟨after, happened, held⟩ := looked
  obtain rfl : held = none := answer.trans free
  rfl

/-- The holder of a key is let in again, and nothing changes. -/
theorem attempt_of_own {l : Locks} {now : Instant} {r : LockRequest} {h : Hold}
    (live : l.live? now r.key = some h) (own : h.holder = r.holder) (waited : Bool) :
    l.attempt now r waited = ⟨l, [.reentered r.claimant r.key r.holder], .granted⟩ := by
  simp [attempt, consult_of_live? live, own]

/-- Another holder's key is not taken, and nothing changes. -/
theorem attempt_of_other {l : Locks} {now : Instant} {r : LockRequest} {h : Hold}
    (live : l.live? now r.key = some h) (other : h.holder ≠ r.holder) (waited : Bool) :
    l.attempt now r waited
      = if reached now r.giveUp then ⟨l, [.timedOut r.key r.holder h.holder], .gaveUp⟩
        else ⟨l, [], .blockedBy h⟩ := by
  simp [attempt, consult_of_live? live, other]

/-! ## Releasing and writing -/

/-- The holder of a key releases it. -/
theorem release_of_own {l : Locks} {now : Instant} {key holder : Bytes} {h : Hold}
    (live : l.live? now key = some h) (own : h.holder = holder) (claimant : Claimant) :
    l.release now claimant key holder
      = ⟨(l.drop key).ring key, [.released claimant key holder], .ok ()⟩ := by
  simp [release, consult_of_live? live, own]

/-- Anyone else is refused, whether the key is held or not. -/
theorem release_of_not_own {l : Locks} {now : Instant} {key holder : Bytes}
    (other : ∀ h, l.live? now key = some h → h.holder ≠ holder) (claimant : Claimant) :
    l.release now claimant key holder
      = ⟨(l.consult now key).after, (l.consult now key).happened ++ [.refused claimant key holder],
          .error (.notHolder key holder)⟩ := by
  have answer := l.answer_consult now key
  unfold release
  generalize l.consult now key = looked at answer
  obtain ⟨after, happened, held⟩ := looked
  have refused : held.any (fun h => h.holder = holder) = false := by
    cases held with
    | none => rfl
    | some h => simpa using other h answer.symm
  simp [refused]

/-- **One may write unless another holds the key.** -/
theorem answer_permits (l : Locks) (now : Instant) (key holder : Bytes) :
    (l.permits now key holder).answer = true
      ↔ ∀ h, l.live? now key = some h → h.holder = holder := by
  have answer := l.answer_consult now key
  unfold permits
  generalize l.consult now key = looked at answer
  obtain ⟨after, happened, held⟩ := looked
  rw [show held = l.live? now key from answer]
  cases l.live? now key <;> simp

/-! ## Sweeping and clearing -/

/-- **A sweep leaves what is live.** -/
theorem stored?_sweep (l : Locks) (now : Instant) (key : Bytes) :
    (l.sweep now).after.stored? key = l.live? now key := by
  unfold sweep stored? live? stored?
  simp only [Sharded.get_map]
  rw [LockCell.holds_sweep, KeyMap.get?_filter]

/-- After clearing nothing is stored. -/
@[simp] theorem stored?_clear (l : Locks) (key : Bytes) : l.clear.after.stored? key = none := by
  simp [clear, stored?, LockCell.clear, LockCell.ring]

@[simp] theorem stored?_new (hash : Bytes → Nat) (shards : Nat) (key : Bytes) :
    (new hash shards).stored? key = none := by
  simp [new, stored?, LockCell.empty]

end Locks

end AdvisoryStore
