import AdvisoryStore.Locks
import AdvisoryStore.Records

/-!
# The store

A **store** keeps records, guards their keys with advisory locks, and
counts what happens to it. Its operations are those of its parts with the
counting added: each of them answers with what happened (`Happening`), and
the counters are moved by exactly that (`Store.note`). The settings are
fixed when the store is made.

A write is the one operation on records that asks the locks. It goes
through unless another holder has the key, held or not by the writer
itself: locks are advisory, and a writer without a lock may write a free
key.
-/

namespace AdvisoryStore

/-- **A store of records under advisory locks.** -/
structure Store where
  /-- What was set when the store was made. -/
  settings : StoreSettings
  /-- What has been counted. -/
  counters : Counters
  /-- What is stored. -/
  records : Records
  /-- Who holds which key. -/
  locks : Locks

namespace Store

/-- A store in which nothing has happened. -/
def new (hash : Bytes → Nat) (settings : StoreSettings) : Store where
  settings
  counters := .zero
  records := .new hash settings.shards
  locks := .new hash settings.shards

instance : Inhabited Store := ⟨new (fun _ => 0) {}⟩

/-- Counts what happened. -/
def note (s : Store) (happened : List Happening) : Store :=
  { s with counters := s.counters.bumpAll (happened.flatMap Happening.counted) }

/-- Counting in two goes is counting in one. -/
theorem note_append (s : Store) (first second : List Happening) :
    s.note (first ++ second) = (s.note first).note second := by
  simp [note, Counters.bumpAll_append]

/-- An operation of a store that only something happens in. -/
def noting {α : Type} (s : Store) (happened : List Happening) (answer : α) : Outcome Store α :=
  ⟨s.note happened, happened, answer⟩

/-- **An operation on the locks as an operation on the store.** -/
def onLocks {α : Type} (s : Store) (f : Locks → Outcome Locks α) : Outcome Store α :=
  match f s.locks with
  | ⟨locks, happened, answer⟩ => { s with locks }.noting happened answer

/-! ## Locks -/

/-- A wish for a lock, made now. A hold that is not asked for is the
store's default, and the time to give up is counted from now. -/
def request (s : Store) (now : Instant) (claimant : Claimant) (key holder : Bytes)
    (hold patience : Option Duration) : LockRequest where
  key
  holder
  hold := hold <|> s.settings.defaultHold
  giveUp := patience.bind now.after?
  claimant

/-- Tries to take a lock. -/
def attempt (s : Store) (now : Instant) (r : LockRequest) (waited : Bool) :
    Outcome Store Attempt :=
  s.onLocks (·.attempt now r waited)

/-- Releases a lock, which only its holder can. -/
def release (s : Store) (now : Instant) (claimant : Claimant) (key holder : Bytes) :
    Outcome Store (Except Fault Unit) :=
  s.onLocks (·.release now claimant key holder)

/-- **Releases a lock when nobody is there to be told** that it was lost:
a refusal is logged instead. -/
def relinquish (s : Store) (now : Instant) (claimant : Claimant) (key holder : Bytes) :
    Outcome Store Unit :=
  match s.release now claimant key holder with
  | ⟨s, happened, .ok _⟩ => ⟨s, happened, ()⟩
  | ⟨s, happened, .error _⟩ => ⟨s.note [.lost key holder], happened ++ [.lost key holder], ()⟩

/-- The hold of a key, if it is held. -/
def look (s : Store) (now : Instant) (key : Bytes) : Outcome Store (Option Hold) :=
  s.onLocks (·.consult now key)

/-- Begins to wait for the end of a key's hold, and answers with that hold. -/
def beginWait (s : Store) (now : Instant) (key : Bytes) : Outcome Store (Option Hold) :=
  s.onLocks (fun l =>
    match l.consult now key with
    | ⟨l, happened, held⟩ => ⟨l, .waitBegan key :: happened, held⟩)

/-- Looks whether a hold has ended. -/
def awaitEnd (s : Store) (now : Instant) (key : Bytes) (generation : Nat)
    (giveUp : Option Instant) : Outcome Store Wait :=
  s.onLocks (·.awaitEnd now key generation giveUp)

/-- Whether a holder may write under a key. -/
def permits (s : Store) (now : Instant) (key holder : Bytes) : Outcome Store Bool :=
  s.onLocks (·.permits now key holder)

/-- Sweeps up the holds that are over. -/
def sweep (s : Store) (now : Instant) : Outcome Store Nat := s.onLocks (·.sweep now)

/-- Clears all locks away. -/
def clearLocks (s : Store) : Outcome Store Unit := s.onLocks (·.clear)

/-- How many keys are held. -/
def heldCount (s : Store) (now : Instant) : Nat := s.locks.liveCount now

/-! ## Records -/

/-- How many records there are. -/
def recordTotal (s : Store) : Nat := s.records.size

/-- Reads a key's record. -/
def read (s : Store) (key : Bytes) : Outcome Store (Option Content) :=
  match s.records.get? key with
  | some content => s.noting [.hit key] (some content)
  | none => s.noting [.missed key] none

/-- **Writes a key's record**, unless another holder has the key. -/
def write (s : Store) (now : Instant) (claimant : Claimant) (key : Bytes) (content : Content)
    (holder : Bytes) : Outcome Store (Except Fault Unit) :=
  match s.permits now key holder with
  | ⟨s, happened, true⟩ =>
    let s := { s with records := s.records.put key content }
    let wrote := [.wrote claimant key holder content]
    ⟨s.note wrote, happened ++ wrote, .ok ()⟩
  | ⟨s, happened, false⟩ =>
    ⟨s.note [.conflicted key holder], happened ++ [.conflicted key holder],
      .error (.conflict key holder)⟩

end Store

end AdvisoryStore
