import AdvisoryStore.Happening
import AdvisoryStore.KeyMap
import AdvisoryStore.Sharded
import AdvisoryStore.Time

/-!
# Advisory locks

A key may be **held**. A hold belongs to a holder, began at some instant,
and may have a deadline; it lasts through its deadline and is over one
nanosecond later. Locks are advisory: they stop nobody who does not ask.

Expiry is lazy. A hold that is over stays stored until its key is
consulted, or until expired holds are swept up, and counts as gone from
the moment it is over. `live?` is therefore what a key's lock *is*, and
`stored?` only what is written down about it.

Whoever has to wait for a lock waits at its cell's **bell**. The bell is
rung when a hold of the cell ends by someone's doing – a release, a sweep
that found something, a clearing – and not when a hold ends by the clock
alone, since the deadline was known to whoever waited. `rings` counts how
often that was, so that a caller who heard `n` rings knows whether there
has been another.

Each grant of a cell has a **generation** of its own. It tells a hold from
a later one of the same key, by the same holder, begun at the same instant
– which is what one who waits for the end of *this* hold has to know.
-/

namespace AdvisoryStore

/-- **A grant of a lock.** -/
structure Hold where
  /-- Who holds the lock. -/
  holder : Bytes
  /-- When the hold began. -/
  since : Instant
  /-- The last instant of the hold, if there is one. -/
  deadline : Option Instant
  /-- Which grant of its cell this is. -/
  generation : Nat
  deriving DecidableEq, Repr

/-- Whether a hold is over: its deadline has passed. -/
def Hold.expired (h : Hold) (now : Instant) : Bool :=
  match h.deadline with
  | none => false
  | some deadline => deadline < now

/-- **The locks of the keys of one cell.** -/
structure LockCell where
  /-- The holds that are stored, whether they are over or not. -/
  holds : KeyMap Hold
  /-- How many grants there have been, which is the generation of the next. -/
  grants : Nat
  /-- How often the cell's bell has rung. -/
  rings : Nat

namespace LockCell

/-- No lock of the cell is held, and none has been. -/
def empty : LockCell := ⟨.empty, 0, 0⟩

instance : Inhabited LockCell := ⟨empty⟩

/-- Rings the bell. -/
def ring (c : LockCell) : LockCell := { c with rings := c.rings + 1 }

/-- Drops the hold of a key. -/
def drop (key : Bytes) (c : LockCell) : LockCell := { c with holds := c.holds.erase key }

/-- Grants a key's lock. -/
def grant (key holder : Bytes) (now : Instant) (deadline : Option Instant) (c : LockCell) :
    LockCell :=
  { c with
    holds := c.holds.insert key ⟨holder, now, deadline, c.grants⟩
    grants := c.grants + 1 }

/-- The holds that are over, by key. -/
def overdue (now : Instant) (c : LockCell) : List (Bytes × Hold) :=
  c.holds.entries.filter (fun e => e.2.expired now)

/-- Drops the holds that are over, and rings if there were any. -/
def sweep (now : Instant) (c : LockCell) : LockCell :=
  let kept := { c with holds := c.holds.filter (fun _ h => !h.expired now) }
  if (c.overdue now).isEmpty then kept else kept.ring

/-- Drops all holds and rings. -/
def clear (c : LockCell) : LockCell := ring { c with holds := .empty }

/-- How many holds are not over. -/
def liveCount (now : Instant) (c : LockCell) : Nat :=
  (c.holds.filter (fun _ h => !h.expired now)).size

end LockCell

/-- **The locks of a store**, by key. -/
structure Locks where
  /-- The cells the keys are spread over. -/
  cells : Sharded LockCell

/-- **A wish for a lock**, fixed when it is first made. -/
structure LockRequest where
  /-- The key whose lock is wanted. -/
  key : Bytes
  /-- Who wants it. -/
  holder : Bytes
  /-- How long it is to be held, if not until it is released. -/
  hold : Option Duration
  /-- When to give up, if ever. -/
  giveUp : Option Instant
  /-- On whose behalf. -/
  claimant : Claimant
  deriving DecidableEq, Repr

/-- **What came of an attempt to take a lock.** -/
inductive Attempt
  /-- The lock is the holder's, newly or still. -/
  | granted
  /-- The time to give up has come. -/
  | gaveUp
  /-- Another hold is in the way, and there is time to wait for its end. -/
  | blockedBy (h : Hold)
  deriving DecidableEq, Repr

/-- **What came of waiting for the end of a hold.** -/
inductive Wait
  /-- The hold is over. -/
  | ended
  /-- The time to give up has come. -/
  | gaveUp
  /-- The hold goes on. -/
  | heldBy (h : Hold)
  deriving DecidableEq, Repr

namespace Locks

/-- No locks are held. -/
def new (hash : Bytes → Nat) (shards : Nat) : Locks := ⟨.replicate hash shards .empty⟩

instance : Inhabited Locks := ⟨new (fun _ => 0) 1⟩

/-! ## Reading -/

/-- What is stored about a key's lock. -/
def stored? (l : Locks) (key : Bytes) : Option Hold := (l.cells.get key).holds.get? key

/-- **The hold of a key**, if it is held. -/
def live? (l : Locks) (now : Instant) (key : Bytes) : Option Hold :=
  (l.stored? key).filter (fun h => !h.expired now)

/-- How often the bell of a key's cell has rung. -/
def rings (l : Locks) (key : Bytes) : Nat := (l.cells.get key).rings

/-- How many keys are held. -/
def liveCount (l : Locks) (now : Instant) : Nat := l.cells.total (LockCell.liveCount now)

/-- How many holds are stored. -/
def storedCount (l : Locks) : Nat := l.cells.total (fun c => c.holds.size)

/-! ## Changes -/

/-- Drops what is stored about a key's lock. -/
def drop (l : Locks) (key : Bytes) : Locks := ⟨l.cells.update key (LockCell.drop key)⟩

/-- Grants a key's lock. -/
def grant (l : Locks) (key holder : Bytes) (now : Instant) (deadline : Option Instant) : Locks :=
  ⟨l.cells.update key (LockCell.grant key holder now deadline)⟩

/-- Rings the bell of a key's cell. -/
def ring (l : Locks) (key : Bytes) : Locks := ⟨l.cells.update key LockCell.ring⟩

/-! ## Operations -/

/-- **Looks at a key's lock**, and drops a hold that is over. -/
def consult (l : Locks) (now : Instant) (key : Bytes) : Outcome Locks (Option Hold) :=
  match l.stored? key with
  | none => ⟨l, [], none⟩
  | some h => if h.expired now then ⟨l.drop key, [.expired key h.holder], none⟩ else ⟨l, [], some h⟩

/-- **Tries to take a lock.** A free key is granted; the holder of a key is
let in again, and its hold stays as it was; anyone else gives up if it is
time to, and has to wait if it is not. `waited` says whether this is a
later try of one who had to wait before. -/
def attempt (l : Locks) (now : Instant) (r : LockRequest) (waited : Bool) :
    Outcome Locks Attempt :=
  match l.consult now r.key with
  | ⟨l, happened, none⟩ =>
    ⟨l.grant r.key r.holder now (r.hold.bind now.after?),
      happened ++ [.acquired r.claimant r.key r.holder waited], .granted⟩
  | ⟨l, happened, some h⟩ =>
    if h.holder = r.holder then
      ⟨l, happened ++ [.reentered r.claimant r.key r.holder], .granted⟩
    else if reached now r.giveUp then
      ⟨l, happened ++ [.timedOut r.key r.holder h.holder], .gaveUp⟩
    else
      ⟨l, happened, .blockedBy h⟩

/-- **Releases a lock**, which only its holder can. -/
def release (l : Locks) (now : Instant) (claimant : Claimant) (key holder : Bytes) :
    Outcome Locks (Except Fault Unit) :=
  match l.consult now key with
  | ⟨l, happened, held⟩ =>
    if held.any (fun h => h.holder = holder) then
      ⟨(l.drop key).ring key, happened ++ [.released claimant key holder], .ok ()⟩
    else
      ⟨l, happened ++ [.refused claimant key holder], .error (.notHolder key holder)⟩

/-- **Whether a holder may write** under a key: nobody else holds it. -/
def permits (l : Locks) (now : Instant) (key holder : Bytes) : Outcome Locks Bool :=
  match l.consult now key with
  | ⟨l, happened, held⟩ => ⟨l, happened, held.all (fun h => h.holder = holder)⟩

/-- **Looks whether a hold has ended.** A later hold of the same key means
that it has. -/
def awaitEnd (l : Locks) (now : Instant) (key : Bytes) (generation : Nat)
    (giveUp : Option Instant) : Outcome Locks Wait :=
  match l.consult now key with
  | ⟨l, happened, none⟩ => ⟨l, happened, .ended⟩
  | ⟨l, happened, some h⟩ =>
    if h.generation ≠ generation then ⟨l, happened, .ended⟩
    else if reached now giveUp then ⟨l, happened ++ [.waitTimedOut key], .gaveUp⟩
    else ⟨l, happened, .heldBy h⟩

/-- **Sweeps up the holds that are over**, and tells how many there were. -/
def sweep (l : Locks) (now : Instant) : Outcome Locks Nat :=
  let overdue := l.cells.toList.flatMap (LockCell.overdue now)
  ⟨⟨l.cells.map (LockCell.sweep now)⟩, overdue.map (fun e => .swept e.1 e.2.holder),
    overdue.length⟩

/-- **Clears all locks away.** -/
def clear (l : Locks) : Outcome Locks Unit :=
  ⟨⟨l.cells.map LockCell.clear⟩, [.cleared l.storedCount], ()⟩

end Locks

end AdvisoryStore
