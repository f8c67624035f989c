/-!
# Counters

A store counts what happens to it in nineteen **counters** of 64 bits,
which start at zero, only go up and wrap around. The list `Counter.all` is
the order in which they are reported (`AdvisoryStore.Exposition`), and a
counter's place in it is `Counter.index`.
-/

namespace AdvisoryStore

/-- **What is counted.** -/
inductive Counter
  /-- Requests served. -/
  | requests
  /-- Requests for the service's health. -/
  | healthRequests
  /-- Requests for the counters. -/
  | metricsRequests
  /-- Requests for a lock. -/
  | lockRequests
  /-- Requests for anything else. -/
  | otherRequests
  /-- Records asked for. -/
  | reads
  /-- Records asked for that were there. -/
  | hits
  /-- Records asked for that were not there. -/
  | misses
  /-- Records written. -/
  | writes
  /-- Writes refused because of another holder. -/
  | conflicts
  /-- Locks taken without waiting. -/
  | acquiredAtOnce
  /-- Locks asked for by their own holder. -/
  | reentered
  /-- Locks taken after waiting. -/
  | acquiredAfterWait
  /-- Locks given up on. -/
  | acquireTimeouts
  /-- Expired holds dropped. -/
  | expiredReclaimed
  /-- Locks released. -/
  | releases
  /-- Releases by one who did not hold the lock. -/
  | releasesRefused
  /-- Waits for a lock's end. -/
  | waits
  /-- Waits given up on. -/
  | waitTimeouts
  deriving DecidableEq, Repr

namespace Counter

/-- The counters, in the order in which they are reported. -/
def all : List Counter :=
  [requests, healthRequests, metricsRequests, lockRequests, otherRequests, reads, hits, misses,
    writes, conflicts, acquiredAtOnce, reentered, acquiredAfterWait, acquireTimeouts,
    expiredReclaimed, releases, releasesRefused, waits, waitTimeouts]

/-- How many counters there are. -/
abbrev count : Nat := 19

/-- A counter's place in the order. -/
def index : Counter → Fin count
  | requests => 0
  | healthRequests => 1
  | metricsRequests => 2
  | lockRequests => 3
  | otherRequests => 4
  | reads => 5
  | hits => 6
  | misses => 7
  | writes => 8
  | conflicts => 9
  | acquiredAtOnce => 10
  | reentered => 11
  | acquiredAfterWait => 12
  | acquireTimeouts => 13
  | expiredReclaimed => 14
  | releases => 15
  | releasesRefused => 16
  | waits => 17
  | waitTimeouts => 18

/-- The place of a counter is where the order has it. -/
theorem all_getElem?_index (c : Counter) : all[(c.index : Nat)]? = some c := by
  cases c <;> rfl

/-- No two counters share a place. -/
theorem index_inj {a b : Counter} : a.index = b.index ↔ a = b := by
  refine ⟨fun h => ?_, congrArg index⟩
  have := all_getElem?_index a
  rw [h, all_getElem?_index b] at this
  exact (Option.some.inj this).symm

end Counter

/-- **The values of the counters.** -/
structure Counters where
  /-- The values by place. -/
  values : Vector UInt64 Counter.count
  deriving DecidableEq, Repr

namespace Counters

/-- Nothing has been counted. -/
def zero : Counters := ⟨Vector.replicate _ 0⟩

instance : Inhabited Counters := ⟨zero⟩

/-- The value of a counter. -/
def get (cs : Counters) (c : Counter) : UInt64 := cs.values[c.index.val]

/-- Counts something `n` times. -/
def add (cs : Counters) (c : Counter) (n : Nat) : Counters :=
  ⟨cs.values.set c.index (cs.get c + UInt64.ofNat n)⟩

/-- Counts something once. -/
def bump (cs : Counters) (c : Counter) : Counters := cs.add c 1

/-- Counts everything in a list. -/
def bumpAll (cs : Counters) (counted : List Counter) : Counters := counted.foldl bump cs

/-- The values, in the order in which they are reported. -/
def toList (cs : Counters) : List UInt64 := Counter.all.map cs.get

/-- The four values a caller may ask for one by one: hits, writes, locks
given up on, and releases refused. -/
def highlights (cs : Counters) : List UInt64 :=
  [Counter.hits, .writes, .acquireTimeouts, .releasesRefused].map cs.get

@[simp] theorem get_zero (c : Counter) : zero.get c = 0 := by
  simp [get, zero]

/-- **Counting one thing leaves the others.** -/
theorem get_add (cs : Counters) (c d : Counter) (n : Nat) :
    (cs.add c n).get d = if d = c then cs.get d + UInt64.ofNat n else cs.get d := by
  by_cases h : d = c
  · subst h
    simp [add, get]
  · have apart : c.index.val ≠ d.index.val := fun eq => h (Counter.index_inj.mp (Fin.ext eq.symm))
    simp [add, get, h, apart]

@[simp] theorem bumpAll_nil (cs : Counters) : cs.bumpAll [] = cs := rfl

/-- Counting in two goes is counting in one. -/
theorem bumpAll_append (cs : Counters) (first second : List Counter) :
    cs.bumpAll (first ++ second) = (cs.bumpAll first).bumpAll second :=
  List.foldl_append

/-- **A counter goes up as often as it is counted**, modulo its range. -/
theorem get_bumpAll (cs : Counters) (counted : List Counter) (c : Counter) :
    (cs.bumpAll counted).get c = cs.get c + UInt64.ofNat (counted.count c) := by
  induction counted generalizing cs with
  | nil => simp
  | cons d rest ih =>
    rw [show cs.bumpAll (d :: rest) = (cs.bump d).bumpAll rest from rfl, ih, bump, get_add]
    by_cases h : c = d
    · subst h
      rw [if_pos rfl, List.count_cons_self, Nat.add_comm, UInt64.ofNat_add, UInt64.add_assoc]
    · rw [if_neg h, List.count_cons_of_ne (Ne.symm h)]

end Counters

end AdvisoryStore
