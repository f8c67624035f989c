import AdvisoryStore.Counter
import AdvisoryStore.Fault
import AdvisoryStore.Records

/-!
# What happens in a store

An operation on a store has three effects: it changes the state, it is
counted, and it may be logged. The state is what the operation returns;
the other two are both read off a list of **happenings**, which says what
the operation did, in order. `Happening.counted` is what each of them adds
to the counters, and `Happening.line?` the line it leaves in the log.

Whether a store is verbose decides which lines are written and nothing
else. A happening does not know about it, so that no operation can come to
depend on it: the flag is asked for when the lines are read off the list,
after the fact.
-/

namespace AdvisoryStore

/-- **On whose behalf a lock is taken or released.** -/
inductive Claimant
  /-- The caller, who names key and holder. -/
  | caller
  /-- A handle, which owns what it took. -/
  | handle
  /-- A run, for as long as it lasts. -/
  | run
  deriving DecidableEq, Repr

/-- What a request is about. -/
inductive Topic
  | health
  | metrics
  | locks
  | other
  deriving DecidableEq, Repr

/-- **Something that happened in a store.** -/
inductive Happening
  /-- An expired hold was met and dropped. -/
  | expired (key holder : Bytes)
  /-- An expired hold was swept up. -/
  | swept (key holder : Bytes)
  /-- A lock was taken, perhaps after waiting for it. -/
  | acquired (claimant : Claimant) (key holder : Bytes) (waited : Bool)
  /-- A lock was asked for by the one who holds it. -/
  | reentered (claimant : Claimant) (key holder : Bytes)
  /-- A lock was given up on, while `heldBy` held it. -/
  | timedOut (key holder heldBy : Bytes)
  /-- A lock was released. -/
  | released (claimant : Claimant) (key holder : Bytes)
  /-- A release was refused: the holder did not hold the lock. -/
  | refused (claimant : Claimant) (key holder : Bytes)
  /-- A release that nobody waits for was refused. -/
  | lost (key holder : Bytes)
  /-- Someone began to wait for the end of a hold. -/
  | waitBegan (key : Bytes)
  /-- Someone gave up waiting for the end of a hold. -/
  | waitTimedOut (key : Bytes)
  /-- All locks were cleared away, `dropped` of them. -/
  | cleared (dropped : Nat)
  /-- A record was asked for and was there. -/
  | hit (key : Bytes)
  /-- A record was asked for and was not there. -/
  | missed (key : Bytes)
  /-- A record was written. -/
  | wrote (claimant : Claimant) (key holder : Bytes) (content : Content)
  /-- A write was refused because of another holder. -/
  | conflicted (key holder : Bytes)
  /-- A request was answered. -/
  | served (topic : Topic)
  /-- A run found its key's record, which is its result. -/
  | cached (key holder : Bytes) (content : Content)
  /-- A run found no record and began to compute. -/
  | computing (key holder : Bytes)
  /-- A run's computation came to its end, with a result or without. -/
  | computed (key holder : Bytes)
  /-- A run stored what it computed, which is its result. -/
  | committed (key holder : Bytes) (content : Content)
  /-- A worker of the demo workload was given a stored record. -/
  | reused (key holder : Bytes)
  /-- A run of the demo workload failed. -/
  | demoFailed (key : Bytes) (fault : Fault)
  /-- The shared store was set up. -/
  | created (shards : Nat)
  deriving DecidableEq, Repr

/-- Where a line goes. -/
inductive Stream
  | out
  | err
  deriving DecidableEq, Repr

/-- **A line of the log**, newline and all. -/
structure Line where
  stream : Stream
  text : Bytes
  deriving DecidableEq, Repr

namespace Happening

/-- The counters that something adds to. -/
def counted : Happening → List Counter
  | expired .. => [.expiredReclaimed]
  | swept .. => [.expiredReclaimed]
  | acquired _ _ _ waited => [if waited then .acquiredAfterWait else .acquiredAtOnce]
  | reentered .. => [.reentered]
  | timedOut .. => [.acquireTimeouts]
  | released .. => [.releases]
  | refused .. => [.releasesRefused]
  | waitBegan .. => [.waits]
  | waitTimedOut .. => [.waitTimeouts]
  | hit .. => [.reads, .hits]
  | missed .. => [.reads, .misses]
  | wrote .. => [.writes]
  | conflicted .. => [.conflicts]
  | served .health => [.requests, .healthRequests]
  | served .metrics => [.requests, .metricsRequests]
  | served .locks => [.requests, .lockRequests]
  | served .other => [.requests, .otherRequests]
  | lost .. | cleared .. | cached .. | computing .. | computed .. | committed .. => []
  | reused .. | demoFailed .. | created .. => []

/-- Key and holder as a line names them. -/
def parties (key holder : Bytes) : Bytes := utf8 "key=" ++ key ++ utf8 " holder=" ++ holder

/-- A line with its tag in front and its newline behind. -/
def tagged (tag : String) (text : Bytes) : Bytes :=
  utf8 "[" ++ utf8 tag ++ utf8 "] " ++ text ++ utf8 "\n"

/-- The text that something leaves in the log of a verbose store. -/
def detail? : Happening → Option Bytes
  | expired key holder => some (tagged "lock-expired" (parties key holder))
  | acquired _ key holder _ => some (tagged "lock-acquired" (parties key holder))
  | timedOut key holder heldBy =>
    some (tagged "lock-timeout" (parties key holder ++ utf8 " held_by=" ++ heldBy))
  | released _ key holder => some (tagged "lock-released" (parties key holder))
  | cached key holder _ => some (tagged "txn-cached" (parties key holder))
  | reused key holder => some (tagged "demo" (parties key holder ++ utf8 " reused cached result"))
  | _ => none

/-- The line that something leaves in every store's log. -/
def notice? : Happening → Option Line
  | lost key holder =>
    some ⟨.err, tagged "lock-release-error" (Fault.notHolder key holder).message⟩
  | committed key holder content =>
    some ⟨.out, tagged "txn-committed"
      (parties key holder ++ utf8 " bytes=" ++ decimal content.payload.length)⟩
  | demoFailed key fault => some ⟨.err, tagged "demo-error" (fault.complaint key)⟩
  | created shards => some ⟨.out, tagged "record-store" (utf8 "created shards=" ++ decimal shards)⟩
  | _ => none

/-- **The line that something leaves in the log**, if any. -/
def line? (verbose : Bool) (h : Happening) : Option Line :=
  match h.notice? with
  | some line => some line
  | none => if verbose then h.detail?.map (Line.mk .out) else none

end Happening

/-- **What an operation leaves behind**: the state after it, what happened,
oldest first, and its answer. -/
structure Outcome (σ α : Type) where
  /-- The state after the operation. -/
  after : σ
  /-- What happened, oldest first. -/
  happened : List Happening
  /-- The answer. -/
  answer : α

end AdvisoryStore
