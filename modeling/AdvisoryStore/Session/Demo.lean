import AdvisoryStore.Session.Action

/-!
# The demo workload

Every worker of the demo workload runs the same keys in the same order, so
that most runs either wait for the worker that computes or find what it
stored. The computation takes a moment and yields a record that names its
key and the worker that made it.
-/

namespace AdvisoryStore.Demo

/-- The key of a number. -/
def key (i : Nat) : Bytes := utf8 "demo-txn-" ++ decimal i

/-- The holder a worker acts as. -/
def holder (worker : UInt32) : Bytes := utf8 "demo-worker-" ++ decimal worker.toNat

/-- How long a worker holds a key. -/
def hold : Duration := Duration.seconds 5

/-- What a worker does to compute. -/
def script : List Action := [.sleep (Duration.milliseconds 20)]

/-- What a worker computes for a key. -/
def content (key holder : Bytes) : Content where
  metadata := utf8 "application/json"
  payload :=
    utf8 "\x7b\"key\":\"" ++ key ++ utf8 "\",\"computed_by\":\"" ++ holder ++ utf8 "\"\x7d"

end AdvisoryStore.Demo
