import AdvisoryStore.Inspection

/-!
# What a caller can ask for

A caller's request to a session is an **action**. Most actions are
**operations**: they do what they do at once and have their answer. The
others may have to wait – for a lock, for the end of a hold, or for the
clock – and one of them, a run, brings a script of further actions that
are its computation.

Keeping the two apart keeps waiting out of everything that cannot wait:
what an operation does is one function on the world
(`World.perform`), and only the handful of other actions need the
machinery of calls that are suspended and resumed.
-/

namespace AdvisoryStore

/-- **A handle** for a lock that it took: it owns the lock until it lets
go of it, or until it is moved from. -/
structure Handle where
  /-- The store the lock is in. -/
  store : Nat
  key : Bytes
  holder : Bytes
  /-- Whether the lock is the handle's to release. -/
  owns : Bool
  deriving DecidableEq, Repr

/-- **What is done at once.** -/
inductive Operation
  | release (key holder : Bytes)
  | isHeld (key : Bytes)
  | isHeldBy (key holder : Bytes)
  | look (key : Bytes)
  | heldCount
  | counters
  /-- Shows the handle in a slot. -/
  | handleInfo (slot : Bytes)
  /-- Releases what the handle in a slot owns. -/
  | handleRelease (slot : Bytes)
  /-- Empties a slot, which lets go of what the handle in it owns. -/
  | handleDestroy (slot : Bytes)
  /-- Moves a handle from slot to slot. -/
  | handleMove (source target : Bytes)
  /-- Makes a change that nobody else's lock may be in the way of, and which
  may fail. -/
  | tryChange (key holder : Bytes) (fault : Option Fault)
  /-- Sweeps up the holds that are over. -/
  | sweep
  /-- Clears all locks away. -/
  | clear
  | read (key : Bytes)
  | write (key : Bytes) (content : Content) (holder : Bytes)
  /-- Asks whether a key has a record, without counting it as a read. -/
  | contains (key : Bytes)
  | recordTotal
  | settings
  /-- Asks for the exposition of the counters. -/
  | metrics
  | highlights
  | serve (request : Request)
  /-- Answers a request for a key's lock. -/
  | inspect (key : Bytes) (version : Nat) (keepAlive : Bool)
  /-- Replaces the environment. -/
  | setEnvironment (env : Environment)
  /-- Makes a further store and turns to it. -/
  | newStore (settings : StoreSettings)
  /-- Turns to the shared store, which is set up when there is none. -/
  | shared
  /-- Forgets which store is shared. -/
  | forgetShared
  /-- Turns to a store by number. -/
  | use (store : Nat)

/-- **What a caller can ask for.** -/
inductive Action
  | operation (o : Operation)
  /-- Takes a lock, waiting for it as long as there is patience. -/
  | acquire (key holder : Bytes) (hold patience : Option Duration)
  /-- Takes a lock into a slot. -/
  | lock (slot key holder : Bytes) (hold : Option Duration)
  /-- Waits for the end of a key's hold. -/
  | wait (key : Bytes) (patience : Option Duration)
  | sleep (d : Duration)
  /-- Computes a key's record at most once, by a script of actions that
  ends in `outcome`. -/
  | run (key holder : Bytes) (hold : Option Duration) (script : List Action)
      (outcome : Except Fault Content)
  /-- Runs the demo workload as one of its workers. -/
  | demo (worker keys : UInt32)

/-- **What a caller is answered.** -/
inductive Reply
  | done
  /-- There is no such thing. -/
  | absent
  | flag (b : Bool)
  | count (n : Nat)
  | failed (fault : Fault)
  | record (key : Bytes) (content : Content)
  | hold (h : Hold)
  | numbers (ns : List UInt64)
  | handle (h : Handle)
  /-- The handles in the two slots after a move. -/
  | moved (source target : Handle)
  /-- Whether a change was made under its key, and how many have been. -/
  | changed (made : Bool) (changes : Nat)
  | settings (s : StoreSettings)
  | text (t : Bytes)
  | response (r : Response)
  /-- The store that is now current. -/
  | turned (store : Nat) (settings : StoreSettings)
  /-- The result of a run, and the answers to its script. -/
  | ran (content : Content) (stored : Bool) (inner : List Reply)
  /-- A run computed and failed. -/
  | runFailed (fault : Fault) (inner : List Reply)

/-- **Whether a run computed**, of the answer of a run: it did unless it
was given a stored record. -/
def Reply.computed? : Reply → Option Bool
  | ran _ stored _ => some !stored
  | runFailed .. => some true
  | _ => none

/-- The holder that stands for callers who do not name themselves. They
are all the same holder, so that unnamed calls fit together. -/
def unnamedHolder : Bytes := utf8 "__default_holder__"

end AdvisoryStore
