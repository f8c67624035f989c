import AdvisoryStore.Session.Action

/-!
# The world of a session

A **world** is what the callers of a session share: the stores, which of
them is current and which is the shared one, the environment, and the
slots that hold handles. What happened in the stores is recorded as it
happens (`World.events`), with the store and the clock.

Time is not part of the world. It stands still while anything is done and
is passed to what asks for it.
-/

namespace AdvisoryStore

/-- **Something that happened**, where and when. -/
structure Event where
  /-- The store it happened in. -/
  store : Nat
  time : Instant
  what : Happening
  deriving DecidableEq, Repr

/-- **What the callers of a session share.** -/
structure World where
  /-- How new stores spread keys over cells. -/
  hash : Bytes → Nat
  /-- The stores, by number. -/
  stores : List Store
  /-- The store that actions are about. -/
  current : Nat
  /-- The shared store, once it is set up. -/
  shared : Option Nat
  environment : Environment
  /-- The handles that are kept, by slot. -/
  slots : KeyMap Handle
  /-- How many changes have been made under keys. -/
  changes : Nat
  /-- What happened, newest first. -/
  events : List Event

namespace World

/-- A world with one store. -/
def new (hash : Bytes → Nat) (settings : StoreSettings) (environment : Environment) : World where
  hash
  stores := [.new hash settings]
  current := 0
  shared := none
  environment
  slots := .empty
  changes := 0
  events := []

/-- A store by number. -/
def store (w : World) (i : Nat) : Store := w.stores.getD i default

/-- The store that actions are about. -/
def currentStore (w : World) : Store := w.store w.current

/-- What became of a store is put in its place, and what happened is
recorded. In a store that is not there nothing happens. -/
def putBack (w : World) (now : Instant) (i : Nat) (s : Store) (happened : List Happening) : World :=
  if i < w.stores.length then
    { w with
      stores := w.stores.set i s
      events := (happened.map (Event.mk i now)).reverse ++ w.events }
  else
    w

/-- **An operation of one store as an operation on the world.** -/
def on {α : Type} (w : World) (now : Instant) (i : Nat) (f : Store → Outcome Store α) :
    World × α :=
  match f (w.store i) with
  | ⟨s, happened, answer⟩ => (w.putBack now i s happened, answer)

/-- Something happens in a store. -/
def note (w : World) (now : Instant) (i : Nat) (what : Happening) : World :=
  (w.on now i (·.noting [what] ())).1

/-! ## Handles -/

/-- Lets go of a lock when nobody is there to be told that it was lost. -/
def relinquish (w : World) (now : Instant) (i : Nat) (claimant : Claimant) (key holder : Bytes) :
    World :=
  (w.on now i (·.relinquish now claimant key holder)).1

/-- **Lets go of what a handle owns.** -/
def letGo (w : World) (now : Instant) (h : Handle) : World :=
  if h.owns then w.relinquish now h.store .handle h.key h.holder else w

/-- Lets go of what the handle in a slot owns, if there is one. -/
def vacate (w : World) (now : Instant) (slot : Bytes) : World :=
  match w.slots.get? slot with
  | none => w
  | some old => w.letGo now old

/-- **Puts a handle into a slot.** A handle that was there lets go first,
even of the very lock that the new one has just taken again. -/
def place (w : World) (now : Instant) (slot : Bytes) (h : Handle) : World :=
  let w := w.vacate now slot
  { w with slots := w.slots.insert slot h }

/-- **Moves a handle between slots.** What stays behind owns nothing. A
move from a slot to itself is none. -/
def move (w : World) (now : Instant) (source target : Bytes) : World × Reply :=
  match w.slots.get? source with
  | none => (w, .absent)
  | some h =>
    if source = target then
      (w, .moved h h)
    else
      let w := w.place now target h
      let left := { h with owns := false }
      ({ w with slots := w.slots.insert source left }, .moved left h)

/-- Releases what the handle in a slot owns. From then on it owns nothing,
whether the lock was still held or not. -/
def handleRelease (w : World) (now : Instant) (slot : Bytes) : World × Reply :=
  match w.slots.get? slot with
  | none => (w, .absent)
  | some h =>
    if h.owns then
      let w := { w with slots := w.slots.insert slot { h with owns := false } }
      match w.on now h.store (·.release now .handle h.key h.holder) with
      | (w, .ok _) => (w, .done)
      | (w, .error fault) => (w, .failed fault)
    else
      (w, .done)

/-- Empties a slot. -/
def handleDestroy (w : World) (now : Instant) (slot : Bytes) : World × Reply :=
  match w.slots.get? slot with
  | none => (w, .absent)
  | some h => ({ w with slots := w.slots.erase slot }.letGo now h, .done)

/-! ## Stores -/

/-- Adds a store and turns to it. -/
def addStore (w : World) (settings : StoreSettings) : World :=
  { w with stores := w.stores ++ [.new w.hash settings], current := w.stores.length }

/-- **Turns to the shared store.** It is set up from the environment of the
moment, and an environment that is not valid leaves everything as it was. -/
def turnToShared (w : World) (now : Instant) : World × Reply :=
  match w.shared with
  | some i => ({ w with current := i }, .turned i (w.store i).settings)
  | none =>
    match StoreSettings.ofEnvironment w.environment with
    | .error fault => (w, .failed (.badSettings fault))
    | .ok settings =>
      let i := w.stores.length
      let w := { w.addStore settings with shared := some i }
      (w.note now i (.created settings.shards), .turned i settings)

/-! ## Operations -/

/-- Makes a change under a key that nobody else's lock is in the way of. -/
def tryChange (w : World) (now : Instant) (key holder : Bytes) (fault : Option Fault) :
    World × Reply :=
  match w.on now w.current (·.permits now key holder) with
  | (w, false) => (w, .changed false w.changes)
  | (w, true) =>
    let w := { w with changes := w.changes + 1 }
    match fault with
    | none => (w, .changed true w.changes)
    | some fault => (w, .failed fault)

/-- **Does at once what can be done at once.** -/
def perform (w : World) (now : Instant) : Operation → World × Reply
  | .release key holder =>
    match w.on now w.current (·.release now .caller key holder) with
    | (w, .ok _) => (w, .done)
    | (w, .error fault) => (w, .failed fault)
  | .isHeld key =>
    match w.on now w.current (·.look now key) with
    | (w, held) => (w, .flag held.isSome)
  | .isHeldBy key holder =>
    match w.on now w.current (·.look now key) with
    | (w, held) => (w, .flag (held.any (fun h => h.holder = holder)))
  | .look key =>
    match w.on now w.current (·.look now key) with
    | (w, none) => (w, .absent)
    | (w, some h) => (w, .hold h)
  | .heldCount => (w, .count (w.currentStore.heldCount now))
  | .counters => (w, .numbers w.currentStore.counters.toList)
  | .handleInfo slot =>
    match w.slots.get? slot with
    | none => (w, .absent)
    | some h => (w, .handle h)
  | .handleRelease slot => w.handleRelease now slot
  | .handleDestroy slot => w.handleDestroy now slot
  | .handleMove source target => w.move now source target
  | .tryChange key holder fault => w.tryChange now key holder fault
  | .sweep =>
    match w.on now w.current (·.sweep now) with
    | (w, n) => (w, .count n)
  | .clear => ((w.on now w.current (·.clearLocks)).1, .done)
  | .read key =>
    match w.on now w.current (·.read key) with
    | (w, none) => (w, .absent)
    | (w, some content) => (w, .record key content)
  | .write key content holder =>
    match w.on now w.current (·.write now .caller key content holder) with
    | (w, .ok _) => (w, .done)
    | (w, .error fault) => (w, .failed fault)
  | .contains key => (w, .flag (w.currentStore.records.contains key))
  | .recordTotal => (w, .count w.currentStore.recordTotal)
  | .settings => (w, .settings w.currentStore.settings)
  | .metrics => (w, .text (Exposition.render w.currentStore.counters))
  | .highlights => (w, .numbers w.currentStore.counters.highlights)
  | .serve request =>
    match w.on now w.current (·.serve now request) with
    | (w, response) => (w, .response response)
  | .inspect key version keepAlive =>
    match w.on now w.current (·.inspectLock now key version keepAlive) with
    | (w, response) => (w, .response response)
  | .setEnvironment env => ({ w with environment := env }, .done)
  | .newStore settings => (w.addStore settings, .turned w.stores.length settings)
  | .shared => w.turnToShared now
  | .forgetShared => ({ w with shared := none }, .done)
  | .use i => (if i < w.stores.length then { w with current := i } else w, .done)

end World

end AdvisoryStore
