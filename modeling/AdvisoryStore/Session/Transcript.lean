import AdvisoryStore.Session.Schedule

/-!
# Sessions from outside

A session is driven by **commands**, one at a time: an action is started
as a call of its own, or the clock is moved. After each of them the calls
that have become ready are resumed, and what can be seen then is put into
a **report** – the answer if there is one, the clock, the counts, the
lines that were logged, and the earlier calls that came to their answers.

At the end the handles that are still kept are destroyed, in the byte
order of their slots.
-/

namespace AdvisoryStore

/-- **What drives a session.** -/
inductive Command
  /-- A call is made. -/
  | call (a : Action)
  /-- The clock is moved on. -/
  | advance (d : Duration)
  /-- The clock runs until no call is to look again. -/
  | settle

/-- **What can be seen of a command.** -/
structure Report where
  /-- The answer, if the command did not have to wait for it. -/
  reply : Option Reply
  now : Instant
  /-- How many keys of the current store are held. -/
  locked : Nat
  /-- How many records the current store has. -/
  records : Nat
  /-- What was written to the log. -/
  out : Bytes
  /-- What was written to the log of errors. -/
  err : Bytes
  /-- The calls that came to their answers, in that order. -/
  woken : List Return

/-- What was put in front of a list, oldest first. -/
def addedTo {α : Type} (old new : List α) : List α := (new.take (new.length - old.length)).reverse

namespace World

/-- The line that an event leaves in the log of its store. -/
def line? (w : World) (e : Event) : Option Line := e.what.line? (w.store e.store).settings.verbose

/-- What events write to one of the two logs. -/
def written (w : World) (stream : Stream) (events : List Event) : Bytes :=
  (events.filterMap w.line?).flatMap (fun line => if line.stream = stream then line.text else [])

end World

namespace Session

/-- A session that begins with one store. -/
def start (hash : Bytes → Nat) (settings : StoreSettings) (environment : Environment)
    (now : Instant) : Session where
  now
  world := .new hash settings environment
  calls := []
  returned := []
  nextId := 0

/-- **Makes a call**, which goes on as far as it can. -/
def call (s : Session) (a : Action) : Session × Option Reply :=
  let outcome := Control.run s.now s.world ⟨.perform a, []⟩
  ({ s with nextId := s.nextId + 1 }.file s.calls s.nextId [] outcome, outcome.2.reply?)

/-- Moves the clock by a command that does so, or resumes what is ready. -/
def follow (s : Session) : Command → Session
  | .call _ => s.drain
  | .advance d => s.advance d
  | .settle => s.settle

/-- The part of a command that happens before other calls are resumed. -/
def issue (s : Session) : Command → Session × Option Reply
  | .call a => s.call a
  | _ => ({ s with nextId := s.nextId + 1 }, some .done)

/-- What can be seen after a command that was given in `s`, had been issued
in `issued`, and came to an end in `final`. -/
def report (s issued final : Session) (reply : Option Reply) : Report :=
  let events := addedTo s.world.events final.world.events
  { reply
    now := final.now
    locked := final.world.currentStore.heldCount final.now
    records := final.world.currentStore.recordTotal
    out := final.world.written .out events
    err := final.world.written .err events
    woken := addedTo issued.returned final.returned }

/-- **Carries out a command.** -/
def carryOut (s : Session) (c : Command) : Session × Report :=
  let (issued, reply) := s.issue c
  let final := issued.follow c
  (final, s.report issued final reply)

/-- Carries out commands one after the other. -/
def carryOutAll (s : Session) : List Command → Session × List Report
  | [] => (s, [])
  | c :: rest =>
    let (s, report) := s.carryOut c
    let (s, reports) := s.carryOutAll rest
    (s, report :: reports)

/-- **Destroys the handles that are still kept**, in the byte order of
their slots, and resumes what this wakes. -/
def close (s : Session) : Session × Report :=
  let world := (inByteOrder s.world.slots.keys).foldl
    (fun w slot => (w.handleDestroy s.now slot).1) s.world
  let issued := { s with world }
  let final := issued.drain
  (final, s.report issued final (some .done))

/-- The calls that still wait. -/
def pending (s : Session) : List Nat := s.calls.map Call.id

end Session

end AdvisoryStore
