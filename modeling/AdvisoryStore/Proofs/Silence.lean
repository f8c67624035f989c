import AdvisoryStore.Session.Transcript

/-!
# The same session without tracing

Whether a store is verbose is one of its settings, and settings come into a
session from four sides: from the store it begins with, from the commands
that add a store or replace the environment, and from scripts that hold such
commands. **Silencing** turns the flag off wherever it stands, and leaves
everything else. It is a function on every kind of thing a session is made
of, and this module says that it commutes with everything a session does:
with the operations of a store, with those of the world, with the moves of a
call and with the rounds in which calls are resumed.

That there is nothing to be said about the flag along the way is what the
design of the log comes to. An operation answers with what happened and
leaves it to others to make lines of that, so no operation of a store looks
at the flag (`Store.Deaf`), and from there on upwards every level passes it
through.

An environment has the flag as a text. One that switches it on is replaced
by one that switches it off; a text that is not valid stays as it is, since
it has to be refused with the same words (`ofEnvironment_silent`).
-/

namespace AdvisoryStore

/-! ## Settings -/

/-- Settings with tracing off. -/
def StoreSettings.silent (s : StoreSettings) : StoreSettings := { s with verbose := false }

/-- The text of a flag that is not on. -/
def silenceText (text : Bytes) : Bytes :=
  if flagOn.contains (untilZero text) then utf8 "0" else text

/-- An environment with tracing off. -/
def Environment.silent (env : Environment) : Environment := fun v =>
  if v = .verbose then (env v).map silenceText else env v

/-- The other variables are left. -/
theorem Environment.value_silent {env : Environment} {v : Variable} (other : v ≠ .verbose) :
    env.silent.value v = env.value v := by
  simp [value, silent, other]

/-- A flag that can be read is off, and what is refused is refused with the
same words. -/
theorem readFlag_silenceText (source : SettingSource) (text : Bytes) :
    readFlag source (untilZero (silenceText text))
      = (readFlag source (untilZero text)).map (fun _ => false) := by
  unfold silenceText readFlag
  by_cases on : untilZero text ∈ flagOn
  · rw [if_pos on, if_pos (List.contains_iff_mem.mpr on)]
    rfl
  · rw [if_neg on, if_neg (mt List.contains_iff_mem.mp on), if_neg on]
    split <;> rfl

/-- **The settings in a silenced environment** are those in the environment,
silenced; and refused for the same reason. -/
theorem StoreSettings.ofEnvironment_silent (env : Environment) :
    ofEnvironment env.silent = (ofEnvironment env).map silent := by
  have flag : readOr false (readFlag (.ofVariable .verbose)) (env.silent.value .verbose)
      = (readOr false (readFlag (.ofVariable .verbose)) (env.value .verbose)).map
        (fun _ => false) := by
    simp only [Environment.value, Environment.silent, if_true]
    cases env .verbose with
    | none => rfl
    | some text => exact readFlag_silenceText ..
  simp only [ofEnvironment, flag]
  rw [Environment.value_silent (by decide), Environment.value_silent (by decide)]
  cases readOr (α := Nat) 16 readShards (env.value .shards) with
  | error fault => rfl
  | ok shards =>
    cases readOr (α := Option Duration) none readHold (env.value .holdMilliseconds) with
    | error fault => rfl
    | ok hold =>
      cases readOr false (readFlag (.ofVariable .verbose)) (env.value .verbose) <;> rfl

/-! ## Stores -/

/-- What an operation leaves behind, with the state read another way. -/
def Outcome.map {σ τ α : Type} (f : σ → τ) (o : Outcome σ α) : Outcome τ α :=
  { o with after := f o.after }

namespace Store

/-- A store with tracing off. -/
def silent (s : Store) : Store := { s with settings := s.settings.silent }

/-- **An operation that does not look at the flag**: done in a silenced store
it leaves the store that it would have left, silenced; and the same happens
and is answered. -/
def Deaf {α : Type} (f : Store → Outcome Store α) : Prop := ∀ s, f s.silent = (f s).map silent

variable {α : Type}

/-- A remark is made whatever the flag is. -/
@[simp] theorem deaf_noting (happened : List Happening) (answer : α) :
    Deaf (·.noting happened answer) :=
  fun _ => rfl

/-- No operation on the locks looks at the flag. -/
theorem deaf_onLocks (f : Locks → Outcome Locks α) : Deaf (·.onLocks f) := fun _ => rfl

@[simp] theorem deaf_attempt (now : Instant) (r : LockRequest) (waited : Bool) :
    Deaf (·.attempt now r waited) := deaf_onLocks _

@[simp] theorem deaf_release (now : Instant) (claimant : Claimant) (key holder : Bytes) :
    Deaf (·.release now claimant key holder) := deaf_onLocks _

@[simp] theorem deaf_look (now : Instant) (key : Bytes) : Deaf (·.look now key) := deaf_onLocks _

@[simp] theorem deaf_beginWait (now : Instant) (key : Bytes) : Deaf (·.beginWait now key) :=
  deaf_onLocks _

@[simp] theorem deaf_awaitEnd (now : Instant) (key : Bytes) (generation : Nat)
    (giveUp : Option Instant) : Deaf (·.awaitEnd now key generation giveUp) := deaf_onLocks _

@[simp] theorem deaf_permits (now : Instant) (key holder : Bytes) :
    Deaf (·.permits now key holder) := deaf_onLocks _

@[simp] theorem deaf_sweep (now : Instant) : Deaf (·.sweep now) := deaf_onLocks _

@[simp] theorem deaf_clearLocks : Deaf (·.clearLocks) := deaf_onLocks _

/-- Letting go does not look at the flag, though it says that a lock was lost. -/
@[simp] theorem deaf_relinquish (now : Instant) (claimant : Claimant) (key holder : Bytes) :
    Deaf (·.relinquish now claimant key holder) := by
  intro s
  have deaf := deaf_release now claimant key holder s
  simp only [relinquish, deaf]
  generalize s.release now claimant key holder = released
  obtain ⟨after, happened, answer⟩ := released
  cases answer <;> rfl

/-- What is read under a key does not depend on the flag. -/
@[simp] theorem deaf_read (key : Bytes) : Deaf (·.read key) := by
  intro s
  have same : s.silent.records.get? key = s.records.get? key := rfl
  simp only [read, same]
  cases s.records.get? key <;> rfl

/-- Nor does whether a write goes through. -/
@[simp] theorem deaf_write (now : Instant) (claimant : Claimant) (key : Bytes) (content : Content)
    (holder : Bytes) : Deaf (·.write now claimant key content holder) := by
  intro s
  have deaf := deaf_permits now key holder s
  simp only [write, deaf]
  generalize s.permits now key holder = asked
  obtain ⟨after, happened, answer⟩ := asked
  cases answer <;> rfl

/-- An answer about a lock shows no flag. -/
@[simp] theorem deaf_inspectLock (now : Instant) (key : Bytes) (version : Nat) (keepAlive : Bool) :
    Deaf (·.inspectLock now key version keepAlive) := by
  intro s
  have deaf := deaf_look now key s
  simp only [inspectLock, deaf]
  generalize s.look now key = looked
  obtain ⟨after, happened, answer⟩ := looked
  cases answer <;> rfl

/-- A request is answered without a look at the flag, be its target a lock or not. -/
theorem deaf_answer (now : Instant) (r : Request) (target : Target) :
    Deaf (·.answer now r target) := by
  intro s
  cases target with
  | lock escaped =>
    simp only [answer]
    cases Percent.decode escaped with
    | none => rfl
    | some key => exact deaf_inspectLock now key r.version r.keepAlive s
  | _ => rfl

/-- **A request is served the same**, and told to have been served. -/
@[simp] theorem deaf_serve (now : Instant) (r : Request) : Deaf (·.serve now r) := by
  intro s
  have deaf := deaf_answer now r (Target.ofBytes r.target)
    (s.note [.served (Target.ofBytes r.target).topic])
  simp only [serve]
  split
  · exact congrArg (fun o : Outcome Store Response =>
      { o with happened := .served (Target.ofBytes r.target).topic :: o.happened }) deaf
  · rfl

end Store

/-! ## Actions and replies -/

/-- An operation that brings no tracing into a session. -/
def Operation.silent : Operation → Operation
  | newStore s => newStore s.silent
  | setEnvironment env => setEnvironment env.silent
  | o => o

mutual

/-- An action that brings no tracing into a session. -/
def Action.silent : Action → Action
  | .operation o => .operation o.silent
  | .run key holder hold script outcome => .run key holder hold (silentScript script) outcome
  | a => a

/-- A script of such actions. -/
def silentScript : List Action → List Action
  | [] => []
  | a :: rest => a.silent :: silentScript rest

end

mutual

/-- A reply that shows no flag. -/
def Reply.silent : Reply → Reply
  | .settings s => .settings s.silent
  | .turned store s => .turned store s.silent
  | .ran content stored inner => .ran content stored (silentReplies inner)
  | .runFailed fault inner => .runFailed fault (silentReplies inner)
  | r => r

/-- Replies to a script that show no flag. -/
def silentReplies : List Reply → List Reply
  | [] => []
  | r :: rest => r.silent :: silentReplies rest

end

/-- Replies are silenced one by one. -/
theorem silentReplies_append (first second : List Reply) :
    silentReplies (first ++ second) = silentReplies first ++ silentReplies second := by
  induction first with
  | nil => rfl
  | cons r rest ih => simp [silentReplies, ih]

/-! ## The world -/

namespace World

/-- A world with tracing off. -/
def silent (w : World) : World :=
  { w with stores := w.stores.map Store.silent, environment := w.environment.silent }

variable (w : World) (now : Instant)

/-- A store of a silenced world is silenced, and one that is not there was
so before. -/
@[simp] theorem store_silent (i : Nat) : w.silent.store i = (w.store i).silent := by
  simp only [store, silent, List.getD_eq_getElem?_getD, List.getElem?_map]
  cases w.stores[i]? <;> rfl

@[simp] theorem currentStore_silent : w.silent.currentStore = w.currentStore.silent :=
  w.store_silent w.current

/-- A silenced store is put back into a silenced world. -/
theorem putBack_silent (i : Nat) (s : Store) (happened : List Happening) :
    w.silent.putBack now i s.silent happened = (w.putBack now i s happened).silent := by
  simp only [putBack, silent, List.length_map]
  split
  · simp [List.map_set]
  · rfl

/-- **An operation that does not look at the flag comes to the same in a
silenced world.** -/
@[simp] theorem on_silent {α : Type} {f : Store → Outcome Store α} (deaf : Store.Deaf f) (i : Nat) :
    w.silent.on now i f = ((w.on now i f).1.silent, (w.on now i f).2) := by
  simp only [on, store_silent, deaf (w.store i)]
  exact congrArg (·, (f (w.store i)).answer) (w.putBack_silent now i _ _)

/-- A remark is on record in a silenced world as well. -/
@[simp] theorem note_silent (i : Nat) (what : Happening) :
    w.silent.note now i what = (w.note now i what).silent := by
  simp [note]

/-- Letting go of a lock comes to the same in a silenced world. -/
@[simp] theorem relinquish_silent (i : Nat) (claimant : Claimant) (key holder : Bytes) :
    w.silent.relinquish now i claimant key holder
      = (w.relinquish now i claimant key holder).silent := by
  simp [relinquish]

/-! ### Handles -/

@[simp] theorem length_silent : w.silent.stores.length = w.stores.length := by simp [silent]

@[simp] theorem slots_silent : w.silent.slots = w.slots := rfl

@[simp] theorem letGo_silent (h : Handle) : w.silent.letGo now h = (w.letGo now h).silent := by
  unfold letGo
  split <;> simp

@[simp] theorem vacate_silent (slot : Bytes) :
    w.silent.vacate now slot = (w.vacate now slot).silent := by
  simp only [vacate, slots_silent]
  cases w.slots.get? slot <;> simp

/-- A handle makes the same one let go that is in its way. -/
@[simp] theorem place_silent (slot : Bytes) (h : Handle) :
    w.silent.place now slot h = (w.place now slot h).silent := by
  simp only [place, vacate_silent]
  rfl

/-- A handle is moved the same, and what is told of it shows no flag. -/
theorem move_silent (source target : Bytes) :
    w.silent.move now source target
      = ((w.move now source target).1.silent, (w.move now source target).2.silent) := by
  simp only [move, slots_silent]
  cases w.slots.get? source with
  | none => rfl
  | some h =>
    by_cases eq : source = target
    · simp only [if_pos eq, Reply.silent]
    · simp only [if_neg eq, place_silent]
      rfl

/-- A handle is released with the same success. -/
theorem handleRelease_silent (slot : Bytes) :
    w.silent.handleRelease now slot
      = ((w.handleRelease now slot).1.silent, (w.handleRelease now slot).2.silent) := by
  simp only [handleRelease, slots_silent]
  cases w.slots.get? slot with
  | none => rfl
  | some h =>
    by_cases owns : h.owns
    · have released := on_silent { w with slots := w.slots.insert slot { h with owns := false } }
        now (Store.deaf_release now .handle h.key h.holder) h.store
      simp only [if_pos owns]
      generalize on { w with slots := w.slots.insert slot { h with owns := false } } now h.store
        (·.release now .handle h.key h.holder) = outcome at released ⊢
      obtain ⟨w', answer⟩ := outcome
      simp only [silent] at released ⊢
      rw [released]
      cases answer <;> rfl
    · simp only [if_neg owns]
      rfl

/-- A handle that is destroyed lets go of the same lock. -/
theorem handleDestroy_silent (slot : Bytes) :
    w.silent.handleDestroy now slot
      = ((w.handleDestroy now slot).1.silent, (w.handleDestroy now slot).2.silent) := by
  simp only [handleDestroy, slots_silent]
  cases w.slots.get? slot with
  | none => rfl
  | some h =>
    exact congrArg (·, Reply.done) (letGo_silent { w with slots := w.slots.erase slot } now h)

/-! ### Stores -/

/-- A store that is added with silenced settings is a silenced store. -/
@[simp] theorem addStore_silent (settings : StoreSettings) :
    w.silent.addStore settings.silent = (w.addStore settings).silent := by
  simp [addStore, silent, Store.silent, Store.new, StoreSettings.silent]

/-- **The shared store is made of the silenced environment**, or refused for the same
reason. -/
theorem turnToShared_silent :
    w.silent.turnToShared now
      = ((w.turnToShared now).1.silent, (w.turnToShared now).2.silent) := by
  have shared : w.silent.shared = w.shared := rfl
  have environment : w.silent.environment = w.environment.silent := rfl
  simp only [turnToShared, shared, environment, StoreSettings.ofEnvironment_silent]
  cases w.shared with
  | some i => simp [Reply.silent, Store.silent]; rfl
  | none =>
    cases StoreSettings.ofEnvironment w.environment with
    | error fault => rfl
    | ok settings =>
      have added := note_silent { w.addStore settings with shared := some w.stores.length } now
        w.stores.length (.created settings.shards)
      simp only [Except.map, addStore_silent, length_silent]
      exact congrArg (·, Reply.turned w.stores.length settings.silent) added

/-! ### Operations -/

/-- A change is tried with the same success. -/
theorem tryChange_silent (key holder : Bytes) (fault : Option Fault) :
    w.silent.tryChange now key holder fault
      = ((w.tryChange now key holder fault).1.silent,
        (w.tryChange now key holder fault).2.silent) := by
  have current : w.silent.current = w.current := rfl
  simp only [tryChange, current, on_silent, Store.deaf_permits]
  generalize w.on now w.current (·.permits now key holder) = outcome
  obtain ⟨w', permitted⟩ := outcome
  cases permitted with
  | false => rfl
  | true => cases fault <;> rfl

/-- **Everything done at once comes to the same in a silenced world**, but
for the flag in what is shown. -/
theorem perform_silent (o : Operation) :
    w.silent.perform now o.silent = ((w.perform now o).1.silent, (w.perform now o).2.silent) := by
  have current : w.silent.current = w.current := rfl
  cases o with
  | handleRelease slot => exact w.handleRelease_silent now slot
  | handleDestroy slot => exact w.handleDestroy_silent now slot
  | handleMove source target => exact w.move_silent now source target
  | tryChange key holder fault => exact w.tryChange_silent now key holder fault
  | shared => exact w.turnToShared_silent now
  | newStore settings => simp [Operation.silent, perform, Reply.silent]
  | handleInfo slot =>
    simp only [Operation.silent, perform, slots_silent]
    cases w.slots.get? slot <;> rfl
  | use i =>
    simp only [Operation.silent, perform, length_silent]
    split <;> rfl
  | release key holder =>
    simp only [Operation.silent, perform, current, on_silent, Store.deaf_release]
    generalize w.on now w.current (·.release now .caller key holder) = outcome
    obtain ⟨w', answer⟩ := outcome
    cases answer <;> rfl
  | look key =>
    simp only [Operation.silent, perform, current, on_silent, Store.deaf_look]
    generalize w.on now w.current (·.look now key) = outcome
    obtain ⟨w', held⟩ := outcome
    cases held <;> rfl
  | read key =>
    simp only [Operation.silent, perform, current, on_silent, Store.deaf_read]
    generalize w.on now w.current (·.read key) = outcome
    obtain ⟨w', found⟩ := outcome
    cases found <;> rfl
  | write key content holder =>
    simp only [Operation.silent, perform, current, on_silent, Store.deaf_write]
    generalize w.on now w.current (·.write now .caller key content holder) = outcome
    obtain ⟨w', answer⟩ := outcome
    cases answer <;> rfl
  | _ => simp [Operation.silent, perform, current, Reply.silent] <;> rfl

end World

/-! ## Calls -/

/-- A purpose that brings no tracing into a session. -/
def Purpose.silent : Purpose → Purpose
  | run script outcome => run (silentScript script) outcome
  | p => p

/-- A point at which a call waits that brings no tracing into a session. -/
def Point.silent : Point → Point
  | lock store request purpose => lock store request purpose.silent
  | p => p

/-- A frame that brings no tracing into a session. -/
def Frame.silent : Frame → Frame
  | script run answers rest => script run (silentReplies answers) (silentScript rest)
  | f => f

/-- A focus that brings no tracing into a session. -/
def Focus.silent : Focus → Focus
  | perform a => perform a.silent
  | arrive p => arrive p.silent
  | answer r => answer r.silent

/-- A call that brings no tracing into a session. -/
def Control.silent (c : Control) : Control where
  focus := c.focus.silent
  stack := c.stack.map Frame.silent

/-- How a call stands that brings no tracing into a session. -/
def Standing.silent : Standing → Standing
  | waiting p stack wake => waiting p.silent (stack.map Frame.silent) wake
  | finished reply => finished reply.silent

/-- A point has its bell whether there is tracing or not. -/
@[simp] theorem Point.bell?_silent (p : Point) : p.silent.bell? = p.bell? := by cases p <;> rfl

namespace World

variable (w : World) (now : Instant)

/-- **A run ends with the same result**, whatever flags its script has
brought along. -/
theorem conclude_silent (r : Run) (answers : List Reply) :
    w.silent.conclude now r (silentReplies answers)
      = ((w.conclude now r answers).1.silent, (w.conclude now r answers).2.silent) := by
  simp only [conclude, note_silent]
  generalize w.note now r.store (.computed r.key r.holder) = computed
  cases r.outcome with
  | error fault => simp [Reply.silent]
  | ok content =>
    simp only [on_silent, Store.deaf_write]
    generalize computed.on now r.store (·.write now .run r.key content r.holder) = outcome
    obtain ⟨written, answer⟩ := outcome
    cases answer <;> simp [Reply.silent]

/-- A run goes on with its silenced script. -/
theorem proceed_silent (r : Run) (answers : List Reply) (rest : List Action)
    (stack : List Frame) :
    w.silent.proceed now r (silentReplies answers) (silentScript rest) (stack.map Frame.silent)
      = ((w.proceed now r answers rest stack).1.silent,
        (w.proceed now r answers rest stack).2.silent) := by
  cases rest with
  | cons a rest => rfl
  | nil =>
    simp only [proceed, silentScript, conclude_silent]
    rfl

/-- A run that begins finds the same record, or computes. -/
theorem enterRun_silent (r : Run) (script : List Action) (stack : List Frame) :
    w.silent.enterRun now r (silentScript script) (stack.map Frame.silent)
      = ((w.enterRun now r script stack).1.silent, (w.enterRun now r script stack).2.silent) := by
  simp only [enterRun, on_silent, Store.deaf_read]
  generalize w.on now r.store (·.read r.key) = outcome
  obtain ⟨after, found⟩ := outcome
  cases found with
  | some content =>
    simp only [note_silent, relinquish_silent]
    rfl
  | none =>
    simp only [note_silent]
    exact proceed_silent _ now r [] script stack

/-- Whatever a lock was taken for is done as it would have been. -/
theorem fulfil_silent (store : Nat) (request : LockRequest) (purpose : Purpose)
    (stack : List Frame) :
    w.silent.fulfil now store request purpose.silent (stack.map Frame.silent)
      = ((w.fulfil now store request purpose stack).1.silent,
        (w.fulfil now store request purpose stack).2.silent) := by
  cases purpose with
  | answer => rfl
  | handle slot =>
    simp only [fulfil, Purpose.silent, place_silent]
    rfl
  | run script outcome => exact w.enterRun_silent now _ script stack

end World

/-- What comes of trying a point, without tracing. -/
def Passage.silent : Passage → Passage
  | passed w c => passed w.silent c.silent
  | waits wake => waits wake

/-- **A point is passed in a silenced world if it is passed.** -/
theorem Point.pass_silent (p : Point) (now : Instant) (w : World) (waited : Bool)
    (stack : List Frame) :
    p.silent.pass now w.silent waited (stack.map Frame.silent)
      = (p.pass now w waited stack).silent := by
  cases p with
  | lock store request purpose =>
    simp only [silent, pass, World.on_silent, Store.deaf_attempt]
    generalize w.on now store (·.attempt now request waited) = outcome
    obtain ⟨after, answer⟩ := outcome
    cases answer with
    | granted =>
      simp only [World.fulfil_silent]
      rfl
    | _ => rfl
  | release store key generation giveUp =>
    simp only [silent, pass, World.on_silent, Store.deaf_awaitEnd]
    generalize w.on now store (·.awaitEnd now key generation giveUp) = outcome
    obtain ⟨after, answer⟩ := outcome
    cases answer <;> rfl
  | sleep finish =>
    simp only [silent, pass]
    split <;> rfl

namespace Control

/-- The demo workload reads nothing of a store but how long a lock is held
by default. -/
theorem demo_silent (now : Instant) (w : World) (store : Nat) (worker : UInt32) (keys left : Nat)
    (stack : List Frame) :
    demo now w.silent store worker keys left (stack.map Frame.silent)
      = (demo now w store worker keys left stack).silent := by
  cases left with
  | zero => rfl
  | succ left =>
    simp only [demo, World.store_silent]
    rfl

/-- **A call sets out on the same**, in a silenced world and with a silenced
action. -/
theorem begin_silent (now : Instant) (w : World) (a : Action) (stack : List Frame) :
    begin now w.silent a.silent (stack.map Frame.silent)
      = ((begin now w a stack).1.silent, (begin now w a stack).2.silent) := by
  have current : w.silent.current = w.current := rfl
  cases a with
  | operation o =>
    simp only [Action.silent, begin, World.perform_silent]
    rfl
  | wait key patience =>
    simp only [Action.silent, begin, current, World.on_silent, Store.deaf_beginWait]
    generalize w.on now w.current (·.beginWait now key) = outcome
    obtain ⟨after, held⟩ := outcome
    cases held <;> rfl
  | sleep d =>
    simp only [Action.silent, begin]
    split <;> rfl
  | demo worker keys =>
    simp only [Action.silent, begin, current, demo_silent]
  | _ =>
    simp only [Action.silent, begin, World.seek, World.currentStore_silent, current]
    rfl

/-- Remarks, one after the other, are on record in a silenced world as well. -/
theorem foldl_note_silent (now : Instant) (w : World) (store : Nat) (what : List Happening) :
    what.foldl (·.note now store ·) w.silent = (what.foldl (·.note now store ·) w).silent := by
  induction what generalizing w with
  | nil => rfl
  | cons h rest ih => rw [List.foldl_cons, List.foldl_cons, World.note_silent, ih]

/-- What a worker remarks on depends on no flag; only what becomes of the
remark does. -/
theorem demoRemark_silent (worker : UInt32) (key : Bytes) (reply : Reply) :
    demoRemark worker key reply.silent = demoRemark worker key reply := by
  cases reply with
  | ran content stored inner => cases stored <;> rfl
  | _ => rfl

/-- A call takes up a silenced answer and goes on the same. -/
theorem resume_silent (now : Instant) (w : World) (reply : Reply) (frame : Frame)
    (stack : List Frame) :
    resume now w.silent reply.silent frame.silent (stack.map Frame.silent)
      = ((resume now w reply frame stack).1.silent,
        (resume now w reply frame stack).2.silent) := by
  cases frame with
  | script run answers rest =>
    have more : silentReplies answers ++ [reply.silent] = silentReplies (answers ++ [reply]) := by
      rw [silentReplies_append]
      rfl
    simp only [Frame.silent, resume, more, World.proceed_silent]
  | demo store worker keys left =>
    simp only [Frame.silent, resume, demoRemark_silent, foldl_note_silent, demo_silent]

/-- What a move comes to, without tracing. -/
def Move.silent : Move → Move
  | moved w c => moved w.silent c.silent
  | waits p stack wake => waits p.silent (stack.map Frame.silent) wake
  | finished reply => finished reply.silent

/-- **A call makes the same move in a silenced world.** -/
theorem step_silent (now : Instant) (w : World) (c : Control) :
    c.silent.step now w.silent = (c.step now w).silent := by
  obtain ⟨focus, stack⟩ := c
  cases focus with
  | perform a =>
    simp only [silent, Focus.silent, step, begin_silent]
    rfl
  | arrive p =>
    simp only [silent, Focus.silent, step, Point.pass_silent]
    cases p.pass now w false stack <;> rfl
  | answer reply =>
    cases stack with
    | nil => rfl
    | cons frame stack =>
      simp only [silent, Focus.silent, step, List.map_cons, resume_silent]
      rfl

/-- **A call goes on as far in a silenced world**, and stands there as it
would. -/
theorem run_silent (now : Instant) (w : World) (c : Control) :
    c.silent.run now w.silent = ((c.run now w).1.silent, (c.run now w).2.silent) := by
  fun_induction run now w c with
  | case1 w c w' c' moved ih =>
    have moved' : c.silent.step now w.silent = .moved w'.silent c'.silent := by
      rw [step_silent, moved]
      rfl
    rw [run_of_moved moved', ih]
  | case2 w c p stack wake waits =>
    refine run_of_waits ?_
    rw [step_silent, waits]
    rfl
  | case3 w c reply finished =>
    refine run_of_finished ?_
    rw [step_silent, finished]
    rfl

end Control

end AdvisoryStore
