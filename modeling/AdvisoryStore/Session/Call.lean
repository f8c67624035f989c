import AdvisoryStore.Session.Demo
import AdvisoryStore.Session.World

/-!
# Calls

A **call** carries out one action. It is a small machine: a *focus*, which
is what it is about to do, and a stack of *frames*, which is what it was in
the middle of. One move of the machine (`Control.step`) does one thing to
the world – an operation, an attempt at a lock, the end of a run – and
moves follow one another until the call has its answer or comes to a
**point** where it has to wait.

A point keeps what the call is waiting for, fixed when it got there: the
wish for a lock with its time to give up, the generation of the hold whose
end is awaited, the instant a sleep is over. Trying a point again
(`Point.pass`) either gets past it or leaves the world exactly as it was,
since what is in the way is then a live hold, and looking at a live hold
changes nothing. That is visible in the type: a try that has to wait
returns no world.

Every move makes a call's remaining work smaller (`Control.work`), so a
call cannot go on forever without waiting.
-/

namespace AdvisoryStore

/-- **What is to be done with a lock** once it is taken. -/
inductive Purpose
  /-- The caller is told. -/
  | answer
  /-- A handle for it is put into a slot. -/
  | handle (slot : Bytes)
  /-- It is held for a run. -/
  | run (script : List Action) (outcome : Except Fault Content)

/-- **Where a call may have to wait.** -/
inductive Point
  /-- For a lock. -/
  | lock (store : Nat) (request : LockRequest) (purpose : Purpose)
  /-- For the end of a hold, told by its generation. -/
  | release (store : Nat) (key : Bytes) (generation : Nat) (giveUp : Option Instant)
  /-- For the clock; a sleep without an end never ends. -/
  | sleep (finish : Option Instant)

/-- **A run that holds its lock and computes.** -/
structure Run where
  store : Nat
  key : Bytes
  holder : Bytes
  /-- How the computation ends after its script. -/
  outcome : Except Fault Content

/-- **What a call is in the middle of.** -/
inductive Frame
  /-- A run's script: the answers so far, and the actions still to come. -/
  | script (run : Run) (answers : List Reply) (rest : List Action)
  /-- The demo workload in the middle of a key, with `left` more to come. -/
  | demo (store : Nat) (worker : UInt32) (keys left : Nat)

/-- What a call is about to do. -/
inductive Focus
  | perform (a : Action)
  /-- Try to get past a point for the first time. -/
  | arrive (p : Point)
  /-- Hand back an answer. -/
  | answer (r : Reply)

/-- **The state of a call that is not waiting.** -/
structure Control where
  focus : Focus
  stack : List Frame

/-! ## The work that is left -/

mutual

/-- How many moves an action may take. -/
def Action.work : Action → Nat
  | .operation _ => 1
  | .acquire .. => 2
  | .lock .. => 2
  | .wait .. => 2
  | .sleep _ => 2
  | .run _ _ _ script _ => scriptWork script + 3
  | .demo _ keys => 6 * keys.toNat + 1

/-- How many moves a script may take. -/
def scriptWork : List Action → Nat
  | [] => 0
  | a :: rest => a.work + 1 + scriptWork rest

end

/-- How many moves may follow a point. -/
def Point.work : Point → Nat
  | lock _ _ (.run script _) => scriptWork script + 2
  | lock .. => 1
  | release .. => 1
  | sleep _ => 1

/-- How many moves may follow when a frame gets its answer. -/
def Frame.work : Frame → Nat
  | script _ _ rest => scriptWork rest + 1
  | demo _ _ _ left => 6 * left + 1

/-- How many moves a stack may take. -/
def stackWork : List Frame → Nat
  | [] => 0
  | f :: stack => f.work + stackWork stack

/-- How many moves a focus may take. -/
def Focus.work : Focus → Nat
  | perform a => a.work
  | arrive p => p.work
  | answer _ => 0

/-- **How many moves a call may still take.** -/
def Control.work (c : Control) : Nat := c.focus.work + stackWork c.stack

/-- A call that waits has something left to do. -/
theorem Point.work_pos (p : Point) : 0 < p.work := by
  unfold Point.work
  split <;> omega

/-! ## Runs -/

namespace World

/-- **Ends a run** whose script is done. The lock is let go of in any case:
after the record is written, if there is one to write and nobody else has
taken the key meanwhile. -/
def conclude (w : World) (now : Instant) (r : Run) (answers : List Reply) : World × Reply :=
  let w := w.note now r.store (.computed r.key r.holder)
  match r.outcome with
  | .error fault => (w.relinquish now r.store .run r.key r.holder, .runFailed fault answers)
  | .ok content =>
    match w.on now r.store (·.write now .run r.key content r.holder) with
    | (w, .error fault) => (w.relinquish now r.store .run r.key r.holder, .runFailed fault answers)
    | (w, .ok _) =>
      let w := w.relinquish now r.store .run r.key r.holder
      (w.note now r.store (.committed r.key r.holder content),
        .ran content false answers)

/-- Goes on with a run's script, or ends the run. -/
def proceed (w : World) (now : Instant) (r : Run) (answers : List Reply) (rest : List Action)
    (stack : List Frame) : World × Control :=
  match rest with
  | a :: rest => (w, ⟨.perform a, .script r answers rest :: stack⟩)
  | [] =>
    match w.conclude now r answers with
    | (w, reply) => (w, ⟨.answer reply, stack⟩)

/-- **Begins a run** that has its lock: a record that is there is the
result, and without one the script is to be done. -/
def enterRun (w : World) (now : Instant) (r : Run) (script : List Action) (stack : List Frame) :
    World × Control :=
  match w.on now r.store (·.read r.key) with
  | (w, some content) =>
    let w := w.note now r.store (.cached r.key r.holder content)
    (w.relinquish now r.store .run r.key r.holder, ⟨.answer (.ran content true []), stack⟩)
  | (w, none) =>
    (w.note now r.store (.computing r.key r.holder)).proceed now r [] script stack

/-- **Does what a lock was taken for.** -/
def fulfil (w : World) (now : Instant) (store : Nat) (request : LockRequest) (purpose : Purpose)
    (stack : List Frame) : World × Control :=
  match purpose with
  | .answer => (w, ⟨.answer (.flag true), stack⟩)
  | .handle slot =>
    let handle : Handle := ⟨store, request.key, request.holder, true⟩
    (w.place now slot handle, ⟨.answer (.handle handle), stack⟩)
  | .run script outcome =>
    w.enterRun now ⟨store, request.key, request.holder, outcome⟩ script stack

/-- Wants a lock of the current store. -/
def seek (w : World) (now : Instant) (claimant : Claimant) (key holder : Bytes)
    (hold patience : Option Duration) (purpose : Purpose) : Point :=
  .lock w.current (w.currentStore.request now claimant key holder hold patience) purpose

end World

/-! ## Points -/

/-- **What comes of trying a point.** -/
inductive Passage
  /-- The call goes on. -/
  | passed (w : World) (c : Control)
  /-- The call has to wait, and is to look again at `wake`, if ever. -/
  | waits (wake : Option Instant)

/-- **Tries to get past a point.** `waited` says that the call has waited
there before. -/
def Point.pass (p : Point) (now : Instant) (w : World) (waited : Bool) (stack : List Frame) :
    Passage :=
  match p with
  | lock store request purpose =>
    match w.on now store (·.attempt now request waited) with
    | (_, .blockedBy h) => .waits (sooner request.giveUp h.deadline)
    | (w, .gaveUp) => .passed w ⟨.answer (.flag false), stack⟩
    | (w, .granted) =>
      match w.fulfil now store request purpose stack with
      | (w, c) => .passed w c
  | release store key generation giveUp =>
    match w.on now store (·.awaitEnd now key generation giveUp) with
    | (_, .heldBy h) => .waits (sooner giveUp h.deadline)
    | (w, .gaveUp) => .passed w ⟨.answer (.flag false), stack⟩
    | (w, .ended) => .passed w ⟨.answer (.flag true), stack⟩
  | sleep finish =>
    if reached now finish then .passed w ⟨.answer .done, stack⟩ else .waits finish

/-- The bell that a call at a point waits at: a store, and a key of the
cell whose bell it is. -/
def Point.bell? : Point → Option (Nat × Bytes)
  | lock store request _ => some (store, request.key)
  | release store key _ _ => some (store, key)
  | sleep _ => none

/-! ## Moves -/

namespace Control

/-- Goes on with the demo workload: wants the next key's lock, or is done. -/
def demo (now : Instant) (w : World) (store : Nat) (worker : UInt32) (keys left : Nat)
    (stack : List Frame) : Control :=
  match left with
  | 0 => ⟨.answer .done, stack⟩
  | left + 1 =>
    let key := Demo.key (keys - (left + 1))
    let holder := Demo.holder worker
    let request := (w.store store).request now .run key holder (some Demo.hold) none
    ⟨.arrive (.lock store request (.run Demo.script (.ok (Demo.content key holder)))),
      .demo store worker keys left :: stack⟩

/-- What a worker of the demo workload leaves in the log about a key. -/
def demoRemark (worker : UInt32) (key : Bytes) : Reply → List Happening
  | .ran _ true _ => [.reused key (Demo.holder worker)]
  | .runFailed fault _ => [.demoFailed key fault]
  | _ => []

/-- Sets out to perform an action. -/
def begin (now : Instant) (w : World) (a : Action) (stack : List Frame) : World × Control :=
  match a with
  | .operation o =>
    match w.perform now o with
    | (w, reply) => (w, ⟨.answer reply, stack⟩)
  | .acquire key holder hold patience =>
    (w, ⟨.arrive (w.seek now .caller key holder hold patience .answer), stack⟩)
  | .lock slot key holder hold =>
    (w, ⟨.arrive (w.seek now .handle key holder hold none (.handle slot)), stack⟩)
  | .wait key patience =>
    match w.on now w.current (·.beginWait now key) with
    | (w, none) => (w, ⟨.answer (.flag true), stack⟩)
    | (w, some h) =>
      (w, ⟨.arrive (.release w.current key h.generation (patience.bind now.after?)), stack⟩)
  | .sleep d =>
    if d ≤ 0 then (w, ⟨.answer .done, stack⟩) else (w, ⟨.arrive (.sleep (now.after? d)), stack⟩)
  | .run key holder hold script outcome =>
    (w, ⟨.arrive (w.seek now .run key holder hold none (.run script outcome)), stack⟩)
  | .demo worker keys => (w, demo now w w.current worker keys.toNat keys.toNat stack)

/-- Hands an answer to what the call was in the middle of. -/
def resume (now : Instant) (w : World) (reply : Reply) (frame : Frame) (stack : List Frame) :
    World × Control :=
  match frame with
  | .script run answers rest => w.proceed now run (answers ++ [reply]) rest stack
  | .demo store worker keys left =>
    let key := Demo.key (keys - (left + 1))
    let w := (demoRemark worker key reply).foldl (·.note now store ·) w
    (w, demo now w store worker keys left stack)

/-- **What a move comes to.** -/
inductive Move
  /-- The call goes on. -/
  | moved (w : World) (c : Control)
  /-- The call waits at a point, and is to look again at `wake`, if ever. -/
  | waits (p : Point) (stack : List Frame) (wake : Option Instant)
  /-- The call has its answer. -/
  | finished (reply : Reply)

/-- **One move of a call.** -/
def step (now : Instant) (w : World) (c : Control) : Move :=
  match c.focus, c.stack with
  | .perform a, stack =>
    match begin now w a stack with
    | (w, c) => .moved w c
  | .arrive p, stack =>
    match p.pass now w false stack with
    | .passed w c => .moved w c
    | .waits wake => .waits p stack wake
  | .answer reply, [] => .finished reply
  | .answer reply, frame :: stack =>
    match resume now w reply frame stack with
    | (w, c) => .moved w c

end Control

/-! ## Every move makes the work smaller -/

@[simp] theorem stackWork_cons (f : Frame) (stack : List Frame) :
    stackWork (f :: stack) = f.work + stackWork stack := rfl

/-- Going on with a script takes no more than the script and its end. -/
theorem World.work_proceed_le (w : World) (now : Instant) (r : Run) (answers : List Reply)
    (rest : List Action) (stack : List Frame) :
    (w.proceed now r answers rest stack).2.work ≤ scriptWork rest + stackWork stack := by
  cases rest with
  | nil => simp [World.proceed, Control.work, Focus.work, scriptWork]
  | cons a rest =>
    simp only [World.proceed, Control.work, Focus.work, stackWork_cons, Frame.work, scriptWork]
    omega

/-- Beginning a run takes no more than its script and its end. -/
theorem World.work_enterRun_le (w : World) (now : Instant) (r : Run) (script : List Action)
    (stack : List Frame) :
    (w.enterRun now r script stack).2.work ≤ scriptWork script + stackWork stack := by
  unfold World.enterRun
  split
  · simp [Control.work, Focus.work]
  · exact World.work_proceed_le ..

/-- Doing what a lock was taken for takes less than getting the lock. -/
theorem World.work_fulfil_lt (w : World) (now : Instant) (store : Nat) (request : LockRequest)
    (purpose : Purpose) (stack : List Frame) :
    (w.fulfil now store request purpose stack).2.work
      < (Point.lock store request purpose).work + stackWork stack := by
  cases purpose with
  | answer => simp [World.fulfil, Control.work, Focus.work, Point.work]
  | handle slot => simp [World.fulfil, Control.work, Focus.work, Point.work]
  | run script outcome =>
    have := w.work_enterRun_le now ⟨store, request.key, request.holder, outcome⟩ script stack
    simp only [World.fulfil, Point.work]
    omega

/-- **Getting past a point leaves less to do.** -/
theorem Point.work_of_pass {p : Point} {now : Instant} {w w' : World} {waited : Bool}
    {stack : List Frame} {c : Control} (h : p.pass now w waited stack = .passed w' c) :
    c.work < p.work + stackWork stack := by
  have answered (r : Reply) : (⟨.answer r, stack⟩ : Control).work < p.work + stackWork stack := by
    have := p.work_pos
    simp only [Control.work, Focus.work]
    omega
  unfold Point.pass at h
  split at h
  · next store request purpose =>
    split at h
    · cases h
    · cases h
      exact answered _
    · next w₁ _ =>
      have := w₁.work_fulfil_lt now store request purpose stack
      cases h
      exact this
  · split at h <;> cases h <;> exact answered _
  · split at h <;> cases h
    exact answered _

namespace Control

/-- The demo workload takes no more than six moves a key. -/
theorem work_demo_le (now : Instant) (w : World) (store : Nat) (worker : UInt32) (keys left : Nat)
    (stack : List Frame) :
    (demo now w store worker keys left stack).work ≤ 6 * left + stackWork stack := by
  cases left with
  | zero => simp [demo, Control.work, Focus.work]
  | succ left =>
    simp only [demo, Control.work, Focus.work, stackWork_cons, Frame.work, Point.work, scriptWork,
      Demo.script, Action.work]
    omega

/-- Setting out on an action leaves less to do than the action. -/
theorem work_begin_lt (now : Instant) (w : World) (a : Action) (stack : List Frame) :
    (begin now w a stack).2.work < a.work + stackWork stack := by
  cases a with
  | operation o => simp [begin, Control.work, Focus.work, Action.work]
  | acquire => simp [begin, Control.work, Focus.work, Action.work, World.seek, Point.work]
  | lock => simp [begin, Control.work, Focus.work, Action.work, World.seek, Point.work]
  | wait key patience =>
    simp only [begin, Action.work]
    split <;> simp [Control.work, Focus.work, Point.work]
  | sleep d =>
    simp only [begin, Action.work]
    split <;> simp [Control.work, Focus.work, Point.work]
  | run => simp [begin, Control.work, Focus.work, Action.work, World.seek, Point.work]
  | demo worker keys =>
    have := work_demo_le now w w.current worker keys.toNat keys.toNat stack
    simp only [begin, Action.work]
    omega

/-- Handing an answer to a frame leaves less to do than the frame. -/
theorem work_resume_lt (now : Instant) (w : World) (reply : Reply) (frame : Frame)
    (stack : List Frame) :
    (resume now w reply frame stack).2.work < frame.work + stackWork stack := by
  cases frame with
  | script run answers rest =>
    have := World.work_proceed_le w now run (answers ++ [reply]) rest stack
    simp only [resume, Frame.work]
    omega
  | demo store worker keys left =>
    have := work_demo_le now ((demoRemark worker (Demo.key (keys - (left + 1))) reply).foldl
      (·.note now store ·) w) store worker keys left stack
    simp only [resume, Frame.work]
    omega

/-- **Every move makes the remaining work smaller.** -/
theorem work_of_step {now : Instant} {w w' : World} {c c' : Control}
    (h : step now w c = .moved w' c') : c'.work < c.work := by
  unfold step at h
  split at h
  · next a focus_eq =>
    have := work_begin_lt now w a c.stack
    generalize begin now w a c.stack = next at h this
    cases h
    simpa [Control.work, Focus.work, focus_eq] using this
  · next p focus_eq =>
    split at h <;> cases h
    next passed =>
    have := Point.work_of_pass passed
    simpa [Control.work, Focus.work, focus_eq] using this
  · cases h
  · next reply frame stack focus_eq stack_eq =>
    have := work_resume_lt now w reply frame stack
    generalize resume now w reply frame stack = next at h this
    cases h
    simpa [Control.work, Focus.work, focus_eq, stack_eq] using this

end Control

end AdvisoryStore
