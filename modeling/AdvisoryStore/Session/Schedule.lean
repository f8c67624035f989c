import AdvisoryStore.Session.Call

/-!
# Whose turn it is

A **session** has one clock, one world, and the calls that wait. A call
that waits is woken by the clock, when the moment has come at which it was
to look again, or by a bell that has rung since it last looked. It is then
**ready**: it tries its point again, and goes on or waits further.

While any call is ready, the one that was made first is resumed
(`Session.drain`). This ends: a call that gets past its point has less to
do than before, and one that does not is no longer ready, and has changed
nothing that could make another call ready. `Session.load` puts both into
one number.

The clock moves only between such rounds, and never past a moment at which
a call is to look again (`Session.runUntil`).
-/

namespace AdvisoryStore

/-- **How a call stands** when it cannot go on by itself. -/
inductive Standing
  /-- It waits at a point, and is to look again at `wake`, if ever. -/
  | waiting (p : Point) (stack : List Frame) (wake : Option Instant)
  /-- It has its answer. -/
  | finished (reply : Reply)

/-- How many moves a call in this standing may still take. -/
def Standing.work : Standing → Nat
  | waiting p stack _ => p.work + stackWork stack
  | finished _ => 0

/-- The answer of a call that has one. -/
def Standing.reply? : Standing → Option Reply
  | waiting .. => none
  | finished reply => some reply

/-- **Goes on as far as a call can** without waiting. -/
def Control.run (now : Instant) (w : World) (c : Control) : World × Standing :=
  match _h : c.step now w with
  | .moved w c => run now w c
  | .waits p stack wake => (w, .waiting p stack wake)
  | .finished reply => (w, .finished reply)
termination_by c.work
decreasing_by exact work_of_step _h

namespace Control

variable {now : Instant} {w : World} {c : Control}

theorem run_of_moved {w' : World} {c' : Control} (h : c.step now w = .moved w' c') :
    c.run now w = c'.run now w' := by
  rw [run]
  split <;> next eq => cases h.symm.trans eq <;> rfl

theorem run_of_waits {p : Point} {stack : List Frame} {wake : Option Instant}
    (h : c.step now w = .waits p stack wake) : c.run now w = (w, .waiting p stack wake) := by
  rw [run]
  split <;> next eq => cases h.symm.trans eq <;> rfl

theorem run_of_finished {reply : Reply} (h : c.step now w = .finished reply) :
    c.run now w = (w, .finished reply) := by
  rw [run]
  split <;> next eq => cases h.symm.trans eq <;> rfl

/-- A call that has its answer hands it back. -/
@[simp] theorem run_answer (now : Instant) (w : World) (reply : Reply) :
    run now w ⟨.answer reply, []⟩ = (w, .finished reply) :=
  run_of_finished rfl

end Control

/-- **A call that waits.** -/
structure Call where
  /-- The number of the call; calls made later have greater numbers. -/
  id : Nat
  /-- Where it waits. -/
  point : Point
  /-- What it is in the middle of. -/
  stack : List Frame
  /-- When it is to look again, if ever. -/
  wake : Option Instant
  /-- How often its bell had rung when it last looked. -/
  heard : Nat

/-- How often the bell at a point has rung. -/
def Point.rings (p : Point) (w : World) : Nat :=
  match p.bell? with
  | none => 0
  | some (store, key) => (w.store store).locks.rings key

namespace Call

/-- **Whether a call has cause to look again.** -/
def ready (c : Call) (now : Instant) (w : World) : Bool :=
  reached now c.wake || c.point.rings w ≠ c.heard

/-- Tries the call's point again, and goes on if it can. -/
def retry (c : Call) (now : Instant) (w : World) : World × Standing :=
  match c.point.pass now w true c.stack with
  | .passed w next => next.run now w
  | .waits wake => (w, .waiting c.point c.stack wake)

/-- How many moves a call may still take. -/
def work (c : Call) : Nat := c.point.work + stackWork c.stack

end Call

/-- How many moves calls may still take. -/
def callsWork : List Call → Nat
  | [] => 0
  | c :: rest => c.work + callsWork rest

@[simp] theorem callsWork_append (first second : List Call) :
    callsWork (first ++ second) = callsWork first + callsWork second := by
  induction first with
  | nil => simp [callsWork]
  | cons c rest ih => rw [List.cons_append, callsWork, callsWork, ih, Nat.add_assoc]

@[simp] theorem callsWork_cons (c : Call) (rest : List Call) :
    callsWork (c :: rest) = c.work + callsWork rest := rfl

/-- **An answer** that a call was given, and when. -/
structure Return where
  id : Nat
  time : Instant
  reply : Reply

/-- **A session.** -/
structure Session where
  now : Instant
  world : World
  /-- The calls that wait, in the order in which they were made. -/
  calls : List Call
  /-- The answers that have been given, newest first. -/
  returned : List Return
  /-- The number of the next call. -/
  nextId : Nat

namespace Session

/-- **Files a call** where it now belongs: among those that wait, between
those made before and after it, or with its answer. A moment to look again
that has come already is put off by the least there is. -/
def file (s : Session) (before : List Call) (id : Nat) (after : List Call) :
    World × Standing → Session
  | (w, .waiting p stack wake) =>
    { s with
      world := w
      calls := before ++ ⟨id, p, stack, upcoming s.now wake, p.rings w⟩ :: after }
  | (w, .finished reply) =>
    { s with world := w, calls := before ++ after, returned := ⟨id, s.now, reply⟩ :: s.returned }

/-- Whether a call has no cause to look again. -/
def isIdle (s : Session) (c : Call) : Bool := !c.ready s.now s.world

/-- How much there is to do: the moves that calls may still take, and, for
calls that take none, the turns they are due. -/
def load (s : Session) : Nat :=
  callsWork s.calls * (s.calls.length + 1) + s.calls.countP (·.ready s.now s.world)

end Session

/-! ## A round ends -/

namespace Control

/-- A call that goes on as far as it can has no more to do than before. -/
theorem work_run_le (now : Instant) (w : World) (c : Control) : (c.run now w).2.work ≤ c.work := by
  fun_induction run now w c with
  | case1 w c w' c' h ih => exact Nat.le_trans ih (Nat.le_of_lt (work_of_step h))
  | case2 w c p stack wake h =>
    unfold step at h
    split at h
    · cases h
    · next focus_eq =>
      split at h <;> cases h
      simp [Standing.work, Control.work, Focus.work, focus_eq]
    · cases h
    · cases h
  | case3 => simp [Standing.work]

end Control

/-- A call that was just filed has no cause to look again. -/
theorem reached_upcoming (now : Instant) (wake : Option Instant) :
    reached now (upcoming now wake) = false := by
  cases h : upcoming now wake with
  | none => rfl
  | some t => simpa [reached] using lt_of_upcoming h

namespace Session

/-- One number decides when work and turns are weighed together. -/
theorem load_lt_of_work_lt {work work' calls calls' due due' : Nat} (less : work' < work)
    (fewer : calls' ≤ calls) (due_le : due' ≤ calls') :
    work' * (calls' + 1) + due' < work * (calls + 1) + due := by
  have h₁ : work' * (calls' + 1) ≤ work' * (calls + 1) := Nat.mul_le_mul_left _ (by omega)
  have h₂ : (work' + 1) * (calls + 1) ≤ work * (calls + 1) := Nat.mul_le_mul_right _ less
  rw [Nat.add_mul] at h₂
  omega

/-- **Resuming a call that is ready lessens the load.** -/
theorem load_file_lt {s : Session} {before after : List Call} {c : Call}
    (calls_eq : s.calls = before ++ c :: after) (ready : c.ready s.now s.world) :
    (s.file before c.id after (c.retry s.now s.world)).load < s.load := by
  unfold Call.retry
  split
  · next w next passed =>
    have less := Nat.lt_of_le_of_lt (next.work_run_le s.now w) (Point.work_of_pass passed)
    unfold load
    refine load_lt_of_work_lt ?_ ?_ List.countP_le_length
    · generalize next.run s.now w = standing at less
      obtain ⟨w, standing⟩ := standing
      cases standing <;> simp [file, calls_eq, Call.work, Standing.work] at less ⊢ <;> omega
    · generalize next.run s.now w = standing
      obtain ⟨w, standing⟩ := standing
      cases standing <;> simp [file, calls_eq]
  · next wake _ =>
    have idle : (⟨c.id, c.point, c.stack, upcoming s.now wake, c.point.rings s.world⟩ : Call).ready
        s.now s.world = false := by
      simp [Call.ready, reached_upcoming]
    simp [load, file, calls_eq, idle, ready, Call.work]

/-- **Resumes calls, the first made first, while any of them is ready.** -/
def drain (s : Session) : Session :=
  match _h : s.calls.dropWhile s.isIdle with
  | [] => s
  | c :: after => (s.file (s.calls.takeWhile s.isIdle) c.id after (c.retry s.now s.world)).drain
termination_by s.load
decreasing_by
  refine load_file_lt ?_ ?_
  · rw [← _h, List.takeWhile_append_dropWhile]
  · have := List.head_dropWhile_not (p := s.isIdle) (l := s.calls) (by simp [_h])
    simpa [_h, isIdle] using this

/-- **After a round no call has cause to look again.** -/
theorem isIdle_of_mem_drain (s : Session) : ∀ c ∈ s.drain.calls, s.drain.isIdle c := by
  fun_induction drain s with
  | case1 s none =>
    have all := List.any_dropWhile (p := s.isIdle) (l := s.calls)
    rw [none] at all
    exact List.all_eq_true.mp (by simpa using all)
  | case2 s c after h ih => exact ih

/-- A round in which no call has cause to look again does nothing. -/
theorem drain_of_isIdle {s : Session} (idle : ∀ c ∈ s.calls, s.isIdle c) : s.drain = s := by
  unfold drain
  split
  · rfl
  · next c after eq =>
    have mem : c ∈ s.calls :=
      List.dropWhile_subset s.isIdle (by rw [eq]; exact List.mem_cons_self)
    have due := List.head_dropWhile_not (p := s.isIdle) (l := s.calls) (by simp [eq])
    simp [eq, idle c mem] at due

/-- A round resumes the first call that has cause to look again. -/
theorem drain_of_ready {s : Session} {before after : List Call} {c : Call}
    (calls_eq : s.calls = before ++ c :: after) (idle : ∀ c ∈ before, s.isIdle c = true)
    (ready : s.isIdle c = false) :
    s.drain = (s.file before c.id after (c.retry s.now s.world)).drain := by
  have not_idle : ¬ s.isIdle c = true := Bool.eq_false_iff.mp ready
  have dropped : s.calls.dropWhile s.isIdle = c :: after := by
    rw [calls_eq, List.dropWhile_append_of_pos idle, List.dropWhile_cons_of_neg not_idle]
  have taken : s.calls.takeWhile s.isIdle = before := by
    rw [calls_eq, List.takeWhile_append_of_pos idle, List.takeWhile_cons_of_neg not_idle,
      List.append_nil]
  conv => lhs; unfold drain
  split
  · next none => rw [dropped] at none; cases none
  · next first rest eq =>
    rw [dropped] at eq
    cases eq
    rw [taken]

/-- What an idle call waits for lies ahead. -/
theorem lt_wake_of_isIdle {s : Session} {c : Call} {t : Instant} (idle : s.isIdle c)
    (wake : c.wake = some t) : s.now < t := by
  simp only [isIdle, Call.ready, Bool.not_eq_true', Bool.or_eq_false_iff] at idle
  simpa [reached, wake] using idle.1

/-! ## The clock -/

/-- The next moment at which a call is to look again. -/
def nextWake (s : Session) : Option Instant :=
  s.calls.foldl (fun wake c => sooner wake c.wake) none

/-- Filing a call leaves the clock. -/
@[simp] theorem now_file (s : Session) (before : List Call) (id : Nat) (after : List Call)
    (standing : World × Standing) : (s.file before id after standing).now = s.now := by
  obtain ⟨w, standing⟩ := standing
  cases standing <;> rfl

/-- A round leaves the clock. -/
@[simp] theorem now_drain (s : Session) : s.drain.now = s.now := by
  fun_induction drain s with
  | case1 => rfl
  | case2 s c after h ih => simpa using ih

/-- **Lets the clock run up to a target**, stopping for a round at every
moment at which a call is to look again. The clock is left at the last of
them. -/
def runUntil (s : Session) (target : Instant) : Session :=
  match s.nextWake with
  | none => s
  | some t =>
    if _h : s.now < t ∧ t ≤ target then { s with now := t }.drain.runUntil target else s
termination_by (target - s.now).toNat
decreasing_by
  simp only [now_drain, Instant] at *
  omega

/-- The clock does not run back. -/
theorem now_le_runUntil (s : Session) (target : Instant) : s.now ≤ (s.runUntil target).now := by
  fun_induction runUntil s target with
  | case1 => exact Int.le_refl _
  | case2 s t _ ahead ih =>
    rw [now_drain] at ih
    exact Int.le_trans (Int.le_of_lt ahead.1) ih
  | case3 => exact Int.le_refl _

/-- The clock does not run past the target. -/
theorem runUntil_now_le {s : Session} {target : Instant} (le : s.now ≤ target) :
    (s.runUntil target).now ≤ target := by
  fun_induction runUntil s target with
  | case1 => exact le
  | case2 s t _ ahead ih => exact ih (by rw [now_drain]; exact ahead.2)
  | case3 => exact le

/-- **Moves the clock on**, unless that would be back. -/
def advance (s : Session) (d : Duration) : Session :=
  let target := (s.now.after? d).getD Instant.last
  { s.runUntil target with now := max s.now target }

/-- **Lets the clock run** until no call is to look again. -/
def settle (s : Session) : Session := s.runUntil Instant.last

end Session

end AdvisoryStore
