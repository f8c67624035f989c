import AdvisoryStore.Proofs.Likeness.Session

/-!
# Who is answered

The call that a command makes has the command's number. It waits in the
session under this number, or is answered under it, and no call is lost on
the way. A call of the demo workload is known by what it is in the middle of
first of all, up to its end; and its answer, if it has one, is that it is
done (`Session.attends_carryOutAll`).
-/

namespace AdvisoryStore

/-- **A call of the demo workload** is in the middle of it, first of all. -/
def InDemo (stack : List Frame) : Prop :=
  ∃ above store worker keys left, stack = above ++ [.demo store worker keys left]

/-- Who is in the middle of something else within the workload is still within it. -/
theorem InDemo.above {stack : List Frame} (inside : InDemo stack) (frame : Frame) :
    InDemo (frame :: stack) := by
  obtain ⟨above, store, worker, keys, left, rfl⟩ := inside
  exact ⟨frame :: above, store, worker, keys, left, rfl⟩

/-- Whatever comes to its end was inside of the workload, or the workload itself. -/
theorem InDemo.below {frame : Frame} {stack : List Frame} (inside : InDemo (frame :: stack)) :
    (stack = [] ∧ frame.run? = none) ∨ InDemo stack := by
  obtain ⟨above, store, worker, keys, left, eq⟩ := inside
  cases above with
  | nil =>
    cases eq
    exact .inl ⟨rfl, rfl⟩
  | cons frame above =>
    cases eq
    exact .inr ⟨above, store, worker, keys, left, rfl⟩

/-- **A call of the demo workload**, which is about to begin, or in the middle
of it, or done. -/
inductive Control.OfDemo : Control → Prop
  | begins (worker keys : UInt32) : OfDemo ⟨.perform (.demo worker keys), []⟩
  | goes (focus : Focus) {stack : List Frame} (inside : InDemo stack) : OfDemo ⟨focus, stack⟩
  | ends : OfDemo ⟨.answer .done, []⟩

/-- A call of the demo workload that stands still waits, or was told that it is
done. -/
def Standing.OfDemo : Standing → Prop
  | waiting _ stack _ => InDemo stack
  | finished reply => reply = .done

namespace Control

variable {now : Instant} {w w' : World}

/-- A worker goes on to its next key, or is done. -/
theorem ofDemo_demo (now : Instant) (w : World) (store : Nat) (worker : UInt32) (keys left : Nat)
    {stack : List Frame} (inside : stack = [] ∨ InDemo stack) :
    (demo now w store worker keys left stack).OfDemo := by
  cases left with
  | zero =>
    obtain rfl | inside := inside
    · exact .ends
    · exact .goes _ inside
  | succ left =>
    obtain rfl | inside := inside
    · exact .goes _ ⟨[], store, worker, keys, left, rfl⟩
    · exact .goes _ (inside.above _)

/-- A run within the workload stays within it, whether it goes on or ends. -/
theorem ofDemo_proceed (w : World) (now : Instant) (r : Run) (answers : List Reply)
    (rest : List Action) {stack : List Frame} (inside : InDemo stack) :
    (w.proceed now r answers rest stack).2.OfDemo := by
  cases rest with
  | nil => exact .goes _ inside
  | cons a rest => exact .goes _ (inside.above _)

/-- Who gets past a point within the workload is within it still. -/
theorem ofDemo_of_pass {p : Point} {waited : Bool} {stack : List Frame} {c : Control}
    (inside : InDemo stack) (pass : p.pass now w waited stack = .passed w' c) : c.OfDemo := by
  cases Point.passes_of_pass pass with
  | gaveUp | waitOver | slept => exact .goes _ inside
  | @granted i request purpose u =>
    cases purpose with
    | answer | handle => exact .goes _ inside
    | run script outcome =>
      have entry := u.entry_enterRun now ⟨i, request.key, request.holder, outcome⟩ script stack
      show (u.enterRun now _ script stack).2.OfDemo
      generalize u.enterRun now _ script stack = entered at entry ⊢
      cases entry with
      | cached => exact .goes _ inside
      | computes => exact ofDemo_proceed _ now _ [] script inside

/-- What is begun within the workload is within it. -/
theorem ofDemo_begin (now : Instant) (w : World) (a : Action) {stack : List Frame}
    (inside : InDemo stack) : (begin now w a stack).2.OfDemo := by
  cases a with
  | demo worker keys =>
    exact ofDemo_demo now w w.current worker keys.toNat keys.toNat (.inr inside)
  | wait key patience =>
    rw [begin]
    split <;> exact .goes _ inside
  | sleep d =>
    rw [begin]
    split <;> exact .goes _ inside
  | operation | acquire | lock | run => exact .goes _ inside

/-- **A call of the demo workload goes on as one.** -/
theorem ofDemo_of_step {c c' : Control} (ofDemo : c.OfDemo) (step : c.step now w = .moved w' c') :
    c'.OfDemo := by
  cases ofDemo with
  | begins worker keys =>
    cases step
    exact ofDemo_demo now w w.current worker keys.toNat keys.toNat (.inl rfl)
  | @goes focus stack inside =>
    cases goesOn_of_step step with
    | begins a => exact ofDemo_begin now w a inside
    | passes pass => exact ofDemo_of_pass inside pass
    | resumes reply frame rest =>
      cases frame with
      | script r answers script =>
        -- the outermost frame is the workload's own, so a script is never that
        obtain ⟨-, none_inside⟩ | inside := inside.below
        · cases none_inside
        · exact ofDemo_proceed w now r _ script inside
      | demo store worker keys left =>
        exact ofDemo_demo now _ store worker keys left (inside.below.imp_left And.left)
  | ends => cases step

/-- **A call of the workload stays one**, as far as it can go on. -/
theorem ofDemo_run {c : Control} (ofDemo : c.OfDemo) : (c.run now w).2.OfDemo := by
  fun_induction run now w c with
  | case1 w c w' c' moved ih => exact ih (ofDemo_of_step ofDemo moved)
  | case2 w c p stack wake waits =>
    obtain ⟨rfl, -⟩ := eq_arrive_of_waits waits
    cases ofDemo with
    | goes _ inside => exact inside
  | case3 w c reply finished =>
    obtain rfl := eq_answer_of_finished finished
    cases ofDemo with
    | ends => rfl
    | goes _ inside =>
      obtain ⟨above, _, _, _, _, eq⟩ := inside
      cases above <;> cases eq

end Control

/-- A worker that looks again waits on, or goes on with the workload, or is done. -/
theorem Call.ofDemo_retry {c : Call} (inside : InDemo c.stack) (now : Instant) (w : World) :
    (c.retry now w).2.OfDemo := by
  unfold retry
  split
  · next pass => exact Control.ofDemo_run (Control.ofDemo_of_pass inside pass)
  · exact inside

namespace Session

variable {s : Session} {n : Nat}

/-- **A call of the demo workload is attended to**: it waits under its number,
or was told that it is done. -/
def Attends (s : Session) (n : Nat) : Prop :=
  (∃ c ∈ s.calls, c.id = n ∧ InDemo c.stack) ∨ ∃ time, ⟨n, time, .done⟩ ∈ s.returned

/-- Whoever is filed is attended to. -/
theorem attends_file {outcome : World × Standing} (ofDemo : outcome.2.OfDemo) (s : Session)
    (before : List Call) (id : Nat) (after : List Call) :
    (s.file before id after outcome).Attends id := by
  obtain ⟨w, standing⟩ := outcome
  cases standing with
  | waiting p stack wake =>
    exact .inl ⟨_, List.mem_append_right _ List.mem_cons_self, rfl, ofDemo⟩
  | finished reply =>
    obtain rfl : reply = .done := ofDemo
    exact .inr ⟨s.now, List.mem_cons_self⟩

/-- Whoever is not, is attended to as before. -/
theorem Attends.file (outcome : World × Standing) {before : List Call} {id : Nat}
    {after : List Call} (attends : (∃ c ∈ before ++ after, c.id = n ∧ InDemo c.stack)
      ∨ ∃ time, ⟨n, time, .done⟩ ∈ s.returned) :
    (s.file before id after outcome).Attends n := by
  obtain ⟨w, standing⟩ := outcome
  obtain ⟨c, mem, rest⟩ | ⟨time, mem⟩ := attends
  · refine .inl ⟨c, ?_, rest⟩
    cases standing with
    | finished => exact mem
    | waiting =>
      exact (List.mem_append.mp mem).elim (List.mem_append_left _)
        (fun mem => List.mem_append_right _ (List.mem_cons_of_mem _ mem))
  · refine .inr ⟨time, ?_⟩
    cases standing with
    | finished => exact List.mem_cons_of_mem _ mem
    | waiting => exact mem

/-- No call is lost when all that have cause to look again do. -/
theorem Attends.drain (attends : s.Attends n) : s.drain.Attends n := by
  fun_induction Session.drain s with
  | case1 => exact attends
  | case2 s c after eq ih =>
    refine ih ?_
    obtain ⟨waiting, mem, rfl, inside⟩ | returned := attends
    · rw [calls_eq_of_dropWhile eq, List.mem_append, List.mem_cons] at mem
      obtain earlier | rfl | later := mem
      · exact .file _ (.inl ⟨waiting, List.mem_append_left _ earlier, rfl, inside⟩)
      · exact attends_file (waiting.ofDemo_retry inside ..) ..
      · exact .file _ (.inl ⟨waiting, List.mem_append_right _ later, rfl, inside⟩)
    · exact .file _ (.inr returned)

/-- No call is lost while time passes. -/
theorem Attends.runUntil (attends : s.Attends n) (target : Instant) :
    (s.runUntil target).Attends n := by
  fun_induction Session.runUntil s target with
  | case1 => exact attends
  | case2 s t next ahead ih =>
    have ticked : { s with now := t }.Attends n := attends
    exact ih ticked.drain
  | case3 => exact attends

/-- No call is lost by a command. -/
theorem Attends.carryOut (attends : s.Attends n) (c : Command) : (s.carryOut c).1.Attends n := by
  have issued : { s with nextId := s.nextId + 1 }.Attends n := attends
  cases c with
  | call a =>
    refine Attends.drain (.file _ ?_)
    rw [List.append_nil]
    exact attends
  | advance d => exact issued.runUntil _
  | settle => exact issued.runUntil _

theorem Attends.carryOutAll (attends : s.Attends n) (commands : List Command) :
    (s.carryOutAll commands).1.Attends n := by
  induction commands generalizing s with
  | nil => exact attends
  | cons c rest ih => exact ih (attends.carryOut c)

/-- **Every call of the demo workload is attended to**, under the number of its
command. -/
theorem attends_carryOutAll (s : Session) {commands : List Command} {worker keys : UInt32}
    (asked : commands[n]? = some (.call (.demo worker keys))) :
    (s.carryOutAll commands).1.Attends (s.nextId + n) := by
  induction commands generalizing s n with
  | nil => cases asked
  | cons c rest ih =>
    cases n with
    | zero =>
      cases asked
      have begun : (s.call (.demo worker keys)).1.Attends s.nextId :=
        attends_file (Control.ofDemo_run (.begins worker keys)) ..
      exact begun.drain.carryOutAll rest
    | succ n =>
      have later := ih (s.carryOut c).1 asked
      rw [nextId_carryOut, Nat.add_right_comm, Nat.add_assoc] at later
      exact later

end Session

end AdvisoryStore
