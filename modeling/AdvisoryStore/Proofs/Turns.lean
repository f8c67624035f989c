import AdvisoryStore.Proofs.Runs

/-!
# One move of a call

A **thread** is a call among others: it goes on, or it waits at a point. It
may make a move whether it has cause to or not, and what a move does does
not depend on who else is there (`Thread.Turn`).

How a call goes on depends on what it is about (`Control.GoesOn`), and how it
gets past a point on what it finds there (`Point.Passes`). What is shown of
every move by going through them is shown by these cases.

`Thread.course_of_turn` tells what a move can come to. It is quiet, or a
caller writes, or a run is granted its lock and begins, or a run has done
its script and ends. Whatever is to be shown of every move is shown of
these four.
-/

namespace AdvisoryStore

/-- **How a call gets past a point**: it gives up on its lock or is granted it,
what it waited for has ended or not, or it has slept enough. -/
inductive Point.Passes (now : Instant) (w : World) (waited : Bool) (stack : List Frame) :
    Point → World → Control → Prop
  | gaveUp {store : Nat} {request : LockRequest} {purpose : Purpose} {u : World}
      (tried : w.on now store (·.attempt now request waited) = (u, .gaveUp)) :
      Passes now w waited stack (.lock store request purpose) u ⟨.answer (.flag false), stack⟩
  | granted {store : Nat} {request : LockRequest} {purpose : Purpose} {u : World}
      (tried : w.on now store (·.attempt now request waited) = (u, .granted)) :
      Passes now w waited stack (.lock store request purpose)
        (u.fulfil now store request purpose stack).1 (u.fulfil now store request purpose stack).2
  | waitOver {store : Nat} {key : Bytes} {generation : Nat} {giveUp : Option Instant} {u : World}
      (ended : Bool)
      (looked : w.on now store (·.awaitEnd now key generation giveUp)
        = (u, if ended then .ended else .gaveUp)) :
      Passes now w waited stack (.release store key generation giveUp) u
        ⟨.answer (.flag ended), stack⟩
  | slept {finish : Option Instant} (due : reached now finish = true) :
      Passes now w waited stack (.sleep finish) w ⟨.answer .done, stack⟩

theorem Point.passes_of_pass {p : Point} {now : Instant} {w w' : World} {waited : Bool}
    {stack : List Frame} {c : Control} (pass : p.pass now w waited stack = .passed w' c) :
    p.Passes now w waited stack w' c := by
  cases p with
  | lock store request purpose =>
    rw [Point.pass] at pass
    split at pass <;> cases pass
    · next tried => exact .gaveUp tried
    · next tried => exact .granted tried
  | release store key generation giveUp =>
    rw [Point.pass] at pass
    split at pass <;> cases pass
    · next looked => exact .waitOver false looked
    · next looked => exact .waitOver true looked
  | sleep finish =>
    rw [Point.pass] at pass
    split at pass <;> cases pass
    next due => exact .slept due

namespace Control

/-- **How a call goes on**, by what it is about. -/
inductive GoesOn (now : Instant) (w : World) : Control → World → Control → Prop
  | begins (a : Action) (stack : List Frame) :
      GoesOn now w ⟨.perform a, stack⟩ (begin now w a stack).1 (begin now w a stack).2
  | passes {p : Point} {stack : List Frame} {w' : World} {c : Control}
      (pass : p.pass now w false stack = .passed w' c) : GoesOn now w ⟨.arrive p, stack⟩ w' c
  | resumes (reply : Reply) (frame : Frame) (rest : List Frame) :
      GoesOn now w ⟨.answer reply, frame :: rest⟩ (resume now w reply frame rest).1
        (resume now w reply frame rest).2

variable {now : Instant} {w w' : World} {c c' : Control}

theorem goesOn_of_step (step : c.step now w = .moved w' c') : GoesOn now w c w' c' := by
  obtain ⟨focus, stack⟩ := c
  cases focus with
  | perform a =>
    cases step
    exact .begins a stack
  | arrive p =>
    unfold Control.step at step
    simp only at step
    split at step <;> cases step
    next pass => exact .passes pass
  | answer reply =>
    cases stack with
    | nil => cases step
    | cons frame rest =>
      cases step
      exact .resumes reply frame rest

/-- A call waits at the point that it has arrived at. -/
theorem eq_arrive_of_waits {p : Point} {stack : List Frame} {wake : Option Instant}
    (waits : c.step now w = .waits p stack wake) :
    c = ⟨.arrive p, stack⟩ ∧ p.pass now w false stack = .waits wake := by
  obtain ⟨focus, stack⟩ := c
  cases focus with
  | perform => cases waits
  | arrive p =>
    unfold Control.step at waits
    simp only at waits
    split at waits <;> cases waits
    next pass => exact ⟨rfl, pass⟩
  | answer => cases stack <;> cases waits

/-- A call is over when it has its answer, and nothing is left to go on with. -/
theorem eq_answer_of_finished {reply : Reply} (finished : c.step now w = .finished reply) :
    c = ⟨.answer reply, []⟩ := by
  obtain ⟨focus, stack⟩ := c
  cases focus with
  | perform => cases finished
  | arrive p =>
    unfold Control.step at finished
    simp only at finished
    split at finished <;> cases finished
  | answer =>
    cases stack <;> cases finished
    rfl

/-- A remark says that a record was reused, or that a run has failed. -/
theorem of_mem_demoRemark {worker : UInt32} {key : Bytes} {reply : Reply} {what : Happening}
    (mem : what ∈ demoRemark worker key reply) :
    (∃ key holder, what = .reused key holder) ∨ ∃ key fault, what = .demoFailed key fault := by
  unfold demoRemark at mem
  split at mem
  · exact .inl ⟨_, _, List.mem_singleton.mp mem⟩
  · exact .inr ⟨_, _, List.mem_singleton.mp mem⟩
  · cases mem

end Control

/-- **A call among others**, which goes on or waits at a point. -/
inductive Thread
  | going (c : Control)
  | waiting (p : Point) (stack : List Frame)

/-- The run that a frame is in the middle of. -/
def Frame.run? : Frame → Option Run
  | script run _ _ => some run
  | demo .. => none

/-- The run that a call at a point wants a lock for. -/
def Point.run? : Point → Option Run
  | lock store request (.run _ outcome) => some ⟨store, request.key, request.holder, outcome⟩
  | _ => none

namespace Thread

/-- What the call is in the middle of. -/
def stack : Thread → List Frame
  | going c => c.stack
  | waiting _ stack => stack

/-- The point that the call is to get past next. -/
def point? : Thread → Option Point
  | going ⟨.arrive p, _⟩ => some p
  | going _ => none
  | waiting p _ => some p

/-- The runs of the call that compute, innermost first. -/
def computing (t : Thread) : List Run := t.stack.filterMap Frame.run?

/-- The run that the call wants its lock for. -/
def wanted? (t : Thread) : Option Run := t.point?.bind Point.run?

/-- **One move of a call**: what becomes of the world, and of the call if
it is not over. -/
inductive Turn (now : Instant) (w : World) : Thread → World → Option Thread → Prop
  | move {c c' : Control} {w' : World} (step : c.step now w = .moved w' c') :
      Turn now w (.going c) w' (some (.going c'))
  | suspend {c : Control} {p : Point} {stack : List Frame} {wake : Option Instant}
      (step : c.step now w = .waits p stack wake) :
      Turn now w (.going c) w (some (.waiting p stack))
  | finish {c : Control} {reply : Reply} (step : c.step now w = .finished reply) :
      Turn now w (.going c) w none
  | resume {p : Point} {stack : List Frame} {w' : World} {c : Control}
      (pass : p.pass now w true stack = .passed w' c) :
      Turn now w (.waiting p stack) w' (some (.going c))

/-- **The move of a call**, if it has one to make. -/
def act (now : Instant) (w : World) : Thread → Option (World × Option Thread)
  | going c =>
    match c.step now w with
    | .moved w c => some (w, some (going c))
    | .waits p stack _ => some (w, some (waiting p stack))
    | .finished _ => some (w, none)
  | waiting p stack =>
    match p.pass now w true stack with
    | .passed w c => some (w, some (going c))
    | .waits _ => none

/-- A call has one move at most. -/
theorem turn_iff_act {now : Instant} {w w' : World} {t : Thread} {t' : Option Thread} :
    t.Turn now w w' t' ↔ t.act now w = some (w', t') := by
  constructor
  · intro turn
    cases turn with
    | move step | suspend step | finish step => rw [act, step]
    | resume pass => rw [act, pass]
  · intro acts
    cases t with
    | going c =>
      rw [act] at acts
      split at acts
      · next step =>
        cases acts
        exact .move step
      · next step =>
        cases acts
        exact .suspend step
      · next step =>
        cases acts
        exact .finish step
    | waiting p stack =>
      rw [act] at acts
      split at acts
      · next pass =>
        cases acts
        exact .resume pass
      · cases acts

/-- **A call that arrives at a point** gets past it, or waits there. -/
theorem Turn.of_arrive {now : Instant} {w w' : World} {p : Point} {stack : List Frame}
    {t' : Option Thread} (turn : Turn now w (.going ⟨.arrive p, stack⟩) w' t') :
    (∃ c, p.pass now w false stack = .passed w' c ∧ t' = some (.going c))
      ∨ (w' = w ∧ t' = some (.waiting p stack)) := by
  cases turn with
  | move step =>
    cases Control.goesOn_of_step step with
    | passes pass => exact .inl ⟨_, pass, rfl⟩
  | suspend step =>
    obtain ⟨same, -⟩ := Control.eq_arrive_of_waits step
    cases same
    exact .inr ⟨rfl, rfl⟩
  | finish step => cases Control.eq_answer_of_finished step

/-! ## What a move comes to -/

/-- **What a move can come to.** -/
inductive Course (now : Instant) (w : World) (t : Thread) : World → Option Thread → Prop
  | quiet {w' : World} {t' : Option Thread} (evolves : World.Evolves Event.Quiet now w w')
      (same : t'.toList.flatMap computing = t.computing) : Course now w t w' t'
  /-- A caller writes. -/
  | writes {key holder : Bytes} {content : Content} {stack : List Frame}
      (eq : t = .going ⟨.perform (.operation (.write key content holder)), stack⟩) :
      Course now w t (w.on now w.current (·.write now .caller key content holder)).1
        (some (.going ⟨.answer (w.perform now (.write key content holder)).2, stack⟩))
  /-- A run is granted its lock, and begins. -/
  | enters {u : World} {store : Nat} {request : LockRequest} {script : List Action}
      {outcome : Except Fault Content} {waited : Bool}
      (point : t.point? = some (.lock store request (.run script outcome)))
      (granted : w.on now store (·.attempt now request waited) = (u, .granted)) :
      Course now w t
        (u.enterRun now ⟨store, request.key, request.holder, outcome⟩ script t.stack).1
        (some (.going
          (u.enterRun now ⟨store, request.key, request.holder, outcome⟩ script t.stack).2))
  /-- A run has done its script, and ends. -/
  | ends {r : Run} {reply : Reply} {answers : List Reply} {stack : List Frame}
      (eq : t = .going ⟨.answer reply, .script r answers [] :: stack⟩) :
      Course now w t (w.conclude now r (answers ++ [reply])).1
        (some (.going ⟨.answer (w.conclude now r (answers ++ [reply])).2, stack⟩))

variable {now : Instant} {w w' : World} {t : Thread}

/-- Getting past a point is quiet, or a run begins. -/
theorem course_of_pass {p : Point} {waited : Bool} {c : Control} (point : t.point? = some p)
    (pass : p.pass now w waited t.stack = .passed w' c) :
    Course now w t w' (some (.going c)) := by
  have still {u : World} {reply : Reply} (evolves : World.Evolves Event.Quiet now w u) :
      Course now w t u (some (.going ⟨.answer reply, t.stack⟩)) :=
    .quiet evolves (List.flatMap_singleton ..)
  cases Point.passes_of_pass pass with
  | @gaveUp store request purpose u eq =>
    have tried := (w.evolves_attempt now store request waited).quiet
    rw [eq] at tried
    exact still tried
  | @granted store request purpose u eq =>
    have tried := (w.evolves_attempt now store request waited).quiet
    rw [eq] at tried
    cases purpose with
    | answer => exact still tried
    | handle slot => exact still (tried.trans (u.evolves_place now slot _))
    | run script outcome => exact .enters point eq
  | @waitOver store key generation giveUp u _ eq =>
    have looked := (w.evolves_awaitEnd now store key generation giveUp).quiet
    rw [eq] at looked
    exact still looked
  | slept => exact still .refl

/-- Wanting the next key of the demo workload is no run that computes. -/
theorem computing_demo (now : Instant) (w : World) (store : Nat) (worker : UInt32)
    (keys left : Nat) (stack : List Frame) :
    (going (Control.demo now w store worker keys left stack)).computing
      = stack.filterMap Frame.run? := by
  cases left <;> rfl

/-- Setting out on an action is quiet, or a caller writes. -/
theorem course_of_begin (now : Instant) (w : World) (a : Action) (stack : List Frame) :
    Course now w (.going ⟨.perform a, stack⟩) (Control.begin now w a stack).1
      (some (.going (Control.begin now w a stack).2)) := by
  have still {u : World} {focus : Focus} (evolves : World.Evolves Event.Quiet now w u) :
      Course now w (.going ⟨.perform a, stack⟩) u (some (.going ⟨focus, stack⟩)) :=
    .quiet evolves (List.flatMap_singleton ..)
  cases a with
  | operation o =>
    -- of what is done at once only a write is not quiet
    by_cases write : ∃ key content holder, o = .write key content holder
    · obtain ⟨key, content, holder, rfl⟩ := write
      have world_eq : (w.perform now (.write key content holder)).1
          = (w.on now w.current (·.write now .caller key content holder)).1 := by
        rw [World.perform_write, World.verdict_fst]
      rw [Control.begin, world_eq]
      exact .writes rfl
    · have unwritten : ∀ key content holder, o ≠ .write key content holder :=
        fun key content holder eq => write ⟨key, content, holder, eq⟩
      exact still (w.evolves_perform now unwritten)
  | acquire => exact still .refl
  | lock => exact still .refl
  | wait key patience =>
    have began := (w.evolves_beginWait now w.current key).quiet
    rw [Control.begin]
    split <;> next eq => rw [eq] at began; exact still began
  | sleep d =>
    rw [Control.begin]
    split <;> exact still .refl
  | run => exact still .refl
  | demo worker keys =>
    refine .quiet .refl ?_
    rw [Option.toList_some, List.flatMap_singleton]
    exact computing_demo ..

/-- Remarks about a store, one after the other, are quiet. -/
theorem evolves_remarks {store : Nat} {remarks : List Happening}
    (fit : ∀ what ∈ remarks, (∀ s : Store, what.TrueOfStore now s) ∧ what.Quiet) (w : World) :
    World.Evolves Event.Quiet now w (remarks.foldl (·.note now store ·) w) := by
  induction remarks generalizing w with
  | nil => exact .refl
  | cons what rest ih =>
    have first := fit what List.mem_cons_self
    have noted : World.Evolves Event.Quiet now w (w.note now store what) :=
      World.evolves_note (first.1 _) first.2
    exact noted.trans (ih (fun other mem => fit other (List.mem_cons_of_mem _ mem)) _)

/-- Handing on an answer is quiet, or a run ends. -/
theorem course_of_resume {reply : Reply} {frame : Frame} {rest : List Frame}
    (eq : t = .going ⟨.answer reply, frame :: rest⟩) :
    Course now w t (Control.resume now w reply frame rest).1
      (some (.going (Control.resume now w reply frame rest).2)) := by
  cases frame with
  | script r answers script =>
    cases script with
    | nil => exact .ends eq
    | cons a script =>
      refine .quiet .refl ?_
      rw [eq, Option.toList_some, List.flatMap_singleton]
      rfl
  | demo store worker keys left =>
    refine .quiet (evolves_remarks ?_ w) ?_
    · intro what mem
      obtain ⟨_, _, rfl⟩ | ⟨_, _, rfl⟩ := Control.of_mem_demoRemark mem <;>
        exact ⟨fun _ => trivial, rfl, rfl⟩
    · rw [eq, Option.toList_some, List.flatMap_singleton]
      exact computing_demo ..

/-- **What a move comes to**: it is quiet, or a caller writes, or a run
begins, or a run ends. -/
theorem course_of_turn {t' : Option Thread} (turn : t.Turn now w w' t') :
    Course now w t w' t' := by
  cases turn with
  | move step =>
    cases Control.goesOn_of_step step with
    | begins a stack => exact course_of_begin now w a stack
    | passes pass => exact course_of_pass rfl pass
    | resumes => exact course_of_resume rfl
  | suspend step =>
    obtain ⟨rfl, -⟩ := Control.eq_arrive_of_waits step
    exact .quiet .refl (List.flatMap_singleton ..)
  | finish step =>
    obtain rfl := Control.eq_answer_of_finished step
    exact .quiet .refl rfl
  | resume pass => exact course_of_pass rfl pass

/-- **Whatever a move comes to, the world evolves by it.** -/
theorem Course.evolves {t' : Option Thread} (course : Course now w t w' t') :
    World.Evolves (fun _ => True) now w w' := by
  cases course with
  | quiet evolves => exact evolves.mono (fun _ _ => trivial)
  | writes =>
    exact World.evolves_on (Store.unfolds_write ..) (fun _ _ => trivial)
  | @enters u store request script outcome waited _ granted =>
    have tried := w.evolves_attempt now store request waited
    rw [granted] at tried
    have entered := u.evolves_enterRun now ⟨store, request.key, request.holder, outcome⟩ script
      t.stack
    exact (tried.mono (fun _ _ => trivial)).trans (entered.mono (fun _ _ => trivial))
  | @ends r reply answers => exact (w.evolves_conclude now r _).mono (fun _ _ => trivial)

theorem Turn.evolves {t' : Option Thread} (turn : t.Turn now w w' t') :
    World.Evolves (fun _ => True) now w w' :=
  (course_of_turn turn).evolves

/-! ## What a run returns -/

/-- The run that may return by the next move of the call. -/
def due? : Thread → Option Run
  | going ⟨.answer _, .script r _ [] :: _⟩ => some r
  | t => t.wanted?

theorem due?_of_point {store : Nat} {request : LockRequest} {script : List Action}
    {outcome : Except Fault Content}
    (point : t.point? = some (.lock store request (.run script outcome))) :
    t.due? = some ⟨store, request.key, request.holder, outcome⟩ := by
  have wanted : t.wanted? = some ⟨store, request.key, request.holder, outcome⟩ := by
    rw [wanted?, point]
    rfl
  unfold due?
  split
  · cases point
  · exact wanted

/-- **The two ways to a run's return**: it has done its script, or it is over as soon
as it has its lock. -/
inductive Returns (now : Instant) (w : World) (r : Run) (w' : World) (reply : Reply) : Prop
  | ends (done : List Reply) (ended : w.conclude now r done = (w', reply))
  | enters {u : World} {request : LockRequest} {waited : Bool} {script : List Action}
      {stack rest : List Frame}
      (granted : w.on now r.store (·.attempt now request waited) = (u, .granted))
      (entered : u.enterRun now r script stack = (w', ⟨.answer reply, rest⟩))

variable {r : Run} {content : Content} {fromCache : Bool} {answers : List Reply}
  {stack rest : List Frame}

/-- A run returns at its point only if it has its lock. -/
theorem returns_of_pass {p : Point} {waited : Bool} (wanted : p.run? = some r)
    (pass : p.pass now w waited stack
      = .passed w' ⟨.answer (.ran content fromCache answers), rest⟩) :
    Returns now w r w' (.ran content fromCache answers) := by
  cases p with
  | release | sleep => cases wanted
  | lock store request purpose =>
    cases purpose with
    | answer | handle => cases wanted
    | run script outcome =>
      cases wanted
      rw [Point.pass] at pass
      split at pass
      · cases pass
      · cases pass
      · next u granted =>
        rw [Passage.passed.injEq] at pass
        exact .enters granted (Prod.ext pass.1 pass.2)

/-- **A run that returns** has come there in one of the two ways. -/
theorem returns_of_turn (due : t.due? = some r)
    (turn : t.Turn now w w' (some (.going ⟨.answer (.ran content fromCache answers), stack⟩))) :
    Returns now w r w' (.ran content fromCache answers) := by
  cases turn with
  | resume pass => exact returns_of_pass due pass
  | @move c _ _ step =>
    obtain ⟨focus, frames⟩ := c
    cases focus with
    | perform a => cases due
    | arrive p =>
      cases Control.goesOn_of_step step with
      | passes pass => exact returns_of_pass due pass
    | answer reply =>
      cases frames with
      | nil => cases due
      | cons frame rest =>
        cases frame with
        | demo => cases due
        | script run done script =>
          cases script with
          | cons => cases due
          | nil =>
            cases due
            refine .ends (done ++ [reply]) ?_
            simp only [Control.step, Control.resume, World.proceed] at step
            generalize w.conclude now r (done ++ [reply]) = ended at step
            obtain ⟨after, returned⟩ := ended
            cases step
            rfl

end Thread

end AdvisoryStore
