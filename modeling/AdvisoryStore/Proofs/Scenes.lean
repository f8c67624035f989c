import AdvisoryStore.Proofs.Turns

/-!
# Calls in any order

A session has a rule for whose turn it is. Here the rule is dropped: a
**scene** is a clock, a world and the calls in progress, of which any one
may make a move at any time, while further calls are begun and the clock
moves on as they like (`Scene.Step`). What holds of every scene that one
scene leads to holds whatever the order of calls, however long they take,
and whoever is resumed first.

Sessions are a special case. `Session.leads_carryOutAll` says that whatever
commands do is such a sequence of moves, so that a statement about scenes is
one about sessions.
-/

namespace AdvisoryStore

/-- **What goes on at a moment.** -/
structure Scene where
  now : Instant
  world : World
  /-- The calls in progress. -/
  threads : List Thread

namespace Scene

/-- **One step of what goes on.** -/
inductive Step : Scene → Scene → Prop
  /-- A call is made. -/
  | begin (s : Scene) (a : Action) :
      Step s { s with threads := s.threads ++ [.going ⟨.perform a, []⟩] }
  /-- The clock moves on. -/
  | tick (s : Scene) {later : Instant} (le : s.now ≤ later) : Step s { s with now := later }
  /-- Some call makes a move. -/
  | turn {now : Instant} {w w' : World} {t : Thread} {t' : Option Thread}
      (turn : t.Turn now w w' t') (before after : List Thread) :
      Step ⟨now, w, before ++ t :: after⟩ ⟨now, w', before ++ t'.toList ++ after⟩

/-- **What a scene may lead to.** -/
abbrev Leads : Scene → Scene → Prop := Relation.ReflTransGen Step

/-- **A move of one of the calls.** -/
inductive Move : Scene → Scene → Prop
  | turn {now : Instant} {w w' : World} {t : Thread} {t' : Option Thread}
      (turn : t.Turn now w w' t') (before after : List Thread) :
      Move ⟨now, w, before ++ t :: after⟩ ⟨now, w', before ++ t'.toList ++ after⟩

/-- **What calls come to by moves alone**: none is begun, and the clock stands
still. -/
abbrev Moves : Scene → Scene → Prop := Relation.ReflTransGen Move

/-- Moves of calls are steps of the scene. -/
theorem Moves.leads {s s' : Scene} (moves : s.Moves s') : s.Leads s' := by
  induction moves with
  | refl => exact .refl
  | tail _ move ih =>
    obtain ⟨turn, before, after⟩ := move
    exact ih.tail (.turn turn before after)

/-- The scene after one of the calls has made its move, if it had one. -/
def act (s : Scene) (n : Nat) : Scene :=
  match s.threads[n]?.bind (Thread.act s.now s.world) with
  | some (w, t) => ⟨s.now, w, s.threads.take n ++ t.toList ++ s.threads.drop (n + 1)⟩
  | none => s

/-- The call that makes its move stands between the calls before it and behind it. -/
theorem act_eq {s : Scene} {n : Nat} {w : World} {t : Thread} {t' : Option Thread}
    (found : s.threads[n]? = some t) (acts : t.act s.now s.world = some (w, t')) :
    s.threads.take n ++ t :: s.threads.drop (n + 1) = s.threads
      ∧ s.act n = ⟨s.now, w, s.threads.take n ++ t'.toList ++ s.threads.drop (n + 1)⟩ := by
  obtain ⟨there, rfl⟩ := List.getElem?_eq_some_iff.mp found
  refine ⟨by rw [← List.drop_eq_getElem_cons there, List.take_append_drop], ?_⟩
  rw [act, found, Option.bind_some, acts]

/-- A call that has a move to make makes it in a step. -/
theorem step_act {s : Scene} {n : Nat}
    (moves : (s.threads[n]?.bind (Thread.act s.now s.world)).isSome) : s.Step (s.act n) := by
  obtain ⟨⟨w, t'⟩, acts⟩ := Option.isSome_iff_exists.mp moves
  obtain ⟨t, found, acts⟩ := Option.bind_eq_some_iff.mp acts
  obtain ⟨split, eq⟩ := act_eq found acts
  have turn := Step.turn (Thread.turn_iff_act.mpr acts) (s.threads.take n)
    (s.threads.drop (n + 1))
  rwa [split, ← eq] at turn

/-- What happened between two scenes, oldest first. -/
def since (s s' : Scene) : List Event := s.world.since s'.world

/-! ## What every step keeps -/

/-- The clock never goes back. -/
theorem Step.now_le {s s' : Scene} (step : s.Step s') : s.now ≤ s'.now := by
  cases step with
  | begin => exact Int.le_refl _
  | tick _ le => exact le
  | turn => exact Int.le_refl _

theorem Leads.now_le {s s' : Scene} (leads : s.Leads s') : s.now ≤ s'.now := by
  induction leads with
  | refl => exact Int.le_refl _
  | tail _ step ih => exact Int.le_trans ih step.now_le

/-- **By a step the world evolves**, at the instant of the scene. -/
theorem Step.evolves {s s' : Scene} (step : s.Step s') :
    World.Evolves (fun _ => True) s.now s.world s'.world := by
  cases step with
  | begin => exact .refl
  | tick => exact .refl
  | turn turn => exact turn.evolves

/-- What has happened stays on record. -/
theorem Step.events {s s' : Scene} (step : s.Step s') : s.world.events <:+ s'.world.events :=
  step.evolves.events.1

/-- It does so in whatever a scene leads to. -/
theorem Leads.events {s s' : Scene} (leads : s.Leads s') :
    s.world.events <:+ s'.world.events := by
  induction leads with
  | refl => exact List.suffix_refl _
  | tail _ step ih => exact ih.trans step.events

theorem since_self (s : Scene) : s.since s = [] := s.world.since_self

/-- What happened on the way to a scene and in a step from there. -/
theorem since_tail {s t u : Scene} (leads : s.Leads t) (step : t.Step u) :
    s.since u = s.since t ++ t.since u :=
  World.since_trans leads.events step.events

/-- **What is true of a new store and outlives every change of one** is true
of all stores in every scene that a session may come to. -/
theorem Leads.invariant {s : Scene} {hash : Bytes → Nat} {settings : StoreSettings}
    {environment : Environment} {now : Instant}
    (reached : Leads ⟨now, .new hash settings environment, []⟩ s) {I : Store → Prop}
    (fresh : ∀ hash settings, I (.new hash settings))
    (kept : ∀ {now s t happened}, s.Occurs now happened t → I s → I t) (i : Nat) :
    I (s.world.store i) := by
  induction reached generalizing i with
  | refl =>
    cases i with
    | zero => exact fresh hash settings
    | succ i =>
      rw [World.store_of_length_le (Nat.le_add_left 1 i)]
      exact fresh _ _
  | tail _ step ih => exact step.evolves.invariant fresh kept ih i

end Scene

/-! ## Calls that are made and go on -/

/-- What is done at once is answered at once. -/
theorem Control.run_operation (now : Instant) (w : World) (o : Operation) :
    run now w ⟨.perform (.operation o), []⟩
      = ((w.perform now o).1, .finished (w.perform now o).2) :=
  (run_of_moved rfl).trans (run_answer ..)

/-- A call that waits, as one among others. -/
def Call.thread (c : Call) : Thread := .waiting c.point c.stack

/-- What is left of a call in its standing. -/
def Standing.thread? : Standing → Option Thread
  | waiting p stack _ => some (.waiting p stack)
  | finished _ => none

namespace Scene

/-- A call that goes on as far as it can makes one move after the other. -/
theorem moves_run (now : Instant) (w : World) (c : Control) (before after : List Thread) :
    Moves ⟨now, w, before ++ .going c :: after⟩
      ⟨now, (c.run now w).1, before ++ (c.run now w).2.thread?.toList ++ after⟩ := by
  fun_induction Control.run now w c with
  | case1 w c w' c' moved ih =>
    refine .head (.turn (.move moved) before after) ?_
    rw [Option.toList_some, List.append_assoc, List.singleton_append]
    exact ih
  | case2 w c p stack wake waits => exact .single (.turn (.suspend waits) before after)
  | case3 w c reply finished => exact .single (.turn (.finish finished) before after)

/-- **A call that is made goes on as far as it can.** -/
theorem leads_begin (s : Scene) (a : Action) :
    s.Leads ⟨s.now, (Control.run s.now s.world ⟨.perform a, []⟩).1,
      s.threads ++ (Control.run s.now s.world ⟨.perform a, []⟩).2.thread?.toList⟩ := by
  have run := moves_run s.now s.world ⟨.perform a, []⟩ s.threads []
  rw [List.append_nil] at run
  exact .head (.begin s a) run.leads

/-- What is done at once is a call of two moves. -/
theorem leads_perform (s : Scene) (o : Operation) :
    s.Leads { s with world := (s.world.perform s.now o).1 } := by
  refine .head (.begin s (.operation o)) (.head (.turn (.move rfl) s.threads []) ?_)
  rw [Option.toList_some, List.append_nil]
  have finished : Step ⟨s.now, (s.world.perform s.now o).1,
      s.threads ++ [.going ⟨.answer (s.world.perform s.now o).2, []⟩]⟩ _ :=
    .turn (.finish rfl) s.threads []
  rw [Option.toList_none, List.append_nil, List.append_nil] at finished
  exact .single finished

/-- A call that tries its point again makes moves, or none. -/
theorem moves_retry (now : Instant) (w : World) (c : Call) (before after : List Thread) :
    Moves ⟨now, w, before ++ c.thread :: after⟩
      ⟨now, (c.retry now w).1, before ++ (c.retry now w).2.thread?.toList ++ after⟩ := by
  unfold Call.retry
  split
  · next w' next passed =>
    have resumed : Move ⟨now, w, before ++ c.thread :: after⟩ _ :=
      .turn (.resume passed) before after
    rw [Option.toList_some, List.append_assoc, List.singleton_append] at resumed
    exact .head resumed (moves_run now w' next before after)
  · rw [List.append_assoc]
    exact .refl

end Scene

/-! ## Sessions -/

namespace Session

/-- **A session as a scene**, which forgets whose turn it is. -/
def scene (s : Session) : Scene := ⟨s.now, s.world, s.calls.map Call.thread⟩

/-- A call that is filed is among the others if it waits, and gone if it is over. -/
theorem scene_file (s : Session) (before : List Call) (id : Nat) (after : List Call)
    (standing : World × Standing) :
    (s.file before id after standing).scene
      = ⟨s.now, standing.1,
          before.map Call.thread ++ standing.2.thread?.toList ++ after.map Call.thread⟩ := by
  obtain ⟨w, standing⟩ := standing
  cases standing with
  | waiting p stack wake =>
    rw [file, scene, Standing.thread?, Option.toList_some, List.map_append, List.map_cons,
      List.append_assoc]
    rfl
  | finished reply =>
    rw [file, scene, Standing.thread?, Option.toList_none, List.append_nil, List.map_append]

/-- The calls about one that is ready. -/
theorem calls_eq_of_dropWhile {s : Session} {c : Call} {after : List Call}
    (eq : s.calls.dropWhile s.isIdle = c :: after) :
    s.calls = s.calls.takeWhile s.isIdle ++ c :: after := by
  rw [← eq, List.takeWhile_append_dropWhile]

/-- Resuming the calls that are ready is a sequence of moves. -/
theorem moves_drain (s : Session) : s.scene.Moves s.drain.scene := by
  fun_induction drain s with
  | case1 => exact .refl
  | case2 s c after eq ih =>
    refine .trans ?_ ih
    have threads_eq : s.calls.map Call.thread
        = (s.calls.takeWhile s.isIdle).map Call.thread ++ c.thread :: after.map Call.thread := by
      rw [← List.map_cons, ← List.map_append, ← calls_eq_of_dropWhile eq]
    rw [scene_file, scene, threads_eq]
    exact Scene.moves_retry ..

/-- **A call that is made goes on as far as it can**, which is a course of
the scene. -/
theorem leads_call (s : Session) (a : Action) : s.scene.Leads (s.call a).1.scene := by
  have begun := s.scene.leads_begin a
  rw [call, scene_file, List.map_nil, List.append_nil]
  exact begun

/-- So is whatever happens while time passes. -/
theorem leads_runUntil (s : Session) (target : Instant) :
    s.scene.Leads (s.runUntil target).scene := by
  fun_induction runUntil s target with
  | case1 => exact .refl
  | case2 s t _ ahead ih =>
    refine .head (.tick s.scene (Int.le_of_lt ahead.1)) (.trans ?_ ih)
    exact (moves_drain { s with now := t }).leads
  | case3 => exact .refl

/-- The clock runs no further than the target, or stays. -/
theorem runUntil_now_le_max (s : Session) (target : Instant) :
    (s.runUntil target).now ≤ max s.now target := by
  by_cases le : s.now ≤ target
  · exact Int.le_trans (runUntil_now_le le) (Int.le_max_right ..)
  · have stays : s.runUntil target = s := by
      unfold runUntil
      split
      · rfl
      · next t _ =>
        refine dif_neg (fun ahead => le ?_)
        exact Int.le_trans (Int.le_of_lt ahead.1) ahead.2
    rw [stays]
    exact Int.le_max_left ..

theorem leads_advance (s : Session) (d : Duration) : s.scene.Leads (s.advance d).scene :=
  (s.leads_runUntil _).tail (.tick _ (s.runUntil_now_le_max _))

/-- **Whatever a command does is a sequence of moves.** -/
theorem leads_carryOut (s : Session) (c : Command) : s.scene.Leads (s.carryOut c).1.scene := by
  cases c with
  | call a => exact (s.leads_call a).trans (moves_drain _).leads
  | advance d => exact leads_advance { s with nextId := s.nextId + 1 } d
  | settle => exact leads_runUntil { s with nextId := s.nextId + 1 } _

/-- **And so is whatever commands do**, one after the other. -/
theorem leads_carryOutAll (s : Session) (commands : List Command) :
    s.scene.Leads (s.carryOutAll commands).1.scene := by
  induction commands generalizing s with
  | nil => exact .refl
  | cons c rest ih => exact (s.leads_carryOut c).trans (ih (s.carryOut c).1)

end Session

end AdvisoryStore
