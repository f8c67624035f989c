import AdvisoryStore.Proofs.Ledger

/-!
# What a step may come to for the runs on a key

Whatever is to be shown of the runs on a key, be it that they compute once or
what becomes of a record that they have stored, is shown of every step of a
scene. What one step can do to them is therefore said once
(`Scene.Episode`): it is no part of a run on the key, or a run is granted its
lock and finds the record, or one begins to compute, or one comes to its end,
which may be as soon as it has its lock if it has nothing to do
(`Scene.Closes`). Each of these says what the runs tell by the step, what
becomes of the record, and who computes afterwards.

Every step is such an episode where nobody but runs writes under the key
(`Scene.Step.episode`).
-/

namespace AdvisoryStore

/-- Whether a run is for a key of a store. -/
def Run.on (i : Nat) (key : Bytes) (r : Run) : Bool := r.store = i ∧ r.key = key

/-- A write under a key that is not the one at the end of a run. -/
def Happening.writesFromOutside (key : Bytes) : Happening → Bool
  | wrote claimant k _ _ => k = key ∧ claimant ≠ .run
  | _ => false

namespace Scene

variable {i : Nat} {key : Bytes} {s s' : Scene}

/-- The runs in progress that want a key's lock. -/
def wanting (s : Scene) (i : Nat) (key : Bytes) : List Run :=
  (s.threads.filterMap Thread.wanted?).filter (Run.on i key)

/-- **The runs in progress that compute a key's record.** -/
def computing (s : Scene) (i : Nat) (key : Bytes) : List Run :=
  (s.threads.flatMap Thread.computing).filter (Run.on i key)

/-! ## Steps that are no part of a run on the key -/

theorem apart_of_quiet {e : Event} (quiet : e.Quiet) : e.store = i → e.what.ofRun? ≠ some key := by
  intro _
  rw [quiet.1]
  nofun

theorem apart_of_within {r : Run} {e : Event} (within : e.Within r) (other : ¬ r.on i key) :
    e.store = i → e.what.ofRun? ≠ some key := by
  intro here own
  obtain ⟨store_eq, key_eq⟩ := within key own
  refine other (decide_eq_true ?_)
  exact ⟨store_eq.symm.trans here, key_eq.symm⟩

/-- An event of no run on the key writes nothing under it. -/
theorem written?_of_apart {e : Event} (outside : e.store = i → e.what.writesFromOutside key = false)
    (apart : e.store = i → e.what.ofRun? ≠ some key) : e.written? i key = none := by
  unfold Event.written?
  split
  · next here =>
    have outside := outside here
    have apart := apart here
    cases what_eq : e.what with
    | wrote claimant k holder content =>
      rw [what_eq] at outside apart
      refine if_neg (fun same => ?_)
      cases claimant with
      | run => exact apart (congrArg some same)
      | caller | handle => simp [Happening.writesFromOutside, same] at outside
    | _ => rfl
  · rfl

/-- **A step that is no part of a run on the key** leaves its record and tells
no news of it. -/
theorem Step.tells_of_apart (step : s.Step s')
    (unwritten : ∀ e ∈ s.since s', e.store = i → e.what.writesFromOutside key = false)
    (apart : ∀ e ∈ s.since s', e.store = i → e.what.ofRun? ≠ some key) :
    s.world.Tells i key [] s'.world ∧ s'.world.record? i key = s.world.record? i key := by
  have none_written : lastWritten i key (s.since s').reverse = none := by
    refine List.findSome?_eq_none_iff.mpr (fun e mem => ?_)
    have mem := List.mem_reverse.mp mem
    exact written?_of_apart (unwritten e mem) (apart e mem)
  have tacit : ∀ e ∈ s.since s', e.news? i key = none :=
    fun e mem => Event.news?_of_apart (apart e mem)
  refine ⟨World.Evolves.tells_nil step.evolves tacit, ?_⟩
  rw [World.Evolves.record? step.evolves]
  exact congrArg (Option.or · _) none_written

/-! ## Who computes -/

/-- Whose computations are in progress after a move. -/
theorem computing_turn (i : Nat) (key : Bytes) (now : Instant) (w : World)
    (before middle after : List Thread) :
    (Scene.mk now w (before ++ middle ++ after)).computing i key
      = (before.flatMap Thread.computing).filter (Run.on i key)
        ++ (middle.flatMap Thread.computing).filter (Run.on i key)
        ++ (after.flatMap Thread.computing).filter (Run.on i key) := by
  rw [computing, List.flatMap_append, List.flatMap_append, List.filter_append,
    List.filter_append]

theorem computing_cons (i : Nat) (key : Bytes) (now : Instant) (w : World)
    (before : List Thread) (t : Thread) (after : List Thread) :
    (Scene.mk now w (before ++ t :: after)).computing i key
      = (before.flatMap Thread.computing).filter (Run.on i key)
        ++ t.computing.filter (Run.on i key)
        ++ (after.flatMap Thread.computing).filter (Run.on i key) := by
  have split := computing_turn i key now w before [t] after
  rwa [List.append_assoc, List.singleton_append, List.flatMap_singleton] at split

/-- A run for another key makes no difference to who computes. -/
theorem filter_computing_of_not_on {r : Run} (other : ¬ r.on i key) {c : Control}
    {stack : List Frame} {answers : List Reply}
    (eq : c.stack = stack ∨ ∃ rest, c.stack = .script r answers rest :: stack) :
    (Thread.going c).computing.filter (Run.on i key)
      = (stack.filterMap Frame.run?).filter (Run.on i key) := by
  show (c.stack.filterMap Frame.run?).filter (Run.on i key) = _
  obtain eq | ⟨rest, eq⟩ := eq
  · rw [eq]
  · rw [eq]
    show (r :: stack.filterMap Frame.run?).filter (Run.on i key) = _
    rw [List.filter_cons_of_neg other]

/-! ## Episodes -/

/-- **A run on the key is there to end**, with this news before: it computes,
or it is let in as it wants its lock, and has nothing to do. -/
inductive Closes (i : Nat) (key : Bytes) (s s' : Scene) (r : Run) : List News → Prop
  | computing (gone : (s.computing i key).Perm (r :: s'.computing i key)) :
      Closes i key s s' r []
  | wanting (wants : r ∈ s.wanting i key)
      (admitted : ∀ h, (s.world.store i).locks.live? s.now key = some h → h.holder = r.holder)
      (absent : s.world.record? i key = none)
      (same : s'.computing i key = s.computing i key) : Closes i key s s' r [.begun]

/-- **What a step may come to for the runs on a key**, where nobody else writes
under it. -/
inductive Episode (i : Nat) (key : Bytes) (s s' : Scene) : Prop
  /-- The step is no part of a run on the key. -/
  | apart (apart : ∀ e ∈ s.since s', e.store = i → e.what.ofRun? ≠ some key)
      (told : s.world.news s'.world i key = [])
      (record : s'.world.record? i key = s.world.record? i key)
      (same : s'.computing i key = s.computing i key)
  /-- A run that is granted its lock finds the record. -/
  | found {content : Content} (told : s.world.news s'.world i key = [.found content])
      (before : s.world.record? i key = some content)
      (after : s'.world.record? i key = some content)
      (same : s'.computing i key = s.computing i key)
  /-- A run that is granted its lock begins to compute. -/
  | begun {r : Run} (wants : r ∈ s.wanting i key)
      (admitted : ∀ h, (s.world.store i).locks.live? s.now key = some h → h.holder = r.holder)
      (taken : ∃ h, (s'.world.store i).locks.stored? key = some h ∧ h.holder = r.holder)
      (told : s.world.news s'.world i key = [.begun])
      (before : s.world.record? i key = none) (after : s'.world.record? i key = none)
      (more : (s'.computing i key).Perm (r :: s.computing i key))
  /-- A run ends and has stored nothing. -/
  | failed {r : Run} {opening : List News} (closes : Closes i key s s' r opening)
      (told : s.world.news s'.world i key = opening ++ [.finished])
      (record : s'.world.record? i key = s.world.record? i key)
  /-- A run ends and has stored its result. -/
  | stored {r : Run} {opening : List News} {content : Content}
      (closes : Closes i key s s' r opening) (outcome : r.outcome = .ok content)
      (permitted : ∀ h, (s.world.store i).locks.live? s.now key = some h → h.holder = r.holder)
      (told : s.world.news s'.world i key = opening ++ [.finished, .stored content])
      (record : s'.world.record? i key = some content)

variable {now : Instant} {w u w' : World} {t : Thread} {before after : List Thread}

/-- The end of a run is an episode, when it is told what came before. -/
theorem episode_of_conclude {r : Run} {answers : List Reply} {opening : List News}
    (there : r.store < u.stores.length) (still : World.Evolves Event.Still s.now s.world u)
    (told : s.world.Tells r.store r.key opening u)
    (after : s'.world = (u.conclude s.now r answers).1)
    (closes : Closes r.store r.key s s' r opening) : Episode r.store r.key s s' := by
  have record_eq : u.record? r.store r.key = s.world.record? r.store r.key :=
    World.Evolves.record?_of_unwritten (still.mono (fun _ still => still.1)) ..
  obtain ⟨ended, same, -⟩ | ⟨content, outcome, ended, writes, -⟩ :=
    u.told_conclude s.now r answers there
  · rw [← after] at ended same
    exact .failed closes (told.trans ended).eq (same.trans record_eq)
  · rw [← after] at ended writes
    refine .stored closes outcome (writes.head still).permitted (told.trans ended).eq ?_
    rw [writes.record?, if_pos ⟨rfl, rfl⟩]

/-- **A run that is granted its lock** finds the record, or begins to compute
one, or has nothing to do and ends. -/
theorem episode_of_enterRun {r : Run} (here : r.on i key) (there : i < w.stores.length)
    (wanted : t.wanted? = some r) (calm : World.Evolves Event.Calm now w u)
    (admitted : ∀ h, (w.store r.store).locks.live? now r.key = some h → h.holder = r.holder)
    (taken : ∃ h, (u.store r.store).locks.stored? r.key = some h ∧ h.holder = r.holder)
    (script : List Action) :
    Episode i key ⟨now, w, before ++ t :: after⟩
      ⟨now, (u.enterRun now r script t.stack).1,
        before ++ [.going (u.enterRun now r script t.stack).2] ++ after⟩ := by
  obtain ⟨rfl, rfl⟩ : r.store = i ∧ r.key = key := of_decide_eq_true here
  have wants : r ∈ (Scene.mk now w (before ++ t :: after)).wanting r.store r.key := by
    refine List.mem_filter.mpr ⟨List.mem_filterMap.mpr ⟨t, ?_, wanted⟩, here⟩
    exact List.mem_append_right _ List.mem_cons_self
  have there_asked : r.store < u.stores.length :=
    Nat.lt_of_lt_of_le there (World.Evolves.length_le calm)
  have asked : w.Tells r.store r.key [] u := World.Evolves.tells_of_calm calm
  have record_eq : u.record? r.store r.key = w.record? r.store r.key :=
    World.Evolves.record?_of_unwritten (calm.mono (fun _ calm => calm.1.2)) ..
  have computing_before := computing_cons r.store r.key now w before t after
  have computing_after (w' : World) (c : Control) :=
    computing_turn r.store r.key now w' before [.going c] after
  obtain ⟨content, found, told, record_after, eq⟩
    | ⟨v, absent, still, told, length_eq, locks_eq, eq⟩ :=
    u.told_enterRun now r script t.stack there_asked
  · refine .found (asked.trans told).eq (record_eq.symm.trans found) record_after ?_
    rw [computing_before, computing_after, List.flatMap_singleton, eq]
    rfl
  · have absent := record_eq.symm.trans absent
    have still_before : World.Evolves Event.Still now w v :=
      (calm.mono (fun _ calm => calm.still)).trans still
    have told_before := asked.trans told
    rw [eq]
    cases script with
    | cons a rest =>
      refine .begun wants admitted ?_ told_before.eq absent ?_ ?_
      · show ∃ h, (v.store r.store).locks.stored? r.key = some h ∧ h.holder = r.holder
        rw [locks_eq]
        exact taken
      · show v.record? r.store r.key = none
        rw [World.Evolves.record?_of_unwritten (still_before.mono (fun _ still => still.1))]
        exact absent
      · rw [computing_before, computing_after, List.flatMap_singleton]
        show (_ ++ (r :: t.computing).filter (Run.on r.store r.key) ++ _).Perm _
        rw [List.filter_cons_of_pos here, List.append_assoc, List.append_assoc]
        exact List.perm_middle
    | nil =>
      refine episode_of_conclude (by rwa [length_eq]) still_before told_before rfl ?_
      refine .wanting wants admitted absent ?_
      rw [computing_before, computing_after, List.flatMap_singleton]
      rfl

/-- **What a move may come to for the runs on a key.** -/
theorem episode_of_turn {t' : Option Thread} (there : i < w.stores.length)
    (turn : t.Turn now w w' t')
    (unwritten : ∀ e ∈ w.since w', e.store = i → e.what.writesFromOutside key = false) :
    Episode i key ⟨now, w, before ++ t :: after⟩ ⟨now, w', before ++ t'.toList ++ after⟩ := by
  have step : Step ⟨now, w, before ++ t :: after⟩ ⟨now, w', before ++ t'.toList ++ after⟩ :=
    .turn turn before after
  have computing_before := computing_cons i key now w before t after
  have computing_after := computing_turn i key now w' before t'.toList after
  have elsewhere (apart : ∀ e ∈ w.since w', e.store = i → e.what.ofRun? ≠ some key)
      (same : (t'.toList.flatMap Thread.computing).filter (Run.on i key)
        = t.computing.filter (Run.on i key)) :
      Episode i key ⟨now, w, before ++ t :: after⟩ ⟨now, w', before ++ t'.toList ++ after⟩ := by
    obtain ⟨told, record_eq⟩ := step.tells_of_apart unwritten apart
    refine .apart apart told.eq record_eq ?_
    rw [computing_before, computing_after, same]
  cases Thread.course_of_turn turn with
  | quiet evolves same =>
    refine elsewhere (fun e mem => ?_) (by rw [same])
    exact apart_of_quiet ((World.Evolves.events evolves).2 e mem)
  | @writes key' holder content stack eq =>
    refine elsewhere (fun e mem here => ?_) ?_
    · have evolves := w.evolves_write_caller now w.current key' holder content
      rw [(World.Evolves.events evolves).2 e mem]
      nofun
    · rw [eq, Option.toList_some, List.flatMap_singleton]
      rfl
  | @enters u store request script outcome waited point granted =>
    have tried := w.evolves_attempt now store request waited
    rw [granted] at tried
    by_cases here : Run.on i key ⟨store, request.key, request.holder, outcome⟩
    · obtain ⟨admitted, taken⟩ := Locks.of_granted (congrArg Prod.snd granted)
      refine episode_of_enterRun here there ?_ tried admitted ?_ script
      · rw [Thread.wanted?, point]
        rfl
      · have own : store = i := (of_decide_eq_true here : _ ∧ _).1
        have world_eq : w.putBack now store ((w.store store).attempt now request waited).after
            ((w.store store).attempt now request waited).happened = u := congrArg Prod.fst granted
        rw [← world_eq, World.store_putBack (by rwa [own]), if_pos rfl]
        exact taken
    · have entered := u.evolves_enterRun now
        ⟨store, request.key, request.holder, outcome⟩ script t.stack
      refine elsewhere ?_ ?_
      · exact (World.Evolves.events ((tried.mono (fun _ calm => apart_of_quiet calm.1)).trans
          (entered.mono (fun _ within => apart_of_within within here)))).2
      · rw [Option.toList_some, List.flatMap_singleton,
          filter_computing_of_not_on here (World.stack_enterRun ..)]
        rfl
  | @ends r reply answers stack eq =>
    subst eq
    by_cases here : r.on i key
    · obtain ⟨rfl, rfl⟩ : r.store = i ∧ r.key = key := of_decide_eq_true here
      have told := World.Tells.refl w r.store r.key
      refine episode_of_conclude there .refl told rfl (.computing ?_)
      rw [computing_before, computing_after, Option.toList_some, List.flatMap_singleton]
      show (_ ++ (r :: stack.filterMap Frame.run?).filter (Run.on r.store r.key) ++ _).Perm _
      rw [List.filter_cons_of_pos here, List.append_assoc, List.append_assoc]
      exact List.perm_middle
    · have gone := filter_computing_of_not_on here
        (c := ⟨.answer reply, .script r answers [] :: stack⟩) (.inr ⟨[], rfl⟩)
      refine elsewhere (fun e mem => ?_) ?_
      · have evolves := w.evolves_conclude now r (answers ++ [reply])
        exact apart_of_within ((World.Evolves.events evolves).2 e mem) here
      · rw [Option.toList_some, List.flatMap_singleton, gone]
        rfl

/-- Where nothing happens, nothing comes about. -/
theorem episode_of_still (still : s'.world = s.world)
    (same : s'.computing i key = s.computing i key) : Episode i key s s' := by
  have none_since : s.since s' = [] := by
    rw [since, still, World.since_self]
  refine .apart (fun e mem => ?_) ?_ (by rw [still]) same
  · rw [none_since] at mem
    cases mem
  · show (s.since s').filterMap _ = []
    rw [none_since, List.filterMap_nil]

/-- **Every step is an episode.** -/
theorem Step.episode (step : s.Step s') (there : i < s.world.stores.length)
    (unwritten : ∀ e ∈ s.since s', e.store = i → e.what.writesFromOutside key = false) :
    Episode i key s s' := by
  cases step with
  | begin a =>
    refine episode_of_still rfl ?_
    rw [computing, List.flatMap_append]
    show ((s.threads.flatMap Thread.computing) ++ []).filter (Run.on i key) = _
    rw [List.append_nil, computing]
  | tick le => exact episode_of_still rfl rfl
  | turn turn before after => exact episode_of_turn there turn unwritten

end Scene

end AdvisoryStore
