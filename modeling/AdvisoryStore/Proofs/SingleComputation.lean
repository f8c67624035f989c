import AdvisoryStore.Proofs.Episodes

/-!
# One computation of a record

A run takes its key's lock, looks for a record, and computes one only if
there is none; it writes what it computed before it lets go of the lock.
That a record is computed only once follows, provided that the runs on the
key are left alone (`Scene.Orderly`): no two of them go by one name, nobody
else writes under the key or ends the hold of a run that computes, and no
such hold expires. (Clearing all locks away would end it. That is done to
a table of locks on its own, not to one that guards records.)

The invariant is `Scene.Sound`: at most one run computes, it has the lock,
and there is no record. Together with it a step carries the ledger of the
key: what the step tells leads from how things stood to how things stand
(`Scene.Sound.step`), whatever episode the step is of. `Scene.single_computation`
reads off the ledger what there is to say about the computations and the
results.
-/

namespace AdvisoryStore

namespace Scene

variable {i : Nat} {key : Bytes} {s s' : Scene}

/-- **A step that leaves the runs on a key alone.** What is asked of a hold
is asked of it where the step is made. -/
structure Orderly (i : Nat) (key : Bytes) (s s' : Scene) : Prop where
  step : s.Step s'
  /-- No two runs in progress on the key share a holder. -/
  distinct : ((s.wanting i key ++ s.computing i key).map Run.holder).Nodup
  /-- Only runs write under the key. -/
  unwritten : ∀ e ∈ s.since s', e.store = i → e.what.writesFromOutside key = false
  /-- Only runs end the hold of a run that computes. -/
  unfreed : ∀ r ∈ s.computing i key, ∀ e ∈ s.since s', e.store = i →
    e.what.frees key r.holder = true → e.what.ofRun? = some key
  /-- The hold of a run that computes has not expired. -/
  lasting : ∀ r ∈ s.computing i key, ∀ h ∈ (s.world.store i).locks.stored? key,
    h.holder = r.holder → h.expired s.now = false

/-- How things stand with a key. -/
def ledger (s : Scene) (i : Nat) (key : Bytes) : Ledger :=
  if (s.computing i key).isEmpty then .ofRecord (s.world.record? i key) else .busy

/-- **What holds of a key on which runs are left alone**: at most one run
computes, it has its lock, and there is no record yet. -/
structure Sound (i : Nat) (key : Bytes) (s : Scene) : Prop where
  there : i < s.world.stores.length
  single : (s.computing i key).length ≤ 1
  held : ∀ r ∈ s.computing i key, ∃ h,
    (s.world.store i).locks.stored? key = some h ∧ h.holder = r.holder
  absent : s.computing i key ≠ [] → s.world.record? i key = none

/-- Where nobody computes there is little to hold. -/
theorem sound_of_idle (there : i < s.world.stores.length) (idle : s.computing i key = []) :
    s.Sound i key where
  there
  single := by
    rw [idle]
    exact Nat.zero_le 1
  held r mem := by
    rw [idle] at mem
    cases mem
  absent busy := absurd idle busy

theorem ledger_of_idle (idle : s.computing i key = []) :
    s.ledger i key = .ofRecord (s.world.record? i key) := by
  rw [ledger, idle]
  rfl

/-- Before a step that leaves the runs alone, the hold of the run that
computes is live. -/
theorem Sound.live (sound : s.Sound i key) (orderly : Orderly i key s s') {r : Run}
    (mem : r ∈ s.computing i key) :
    ∃ h, (s.world.store i).locks.live? s.now key = some h ∧ h.holder = r.holder := by
  obtain ⟨h, stored, own⟩ := sound.held r mem
  have unexpired := orderly.lasting r mem h stored own
  exact ⟨h, Locks.live?_eq_some_iff.mpr ⟨stored, unexpired⟩, own⟩

/-- **Whoever may have the lock finds nobody computing**: the hold of a run
that computes is live, and it is another's. -/
theorem Sound.idle_of_admitted (sound : s.Sound i key) (orderly : Orderly i key s s') {r : Run}
    (wanting : r ∈ s.wanting i key)
    (admitted : ∀ h, (s.world.store i).locks.live? s.now key = some h → h.holder = r.holder) :
    s.computing i key = [] := by
  refine List.eq_nil_iff_forall_not_mem.mpr (fun other mem => ?_)
  obtain ⟨h, live, own⟩ := sound.live orderly mem
  have distinct := orderly.distinct
  rw [List.map_append, List.nodup_append] at distinct
  refine distinct.2.2 _ (List.mem_map_of_mem wanting) _ (List.mem_map_of_mem mem) ?_
  rw [← own, admitted h live]

/-! ## Steps -/

/-- A run that ends leaves nobody computing, and there was no record. -/
theorem Sound.closed (sound : s.Sound i key) (orderly : Orderly i key s s') {r : Run}
    {opening : List News} (closes : Closes i key s s' r opening) :
    s'.computing i key = [] ∧ s.world.record? i key = none
      ∧ (s.ledger i key).notes opening = some .busy := by
  cases closes with
  | computing gone =>
    have busy : s.computing i key ≠ [] := by
      intro idle
      rw [idle] at gone
      cases gone.nil_eq
    -- at most one run computes, so that nobody but this one does
    have single := sound.single
    rw [gone.length_eq, List.length_cons] at single
    refine ⟨List.eq_nil_of_length_eq_zero (by omega), sound.absent busy, ?_⟩
    rw [ledger, if_neg (fun idle => busy (List.isEmpty_iff.mp idle)), Ledger.notes_nil]
  | wanting wants admitted absent same =>
    have idle := sound.idle_of_admitted orderly wants admitted
    refine ⟨same.trans idle, absent, ?_⟩
    rw [ledger_of_idle idle, absent]
    rfl

/-- What is no part of a run on the key leaves the hold of the run that
computes. -/
theorem Sound.held_of_apart (sound : s.Sound i key) (orderly : Orderly i key s s')
    (apart : ∀ e ∈ s.since s', e.store = i → e.what.ofRun? ≠ some key) {r : Run}
    (mem : r ∈ s.computing i key) :
    ∃ h, (s'.world.store i).locks.stored? key = some h ∧ h.holder = r.holder := by
  obtain ⟨h, live, own⟩ := sound.live orderly mem
  -- no step but one of a run ends the hold, and this one is of no run on the key
  have spared : ∀ e ∈ s.world.since s'.world, e.Spares i key h.holder := by
    intro e e_mem here
    rw [own]
    refine Bool.eq_false_iff.mpr (fun freed => ?_)
    exact apart e e_mem here (orderly.unfreed r mem e e_mem here freed)
  have kept := (orderly.step.evolves.keeps live spared).1
  exact ⟨h, (Locks.live?_eq_some_iff.mp kept).1, own⟩

/-- **A step that leaves the runs on a key alone keeps to the story.** -/
theorem Sound.step (sound : s.Sound i key) (orderly : Orderly i key s s') :
    s'.Sound i key
      ∧ (s.ledger i key).notes (s.world.news s'.world i key) = some (s'.ledger i key) := by
  have there : i < s'.world.stores.length :=
    Nat.lt_of_lt_of_le sound.there (World.Evolves.length_le orderly.step.evolves)
  cases orderly.step.episode sound.there orderly.unwritten with
  | apart apart told record same =>
    refine ⟨⟨there, ?_, fun r mem => ?_, fun busy => ?_⟩, ?_⟩
    · rw [same]
      exact sound.single
    · rw [same] at mem
      exact sound.held_of_apart orderly apart mem
    · rw [same] at busy
      rw [record]
      exact sound.absent busy
    · rw [told, ledger, ledger, same, record]
      rfl
  | found told before after same =>
    have idle : s.computing i key = [] := by
      refine Classical.byContradiction (fun busy => ?_)
      have absent := sound.absent busy
      rw [before] at absent
      cases absent
    refine ⟨sound_of_idle there (same.trans idle), ?_⟩
    rw [told, ledger_of_idle idle, ledger_of_idle (same.trans idle), before, after]
    simp [Ledger.ofRecord, Ledger.note]
  | @begun r wants admitted taken told before after more =>
    have idle := sound.idle_of_admitted orderly wants admitted
    rw [idle] at more
    have busy : s'.computing i key = [r] := List.perm_singleton.mp more
    refine ⟨⟨there, ?_, ?_, fun _ => after⟩, ?_⟩
    · rw [busy]
      exact Nat.le_refl 1
    · rw [busy]
      exact List.forall_mem_singleton.mpr taken
    · rw [told, ledger_of_idle idle, before, ledger, busy]
      rfl
  | failed closes told record =>
    obtain ⟨idle, absent, noted⟩ := sound.closed orderly closes
    refine ⟨sound_of_idle there idle, ?_⟩
    rw [told, Ledger.notes_append, noted, ledger_of_idle idle, record, absent]
    rfl
  | stored closes outcome permitted told record =>
    obtain ⟨idle, absent, noted⟩ := sound.closed orderly closes
    refine ⟨sound_of_idle there idle, ?_⟩
    rw [told, Ledger.notes_append, noted, ledger_of_idle idle, record]
    rfl

/-- **And so does any number of them.** -/
theorem Sound.path (sound : s.Sound i key) (path : Relation.ReflTransGen (Orderly i key) s s') :
    s'.Sound i key
      ∧ (s.ledger i key).notes (s.world.news s'.world i key) = some (s'.ledger i key) := by
  induction path with
  | refl =>
    refine ⟨sound, ?_⟩
    rw [World.news_self, Ledger.notes_nil]
  | @tail u s' path orderly ih =>
    have leads : s.Leads u :=
      Relation.ReflTransGen.mono (fun _ _ orderly => Orderly.step orderly) _ _ path
    obtain ⟨sound, read⟩ := ih
    obtain ⟨sound, read_last⟩ := sound.step orderly
    refine ⟨sound, ?_⟩
    rw [World.news_trans leads.events orderly.step.events, Ledger.notes_append, read]
    exact read_last

end Scene

/-! ## What a run returns -/

/-- **What a run returns is in the news.** -/
theorem Thread.result_told {now : Instant} {w w' : World} {t : Thread} {r : Run}
    {content : Content} {fromCache : Bool} {answers : List Reply} {stack : List Frame}
    (due : t.due? = some r) (there : r.store < w.stores.length)
    (turn : t.Turn now w w' (some (.going ⟨.answer (.ran content fromCache answers), stack⟩))) :
    .result fromCache content ∈ w.news w' r.store r.key := by
  cases returns_of_turn due turn with
  | ends done ended =>
    have told := World.result_conclude there (congrArg Prod.snd ended)
    rwa [ended] at told
  | @enters u request waited script frames _ granted entered =>
    have tried := w.evolves_attempt now r.store request waited
    rw [granted] at tried
    have there_tried : r.store < u.stores.length :=
      Nat.lt_of_lt_of_le there (World.Evolves.length_le tried)
    have told := World.result_enterRun there_tried
      (congrArg (fun entered => entered.2.focus) entered)
    have asked : w.Tells r.store r.key [] u := World.Evolves.tells_of_calm tried
    have enters := u.evolves_enterRun now r script frames
    have tells : u.Tells r.store r.key _ _ := ⟨(World.Evolves.events enters).1, rfl⟩
    have news_eq := (asked.trans tells).eq
    rw [entered] at told news_eq
    rwa [news_eq]

/-! ## The result -/

namespace Scene

variable {i : Nat} {key : Bytes} {s s' : Scene}

/-- **A record is computed once.** Let nobody compute the record of a key,
and let steps follow, in any order, that leave the runs on the key alone.
Then, whatever the scripts of the runs do, however long they take and
however many of them fail:

* at most one run computes at a time, and one begins to compute only when
  every computation before it has come to its end, when there was no record
  in the beginning and none has been stored;
* a record is stored at most once, and only if there was none in the
  beginning;
* every result is the record that was there in the beginning, or else the
  one that was stored;
* and what a run returns is a result in this sense. -/
theorem single_computation (there : i < s.world.stores.length) (idle : s.computing i key = [])
    (path : Relation.ReflTransGen (Orderly i key) s s') :
    (s'.computing i key).length ≤ 1
      ∧ (∀ earlier later, s.world.news s'.world i key = earlier ++ .begun :: later →
        earlier.count .begun = earlier.count .finished ∧ s.world.record? i key = none
          ∧ ∀ content, .stored content ∉ earlier)
      ∧ (∀ content earlier later,
        s.world.news s'.world i key = earlier ++ .stored content :: later →
        s.world.record? i key = none ∧ ∀ other, .stored other ∉ earlier)
      ∧ (∀ content, .stored content ∈ s.world.news s'.world i key
          ∨ .found content ∈ s.world.news s'.world i key →
        s.world.record? i key = some content
          ∨ (s.world.record? i key = none ∧ .stored content ∈ s.world.news s'.world i key))
      ∧ ∀ t ∈ s'.threads, ∀ r, t.due? = some r → r.on i key →
        ∀ w' content fromCache answers stack,
          t.Turn s'.now s'.world w'
            (some (.going ⟨.answer (.ran content fromCache answers), stack⟩)) →
          .result fromCache content ∈ s'.world.news w' i key := by
  obtain ⟨sound, read⟩ := (sound_of_idle there idle).path path
  rw [ledger_of_idle idle] at read
  -- whatever is told next, the ledger was vacant when it was
  have vacant_before {n : News} {earlier later : List News}
      (new : ∀ l l' : Ledger, l.note n = some l' → l = .vacant)
      (split : s.world.news s'.world i key = earlier ++ n :: later) :
      (Ledger.ofRecord (s.world.record? i key)).notes earlier = some .vacant := by
    rw [split, Ledger.notes_append] at read
    obtain ⟨l, read, rest⟩ := Option.bind_eq_some_iff.mp read
    rw [Ledger.notes_cons] at rest
    obtain ⟨l', noted, -⟩ := Option.bind_eq_some_iff.mp rest
    rwa [new l l' noted] at read
  have record_before {earlier : List News}
      (read : (Ledger.ofRecord (s.world.record? i key)).notes earlier = some .vacant) :
      s.world.record? i key = none ∧ ∀ content, .stored content ∉ earlier := by
    obtain ⟨unrecorded, unstored⟩ := Ledger.notes_unrecorded read (fun _ => nofun)
    refine ⟨?_, unstored⟩
    cases record_eq : s.world.record? i key with
    | none => rfl
    | some content =>
      rw [record_eq] at unrecorded
      exact absurd rfl (unrecorded content)
  refine ⟨sound.single, ?_, ?_, fun content mem => Ledger.result_of_notes read mem, ?_⟩
  · intro earlier later split
    have vacant := vacant_before (fun l l' noted => by cases l <;> cases noted; rfl) split
    have count := Ledger.count_begun vacant
    obtain ⟨absent, unstored⟩ := record_before vacant
    refine ⟨?_, absent, unstored⟩
    rw [absent] at count
    simpa [Ledger.ofRecord] using count
  · intro content earlier later split
    exact record_before (vacant_before (fun l l' noted => by cases l <;> cases noted; rfl) split)
  · intro t mem r due here w' content fromCache answers stack turn
    obtain ⟨rfl, rfl⟩ : r.store = i ∧ r.key = key := of_decide_eq_true here
    exact Thread.result_told due sound.there turn

/-- Nobody has called yet. -/
def atRest : Scene := (Session.start (fun _ => 0) {} (fun _ => none) 0).scene

/-- A run computes, and a second one waits for its lock. -/
def oneComputes : Scene :=
  let s := { atRest with threads :=
    [.going ⟨.perform (.run [1] [10] none [.operation (.isHeld [1])] (.ok ⟨[], [7]⟩)), []⟩] }
  let s := (s.act 0).act 0
  { s with threads := s.threads
      ++ [.going ⟨.perform (.run [1] [20] none [] (.ok ⟨[], [8]⟩)), []⟩] }

/-- The first has stored its result, and the second has found it. -/
def oneStored : Scene := ((((oneComputes.act 1).act 1).act 0).act 0).act 1

theorem single_computation_of_oneStored :
    (oneStored.computing 0 [1]).length ≤ 1
      ∧ .found ⟨[], [7]⟩ ∈ atRest.world.news oneStored.world 0 [1]
      ∧ (atRest.world.record? 0 [1] = some ⟨[], [7]⟩
        ∨ (atRest.world.record? 0 [1] = none
          ∧ .stored ⟨[], [7]⟩ ∈ atRest.world.news oneStored.world 0 [1])) := by
  have path : Relation.ReflTransGen (Orderly 0 [1]) atRest oneStored := by
    refine .head ⟨.begin atRest _, ?_, ?_, ?_, ?_⟩ <|
      .head ⟨step_act (n := 0) ?_, ?_, ?_, ?_, ?_⟩ <|
      .head ⟨step_act (n := 0) ?_, ?_, ?_, ?_, ?_⟩ <|
      .head ⟨.begin _ _, ?_, ?_, ?_, ?_⟩ <|
      .head ⟨step_act (n := 1) ?_, ?_, ?_, ?_, ?_⟩ <|
      .head ⟨step_act (n := 1) ?_, ?_, ?_, ?_, ?_⟩ <|
      .head ⟨step_act (n := 0) ?_, ?_, ?_, ?_, ?_⟩ <|
      .head ⟨step_act (n := 0) ?_, ?_, ?_, ?_, ?_⟩ <|
      .single ⟨step_act (n := 1) ?_, ?_, ?_, ?_, ?_⟩
    all_goals decide +kernel
  have found : .found ⟨[], [7]⟩ ∈ atRest.world.news oneStored.world 0 [1] := by decide +kernel
  obtain ⟨single, -, -, results, -⟩ :=
    single_computation (by decide +kernel) (by decide +kernel) path
  exact ⟨single, found, results _ (.inr found)⟩

end Scene

end AdvisoryStore
