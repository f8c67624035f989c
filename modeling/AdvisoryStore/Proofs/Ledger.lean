import AdvisoryStore.Proofs.Isolation

/-!
# What the runs on a key tell

A run that has its lock leaves on record whether it found a record or began
to compute, when its computation came to an end, and what it stored. Read
for one key, in order, these **news** (`News`) make a story, and the story
of a key on which all goes well is one that a small automaton accepts, the
**ledger** of the key: it is vacant, somebody is busy computing, or there
is a record. Nobody begins while somebody is busy or there is a record,
only into a vacant ledger is a record entered, and what is found is what
was entered.

`Ledger.notes` reads news; the statements after it say what an accepted
story looks like. `World.told_conclude` and `World.told_enterRun` say what
the end and the beginning of a run add to it, and what becomes of the record.
-/

namespace AdvisoryStore

/-- **What a run tells of its computation and of its result.** -/
inductive News
  /-- It found no record and began to compute. -/
  | begun
  /-- Its computation came to an end, with a result or without. -/
  | finished
  /-- It stored what it computed, which is its result. -/
  | stored (content : Content)
  /-- It found a record, which is its result. -/
  | found (content : Content)
  deriving DecidableEq, Repr

/-- The news of a result, which was found or was stored. -/
def News.result (fromCache : Bool) (content : Content) : News :=
  if fromCache then .found content else .stored content

/-- What a happening tells of the runs on a key. -/
def Happening.news? (key : Bytes) : Happening → Option News
  | computing k _ => if k = key then some .begun else none
  | computed k _ => if k = key then some .finished else none
  | committed k _ content => if k = key then some (.stored content) else none
  | cached k _ content => if k = key then some (.found content) else none
  | _ => none

/-- What an event tells of the runs on a key of a store. -/
def Event.news? (i : Nat) (key : Bytes) (e : Event) : Option News :=
  if e.store = i then e.what.news? key else none

/-- **What the runs on a key told** since an earlier world, oldest first. -/
def World.news (w w' : World) (i : Nat) (key : Bytes) : List News :=
  (w.since w').filterMap (Event.news? i key)

/-! ## The ledger of a key -/

/-- **How things stand with a key**, so far as its runs have told. -/
inductive Ledger
  /-- There is no record, and nobody computes one. -/
  | vacant
  /-- There is no record, and somebody computes one. -/
  | busy
  | recorded (content : Content)
  deriving DecidableEq, Repr

namespace Ledger

/-- How things stand when nobody computes. -/
def ofRecord : Option Content → Ledger
  | none => vacant
  | some content => recorded content

/-- Takes note of news, if it is what may be told as things stand. -/
def note : Ledger → News → Option Ledger
  | vacant, .begun => some busy
  | busy, .finished => some vacant
  | vacant, .stored content => some (recorded content)
  | recorded content, .found other => if other = content then some (recorded content) else none
  | _, _ => none

/-- **Takes note of news**, one after the other. -/
def notes (l : Ledger) (news : List News) : Option Ledger := news.foldlM note l

variable {l l' : Ledger} {news : List News} {content : Content}

@[simp] theorem notes_nil (l : Ledger) : l.notes [] = some l := rfl

/-- News are entered one after the other, as long as each of them fits. -/
@[simp] theorem notes_cons (l : Ledger) (n : News) (rest : List News) :
    l.notes (n :: rest) = (l.note n).bind (·.notes rest) :=
  List.foldlM_cons

/-- What is entered in two parts is entered in the one and then in the other. -/
theorem notes_append (l : Ledger) (first rest : List News) :
    l.notes (first ++ rest) = (l.notes first).bind (·.notes rest) :=
  List.foldlM_append

/-- **A record stays**, and from then on it is only found. -/
theorem notes_recorded (read : (recorded content).notes news = some l) :
    l = recorded content ∧ ∀ n ∈ news, n = .found content := by
  induction news with
  | nil => exact ⟨(Option.some.inj read).symm, fun n mem => nomatch mem⟩
  | cons n rest ih =>
    rw [notes_cons] at read
    cases n with
    | begun | finished | stored => cases read
    | found other =>
      rw [note] at read
      split at read
      · next same =>
        obtain ⟨eq, all⟩ := ih read
        refine ⟨eq, List.forall_mem_cons.mpr ⟨?_, all⟩⟩
        rw [same]
      · cases read

/-- **Where there is no record in the end, there never was one**, and none
was entered. -/
theorem notes_unrecorded (read : l.notes news = some l')
    (unrecorded : ∀ content, l' ≠ recorded content) :
    (∀ content, l ≠ recorded content) ∧ ∀ content, .stored content ∉ news := by
  induction news generalizing l with
  | nil =>
    cases read
    exact ⟨unrecorded, fun content mem => nomatch mem⟩
  | cons n rest ih =>
    rw [notes_cons] at read
    obtain ⟨m, noted, read⟩ := Option.bind_eq_some_iff.mp read
    obtain ⟨open_, none_stored⟩ := ih read
    cases l with
    | recorded content =>
      cases n with
      | found other =>
        rw [note] at noted
        split at noted
        · cases noted
          exact absurd rfl (open_ content)
        · cases noted
      | _ => cases noted
    | vacant | busy =>
      refine ⟨fun _ => nofun, fun content mem => ?_⟩
      obtain rfl | mem := List.mem_cons.mp mem
      · cases noted <;> exact open_ content rfl
      · exact none_stored content mem

/-- **Every computation that has begun has ended**, but for the one that
keeps the ledger busy. -/
theorem count_begun (read : l.notes news = some l') :
    news.count .begun + (if l = busy then 1 else 0)
      = news.count .finished + (if l' = busy then 1 else 0) := by
  induction news generalizing l with
  | nil =>
    cases read
    rfl
  | cons n rest ih =>
    rw [notes_cons] at read
    obtain ⟨m, noted, read⟩ := Option.bind_eq_some_iff.mp read
    have later := ih read
    cases l <;> cases n <;> simp [note] at noted
    all_goals
      simp [← noted] at later ⊢
      omega

/-- A record that was not there was entered. -/
theorem stored_of_notes (read : l.notes news = some (recorded content))
    (unrecorded : ∀ content, l ≠ recorded content) : .stored content ∈ news := by
  induction news generalizing l with
  | nil =>
    cases read
    exact absurd rfl (unrecorded content)
  | cons n rest ih =>
    rw [notes_cons] at read
    obtain ⟨m, noted, read⟩ := Option.bind_eq_some_iff.mp read
    cases m with
    | recorded other =>
      -- this item entered the record, and later ones left it
      cases l with
      | recorded before => exact absurd rfl (unrecorded before)
      | busy => cases n <;> cases noted
      | vacant =>
        cases n <;> cases noted
        cases (notes_recorded read).1
        exact List.mem_cons_self
    | vacant | busy => exact List.mem_cons_of_mem _ (ih read (fun _ => nofun))

/-- **A result is the record**: the one that was there, or the one that was
entered. -/
theorem result_of_notes {before : Option Content}
    (read : (ofRecord before).notes news = some l)
    (mem : .stored content ∈ news ∨ .found content ∈ news) :
    before = some content ∨ (before = none ∧ .stored content ∈ news) := by
  cases before with
  | some old =>
    have all := (notes_recorded read).2
    obtain mem | mem := mem
    · cases all _ mem
    · cases all _ mem
      exact .inl rfl
  | none =>
    refine .inr ⟨rfl, ?_⟩
    obtain mem | mem := mem
    · exact mem
    · obtain ⟨earlier, later, rfl⟩ := List.append_of_mem mem
      rw [notes_append] at read
      obtain ⟨m, read, rest⟩ := Option.bind_eq_some_iff.mp read
      rw [notes_cons] at rest
      cases m with
      | recorded old =>
        obtain ⟨m, noted, -⟩ := Option.bind_eq_some_iff.mp rest
        rw [note] at noted
        split at noted
        · next same =>
          have entered := stored_of_notes read (fun _ => nofun)
          rw [same]
          exact List.mem_append_left _ entered
        · cases noted
      | vacant | busy => cases rest

end Ledger

/-! ## What the end and the beginning of a run tell -/

/-- What is not about a computation or a result is no news. -/
theorem Event.news?_of_not_isNews {e : Event} (tacit : e.what.isNews = false) (i : Nat)
    (key : Bytes) : e.news? i key = none := by
  unfold news?
  split
  · cases what_eq : e.what with
    | cached | computing | computed | committed =>
      rw [what_eq] at tacit
      cases tacit
    | _ => rfl
  · rfl

/-- Only runs on a key tell of them. -/
theorem Event.news?_of_apart {e : Event} {i : Nat} {key : Bytes}
    (apart : e.store = i → e.what.ofRun? ≠ some key) : e.news? i key = none := by
  unfold news?
  split
  · next here =>
    have other := apart here
    cases what_eq : e.what with
    | cached k | computing k | computed k | committed k =>
      rw [what_eq] at other
      exact if_neg (fun same => other (congrArg some same))
    | _ => rfl
  · rfl

namespace World

variable {P : Event → Prop} {now : Instant} {w u w' : World} {i : Nat} {key : Bytes}

theorem news_self (w : World) (i : Nat) (key : Bytes) : w.news w i key = [] := by
  rw [news, since_self]
  rfl

/-- **What was told on the way** was told in its first part and then in the other. -/
theorem news_trans (h₁ : w.events <:+ u.events) (h₂ : u.events <:+ w'.events) :
    w.news w' i key = w.news u i key ++ u.news w' i key := by
  rw [news, since_trans h₁ h₂, List.filterMap_append]
  rfl

/-- On the way from one world to a later one the runs on a key **told**
these news. -/
structure Tells (w : World) (i : Nat) (key : Bytes) (news : List News) (w' : World) : Prop where
  added : w.events <:+ w'.events
  eq : w.news w' i key = news

theorem Tells.refl (w : World) (i : Nat) (key : Bytes) : w.Tells i key [] w :=
  ⟨List.suffix_refl _, w.news_self i key⟩

/-- News of one part of the way are followed by those of the next. -/
theorem Tells.trans {first rest : List News} (h₁ : w.Tells i key first u)
    (h₂ : u.Tells i key rest w') : w.Tells i key (first ++ rest) w' where
  added := h₁.added.trans h₂.added
  eq := by rw [news_trans h₁.added h₂.added, h₁.eq, h₂.eq]

/-- What tells no news. -/
theorem Evolves.tells_nil (evolves : Evolves P now w w')
    (tacit : ∀ e ∈ w.since w', e.news? i key = none) : w.Tells i key [] w' where
  added := (Evolves.events evolves).1
  eq := List.filterMap_eq_nil_iff.mpr tacit

/-- A run that is tacit tells no news, whatever the key. -/
theorem Evolves.tells_of_tacit {r : Run} (evolves : Evolves (Event.Tacit r) now w w') (i : Nat)
    (key : Bytes) : w.Tells i key [] w' :=
  Evolves.tells_nil evolves
    (fun e mem => Event.news?_of_not_isNews ((Evolves.events evolves).2 e mem).tacit i key)

/-- What is calm is no part of a run, and tells no news. -/
theorem Evolves.tells_of_calm (evolves : Evolves Event.Calm now w w') :
    w.Tells i key [] w' := by
  refine Evolves.tells_nil evolves (fun e mem => Event.news?_of_apart (fun _ => ?_))
  rw [((Evolves.events evolves).2 e mem).1.1]
  nofun

/-- A remark that is news is told where it is made. -/
theorem tells_note (now : Instant) (there : i < w.stores.length) {what : Happening} {n : News}
    (told : what.news? key = some n) : w.Tells i key [n] (w.note now i what) where
  added := by
    rw [note, on, events_putBack there]
    exact List.suffix_append ..
  eq := by
    rw [news, since, note, on, events_putBack there, addedTo_append, List.reverse_reverse]
    show ([⟨i, now, what⟩] : List Event).filterMap (Event.news? i key) = [n]
    rw [List.filterMap_cons_some (b := n), List.filterMap_nil]
    exact (if_pos rfl).trans told

/-- A remark writes no record. -/
theorem record?_note (w : World) (now : Instant) (j : Nat) (what : Happening) (i : Nat)
    (key : Bytes) : (w.note now j what).record? i key = w.record? i key := by
  show (w.putBack now j ((w.store j).note [what]) [what]).record? i key = w.record? i key
  unfold record?
  by_cases there : j < w.stores.length
  · rw [store_putBack there]
    split
    · next same =>
      subst same
      rfl
    · rfl
  · rw [putBack_of_not_lt there]

/-- An operation of a store adds none. -/
theorem length_on {α : Type} (w : World) (now : Instant) (i : Nat)
    (f : Store → Outcome Store α) : (w.on now i f).1.stores.length = w.stores.length :=
  length_putBack ..

/-- **The two ways in which a run that computed is told to have ended**: it
stored nothing and failed, or it stored its result and returned it. -/
theorem told_conclude (w : World) (now : Instant) (r : Run) (answers : List Reply)
    (there : r.store < w.stores.length) :
    (w.Tells r.store r.key [.finished] (w.conclude now r answers).1
        ∧ (w.conclude now r answers).1.record? r.store r.key = w.record? r.store r.key
        ∧ ∃ fault, (w.conclude now r answers).2 = .runFailed fault answers)
      ∨ ∃ content, r.outcome = .ok content
        ∧ w.Tells r.store r.key [.finished, .stored content] (w.conclude now r answers).1
        ∧ Writes now w r.store .run r.key r.holder content (w.conclude now r answers).1
        ∧ (w.conclude now r answers).2 = .ran content false answers := by
  have computed : w.Tells r.store r.key [.finished]
      (w.note now r.store (.computed r.key r.holder)) := tells_note now there (if_pos rfl)
  have there_noted : r.store < (w.note now r.store (.computed r.key r.holder)).stores.length := by
    rwa [note, length_on]
  have silent (u : World) : u.Tells r.store r.key []
      (u.relinquish now r.store .run r.key r.holder) :=
    Evolves.tells_of_tacit ((evolves_relinquish_run u now r).mono (fun _ h => h.2)) ..
  have released (u : World) : Evolves Event.Unwritten now u
      (u.relinquish now r.store .run r.key r.holder) :=
    (evolves_relinquish_run u now r).mono (fun _ h => h.1)
  have written (content : Content) : _ := evolves_write_run
    (w.note now r.store (.computed r.key r.holder)) now r content
  have writes {content : Content} (ran : (w.conclude now r answers).2
      = .ran content false answers) := writes_of_ran there ran
  have exits := ending_conclude w now r answers
  generalize w.conclude now r answers = ended at exits writes ⊢
  cases exits with
  | @failed fault =>
    refine .inl ⟨computed.trans (silent _), ?_, fault, rfl⟩
    rw [Evolves.record?_of_unwritten (released _), record?_note]
  | @refused content fault u _ refused =>
    have wrote := Evolves.tells_of_tacit (written content) r.store r.key
    have refused_calm := evolves_of_refused (congrArg Prod.snd refused)
    rw [refused] at wrote refused_calm
    refine .inl ⟨(computed.trans wrote).trans (silent u), ?_, fault, rfl⟩
    rw [Evolves.record?_of_unwritten (released _),
      Evolves.record?_of_unwritten (refused_calm.mono (fun _ calm => calm.1.2)), record?_note]
  | @committed content u outcome ok =>
    have wrote := Evolves.tells_of_tacit (written content) r.store r.key
    rw [ok] at wrote
    have there_last : r.store
        < (u.relinquish now r.store .run r.key r.holder).stores.length := by
      have length_eq := length_on (w.note now r.store (.computed r.key r.holder)) now r.store
        (·.write now .run r.key content r.holder)
      rw [ok] at length_eq
      rwa [relinquish, length_on, length_eq]
    have entered : (Happening.committed r.key r.holder content).news? r.key
        = some (.stored content) := if_pos rfl
    have told := tells_note now there_last entered
    exact .inr ⟨content, outcome, ((computed.trans wrote).trans (silent u)).trans told, writes rfl,
      rfl⟩

/-- What leaves the locks of a store leaves all locks. -/
theorem locks_on {α : Type} {f : Store → Outcome Store α} {j : Nat}
    (same : (f (w.store j)).after.locks = (w.store j).locks) (i : Nat) :
    ((w.on now j f).1.store i).locks = (w.store i).locks := by
  show ((w.putBack now j (f (w.store j)).after (f (w.store j)).happened).store i).locks = _
  by_cases there : j < w.stores.length
  · rw [store_putBack there]
    split
    · next here =>
      subst here
      exact same
    · rfl
  · rw [putBack_of_not_lt there]

/-- A remark leaves the locks. -/
theorem locks_note (w : World) (now : Instant) (j : Nat) (what : Happening) (i : Nat) :
    ((w.note now j what).store i).locks = (w.store i).locks :=
  locks_on rfl i

/-- Who reads a record leaves the locks. -/
theorem locks_read (w : World) (now : Instant) (j : Nat) (key : Bytes) (i : Nat) :
    ((w.on now j (·.read key)).1.store i).locks = (w.store i).locks := by
  refine locks_on ?_ i
  unfold Store.read
  split <;> rfl

/-- **The three ways in which a run that has its lock is told to begin**: it
finds the record and returns it, or it computes, or it would and has nothing
to do, so that it ends at once. -/
theorem told_enterRun (w : World) (now : Instant) (r : Run) (script : List Action)
    (stack : List Frame) (there : r.store < w.stores.length) :
    (∃ content, w.record? r.store r.key = some content
        ∧ w.Tells r.store r.key [.found content] (w.enterRun now r script stack).1
        ∧ (w.enterRun now r script stack).1.record? r.store r.key = some content
        ∧ (w.enterRun now r script stack).2 = ⟨.answer (.ran content true []), stack⟩)
      ∨ ∃ u, w.record? r.store r.key = none ∧ Evolves Event.Still now w u
        ∧ w.Tells r.store r.key [.begun] u ∧ u.stores.length = w.stores.length
        ∧ (u.store r.store).locks = (w.store r.store).locks
        ∧ w.enterRun now r script stack = u.proceed now r [] script stack := by
  have read := w.evolves_read now r.store r.key
  have answer : (w.on now r.store (·.read r.key)).2 = w.record? r.store r.key :=
    Store.answer_read ..
  have locks_eq := w.locks_read now r.store r.key r.store
  have length_eq := w.length_on now r.store (·.read r.key)
  have entry := entry_enterRun w now r script stack
  generalize w.enterRun now r script stack = entered at entry ⊢
  cases entry with
  | @cached content u found =>
    rw [found] at read answer length_eq
    have looked : w.Tells r.store r.key [] u := Evolves.tells_of_calm read
    have told : u.Tells r.store r.key [.found content]
        (u.note now r.store (.cached r.key r.holder content)) :=
      tells_note now (by rwa [length_eq]) (if_pos rfl)
    have released := evolves_relinquish_run
      (u.note now r.store (.cached r.key r.holder content)) now r
    have silent := Evolves.tells_of_tacit (released.mono (fun _ h => h.2)) r.store r.key
    refine .inl ⟨content, answer.symm, (looked.trans told).trans silent, ?_, rfl⟩
    rw [Evolves.record?_of_unwritten (released.mono (fun _ h => h.1)), record?_note,
      Evolves.record?_of_unwritten (read.mono (fun _ calm => calm.1.2)), ← answer]
  | @computes u absent =>
    rw [absent] at read answer length_eq locks_eq
    have looked : w.Tells r.store r.key [] u := Evolves.tells_of_calm read
    have told : u.Tells r.store r.key [.begun]
        (u.note now r.store (.computing r.key r.holder)) :=
      tells_note now (by rwa [length_eq]) (if_pos rfl)
    refine .inr ⟨_, answer.symm, evolves_begun absent, looked.trans told, ?_,
      (locks_note ..).trans locks_eq, rfl⟩
    rwa [note, length_on]

/-- What a run returns as it ends is in the news. -/
theorem result_conclude {w : World} {now : Instant} {r : Run} {done answers : List Reply}
    {content : Content} {fromCache : Bool} (there : r.store < w.stores.length)
    (ran : (w.conclude now r done).2 = .ran content fromCache answers) :
    .result fromCache content ∈ w.news (w.conclude now r done).1 r.store r.key := by
  obtain ⟨-, -, fault, eq⟩ | ⟨stored, -, told, -, eq⟩ := w.told_conclude now r done there
  · rw [eq] at ran
    cases ran
  · rw [eq] at ran
    cases ran
    rw [told.eq]
    exact List.mem_cons_of_mem _ (List.mem_singleton_self _)

/-- And so is what a run returns as it begins. -/
theorem result_enterRun {w : World} {now : Instant} {r : Run} {script : List Action}
    {stack : List Frame} {answers : List Reply} {content : Content} {fromCache : Bool}
    (there : r.store < w.stores.length)
    (ran : (w.enterRun now r script stack).2.focus = .answer (.ran content fromCache answers)) :
    .result fromCache content ∈ w.news (w.enterRun now r script stack).1 r.store r.key := by
  obtain ⟨found, -, told, -, eq⟩ | ⟨u, -, -, told, length_eq, -, eq⟩ :=
    w.told_enterRun now r script stack there
  · rw [eq] at ran
    cases ran
    rw [told.eq]
    exact List.mem_singleton_self _
  · rw [eq] at ran ⊢
    cases script with
    | cons => cases ran
    | nil =>
      have there_begun : r.store < u.stores.length := by rwa [length_eq]
      have ended := result_conclude there_begun (Focus.answer.inj ran)
      have concludes : u.Tells r.store r.key _ (u.conclude now r []).1 :=
        ⟨(World.Evolves.events (u.evolves_conclude now r [])).1, rfl⟩
      show _ ∈ w.news (u.conclude now r []).1 r.store r.key
      rw [(told.trans concludes).eq]
      exact List.mem_append_right _ ended

end World

end AdvisoryStore
