import AdvisoryStore.Proofs.Moves

/-!
# The beginning and the end of a run

What is not quiet of the moves of a call is told apart here. A write, be
it a caller's or the one at the end of a run, is one record written at a
point where no live lock of another was in the way (`World.Writes`). A run
that has its lock either finds a record or computes (`World.entry_enterRun`),
and a run whose computation is done ends in one of three ways
(`World.ending_conclude`): the computation failed, the record was kept from
it, or it is stored. On each of them the lock is let go of, and all that a
run leaves on record from when it has its lock carries its store and its
key (`Event.Within`).
-/

namespace AdvisoryStore

/-- Nothing was written. -/
def Event.Unwritten (e : Event) : Prop := e.what.isWrite = false

/-- Nothing was written, and nobody lost a lock. -/
def Event.Still (e : Event) : Prop :=
  e.what.isWrite = false ∧ ∀ key holder, e.what.frees key holder = false

/-- An event that is part of a run in progress is part of this one, so far
as store and key tell. -/
def Event.Within (r : Run) (e : Event) : Prop :=
  ∀ key, e.what.ofRun? = some key → e.store = r.store ∧ key = r.key

/-- **What a run leaves on record** when it is not about its computation. -/
structure Event.Tacit (r : Run) (e : Event) : Prop where
  within : e.Within r
  tacit : e.what.isNews = false

theorem Event.Quiet.unwritten {e : Event} (quiet : e.Quiet) : e.Unwritten := quiet.2

theorem Event.Calm.still {e : Event} (calm : e.Calm) : e.Still := ⟨calm.1.2, calm.2⟩

theorem Event.Quiet.within {e : Event} (quiet : e.Quiet) (r : Run) : e.Within r := by
  intro key ofRun
  rw [quiet.1] at ofRun
  cases ofRun

/-! ## Writing -/

/-- A key is open to a holder, or another holds it. -/
theorem Locks.permitted_or_barred (l : Locks) (now : Instant) (key holder : Bytes) :
    (∀ h, l.live? now key = some h → h.holder = holder)
      ∨ ∃ h, l.live? now key = some h ∧ h.holder ≠ holder := by
  cases live : l.live? now key with
  | none => exact .inl (fun h eq => nomatch eq)
  | some h =>
    by_cases own : h.holder = holder
    · refine .inl (fun g eq => ?_)
      rwa [← Option.some.inj eq]
    · exact .inr ⟨h, rfl, own⟩

namespace Store

variable {s : Store} {now : Instant} {key holder : Bytes}

/-- The store with a record written. -/
def withRecord (s : Store) (claimant : Claimant) (key holder : Bytes) (content : Content) :
    Store :=
  { s with records := s.records.put key content }.note [.wrote claimant key holder content]

/-- Who may write does. -/
theorem write_of_permitted
    (permitted : ∀ h, s.locks.live? now key = some h → h.holder = holder) (claimant : Claimant)
    (content : Content) :
    s.write now claimant key content holder
      = ⟨(s.permits now key holder).after.withRecord claimant key holder content,
          (s.permits now key holder).happened ++ [.wrote claimant key holder content], .ok ()⟩ := by
  have answer : (s.permits now key holder).answer = true :=
    (s.locks.answer_permits now key holder).mpr permitted
  unfold write
  generalize s.permits now key holder = asked at answer
  obtain ⟨after, happened, permitted⟩ := asked
  obtain rfl : permitted = true := answer
  rfl

/-- Who may not write is told so. -/
theorem write_of_conflict {h : Hold} (live : s.locks.live? now key = some h)
    (other : h.holder ≠ holder) (claimant : Claimant) (content : Content) :
    s.write now claimant key content holder
      = ⟨(s.permits now key holder).after.note [.conflicted key holder],
          (s.permits now key holder).happened ++ [.conflicted key holder],
          .error (.conflict key holder)⟩ := by
  have answer : (s.permits now key holder).answer = false :=
    Bool.eq_false_iff.mpr
      (fun free => other ((s.locks.answer_permits now key holder).mp free h live))
  unfold write
  generalize s.permits now key holder = asked at answer
  obtain ⟨after, happened, permitted⟩ := asked
  obtain rfl : permitted = false := answer
  rfl

end Store

namespace World

/-- The world with a record written in one of its stores. -/
def withRecord (w : World) (now : Instant) (i : Nat) (claimant : Claimant) (key holder : Bytes)
    (content : Content) : World :=
  w.putBack now i ((w.store i).withRecord claimant key holder content)
    [.wrote claimant key holder content]

/-- **One record is written**, at a point where no live lock of another is
in the way. Before it nothing is written and nobody loses a lock, and after
it nothing is written. -/
inductive Writes (now : Instant) (w : World) (i : Nat) (claimant : Claimant) (key holder : Bytes)
    (content : Content) (w' : World) : Prop
  | intro (u : World) (before : Evolves Event.Still now w u) (there : i < u.stores.length)
      (permitted : ∀ h, (u.store i).locks.live? now key = some h → h.holder = holder)
      (after : Evolves Event.Unwritten now (u.withRecord now i claimant key holder content) w')

variable {w : World} {now : Instant} {i : Nat} {claimant : Claimant} {key holder : Bytes}
  {content : Content}

theorem Writes.head {w₁ w₂ : World} (before : Evolves Event.Still now w w₁)
    (h : Writes now w₁ i claimant key holder content w₂) :
    Writes now w i claimant key holder content w₂ := by
  obtain ⟨u, still, there, permitted, after⟩ := h
  exact ⟨u, before.trans still, there, permitted, after⟩

theorem Writes.tail {w₁ w₂ : World} (h : Writes now w i claimant key holder content w₁)
    (more : Evolves Event.Unwritten now w₁ w₂) :
    Writes now w i claimant key holder content w₂ := by
  obtain ⟨u, still, there, permitted, after⟩ := h
  exact ⟨u, still, there, permitted, after.trans more⟩

/-- A write is one change of the world. -/
theorem change_withRecord {P : Event → Prop} (there : i < w.stores.length)
    (permitted : ∀ h, (w.store i).locks.live? now key = some h → h.holder = holder)
    (fits : P ⟨i, now, .wrote claimant key holder content⟩) :
    Change P now w (w.withRecord now i claimant key holder content) :=
  .occur there (.write permitted claimant content) (List.forall_mem_singleton.mpr fits)

/-- **A write that goes through writes one record.** -/
theorem writes_of_ok (there : i < w.stores.length)
    (ok : (w.on now i (·.write now claimant key content holder)).2 = .ok ()) :
    Writes now w i claimant key holder content
      (w.on now i (·.write now claimant key content holder)).1 := by
  have permitted : ∀ h, (w.store i).locks.live? now key = some h → h.holder = holder := by
    obtain permitted | ⟨h, live, other⟩ := (w.store i).locks.permitted_or_barred now key holder
    · exact permitted
    · simp only [on, Store.write_of_conflict live other] at ok
      cases ok
  have asked : Evolves Event.Calm now w (w.putBack now i
      ((w.store i).permits now key holder).after ((w.store i).permits now key holder).happened) :=
    evolves_putBack (Store.unfolds_permits ..) w rfl ((w.store i).locks.calm_consult now key)
  have same := (w.store i).live?_after_permits now key holder key
  show Writes now w i claimant key holder content
    (w.putBack now i ((w.store i).write now claimant key content holder).after
      ((w.store i).write now claimant key content holder).happened)
  rw [Store.write_of_permitted permitted]
  generalize (w.store i).permits now key holder = outcome at asked same
  obtain ⟨s, happened, answer⟩ := outcome
  have store_u : (w.putBack now i s happened).store i = s := by
    rw [store_putBack there, if_pos rfl]
  have eq : (w.putBack now i s happened).withRecord now i claimant key holder content
      = w.putBack now i (s.withRecord claimant key holder content)
        (happened ++ [.wrote claimant key holder content]) := by
    rw [withRecord, store_u, putBack_putBack]
  refine ⟨w.putBack now i s happened, asked.mono (fun _ calm => calm.still), ?_, ?_, ?_⟩
  · rwa [length_putBack]
  · rw [store_u]
    intro h live
    exact permitted h (same.symm.trans live)
  · rw [eq]

/-- A write that is refused writes nothing. -/
theorem evolves_of_refused {fault : Fault}
    (refused : (w.on now i (·.write now claimant key content holder)).2 = .error fault) :
    Evolves Event.Calm now w (w.on now i (·.write now claimant key content holder)).1 := by
  refine evolves_on (Store.unfolds_write ..) ?_
  obtain permitted | ⟨h, live, other⟩ := (w.store i).locks.permitted_or_barred now key holder
  · simp only [on, Store.write_of_permitted permitted] at refused
    cases refused
  · rw [Store.write_of_conflict live other]
    refine List.forall_mem_append.mpr ⟨(w.store i).locks.calm_consult now key, ?_⟩
    exact List.forall_mem_singleton.mpr ⟨⟨rfl, rfl⟩, fun _ _ => rfl⟩

/-- **A write writes one record or none**, and if it writes one it says so. -/
theorem unwritten_or_writes (w : World) (now : Instant) (i : Nat) (claimant : Claimant)
    (key holder : Bytes) (content : Content) :
    Evolves Event.Unwritten now w (w.on now i (·.write now claimant key content holder)).1
      ∨ (Writes now w i claimant key holder content
          (w.on now i (·.write now claimant key content holder)).1
        ∧ (w.on now i (·.write now claimant key content holder)).2 = .ok ()) := by
  by_cases there : i < w.stores.length
  · cases answer : (w.on now i (·.write now claimant key content holder)).2 with
    | ok => exact .inr ⟨writes_of_ok there answer, rfl⟩
    | error => exact .inl ((evolves_of_refused answer).mono (fun _ calm => calm.1.2))
  · refine .inl ?_
    show Evolves Event.Unwritten now w (w.putBack now i _ _)
    rw [putBack_of_not_lt there]

/-- What an operation that may be refused is answered with. -/
def verdict : World × Except Fault Unit → World × Reply
  | (w, .ok _) => (w, .done)
  | (w, .error fault) => (w, .failed fault)

@[simp] theorem verdict_fst (asked : World × Except Fault Unit) : (verdict asked).1 = asked.1 := by
  obtain ⟨w, _ | _⟩ := asked <;> rfl

/-- Who is told that it is done was not refused. -/
theorem verdict_eq_done_iff {asked : World × Except Fault Unit} :
    (verdict asked).2 = .done ↔ asked.2 = .ok () := by
  obtain ⟨w, _ | _⟩ := asked
  · exact iff_of_false nofun nofun
  · exact iff_of_true rfl rfl

theorem perform_write (w : World) (now : Instant) (key : Bytes) (content : Content)
    (holder : Bytes) :
    w.perform now (.write key content holder)
      = verdict (w.on now w.current (·.write now .caller key content holder)) := rfl

/-- **A caller who is told so has written.** -/
theorem writes_of_done (there : w.current < w.stores.length)
    (done : (w.perform now (.write key content holder)).2 = .done) :
    Writes now w w.current .caller key holder content
      (w.perform now (.write key content holder)).1 := by
  rw [perform_write] at done ⊢
  rw [verdict_fst]
  exact writes_of_ok there (verdict_eq_done_iff.mp done)

/-! ## Letting go -/

/-- A run that lets go of its lock writes nothing, and tells nothing of its
computation. -/
theorem evolves_relinquish_run (w : World) (now : Instant) (r : Run) :
    Evolves (fun e => e.Unwritten ∧ e.Tacit r) now w
      (w.relinquish now r.store .run r.key r.holder) := by
  refine evolves_on (Store.unfolds_relinquish ..) (fun what mem => ?_)
  obtain ⟨heldBy, rfl⟩ | rfl | rfl | rfl := Store.of_mem_relinquish mem
  · exact ⟨rfl, fun key eq => (nomatch eq), rfl⟩
  · exact ⟨rfl, fun key eq => ⟨rfl, (Option.some.inj eq).symm⟩, rfl⟩
  · exact ⟨rfl, fun key eq => (nomatch eq), rfl⟩
  · exact ⟨rfl, fun key eq => (nomatch eq), rfl⟩

/-- What a run notes of itself is about the run. -/
theorem evolves_note_run {w : World} {now : Instant} {r : Run} {what : Happening}
    (told : what.TrueOfStore now (w.store r.store)) (own : what.ofRun? = some r.key) :
    Evolves (Event.Within r) now w (w.note now r.store what) :=
  evolves_note told (fun _ eq => ⟨rfl, Option.some.inj (eq.symm.trans own)⟩)

/-- A run's write tells nothing of its computation. -/
theorem evolves_write_run (w : World) (now : Instant) (r : Run) (content : Content) :
    Evolves (Event.Tacit r) now w
      (w.on now r.store (·.write now .run r.key content r.holder)).1 := by
  refine evolves_on (Store.unfolds_write ..) (fun what mem => ?_)
  obtain ⟨heldBy, rfl⟩ | rfl | rfl := Store.of_mem_write mem
  · exact ⟨fun key eq => (nomatch eq), rfl⟩
  · exact ⟨fun key eq => ⟨rfl, (Option.some.inj eq).symm⟩, rfl⟩
  · exact ⟨fun key eq => (nomatch eq), rfl⟩

/-- A caller's write is part of no run. -/
theorem evolves_write_caller (w : World) (now : Instant) (i : Nat) (key holder : Bytes)
    (content : Content) :
    Evolves (fun e => e.what.ofRun? = none) now w
      (w.on now i (·.write now .caller key content holder)).1 := by
  refine evolves_on (Store.unfolds_write ..) (fun what mem => ?_)
  obtain ⟨heldBy, rfl⟩ | rfl | rfl := Store.of_mem_write mem <;> rfl

/-! ## The end of a run -/

/-- **The three ways in which a run ends** that has computed. -/
inductive Ending (w : World) (now : Instant) (r : Run) (answers : List Reply) :
    World × Reply → Prop
  /-- The computation failed. -/
  | failed {fault : Fault} (outcome : r.outcome = .error fault) :
      Ending w now r answers
        ((w.note now r.store (.computed r.key r.holder)).relinquish now r.store .run r.key
          r.holder, .runFailed fault answers)
  /-- Another holds the key, and the record is not written. -/
  | refused {content : Content} {fault : Fault} {u : World} (outcome : r.outcome = .ok content)
      (refused : (w.note now r.store (.computed r.key r.holder)).on now r.store
        (·.write now .run r.key content r.holder) = (u, .error fault)) :
      Ending w now r answers (u.relinquish now r.store .run r.key r.holder,
        .runFailed fault answers)
  /-- The record is written. -/
  | committed {content : Content} {u : World} (outcome : r.outcome = .ok content)
      (written : (w.note now r.store (.computed r.key r.holder)).on now r.store
        (·.write now .run r.key content r.holder) = (u, .ok ())) :
      Ending w now r answers
        ((u.relinquish now r.store .run r.key r.holder).note now r.store
          (.committed r.key r.holder content), .ran content false answers)

theorem ending_conclude (w : World) (now : Instant) (r : Run) (answers : List Reply) :
    Ending w now r answers (w.conclude now r answers) := by
  unfold conclude
  split
  · next fault outcome => exact .failed outcome
  · next content outcome =>
    dsimp only
    split
    · next u fault refused => exact .refused outcome refused
    · next u written => exact .committed outcome written

/-- **The end of a run is about the run.** -/
theorem evolves_conclude (w : World) (now : Instant) (r : Run) (answers : List Reply) :
    Evolves (Event.Within r) now w (w.conclude now r answers).1 := by
  have released (w : World) : Evolves (Event.Within r) now w
      (w.relinquish now r.store .run r.key r.holder) :=
    (evolves_relinquish_run w now r).mono (fun _ h => h.2.within)
  have computed : Evolves (Event.Within r) now w
      (w.note now r.store (.computed r.key r.holder)) := evolves_note_run trivial rfl
  have written (w : World) (content : Content) : Evolves (Event.Within r) now w
      (w.on now r.store (·.write now .run r.key content r.holder)).1 :=
    (evolves_write_run w now r content).mono (fun _ h => h.within)
  have exits := ending_conclude w now r answers
  generalize w.conclude now r answers = ended at exits ⊢
  cases exits with
  | failed =>
    dsimp only
    exact computed.trans (released _)
  | @refused content fault u _ refused =>
    have wrote := written (w.note now r.store (.computed r.key r.holder)) content
    rw [refused] at wrote
    exact (computed.trans wrote).trans (released u)
  | @committed content u _ ok =>
    have wrote := written (w.note now r.store (.computed r.key r.holder)) content
    rw [ok] at wrote
    have committed (w : World) : Evolves (Event.Within r) now w
        (w.note now r.store (.committed r.key r.holder content)) := evolves_note_run trivial rfl
    dsimp only
    exact ((computed.trans wrote).trans (released u)).trans (committed _)

/-- What a run wrote as it ended is what it has written when all is done. -/
theorem Writes.of_computed {r : Run} {u : World}
    (wrote : Writes now (w.note now r.store (.computed r.key r.holder)) r.store .run r.key r.holder
      content u) :
    Writes now w r.store .run r.key r.holder content
      ((u.relinquish now r.store .run r.key r.holder).note now r.store
        (.committed r.key r.holder content)) := by
  have computed : Evolves Event.Still now w
      (w.note now r.store (.computed r.key r.holder)) :=
    evolves_note trivial ⟨rfl, fun _ _ => rfl⟩
  have released : Evolves Event.Unwritten now u
      (u.relinquish now r.store .run r.key r.holder) :=
    (evolves_relinquish_run u now r).mono (fun _ h => h.1)
  exact ((wrote.head computed).tail released).tail (evolves_note trivial rfl)

/-- **The end of a run writes one record or none**, and if it writes one the run
returns it. -/
theorem unwritten_or_writes_conclude (w : World) (now : Instant) (r : Run)
    (answers : List Reply) :
    Evolves Event.Unwritten now w (w.conclude now r answers).1
      ∨ ∃ content,
        Writes now w r.store .run r.key r.holder content (w.conclude now r answers).1
          ∧ (w.conclude now r answers).2 = .ran content false answers := by
  have computed : Evolves Event.Unwritten now w
      (w.note now r.store (.computed r.key r.holder)) := evolves_note trivial rfl
  have released (w : World) : Evolves Event.Unwritten now w
      (w.relinquish now r.store .run r.key r.holder) :=
    (evolves_relinquish_run w now r).mono (fun _ h => h.1)
  have exits := ending_conclude w now r answers
  generalize w.conclude now r answers = ended at exits ⊢
  cases exits with
  | failed =>
    dsimp only
    exact .inl (computed.trans (released _))
  | @refused content fault u _ refused =>
    have kept := (evolves_of_refused (congrArg Prod.snd refused)).mono (fun _ calm => calm.1.2)
    rw [refused] at kept
    exact .inl ((computed.trans kept).trans (released u))
  | @committed content u _ ok =>
    have wrote := unwritten_or_writes (w.note now r.store (.computed r.key r.holder)) now r.store
      .run r.key r.holder content
    rw [ok] at wrote
    obtain wrote | ⟨wrote, -⟩ := wrote
    · have noted (w : World) : Evolves Event.Unwritten now w
          (w.note now r.store (.committed r.key r.holder content)) := evolves_note trivial rfl
      exact .inl (((computed.trans wrote).trans (released u)).trans (noted _))
    · exact .inr ⟨content, wrote.of_computed, rfl⟩

/-- **A run that returns what it has computed has written it.** -/
theorem writes_of_ran {r : Run} {done answers : List Reply} {fromCache : Bool}
    (there : r.store < w.stores.length)
    (ran : (w.conclude now r done).2 = .ran content fromCache answers) :
    Writes now w r.store .run r.key r.holder content (w.conclude now r done).1 := by
  have there_noted : r.store < (w.note now r.store (.computed r.key r.holder)).stores.length :=
    Nat.lt_of_lt_of_le there (Nat.le_of_eq (length_putBack ..).symm)
  have exits := ending_conclude w now r done
  generalize w.conclude now r done = ended at exits ran ⊢
  cases exits with
  | failed | refused => cases ran
  | committed _ ok =>
    cases ran
    have wrote := writes_of_ok there_noted (congrArg Prod.snd ok)
    rw [ok] at wrote
    exact wrote.of_computed

/-! ## The beginning of a run -/

/-- **The two ways in which a run begins** that has its lock. -/
inductive Entry (w : World) (now : Instant) (r : Run) (script : List Action)
    (stack : List Frame) : World × Control → Prop
  /-- There is a record, and it is the result. -/
  | cached {content : Content} {u : World}
      (found : w.on now r.store (·.read r.key) = (u, some content)) :
      Entry w now r script stack
        ((u.note now r.store (.cached r.key r.holder content)).relinquish now r.store .run r.key
          r.holder, ⟨.answer (.ran content true []), stack⟩)
  /-- There is none, and the script is to be done. -/
  | computes {u : World} (absent : w.on now r.store (·.read r.key) = (u, none)) :
      Entry w now r script stack
        ((u.note now r.store (.computing r.key r.holder)).proceed now r [] script stack)

theorem entry_enterRun (w : World) (now : Instant) (r : Run) (script : List Action)
    (stack : List Frame) : Entry w now r script stack (w.enterRun now r script stack) := by
  unfold enterRun
  split
  · next u content found => exact .cached found
  · next u absent => exact .computes absent

/-- A run that begins computes, or it is over. -/
theorem stack_enterRun (w : World) (now : Instant) (r : Run) (script : List Action)
    (stack : List Frame) :
    (w.enterRun now r script stack).2.stack = stack
      ∨ ∃ rest, (w.enterRun now r script stack).2.stack = .script r [] rest :: stack := by
  have entry := entry_enterRun w now r script stack
  generalize w.enterRun now r script stack = entered at entry ⊢
  cases entry with
  | cached => exact .inl rfl
  | computes =>
    cases script with
    | nil => exact .inl rfl
    | cons a rest => exact .inr ⟨rest, rfl⟩

/-- **The beginning of a run is about the run.** -/
theorem evolves_enterRun (w : World) (now : Instant) (r : Run) (script : List Action)
    (stack : List Frame) :
    Evolves (Event.Within r) now w (w.enterRun now r script stack).1 := by
  have read := (w.evolves_read now r.store r.key).quiet.mono (fun _ quiet => quiet.within r)
  have entry := entry_enterRun w now r script stack
  generalize w.enterRun now r script stack = entered at entry ⊢
  cases entry with
  | @cached content u found =>
    rw [found] at read
    have told : Evolves (Event.Within r) now u
        (u.note now r.store (.cached r.key r.holder content)) := evolves_note_run trivial rfl
    have released := evolves_relinquish_run
      (u.note now r.store (.cached r.key r.holder content)) now r
    exact (read.trans told).trans (released.mono (fun _ h => h.2.within))
  | @computes u absent =>
    rw [absent] at read
    have told : Evolves (Event.Within r) now u
        (u.note now r.store (.computing r.key r.holder)) := evolves_note_run trivial rfl
    cases script with
    | nil =>
      show Evolves _ now w ((u.note now r.store (.computing r.key r.holder)).conclude now r []).1
      exact (read.trans told).trans (evolves_conclude ..)
    | cons => exact read.trans told

/-- Until it has begun to compute, a run has written nothing and freed nothing. -/
theorem evolves_begun {r : Run} {u : World}
    (absent : w.on now r.store (·.read r.key) = (u, none)) :
    Evolves Event.Still now w (u.note now r.store (.computing r.key r.holder)) := by
  have read := w.evolves_read now r.store r.key
  rw [absent] at read
  exact (read.mono (fun _ calm => calm.still)).trans (evolves_note trivial ⟨rfl, fun _ _ => rfl⟩)

/-- **The beginning of a run writes one record or none**: one only if its
script is empty, so that it ends as it begins, and then the run returns it. -/
theorem unwritten_or_writes_enterRun (w : World) (now : Instant) (r : Run)
    (script : List Action) (stack : List Frame) :
    Evolves Event.Unwritten now w (w.enterRun now r script stack).1
      ∨ ∃ content answers,
        Writes now w r.store .run r.key r.holder content (w.enterRun now r script stack).1
          ∧ (w.enterRun now r script stack).2 = ⟨.answer (.ran content false answers), stack⟩ := by
  have read := w.evolves_read now r.store r.key
  have entry := entry_enterRun w now r script stack
  generalize w.enterRun now r script stack = entered at entry ⊢
  cases entry with
  | @cached content u found =>
    rw [found] at read
    have told : Evolves Event.Unwritten now u
        (u.note now r.store (.cached r.key r.holder content)) := evolves_note trivial rfl
    have released := evolves_relinquish_run
      (u.note now r.store (.cached r.key r.holder content)) now r
    have unwritten := read.mono (fun _ calm => calm.1.2)
    exact .inl ((unwritten.trans told).trans (released.mono (fun _ h => h.1)))
  | @computes u absent =>
    have still := evolves_begun absent
    have unwritten := still.mono (fun _ h => h.1)
    cases script with
    | nil =>
      obtain wrote | ⟨content, wrote, ran⟩ := unwritten_or_writes_conclude
        (u.note now r.store (.computing r.key r.holder)) now r []
      · exact .inl (unwritten.trans wrote)
      · have answered := congrArg (fun reply => Control.mk (.answer reply) stack) ran
        exact .inr ⟨content, [], wrote.head still, answered⟩
    | cons => exact .inl unwritten

/-- A run that returns what it has computed as it begins has written it. -/
theorem writes_of_ran_enterRun {r : Run} {script : List Action} {stack : List Frame}
    {answers : List Reply} (there : r.store < w.stores.length)
    (ran : (w.enterRun now r script stack).2.focus = .answer (.ran content false answers)) :
    Writes now w r.store .run r.key r.holder content (w.enterRun now r script stack).1 := by
  have entry := entry_enterRun w now r script stack
  generalize w.enterRun now r script stack = entered at entry ran ⊢
  cases entry with
  | cached => cases ran
  | computes absent =>
    have still := evolves_begun absent
    cases script with
    | cons => cases ran
    | nil =>
      have there_begun := Nat.lt_of_lt_of_le there (Evolves.length_le still)
      exact (writes_of_ran there_begun (Focus.answer.inj ran)).head still

end World

end AdvisoryStore
