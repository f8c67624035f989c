import AdvisoryStore.Proofs.Awaiting
import AdvisoryStore.Proofs.Careers
import AdvisoryStore.Proofs.Tasks
import AdvisoryStore.Proofs.Views

/-!
# The ways out of a run

A run that has its lock ends in one of four ways: there is a record already, the
computation fails, another has taken the key meanwhile, or the record is stored.
On each of them it lets go of its lock, once, whatever has become of the lock by
then: it may be held still, or have expired, or be another's (`Run.LetsGo`).

What a run says as it begins and as it ends can be written out (`World.Logs`), and
with it what becomes of the locks and of the log of errors (`World.letsGo`). So the
end of a run that has computed is one of three (`World.ends_conclude`). Between its
beginning and its end a run does its script, whatever that is and whatever others
do meanwhile (`Scene.runs_let_go`).
-/

namespace AdvisoryStore

/-! ## What is said in one store -/

namespace Happening

/-- What something leaves in the log of errors. -/
def blame (what : Happening) : Bytes :=
  match what.notice? with
  | some ⟨.err, text⟩ => text
  | _ => []

/-- Whether something is neither an attempt at a release nor logged as an error. -/
def mute : Happening → Bool
  | released .. | refused .. | lost .. | demoFailed .. => false
  | _ => true

/-- No release is carried out where all is mute. -/
theorem countP_release_of_mute {said : List Happening} (quiet : said.all mute = true) :
    said.countP (·.task? = some .release) = 0 := by
  refine List.countP_eq_zero.mpr (fun what mem => ?_)
  have silent := List.all_eq_true.mp quiet what mem
  cases what with
  | released | refused | lost | demoFailed => cases silent
  | _ => exact of_decide_eq_false rfl

/-- Nothing is blamed where all is mute. -/
theorem flatMap_blame_of_mute {said : List Happening} (quiet : said.all mute = true) :
    said.flatMap blame = [] := by
  refine List.flatMap_eq_nil_iff.mpr (fun what mem => ?_)
  have silent := List.all_eq_true.mp quiet what mem
  cases what with
  | released | refused | lost | demoFailed => cases silent
  | _ => rfl

/-- No attempt at a release is fleeting. -/
theorem release_lasting (happened : List Happening) :
    (lasting happened).countP (·.task? = some .release)
      = happened.countP (·.task? = some .release) := by
  induction happened with
  | nil => rfl
  | cons what rest ih =>
    rw [List.countP_cons, ← ih, lasting, List.filterMap_cons]
    cases what <;> simp [lasting?, lasting, task?]

/-- Nothing that is logged as an error is fleeting. -/
theorem blame_lasting (happened : List Happening) :
    (lasting happened).flatMap blame = happened.flatMap blame := by
  induction happened with
  | nil => rfl
  | cons what rest ih =>
    rw [List.flatMap_cons, ← ih, lasting, List.filterMap_cons]
    cases what <;> simp [lasting?, lasting, blame, notice?]

end Happening

namespace World

/-- Only notices are written to the log of errors, whether stores are verbose or
not. -/
theorem written_err (w : World) (events : List Event) :
    w.written .err events = events.flatMap (·.what.blame) := by
  induction events with
  | nil => rfl
  | cons e rest ih =>
    rw [List.flatMap_cons, ← ih, written, written, List.filterMap_cons, line?, Happening.line?]
    unfold Happening.blame
    cases e.what.notice? with
    | some line =>
      obtain ⟨stream, text⟩ := line
      cases stream <;> simp
    | none =>
      cases (w.store e.store).settings.verbose with
      | false => rfl
      | true => cases e.what.detail? <;> rfl

variable {w u v w' : World} {now : Instant} {i : Nat} {said more : List Happening}

/-- **This and nothing else is said**, in one store, leaving out that holds were
found to be over; no other store changes. -/
structure Logs (now : Instant) (i : Nat) (said : List Happening) (w w' : World) : Prop where
  said : ∃ happened, Happening.lasting happened = said
    ∧ w'.events = (happened.map (Event.mk i now)).reverse ++ w.events
  elsewhere : ∀ j, j ≠ i → w'.store j = w.store j

/-- What is logged in two stretches is logged one after the other. -/
theorem Logs.trans (first : Logs now i said w u) (rest : Logs now i more u v) :
    Logs now i (said ++ more) w v := by
  obtain ⟨happened, rfl, events⟩ := first.said
  obtain ⟨happened', rfl, events'⟩ := rest.said
  refine ⟨⟨happened ++ happened', Happening.lasting_append .., ?_⟩, fun j other => ?_⟩
  · rw [events', events, List.map_append, List.reverse_append, List.append_assoc]
  · rw [rest.elsewhere j other, first.elsewhere j other]

/-- What a store says of an operation is what the log has of it. -/
theorem logs_on {α : Type} (there : i < w.stores.length) (now : Instant)
    {f : Store → Outcome Store α} (eq : Happening.lasting (f (w.store i)).happened = said) :
    w.Logs now i said (w.on now i f).1 where
  said := ⟨(f (w.store i)).happened, eq, events_putBack there ..⟩
  elsewhere j other := (store_putBack there now _ _ j).trans (if_neg other)

theorem Logs.since_eq (logs : w.Logs now i said w') :
    ∃ happened, Happening.lasting happened = said
      ∧ w.since w' = happened.map (Event.mk i now) := by
  obtain ⟨happened, eq, events⟩ := logs.said
  refine ⟨happened, eq, ?_⟩
  rw [since, events, addedTo_append, List.reverse_reverse]

/-- How often something tried to release a lock. -/
theorem Logs.countP_release (logs : w.Logs now i said w') :
    (w.since w').countP (·.what.task? = some .release)
      = said.countP (·.task? = some .release) := by
  obtain ⟨happened, rfl, since_eq⟩ := logs.since_eq
  rw [since_eq, List.countP_map, Happening.release_lasting]
  rfl

/-- The log of errors has the blame of what was said, and no more. -/
theorem Logs.written_err (logs : w.Logs now i said w') :
    w'.written .err (w.since w') = said.flatMap Happening.blame := by
  obtain ⟨happened, rfl, since_eq⟩ := logs.since_eq
  rw [World.written_err, since_eq, List.flatMap_map, Happening.blame_lasting]

/-- **This and nothing else is said**, and the same keys are held, and the same
records are there. -/
structure Remarks (now : Instant) (i : Nat) (said : List Happening) (w w' : World) : Prop where
  logs : w.Logs now i said w'
  live : w.SameLive now w'
  record : ∀ j key, w'.record? j key = w.record? j key

theorem Remarks.refl (now : Instant) (i : Nat) (w : World) : w.Remarks now i [] w :=
  ⟨⟨⟨[], rfl, rfl⟩, fun _ _ => rfl⟩, fun _ _ _ _ => rfl, fun _ _ => rfl⟩

theorem Remarks.trans (first : Remarks now i said w u) (rest : Remarks now i more u v) :
    Remarks now i (said ++ more) w v where
  logs := first.logs.trans rest.logs
  live := first.live.trans rest.live
  record j key := (rest.record j key).trans (first.record j key)

theorem remarks_note (there : i < w.stores.length) (now : Instant) (what : Happening)
    (lasts : what.lasting? = some what) : w.Remarks now i [what] (w.note now i what) where
  logs := by
    refine logs_on there now ?_
    show [what].filterMap Happening.lasting? = [what]
    rw [List.filterMap_cons, lasts]
    rfl
  live j key later _ := by rw [locks_note]
  record j key := record?_note ..

/-- **Whoever reads is given the record**, and changes nothing. -/
theorem remarks_read (there : i < w.stores.length) (now : Instant) (key : Bytes) :
    (w.on now i (·.read key)).2 = w.record? i key
      ∧ w.Remarks now i [if (w.record? i key).isSome then .hit key else .missed key]
        (w.on now i (·.read key)).1 := by
  refine ⟨Store.answer_read .., ?_, fun j other later _ => by rw [locks_read], fun j other => ?_⟩
  · refine logs_on there now ?_
    show Happening.lasting ((w.store i).read key).happened
      = [if ((w.store i).records.get? key).isSome then .hit key else .missed key]
    unfold Store.read
    cases (w.store i).records.get? key <;> rfl
  · have read := (w.evolves_read now i key).mono (fun _ calm => calm.still.1)
    exact Evolves.record?_of_unwritten read j other

variable {key holder : Bytes}

/-- **Whoever may write does**, and the same keys are held. -/
theorem logs_write (there : i < w.stores.length)
    (permitted : ∀ h, (w.store i).locks.live? now key = some h → h.holder = holder)
    (claimant : Claimant) (content : Content) :
    (w.on now i (·.write now claimant key content holder)).2 = .ok ()
      ∧ w.Logs now i [.wrote claimant key holder content]
        (w.on now i (·.write now claimant key content holder)).1
      ∧ w.SameLive now (w.on now i (·.write now claimant key content holder)).1
      ∧ ∀ j other, (w.on now i (·.write now claimant key content holder)).1.record? j other
        = if j = i ∧ other = key then some content else w.record? j other := by
  have wrote := Store.write_of_permitted permitted claimant content
  have answer : (w.on now i (·.write now claimant key content holder)).2 = .ok () :=
    congrArg Outcome.answer wrote
  have looks : ((w.store i).write now claimant key content holder).after.locks
      = ((w.store i).locks.consult now key).after := by
    rw [wrote]
    rfl
  have looked : Happening.lasting ((w.store i).permits now key holder).happened = [] :=
    (w.store i).locks.lasting_consult now key
  refine ⟨answer, logs_on there now ?_, sameLive_on looks, (writes_of_ok there answer).record?⟩
  rw [wrote, Happening.lasting_append, looked]
  rfl

/-- **Whoever may not write is told so**, and changes nothing. -/
theorem remarks_write {h : Hold} (there : i < w.stores.length)
    (live : (w.store i).locks.live? now key = some h) (other : h.holder ≠ holder)
    (claimant : Claimant) (content : Content) :
    (w.on now i (·.write now claimant key content holder)).2 = .error (.conflict key holder)
      ∧ w.Remarks now i [.conflicted key holder]
        (w.on now i (·.write now claimant key content holder)).1 := by
  have refused := Store.write_of_conflict live other claimant content
  have answer : (w.on now i (·.write now claimant key content holder)).2
      = .error (.conflict key holder) := congrArg Outcome.answer refused
  have looks : ((w.store i).write now claimant key content holder).after.locks
      = ((w.store i).locks.consult now key).after := by
    rw [refused]
    rfl
  have looked : Happening.lasting ((w.store i).permits now key holder).happened = [] :=
    (w.store i).locks.lasting_consult now key
  refine ⟨answer, logs_on there now ?_, sameLive_on looks, fun j key' => ?_⟩
  · rw [refused, Happening.lasting_append, looked]
    rfl
  · exact Evolves.record?_of_unwritten
      ((evolves_of_refused answer).mono (fun _ calm => calm.still.1)) j key'

end World

/-! ## Letting go -/

namespace Locks

/-- Whether a key is held by a holder. -/
def heldBy (l : Locks) (now : Instant) (key holder : Bytes) : Bool :=
  (l.live? now key).any (·.holder = holder)

variable {l : Locks} {now : Instant} {key holder : Bytes}

/-- Somebody is answered as the holder if it is the holder of the live hold. -/
theorem heldBy_eq_true_iff :
    l.heldBy now key holder = true ↔ ∃ h, l.live? now key = some h ∧ h.holder = holder := by
  simp [heldBy, Option.any_eq_true]

/-- **What comes of a release** to be seen of it, now and later. -/
theorem release_cases (l : Locks) (now : Instant) (claimant : Claimant) (key holder : Bytes) :
    Happening.lasting (l.release now claimant key holder).happened
        = [if l.heldBy now key holder then .released claimant key holder
            else .refused claimant key holder]
      ∧ (l.release now claimant key holder).answer
        = (if l.heldBy now key holder then .ok () else .error (.notHolder key holder))
      ∧ ∀ other later, now ≤ later →
        (l.release now claimant key holder).after.live? later other
          = if l.heldBy now key holder ∧ other = key then none else l.live? later other := by
  by_cases held : l.heldBy now key holder = true
  · obtain ⟨h, live, own⟩ := heldBy_eq_true_iff.mp held
    rw [release_of_own live own, if_pos held, if_pos held]
    refine ⟨rfl, rfl, fun other later _ => ?_⟩
    rw [live?_ring, live?_drop]
    simp only [held, true_and]
  · have other : ∀ h, l.live? now key = some h → h.holder ≠ holder :=
      fun h live own => held (heldBy_eq_true_iff.mpr ⟨h, live, own⟩)
    rw [release_of_not_own other, if_neg held, if_neg held]
    refine ⟨?_, rfl, fun other later le => ?_⟩
    · rw [Happening.lasting_append, lasting_consult]
      rfl
    · rw [live?_consult _ le, if_neg (fun both => held both.1)]

end Locks

/-- **What a store says of a lock that is let go of**, and what becomes of it. -/
theorem Store.relinquish_cases (s : Store) (now : Instant) (claimant : Claimant)
    (key holder : Bytes) :
    Happening.lasting (s.relinquish now claimant key holder).happened
        = (if s.locks.heldBy now key holder then [.released claimant key holder]
            else [.refused claimant key holder, .lost key holder])
      ∧ (s.relinquish now claimant key holder).after.locks
        = (s.locks.release now claimant key holder).after := by
  obtain ⟨told, answer, -⟩ := s.locks.release_cases now claimant key holder
  have released : s.release now claimant key holder
      = s.onLocks (·.release now claimant key holder) := rfl
  unfold relinquish
  rw [released, onLocks]
  generalize s.locks.release now claimant key holder = outcome at told answer ⊢
  obtain ⟨after, happened, verdict⟩ := outcome
  dsimp only at told answer ⊢
  cases held : s.locks.heldBy now key holder with
  | true =>
    rw [held] at told answer
    subst answer
    exact ⟨told, rfl⟩
  | false =>
    rw [held] at told answer
    subst answer
    refine ⟨?_, rfl⟩
    show Happening.lasting (happened ++ [.lost key holder]) = _
    rw [Happening.lasting_append, told]
    rfl

namespace Run

/-- Whether a run has its lock still. -/
def holds (r : Run) (now : Instant) (w : World) : Bool :=
  (w.store r.store).locks.heldBy now r.key r.holder

/-- **What a run says when it lets go of its lock**: that it has released it, or
that it was refused to and has lost it. -/
def parting (r : Run) (now : Instant) (w : World) : List Happening :=
  if r.holds now w then [.released .run r.key r.holder]
  else [.refused .run r.key r.holder, .lost r.key r.holder]

/-- What is logged of a lock that a run has lost. -/
theorem blame_lost (r : Run) : (Happening.lost r.key r.holder).blame
    = utf8 "[lock-release-error] "
      ++ untilZero (utf8 "No lock held by " ++ r.holder
        ++ utf8 " for transaction with key " ++ r.key)
      ++ utf8 "\n" := by
  have tag : utf8 "[lock-release-error] "
      = utf8 "[" ++ utf8 "lock-release-error" ++ utf8 "] " := by decide
  rw [tag]
  rfl

/-- **A run is over and lets go of its lock**, which it says after `said` and before
`coda`. -/
structure LetsGo (r : Run) (now : Instant) (said coda : List Happening) (w w' : World) :
    Prop where
  logs : w.Logs now r.store (said ++ r.parting now w ++ coda) w'
  /-- It tries to release its lock once. -/
  once : (w.since w').countP (·.what.task? = some .release) = 1
  /-- If the lock was lost, that is what is logged as an error, in one line, and nothing
  is if it was not. What is said of it ends at its first zero byte. -/
  logged : w'.written .err (w.since w')
    = if r.holds now w then []
      else utf8 "[lock-release-error] "
        ++ untilZero (utf8 "No lock held by " ++ r.holder
          ++ utf8 " for transaction with key " ++ r.key)
        ++ utf8 "\n"
  /-- It has its lock no longer. -/
  gone : ∀ h, (w'.store r.store).locks.live? now r.key = some h → h.holder ≠ r.holder
  /-- All others have theirs as before. -/
  others : ∀ j key h later, now ≤ later → j ≠ r.store ∨ key ≠ r.key ∨ h.holder ≠ r.holder →
    ((w'.store j).locks.live? later key = some h ↔ (w.store j).locks.live? later key = some h)

end Run

namespace World

variable {w u w' : World} {now : Instant} {r : Run} {said coda : List Happening}

/-- **What comes of letting go of a run's lock.** -/
theorem logs_relinquish_run (there : r.store < w.stores.length) (now : Instant) :
    w.Logs now r.store (r.parting now w) (w.relinquish now r.store .run r.key r.holder)
      ∧ ∀ j key later, now ≤ later →
        ((w.relinquish now r.store .run r.key r.holder).store j).locks.live? later key
          = if r.holds now w ∧ j = r.store ∧ key = r.key then none
            else (w.store j).locks.live? later key := by
  obtain ⟨-, -, live⟩ := (w.store r.store).locks.release_cases now .run r.key r.holder
  obtain ⟨told, unlocked⟩ := (w.store r.store).relinquish_cases now .run r.key r.holder
  refine ⟨logs_on there now told, fun j key later le => ?_⟩
  have store_eq : (w.relinquish now r.store .run r.key r.holder).store j
      = if j = r.store then ((w.store r.store).relinquish now .run r.key r.holder).after
        else w.store j := store_putBack there ..
  rw [store_eq]
  by_cases here : j = r.store
  · subst here
    rw [if_pos rfl, unlocked, live key later le]
    simp [Run.holds]
  · rw [if_neg here, if_neg (fun all => here all.2.1)]

/-- **A run that says nothing but how it lets go**, and what is mute, lets go. -/
theorem letsGo (there : r.store < u.stores.length) (before : w.Logs now r.store said u)
    (same : w.SameLive now u)
    (after : (u.relinquish now r.store .run r.key r.holder).Remarks now r.store coda w')
    (quiet : (said ++ coda).all Happening.mute = true) : r.LetsGo now said coda w w' := by
  obtain ⟨parts, frees⟩ := logs_relinquish_run there now
  have holds_eq : r.holds now u = r.holds now w := by
    unfold Run.holds Locks.heldBy
    rw [same r.store r.key now (Int.le_refl now)]
  have parting_eq : r.parting now u = r.parting now w := by
    unfold Run.parting
    rw [holds_eq]
  rw [parting_eq] at parts
  have logs := (before.trans parts).trans after.logs
  have live {j : Nat} {key : Bytes} {later : Instant} (le : now ≤ later) :
      (w'.store j).locks.live? later key
        = if r.holds now w ∧ j = r.store ∧ key = r.key then none
          else (w.store j).locks.live? later key := by
    rw [after.live j key later le, frees j key later le, holds_eq, same j key later le]
  rw [List.all_append, Bool.and_eq_true] at quiet
  refine ⟨logs, ?_, ?_, fun h eq own => ?_, fun j key h later le other => ?_⟩
  · rw [logs.countP_release, List.countP_append, List.countP_append,
      Happening.countP_release_of_mute quiet.1, Happening.countP_release_of_mute quiet.2,
      Run.parting]
    split <;> rfl
  · rw [logs.written_err, List.flatMap_append, List.flatMap_append,
      Happening.flatMap_blame_of_mute quiet.1, Happening.flatMap_blame_of_mute quiet.2,
      List.nil_append, List.append_nil, Run.parting]
    split
    · rfl
    · exact (List.append_nil _).trans (Run.blame_lost r)
  · rw [live (Int.le_refl now)] at eq
    split at eq
    · cases eq
    · next lost =>
      refine lost ⟨?_, rfl, rfl⟩
      exact Locks.heldBy_eq_true_iff.mpr ⟨h, eq, own⟩
  · rw [live le]
    split
    · next own =>
      obtain ⟨held, rfl, rfl⟩ := own
      refine iff_of_false nofun (fun eq => ?_)
      -- the hold that was let go of is the only one of the key
      obtain ⟨g, live, own⟩ := Locks.heldBy_eq_true_iff.mp held
      have stored := (Locks.live?_eq_some_iff.mp live).1
      rw [(Locks.live?_eq_some_iff.mp eq).1] at stored
      obtain rfl := Option.some.inj stored
      exact (other.resolve_left (fun apart => apart rfl)).elim (fun apart => apart rfl)
        (fun apart => apart own)
    · exact Iff.rfl

end World

/-! ## The end of a run that has computed -/

/-- **How a run ends that has computed**, with the answers to its script. -/
structure Run.Ends (r : Run) (now : Instant) (answers : List Reply) (w w' : World)
    (reply : Reply) : Prop where
  /-- The computation failed. Its fault is handed on, and nothing is written. -/
  failed : ∀ fault, r.outcome = .error fault →
    reply = .runFailed fault answers ∧ (∀ j key, w'.record? j key = w.record? j key)
      ∧ r.LetsGo now [.computed r.key r.holder] [] w w'
  /-- Another has taken the key, and nothing is written. -/
  barred : ∀ content h, r.outcome = .ok content →
    (w.store r.store).locks.live? now r.key = some h → h.holder ≠ r.holder →
    reply = .runFailed (.conflict r.key r.holder) answers
      ∧ (∀ j key, w'.record? j key = w.record? j key)
      ∧ r.LetsGo now [.computed r.key r.holder, .conflicted r.key r.holder] [] w w'
  /-- Nobody else has the key, be it held or not, and the record is written. -/
  stored : ∀ content, r.outcome = .ok content →
    (∀ h, (w.store r.store).locks.live? now r.key = some h → h.holder = r.holder) →
    reply = .ran content false answers
      ∧ (∀ j key, w'.record? j key
        = if j = r.store ∧ key = r.key then some content else w.record? j key)
      ∧ r.LetsGo now [.computed r.key r.holder, .wrote .run r.key r.holder content]
        [.committed r.key r.holder content] w w'

namespace World

variable {r : Run} {now : Instant} {w : World}

/-- **A run that has computed ends in one of these ways.** -/
theorem ends_conclude (there : r.store < w.stores.length) (now : Instant)
    (answers : List Reply) :
    r.Ends now answers w (w.conclude now r answers).1 (w.conclude now r answers).2 := by
  have computed := remarks_note there now (.computed r.key r.holder) rfl
  have there := (w.steady_note now r.store (.computed r.key r.holder)).there there
  have live_eq := computed.live r.store r.key now (Int.le_refl now)
  have who := ((w.note now r.store (.computed r.key r.holder)).store
    r.store).locks.permitted_or_barred now r.key r.holder
  have kept (u : World) : ∀ j key,
      (u.relinquish now r.store .run r.key r.holder).record? j key = u.record? j key :=
    Evolves.record?_of_unwritten ((evolves_relinquish_run u now r).mono (fun _ h => h.1))
  have exits := ending_conclude w now r answers
  generalize w.conclude now r answers = ended at exits ⊢
  cases exits with
  | @failed fault outcome =>
    refine ⟨fun other eq => ?_, fun _ _ eq => ?_, fun _ eq => ?_⟩ <;> cases outcome.symm.trans eq
    refine ⟨rfl, fun j key => (kept _ j key).trans (computed.record j key), ?_⟩
    exact letsGo there computed.logs computed.live (.refl ..) rfl
  | @refused content fault u outcome refused =>
    obtain permitted | ⟨h, live, other⟩ := who
    · obtain ⟨answer, -⟩ := logs_write there permitted .run content
      cases (congrArg Prod.snd refused).symm.trans answer
    · obtain ⟨answer, remarks⟩ := remarks_write there live other .run content
      have there := (steady_of_on _ now refused).there there
      rw [refused] at answer remarks
      obtain rfl := Except.error.inj answer
      refine ⟨fun _ eq => (nomatch outcome.symm.trans eq), fun _ _ _ _ _ => ?_, fun _ _ own => ?_⟩
      · have said := computed.trans remarks
        refine ⟨rfl, fun j key => (kept u j key).trans (said.record j key), ?_⟩
        exact letsGo there said.logs said.live (.refl ..) rfl
      · exact absurd (own h (live_eq.symm.trans live)) other
  | @committed content u outcome written =>
    obtain permitted | ⟨h, live, other⟩ := who
    · obtain ⟨-, logs, same, record⟩ := logs_write there permitted .run content
      have there := (steady_of_on _ now written).there there
      rw [written] at logs same record
      have committed := remarks_note
        ((u.steady_relinquish now r.store .run r.key r.holder).there there) now
        (.committed r.key r.holder content) rfl
      refine ⟨fun _ eq => (nomatch outcome.symm.trans eq), fun _ h _ live other => ?_,
        fun other eq _ => ?_⟩
      · exact absurd (permitted h (live_eq.trans live)) other
      · cases outcome.symm.trans eq
        refine ⟨rfl, fun j key => ?_, ?_⟩
        · rw [committed.record, kept, record, computed.record]
        · exact letsGo there (computed.logs.trans logs) (computed.live.trans same) committed rfl
    · obtain ⟨answer, -⟩ := remarks_write there live other .run content
      cases (congrArg Prod.snd written).symm.trans answer

end World

/-! ## The beginning of a run -/

namespace World

variable {now : Instant} {w u : World} {i : Nat} {request : LockRequest}

/-- **A lock is granted**, to one who asks for it or who holds it. -/
structure Granted (now : Instant) (w : World) (i : Nat) (request : LockRequest) (u : World) :
    Prop where
  trial : World.Trial now w i request u .granted
  logs : (∃ waited,
      w.Logs now i [.acquired request.claimant request.key request.holder waited] u)
    ∨ w.Logs now i [.reentered request.claimant request.key request.holder] u
  record : ∀ j key, u.record? j key = w.record? j key

/-- **Whoever no other is in the way of is granted the lock.** -/
theorem granted_attempt (there : i < w.stores.length)
    (admitted : ∀ h, (w.store i).locks.live? now request.key = some h → h.holder = request.holder)
    (waited : Bool) :
    (w.on now i (·.attempt now request waited)).2 = .granted
      ∧ w.Granted now i request (w.on now i (·.attempt now request waited)).1 := by
  have record := Evolves.record?_of_unwritten
    ((w.evolves_attempt now i request waited).mono (fun _ calm => calm.still.1))
  have logs : (∃ waited', w.Logs now i
        [.acquired request.claimant request.key request.holder waited']
        (w.on now i (·.attempt now request waited)).1)
      ∨ w.Logs now i [.reentered request.claimant request.key request.holder]
        (w.on now i (·.attempt now request waited)).1 := by
    cases live : (w.store i).locks.live? now request.key with
    | none =>
      refine .inl ⟨waited, logs_on there now ?_⟩
      show Happening.lasting ((w.store i).locks.attempt now request waited).happened = _
      rw [Locks.attempt_of_live?_eq_none live, Happening.lasting_append, Locks.lasting_consult]
      rfl
    | some h =>
      refine .inr (logs_on there now ?_)
      show Happening.lasting ((w.store i).locks.attempt now request waited).happened = _
      rw [Locks.attempt_of_own live (admitted h live)]
      rfl
  have trial := trial_attempt there now request waited
  generalize w.on now i (·.attempt now request waited) = outcome at trial logs record
  obtain ⟨u, attempt⟩ := outcome
  cases trial with
  | taken free stored aside => exact ⟨rfl, .taken free stored aside, logs, record⟩
  | kept live own same => exact ⟨rfl, .kept live own same, logs, record⟩
  | gaveUp live other | blocked live other => exact absurd (admitted _ live) other

end World

/-- **How a run begins that has its lock**, in the middle of `base`. -/
structure Run.Begins (r : Run) (script : List Action) (base : List Frame) (now : Instant)
    (w w' : World) (t' : Option Thread) : Prop where
  /-- There is a record, which is the result. Nothing is computed or written. -/
  cached : ∀ content, w.record? r.store r.key = some content →
    t' = some (.going ⟨.answer (.ran content true []), base⟩)
      ∧ (∀ j key, w'.record? j key = w.record? j key)
      ∧ r.LetsGo now [.hit r.key, .cached r.key r.holder content] [] w w'
  /-- There is none, and nothing to be done to compute one. -/
  at_once : w.record? r.store r.key = none → script = [] →
    ∃ v reply, w.Remarks now r.store [.missed r.key, .computing r.key r.holder] v
      ∧ t' = some (.going ⟨.answer reply, base⟩) ∧ r.Ends now [] v w' reply
  /-- There is none, and the script is to be done. -/
  computes : w.record? r.store r.key = none → script ≠ [] →
    w.Remarks now r.store [.missed r.key, .computing r.key r.holder] w'
      ∧ ∃ next, t' = some next ∧ next.Amid r script base []

namespace World

variable {r : Run} {now : Instant} {w : World}

/-- **A run that has its lock begins**: it finds a record, goes on with its script, or
ends at once. -/
theorem begins_enterRun (there : r.store < w.stores.length) (now : Instant)
    (script : List Action) (base : List Frame) :
    r.Begins script base now w (w.enterRun now r script base).1
      (some (.going (w.enterRun now r script base).2)) := by
  obtain ⟨found, read⟩ := remarks_read there now r.key
  have there := (w.steady_on now r.store (·.read r.key)).there there
  have entry := entry_enterRun w now r script base
  generalize w.enterRun now r script base = entered at entry ⊢
  cases entry with
  | @cached content u eq =>
    rw [eq] at found read there
    have found : some content = w.record? r.store r.key := found
    rw [← found] at read
    refine ⟨fun other eq => ?_, fun absent => ?_, fun absent => ?_⟩
    · cases found.trans eq
      have told := read.trans (remarks_note there now (.cached r.key r.holder content) rfl)
      have there := (u.steady_note now r.store (.cached r.key r.holder content)).there there
      refine ⟨rfl, fun j key => ?_, letsGo there told.logs told.live (.refl ..) rfl⟩
      have kept := Evolves.record?_of_unwritten
        ((evolves_relinquish_run (u.note now r.store (.cached r.key r.holder content)) now r).mono
          (fun _ h => h.1))
      rw [kept, told.record]
    · cases found.trans absent
    · cases found.trans absent
  | @computes u eq =>
    rw [eq] at found read there
    have found : none = w.record? r.store r.key := found
    rw [← found] at read
    have told := read.trans (remarks_note there now (.computing r.key r.holder) rfl)
    have there := (u.steady_note now r.store (.computing r.key r.holder)).there there
    refine ⟨fun content eq => (nomatch found.trans eq), fun _ empty => ?_, fun _ more => ?_⟩
    · subst empty
      exact ⟨_, _, told, rfl, ends_conclude there now []⟩
    · cases script with
      | nil => exact absurd rfl more
      | cons a rest => exact ⟨told, _, rfl, .before [] a rest rfl rfl rfl⟩

end World

/-- **A call that may have its lock gets past its point**, and the run begins. -/
theorem Thread.Turn.begins_run {now : Instant} {w w' : World} {t : Thread} {t' : Option Thread}
    {i : Nat} {request : LockRequest} {script : List Action} {outcome : Except Fault Content}
    (turn : t.Turn now w w' t') (point : t.point? = some (.lock i request (.run script outcome)))
    (there : i < w.stores.length)
    (admitted : ∀ h, (w.store i).locks.live? now request.key = some h →
      h.holder = request.holder) :
    ∃ u, w.Granted now i request u
      ∧ Run.Begins ⟨i, request.key, request.holder, outcome⟩ script t.stack now u w' t' := by
  have granted (waited : Bool) : ∃ u, w.Granted now i request u ∧ i < u.stores.length
      ∧ Point.pass (.lock i request (.run script outcome)) now w waited t.stack
        = .passed (u.enterRun now ⟨i, request.key, request.holder, outcome⟩ script t.stack).1
          (u.enterRun now ⟨i, request.key, request.holder, outcome⟩ script t.stack).2 := by
    obtain ⟨answer, granted⟩ := World.granted_attempt there admitted waited
    have there := (w.steady_on now i (·.attempt now request waited)).there there
    generalize tried : w.on now i (·.attempt now request waited) = asked at answer granted there
    obtain ⟨u, attempt⟩ := asked
    obtain rfl : attempt = .granted := answer
    exact ⟨u, granted, there, by simp only [Point.pass, tried, World.fulfil]⟩
  cases turn with
  | @move c _ _ step =>
    obtain ⟨focus, stack⟩ := c
    cases focus with
    | perform | answer => cases point
    | arrive p =>
      cases point
      obtain ⟨u, granted, there, pass⟩ := granted false
      cases Control.goesOn_of_step step with
      | passes passed =>
        cases pass.symm.trans passed
        exact ⟨u, granted, World.begins_enterRun there now script stack⟩
  | suspend step =>
    obtain ⟨rfl, waits⟩ := Control.eq_arrive_of_waits step
    cases point
    obtain ⟨u, -, -, pass⟩ := granted false
    cases pass.symm.trans waits
  | finish step =>
    obtain rfl := Control.eq_answer_of_finished step
    cases point
  | @resume p stack _ _ passed =>
    cases point
    obtain ⟨u, granted, there, pass⟩ := granted true
    cases pass.symm.trans passed
    exact ⟨u, granted, World.begins_enterRun there now script stack⟩

/-! ## Runs among others -/

/-- **What becomes of a run with a script to do**, by what its call has done since
then: the script is done in part, or the run has ended. -/
inductive Run.Fate (r : Run) (script : List Action) (base : List Frame) (now : Instant)
    (w : World) (t : Thread) (own : List Stride) (t' : Option Thread) : Prop
  | computes (next : Thread) (begun : List Action) (eq : t' = some next)
      (amid : next.Amid r script base begun) (scripted : Thread.Scripted base begun own)
  | ended (first : List Stride) (last : Stride) (rest : List Stride) (answers : List Reply)
      (reply : Reply) (split : own = first ++ last :: rest)
      (before : t.Career now w first last.now last.world (some last.thread))
      (scripted : Thread.Scripted base script first) (count : answers.length = script.length)
      (ends : r.Ends last.now answers last.world last.after reply)
      (answered : last.next = some (.going ⟨.answer reply, base⟩))

/-- **A run that has a script to do computes until it ends.** -/
theorem Thread.Amid.fate {r : Run} {script : List Action} {base : List Frame} {now later : Instant}
    {w v : World} {t : Thread} {t' : Option Thread} {own : List Stride}
    (amid : t.Amid r script base []) (there : r.store < w.stores.length)
    (career : t.Career now w own later v t') : r.Fate script base now w t own t' := by
  obtain ⟨next, begun, eq, amid, scripted⟩ | ⟨first, last, rest, split, before, scripted, ended⟩ :=
    career.scripted amid
  · exact .computes next begun eq amid scripted
  · have there := Nat.lt_of_lt_of_le there before.length_le
    generalize after_eq : last.after = after at ended
    generalize next_eq : last.next = next at ended
    obtain ⟨answers, count⟩ := ended
    refine .ended first last rest answers _ split before scripted count ?_ next_eq
    rw [after_eq]
    exact World.ends_conclude there last.now answers

namespace Scene

/-- **Every run that gets its lock lets go of it**, on whichever way out.

A call that sets out on a run wants its key's lock. Whenever a call that wants a
lock for a run makes its move and no other is in the way, it is granted the lock,
and the run begins (`Run.Begins`). If there is a record it is the result, and
nothing is computed. If there is none the run computes: it does its script, each
action once and in order, and ends as often as it has done so (`Run.Fate`); then
it fails as its computation did, or for the other who has taken the key, or
stores its record and returns it, whether it holds the lock still or not
(`Run.Ends`). Each time it lets go of its lock once, and is told in the log of
errors if it had lost it; its holder has no lock of the key then, and all others
have what they had (`Run.LetsGo`). -/
theorem runs_let_go {hash : Bytes → Nat} {settings : StoreSettings} {environment : Environment}
    {start : Instant} {s : Scene}
    (reached : (Session.start hash settings environment start).scene.Leads s) :
    (∀ (t : Thread) key holder hold script outcome w' t',
        t.performs? = some (.run key holder hold script outcome) →
        t.Turn s.now s.world w' t' →
        w' = s.world ∧ ∃ request : LockRequest, request.key = key ∧ request.holder = holder
          ∧ request.hold = (hold <|> s.world.currentStore.settings.defaultHold)
          ∧ t' = some (.going ⟨.arrive (.lock s.world.current request (.run script outcome)),
            t.stack⟩))
      ∧ ∀ t ∈ s.threads, ∀ i request script outcome w' t',
        t.point? = some (.lock i request (.run script outcome)) →
        (∀ h, (s.world.store i).locks.live? s.now request.key = some h →
          h.holder = request.holder) →
        t.Turn s.now s.world w' t' →
        ∃ u, s.world.Granted s.now i request u
          ∧ Run.Begins ⟨i, request.key, request.holder, outcome⟩ script t.stack s.now u w' t'
          ∧ (u.record? i request.key = none → script ≠ [] →
            ∃ next, t' = some next ∧ ∀ before after s',
              Leads ⟨s.now, w', before ++ next :: after⟩ s' →
              ∃ own t'', next.Career s.now w' own s'.now s'.world t''
                ∧ (∃ before' after', s'.threads = before' ++ t''.toList ++ after')
                ∧ Run.Fate ⟨i, request.key, request.holder, outcome⟩ script t.stack s.now w' next
                  own t'') := by
  refine ⟨fun t key holder hold script outcome w' t' performs turn => ?_,
    fun t mem i request script outcome w' t' point admitted turn => ?_⟩
  · unfold Thread.performs? at performs
    split at performs <;> cases performs
    cases turn with
    | move step =>
      cases step
      exact ⟨rfl, _, rfl, rfl, rfl, rfl⟩
    | suspend step | finish step => cases step
  · have there : i < s.world.stores.length := (reached.present t mem).point _ point
    obtain ⟨u, granted, begins⟩ := turn.begins_run point there admitted
    refine ⟨u, granted, begins, fun absent more => ?_⟩
    obtain ⟨-, next, rfl, amid⟩ := begins.computes absent more
    refine ⟨next, rfl, fun before after s' leads => ?_⟩
    obtain ⟨own, t'', career, place⟩ := Leads.career leads
    have there : i < w'.stores.length := Nat.lt_of_lt_of_le there turn.evolves.length_le
    exact ⟨own, t'', career, place, amid.fate there career⟩

/-- A scene in which a call wants a lock for a run: its hold is to be over at once,
and its computation takes its time and fails. -/
def vainRun : Scene :=
  let s := (Session.start (fun _ => 0) {} (fun _ => none) 0).scene
  Scene.act { s with threads := s.threads ++ [.going ⟨.perform
    (.run [1] [10] (some (-1)) [.sleep 5] (.error (.failure [7]))), []⟩] } 0

/-- The scene after the run. -/
def vainRunOver : Scene :=
  ((Scene.act { ((vainRun.act 0).act 0).act 0 with now := 5 } 0).act 0).act 0

theorem runs_let_go_of_vainRun :
    vainRunOver.threads.length = 0
      ∧ ∃ (last : Stride) (answers : List Reply), answers.length = 1
        ∧ last.next = some (.going ⟨.answer (.runFailed (.failure [7]) answers), []⟩)
        ∧ Run.LetsGo ⟨0, [1], [10], .error (.failure [7])⟩ last.now [.computed [1] [10]] []
          last.world last.after := by
  have reached : (Session.start (fun _ => 0) {} (fun _ => none) 0).scene.Leads vainRun :=
    .head (.begin _ _) (.single (step_act (n := 0) (by decide +kernel)))
  let t : Thread := .going ⟨.arrive (.lock 0 ⟨[1], [10], some (-1), none, .run⟩
    (.run [.sleep 5] (.error (.failure [7])))), []⟩
  have threads_eq : vainRun.threads = [t] := rfl
  have moves : (t.act vainRun.now vainRun.world).isSome := by decide +kernel
  obtain ⟨⟨w', t'⟩, acts⟩ := Option.isSome_iff_exists.mp moves
  obtain ⟨-, runs⟩ := runs_let_go reached
  obtain ⟨u, granted, -, computes⟩ := runs t (threads_eq ▸ List.mem_singleton_self t) 0 _ _ _ w' t'
    rfl (by decide +kernel) (Thread.turn_iff_act.mpr acts)
  obtain ⟨next, rfl, fates⟩ := computes ((granted.record _ _).trans (by decide +kernel)) nofun
  -- the call sleeps, wakes up, and comes to its end
  have acted : vainRun.act 0 = ⟨vainRun.now, w', [next]⟩ := by
    have found : vainRun.threads[0]?.bind (Thread.act vainRun.now vainRun.world)
        = some (w', some next) := by
      rw [threads_eq]
      exact acts
    rw [act, found, threads_eq]
    rfl
  have leads : (vainRun.act 0).Leads vainRunOver := by
    refine .head (step_act (n := 0) ?_) (.head (step_act (n := 0) ?_) (.head (.tick _ ?_)
      (.head (step_act (n := 0) ?_) (.head (step_act (n := 0) ?_)
        (.single (step_act (n := 0) ?_)))))) <;> decide +kernel
  rw [acted] at leads
  have finished : vainRunOver.threads.length = 0 := by decide +kernel
  obtain ⟨own, t'', -, ⟨before, after, place⟩, fate⟩ := fates [] [] vainRunOver leads
  cases fate with
  | computes next begun eq =>
    rw [place, eq] at finished
    simp at finished
  | ended _ last _ answers reply _ _ _ count ends answered =>
    obtain ⟨rfl, -, letsGo⟩ := ends.failed (.failure [7]) rfl
    exact ⟨finished, last, answers, count, answered, letsGo⟩

end Scene

end AdvisoryStore
