import AdvisoryStore.Proofs.Evolution

/-!
# What the moves of a call do to the world

Every function that a call's moves are made of lets the world evolve, and
this module says by what kind of events. Most of them are **quiet**
(`Happening.Quiet`): they are no part of a run that has its lock, and they
write no record. `World.evolves_perform` says so of all operations but
one, and the statements before it of handles and of stores.

What is not quiet is told apart. A caller's write and the write at the end
of a run are one record written at a point where nobody else's live lock
was in the way (`World.Writes`), and a run that has its lock leaves events
that carry its store and key (`Event.Within`).
-/

namespace AdvisoryStore

/-! ## What an operation may say -/

namespace Locks

variable {l : Locks} {now : Instant} {key holder : Bytes} {what : Happening}

/-- Looking at a key says nothing but that its hold is over. -/
theorem of_mem_consult (mem : what ∈ (l.consult now key).happened) :
    ∃ heldBy, what = .expired key heldBy := by
  unfold consult at mem
  split at mem
  · cases mem
  · next h _ =>
    split at mem
    · exact ⟨h.holder, List.mem_singleton.mp mem⟩
    · cases mem

/-- Trying for a lock says that an old hold is over, and one of three ways it went;
that it goes on waiting is not said. -/
theorem of_mem_attempt {r : LockRequest} {waited : Bool}
    (mem : what ∈ (l.attempt now r waited).happened) :
    (∃ heldBy, what = .expired r.key heldBy) ∨ what = .acquired r.claimant r.key r.holder waited
      ∨ what = .reentered r.claimant r.key r.holder
      ∨ ∃ heldBy, what = .timedOut r.key r.holder heldBy := by
  have looked (mem : what ∈ (l.consult now r.key).happened) := of_mem_consult mem
  unfold attempt at mem
  generalize l.consult now r.key = found at looked mem
  obtain ⟨after, happened, held⟩ := found
  cases held with
  | none => exact (List.mem_append.mp mem).imp looked (fun h => .inl (List.mem_singleton.mp h))
  | some h =>
    simp only at mem
    split at mem
    · exact (List.mem_append.mp mem).imp looked
        (fun h => .inr (.inl (List.mem_singleton.mp h)))
    · split at mem
      · exact (List.mem_append.mp mem).imp looked
          (fun h => .inr (.inr ⟨_, List.mem_singleton.mp h⟩))
      · exact .inl (looked mem)

/-- A release says whether it went through or was refused. -/
theorem of_mem_release {claimant : Claimant}
    (mem : what ∈ (l.release now claimant key holder).happened) :
    (∃ heldBy, what = .expired key heldBy) ∨ what = .released claimant key holder
      ∨ what = .refused claimant key holder := by
  have looked (mem : what ∈ (l.consult now key).happened) := of_mem_consult mem
  unfold release at mem
  generalize l.consult now key = found at looked mem
  obtain ⟨after, happened, held⟩ := found
  simp only at mem
  split at mem
  · exact (List.mem_append.mp mem).imp looked (fun h => .inl (List.mem_singleton.mp h))
  · exact (List.mem_append.mp mem).imp looked (fun h => .inr (List.mem_singleton.mp h))

/-- Waiting for the end of a hold says nothing but that it was given up. -/
theorem of_mem_awaitEnd {generation : Nat} {giveUp : Option Instant}
    (mem : what ∈ (l.awaitEnd now key generation giveUp).happened) :
    (∃ heldBy, what = .expired key heldBy) ∨ what = .waitTimedOut key := by
  have looked (mem : what ∈ (l.consult now key).happened) := of_mem_consult mem
  unfold awaitEnd at mem
  generalize l.consult now key = found at looked mem
  obtain ⟨after, happened, held⟩ := found
  cases held with
  | none => exact .inl (looked mem)
  | some h =>
    simp only at mem
    split at mem
    · exact .inl (looked mem)
    · split at mem
      · exact (List.mem_append.mp mem).imp looked List.mem_singleton.mp
      · exact .inl (looked mem)

/-- A sweep says of nothing but what it sweeps away. -/
theorem of_mem_sweep (mem : what ∈ (l.sweep now).happened) :
    ∃ key heldBy, what = .swept key heldBy := by
  obtain ⟨e, -, rfl⟩ := List.mem_map.mp mem
  exact ⟨e.1, e.2.holder, rfl⟩

end Locks

namespace Store

variable {s : Store} {now : Instant} {key holder : Bytes} {what : Happening}

/-- Whoever lets go of a lock that it may have lost says so, after the release that
was refused. -/
theorem of_mem_relinquish {claimant : Claimant}
    (mem : what ∈ (s.relinquish now claimant key holder).happened) :
    (∃ heldBy, what = .expired key heldBy) ∨ what = .released claimant key holder
      ∨ what = .refused claimant key holder ∨ what = .lost key holder := by
  have released : what ∈ (s.release now claimant key holder).happened → _ := Locks.of_mem_release
  unfold relinquish at mem
  generalize s.release now claimant key holder = outcome at released mem
  obtain ⟨after, happened, answer⟩ := outcome
  cases answer with
  | ok => exact (released mem).imp_right (Or.imp_right .inl)
  | error =>
    obtain mem | mem := List.mem_append.mp mem
    · exact (released mem).imp_right (Or.imp_right .inl)
    · exact .inr (.inr (.inr (List.mem_singleton.mp mem)))

/-- Reading a record says whether there is one. -/
theorem of_mem_read (mem : what ∈ (s.read key).happened) :
    what = .hit key ∨ what = .missed key := by
  unfold read at mem
  split at mem
  · exact .inl (List.mem_singleton.mp mem)
  · exact .inr (List.mem_singleton.mp mem)

/-- A write says whether it went through or met the lock of another. -/
theorem of_mem_write {claimant : Claimant} {content : Content}
    (mem : what ∈ (s.write now claimant key content holder).happened) :
    (∃ heldBy, what = .expired key heldBy) ∨ what = .wrote claimant key holder content
      ∨ what = .conflicted key holder := by
  have asked : what ∈ (s.permits now key holder).happened → _ := Locks.of_mem_consult
  unfold write at mem
  generalize s.permits now key holder = outcome at asked mem
  obtain ⟨after, happened, permitted⟩ := outcome
  cases permitted with
  | true => exact (List.mem_append.mp mem).imp asked (fun h => .inl (List.mem_singleton.mp h))
  | false => exact (List.mem_append.mp mem).imp asked (fun h => .inr (List.mem_singleton.mp h))

/-- A request about a lock says no more than a look at it does. -/
theorem of_mem_inspectLock {version : Nat} {keepAlive : Bool}
    (mem : what ∈ (s.inspectLock now key version keepAlive).happened) :
    ∃ heldBy, what = .expired key heldBy := by
  have looked : what ∈ (s.look now key).happened → _ := Locks.of_mem_consult
  unfold inspectLock at mem
  generalize s.look now key = outcome at looked mem
  obtain ⟨after, happened, held⟩ := outcome
  cases held <;> exact looked mem

/-- A request says that it was served, and may find that a hold is over. -/
theorem of_mem_serve {r : Request} (mem : what ∈ (s.serve now r).happened) :
    (∃ topic, what = .served topic) ∨ ∃ key heldBy, what = .expired key heldBy := by
  unfold serve at mem
  split at mem
  · obtain mem | mem := List.mem_cons.mp mem
    · exact .inl ⟨_, mem⟩
    · unfold answer at mem
      split at mem
      · cases mem
      · cases mem
      · split at mem
        · cases mem
        · exact .inr ⟨_, of_mem_inspectLock mem⟩
      · cases mem
  · exact .inl ⟨_, List.mem_singleton.mp mem⟩

end Store

/-! ## Kinds of happenings -/

namespace Happening

/-- The key of the run that a happening is part of, from when the run has
its lock. -/
def ofRun? : Happening → Option Bytes
  | released .run key _ => some key
  | wrote .run key _ _ => some key
  | cached key _ _ => some key
  | computing key _ => some key
  | computed key _ => some key
  | committed key _ _ => some key
  | _ => none

/-- Whether a record was written. -/
def isWrite : Happening → Bool
  | wrote .. => true
  | _ => false

/-- **Whether a hold of a key by a holder ended by someone's doing.** -/
def frees (key holder : Bytes) : Happening → Bool
  | released _ k h => k = key ∧ h = holder
  | cleared _ => true
  | _ => false

/-- **A quiet happening** is no part of a run that has its lock, and no
write. -/
def Quiet (what : Happening) : Prop := what.ofRun? = none ∧ what.isWrite = false

/-- **A calm happening** is a quiet one by which nobody loses a lock. -/
def Calm (what : Happening) : Prop :=
  what.Quiet ∧ ∀ key holder, what.frees key holder = false

/-- What a run tells of its computation and of its result. -/
def isNews : Happening → Bool
  | cached .. | computing .. | computed .. | committed .. => true
  | _ => false

end Happening

namespace Locks

/-- **Looking at a key is calm**, and so is all that only looks, or tries
for a lock. -/
theorem calm_consult (l : Locks) (now : Instant) (key : Bytes) :
    ∀ what ∈ (l.consult now key).happened, what.Calm := by
  intro what mem
  obtain ⟨heldBy, rfl⟩ := of_mem_consult mem
  exact ⟨⟨rfl, rfl⟩, fun _ _ => rfl⟩

theorem calm_attempt (l : Locks) (now : Instant) (r : LockRequest) (waited : Bool) :
    ∀ what ∈ (l.attempt now r waited).happened, what.Calm := by
  intro what mem
  obtain ⟨heldBy, rfl⟩ | rfl | rfl | ⟨heldBy, rfl⟩ := of_mem_attempt mem <;>
    exact ⟨⟨rfl, rfl⟩, fun _ _ => rfl⟩

/-- A release that is not made by a run is no part of one. -/
theorem quiet_release (l : Locks) (now : Instant) {claimant : Claimant} (other : claimant ≠ .run)
    (key holder : Bytes) : ∀ what ∈ (l.release now claimant key holder).happened, what.Quiet := by
  intro what mem
  obtain ⟨heldBy, rfl⟩ | rfl | rfl := of_mem_release mem
  · exact ⟨rfl, rfl⟩
  · cases claimant with
    | run => exact absurd rfl other
    | caller | handle => exact ⟨rfl, rfl⟩
  · exact ⟨rfl, rfl⟩

theorem calm_awaitEnd (l : Locks) (now : Instant) (key : Bytes) (generation : Nat)
    (giveUp : Option Instant) :
    ∀ what ∈ (l.awaitEnd now key generation giveUp).happened, what.Calm := by
  intro what mem
  obtain ⟨heldBy, rfl⟩ | rfl := of_mem_awaitEnd mem <;> exact ⟨⟨rfl, rfl⟩, fun _ _ => rfl⟩

/-- A sweep frees locks, and is no part of a run. -/
theorem quiet_sweep (l : Locks) (now : Instant) :
    ∀ what ∈ (l.sweep now).happened, what.Quiet := by
  intro what mem
  obtain ⟨key, heldBy, rfl⟩ := of_mem_sweep mem
  exact ⟨rfl, rfl⟩

end Locks

namespace Store

theorem quiet_relinquish (s : Store) (now : Instant) {claimant : Claimant}
    (other : claimant ≠ .run) (key holder : Bytes) :
    ∀ what ∈ (s.relinquish now claimant key holder).happened, what.Quiet := by
  intro what mem
  obtain ⟨heldBy, rfl⟩ | rfl | rfl | rfl := of_mem_relinquish mem
  · exact ⟨rfl, rfl⟩
  · cases claimant with
    | run => exact absurd rfl other
    | caller | handle => exact ⟨rfl, rfl⟩
  · exact ⟨rfl, rfl⟩
  · exact ⟨rfl, rfl⟩

/-- Reading a record is calm. -/
theorem calm_read (s : Store) (key : Bytes) : ∀ what ∈ (s.read key).happened, what.Calm := by
  intro what mem
  obtain rfl | rfl := of_mem_read mem <;> exact ⟨⟨rfl, rfl⟩, fun _ _ => rfl⟩

theorem calm_inspectLock (s : Store) (now : Instant) (key : Bytes) (version : Nat)
    (keepAlive : Bool) :
    ∀ what ∈ (s.inspectLock now key version keepAlive).happened, what.Calm := by
  intro what mem
  obtain ⟨heldBy, rfl⟩ := of_mem_inspectLock mem
  exact ⟨⟨rfl, rfl⟩, fun _ _ => rfl⟩

/-- Requests write no record and free no lock. -/
theorem calm_serve (s : Store) (now : Instant) (r : Request) :
    ∀ what ∈ (s.serve now r).happened, what.Calm := by
  intro what mem
  obtain ⟨topic, rfl⟩ | ⟨key, heldBy, rfl⟩ := of_mem_serve mem
  · cases topic <;> exact ⟨⟨rfl, rfl⟩, fun _ _ => rfl⟩
  · exact ⟨⟨rfl, rfl⟩, fun _ _ => rfl⟩

end Store

/-! ## Quiet operations of a world -/

/-- An event is quiet if what happened is. -/
def Event.Quiet (e : Event) : Prop := e.what.Quiet

/-- An event is calm if what happened is. -/
def Event.Calm (e : Event) : Prop := e.what.Calm

namespace World

variable (w : World) (now : Instant)

/-- **Whoever tries for a lock changes the world calmly**, whether it gets
it or not. -/
theorem evolves_attempt (i : Nat) (r : LockRequest) (waited : Bool) :
    Evolves Event.Calm now w (w.on now i (·.attempt now r waited)).1 :=
  evolves_on (Store.unfolds_attempt ..) ((w.store i).locks.calm_attempt now r waited)

theorem evolves_release (i : Nat) {claimant : Claimant} (other : claimant ≠ .run)
    (key holder : Bytes) :
    Evolves Event.Quiet now w (w.on now i (·.release now claimant key holder)).1 :=
  evolves_on (Store.unfolds_release ..) ((w.store i).locks.quiet_release now other key holder)

theorem evolves_look (i : Nat) (key : Bytes) :
    Evolves Event.Calm now w (w.on now i (·.look now key)).1 :=
  evolves_on (Store.unfolds_look ..) ((w.store i).locks.calm_consult now key)

theorem evolves_beginWait (i : Nat) (key : Bytes) :
    Evolves Event.Calm now w (w.on now i (·.beginWait now key)).1 :=
  evolves_on (Store.unfolds_beginWait ..) (List.forall_mem_cons.mpr
    ⟨⟨⟨rfl, rfl⟩, fun _ _ => rfl⟩, (w.store i).locks.calm_consult now key⟩)

theorem evolves_awaitEnd (i : Nat) (key : Bytes) (generation : Nat) (giveUp : Option Instant) :
    Evolves Event.Calm now w (w.on now i (·.awaitEnd now key generation giveUp)).1 :=
  evolves_on (Store.unfolds_awaitEnd ..)
    ((w.store i).locks.calm_awaitEnd now key generation giveUp)

/-- A record may be read without anything happening to locks or records. -/
theorem evolves_read (i : Nat) (key : Bytes) :
    Evolves Event.Calm now w (w.on now i (·.read key)).1 :=
  evolves_on (Store.unfolds_read ..) ((w.store i).calm_read key)

/-- What is calm is quiet. -/
theorem Evolves.quiet {now : Instant} {w w' : World} (h : Evolves Event.Calm now w w') :
    Evolves Event.Quiet now w w' :=
  h.mono (fun _ calm => calm.1)

/-- A handle that lets go of its lock is quiet about it. -/
theorem evolves_relinquish (i : Nat) {claimant : Claimant} (other : claimant ≠ .run)
    (key holder : Bytes) : Evolves Event.Quiet now w (w.relinquish now i claimant key holder) :=
  evolves_on (Store.unfolds_relinquish ..) ((w.store i).quiet_relinquish now other key holder)

/-- Letting go of a handle is quiet, and nothing at all if it owns no lock. -/
theorem evolves_letGo (h : Handle) : Evolves Event.Quiet now w (w.letGo now h) := by
  unfold letGo
  split
  · exact evolves_relinquish w now h.store (by decide) h.key h.holder
  · exact .refl

/-- Putting a handle in a slot lets go of the one that was there. -/
theorem evolves_place (slot : Bytes) (h : Handle) :
    Evolves Event.Quiet now w (w.place now slot h) := by
  have vacated : Evolves Event.Quiet now w (w.vacate now slot) := by
    unfold vacate
    split
    · exact .refl
    · exact evolves_letGo ..
  exact vacated.tail (.aside rfl rfl)

/-- Moving a handle lets go of the one that was in its way. -/
theorem evolves_move (source target : Bytes) :
    Evolves Event.Quiet now w (w.move now source target).1 := by
  unfold move
  split
  · exact .refl
  · next h _ =>
    split
    · exact .refl
    · have placed := w.evolves_place now target h
      exact placed.tail (.aside rfl rfl)

/-- A handle gives its lock back if it owns one. -/
theorem evolves_handleRelease (slot : Bytes) :
    Evolves Event.Quiet now w (w.handleRelease now slot).1 := by
  unfold handleRelease
  split
  · exact .refl
  · next h _ =>
    split
    · -- the slot is emptied of its claim before the store is asked
      let emptied := { w with slots := w.slots.insert slot { h with owns := false } }
      have apart : Evolves Event.Quiet now w emptied := .single (.aside rfl rfl)
      have released := emptied.evolves_release now h.store (show Claimant.handle ≠ .run by decide)
        h.key h.holder
      have all := apart.trans released
      simp only
      split <;> next eq => rwa [eq] at all
    · exact .refl

/-- A handle that is destroyed lets go of its lock. -/
theorem evolves_handleDestroy (slot : Bytes) :
    Evolves Event.Quiet now w (w.handleDestroy now slot).1 := by
  unfold handleDestroy
  split
  · exact .refl
  · next h _ =>
    let emptied := { w with slots := w.slots.erase slot }
    have apart : Change Event.Quiet now w emptied := .aside rfl rfl
    exact .head apart (emptied.evolves_letGo now h)

/-- Turning to the shared store adds one if there is none yet. -/
theorem evolves_turnToShared : Evolves Event.Quiet now w (w.turnToShared now).1 := by
  unfold turnToShared
  split
  · exact .single (.aside rfl rfl)
  · split
    · exact .refl
    · next settings _ =>
      have added : Evolves Event.Quiet now w (w.addStore settings) := .single (.newStore settings)
      let shared := { w.addStore settings with shared := some w.stores.length }
      have turned : Evolves Event.Quiet now w shared := added.tail (.aside rfl rfl)
      have noted : Evolves Event.Quiet now shared
          (shared.note now w.stores.length (.created settings.shards)) := by
        refine evolves_note ?_ ?_
        · trivial
        · exact ⟨rfl, rfl⟩
      exact turned.trans noted

/-- A change that is tried asks who holds the key; the change itself is in
no store. -/
theorem evolves_tryChange (key holder : Bytes) (fault : Option Fault) :
    Evolves Event.Quiet now w (w.tryChange now key holder fault).1 := by
  have calm : Evolves Event.Calm now w (w.on now w.current (·.permits now key holder)).1 :=
    evolves_on (Store.unfolds_permits ..) ((w.store w.current).locks.calm_consult now key)
  have asked := calm.quiet
  unfold tryChange
  split
  · next eq => rwa [eq] at asked
  · next eq =>
    rw [eq] at asked
    cases fault <;> exact asked.tail (.aside rfl rfl)

/-- **Whatever is done at once is quiet**, but for a write. -/
theorem evolves_perform {o : Operation}
    (unwritten : ∀ key content holder, o ≠ .write key content holder) :
    Evolves Event.Quiet now w (w.perform now o).1 := by
  cases o with
  | release key holder =>
    have h := w.evolves_release now w.current (show Claimant.caller ≠ .run by decide) key holder
    rw [perform]
    split <;> next eq => rwa [eq] at h
  | isHeld key => exact (evolves_look w now w.current key).quiet
  | isHeldBy key holder => exact (evolves_look w now w.current key).quiet
  | look key =>
    have h := (w.evolves_look now w.current key).quiet
    rw [perform]
    split <;> next eq => rwa [eq] at h
  | handleInfo slot =>
    rw [perform]
    split <;> exact .refl
  | handleRelease slot => exact evolves_handleRelease w now slot
  | handleDestroy slot => exact evolves_handleDestroy w now slot
  | handleMove source target => exact evolves_move w now source target
  | tryChange key holder fault => exact evolves_tryChange w now key holder fault
  | sweep =>
    have h : Evolves Event.Quiet now w (w.on now w.current (·.sweep now)).1 :=
      evolves_on (Store.unfolds_sweep ..) ((w.store w.current).locks.quiet_sweep now)
    exact h
  | clear =>
    -- by this everybody loses their lock, and yet it is no part of a run
    exact evolves_on (Store.unfolds_clearLocks ..) (List.forall_mem_singleton.mpr ⟨rfl, rfl⟩)
  | read key =>
    have h := (w.evolves_read now w.current key).quiet
    rw [perform]
    split <;> next eq => rwa [eq] at h
  | write key content holder => exact absurd rfl (unwritten key content holder)
  | serve request =>
    have h : Evolves Event.Calm now w (w.on now w.current (·.serve now request)).1 :=
      evolves_on (Store.unfolds_serve ..) ((w.store w.current).calm_serve now request)
    exact h.quiet
  | inspect key version keepAlive =>
    have h : Evolves Event.Calm now w
        (w.on now w.current (·.inspectLock now key version keepAlive)).1 :=
      evolves_on (Store.unfolds_inspectLock ..)
        ((w.store w.current).calm_inspectLock now key version keepAlive)
    exact h.quiet
  | newStore settings => exact .single (.newStore settings)
  | shared => exact evolves_turnToShared w now
  | use i =>
    rw [perform]
    split
    · exact .single (.aside rfl rfl)
    · exact .refl
  | heldCount | counters | contains | recordTotal | settings | metrics | highlights => exact .refl
  | setEnvironment | forgetShared => exact .single (.aside rfl rfl)

end World

end AdvisoryStore
