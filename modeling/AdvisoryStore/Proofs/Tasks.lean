import AdvisoryStore.Proofs.Isolation
import AdvisoryStore.Proofs.Paths
import AdvisoryStore.Proofs.Presence

/-!
# What calls do, and what is on record of it

Whoever reads, writes, takes or releases a lock, waits, or sends a request
carries out a **task** of a store. `Thread.deeds` says which tasks a move of
a call carries out, from what the call is and from what it finds, without
regard to how they are done: an attempt at a lock is made when the call gets
past it, and so once however often the call had to wait; a run that has its
lock reads, and when it is over releases; a handle that is released,
destroyed or overwritten releases what it owned.

On record is something else, namely what happened: that a record was there
or not, that a lock was granted, or given up on. Each of these happenings
tells of one task (`Happening.task?`), and `Thread.Turn.does` says that a
move leaves on record exactly the tasks that it carries out, in order.
-/

namespace AdvisoryStore

/-- **What a store counts** of what calls do. -/
inductive Task
  | read
  | write
  /-- An attempt at a lock comes to its end; `afterWait` says that the lock was
  newly taken by a call that had to wait for it. -/
  | lock (afterWait : Bool)
  | release
  | wait
  /-- A wait for the end of a hold was given up. -/
  | waitTimeout
  | request
  deriving DecidableEq, Repr

/-- **A task that was carried out**, and the store it was carried out in. -/
structure Deed where
  store : Nat
  task : Task
  deriving DecidableEq, Repr

/-! ## What is on record -/

/-- **The task that a happening tells of.** -/
def Happening.task? : Happening → Option Task
  | hit _ | missed _ => some .read
  | wrote .. | conflicted .. => some .write
  | acquired _ _ _ waited => some (.lock waited)
  | reentered .. | timedOut .. => some (.lock false)
  | released .. | refused .. => some .release
  | waitBegan _ => some .wait
  | waitTimedOut _ => some .waitTimeout
  | served _ => some .request
  | _ => none

/-- The tasks that happenings tell of. -/
def Happening.tasks (happened : List Happening) : List Task := happened.filterMap task?

/-- The tasks of two lists of happenings are those of the one and of the other. -/
theorem Happening.tasks_append (first rest : List Happening) :
    tasks (first ++ rest) = tasks first ++ tasks rest :=
  List.filterMap_append

/-- The deed that an event tells of. -/
def Event.deed? (e : Event) : Option Deed := e.what.task?.map (Deed.mk e.store)

/-- The deeds on record, newest first. -/
def World.deeds (w : World) : List Deed := w.events.filterMap Event.deed?

open Happening (tasks)

namespace Locks

variable (l : Locks) (now : Instant)

/-- To find that a hold is over is no task: nobody asked for it. -/
theorem tasks_consult (key : Bytes) : tasks (l.consult now key).happened = [] := by
  refine List.filterMap_eq_nil_iff.mpr (fun what mem => ?_)
  obtain ⟨heldBy, rfl⟩ := of_mem_consult mem
  rfl

/-- Whether a lock may be had: nobody else holds the key. -/
def admits (key holder : Bytes) : Bool := (l.live? now key).all (·.holder = holder)

/-- **An attempt that comes to its end is one task**, and it is granted to whom
the lock may be had by. -/
theorem tasks_attempt (r : LockRequest) (waited : Bool)
    (past : ∀ h, (l.attempt now r waited).answer ≠ .blockedBy h) :
    tasks (l.attempt now r waited).happened = [.lock (waited && (l.live? now r.key).isNone)]
      ∧ ((l.attempt now r waited).answer = .granted ↔ l.admits now r.key r.holder) := by
  unfold admits
  cases live : l.live? now r.key with
  | none =>
    rw [attempt_of_live?_eq_none live]
    refine ⟨?_, by simp⟩
    rw [Happening.tasks_append, tasks_consult, List.nil_append, Option.isNone_none, Bool.and_true]
    rfl
  | some h =>
    by_cases own : h.holder = r.holder
    · rw [attempt_of_own live own]
      refine ⟨?_, by simp [own]⟩
      rw [Option.isNone_some, Bool.and_false]
      rfl
    · rw [attempt_of_other live own] at past ⊢
      split
      · refine ⟨?_, by simp [own]⟩
        rw [Option.isNone_some, Bool.and_false]
        rfl
      · next patient =>
        rw [if_neg patient] at past
        exact absurd rfl (past h)

/-- **A release is one task**, be it refused or not. -/
theorem tasks_release (claimant : Claimant) (key holder : Bytes) :
    tasks (l.release now claimant key holder).happened = [.release] := by
  have looked := l.tasks_consult now key
  unfold release
  generalize l.consult now key = outcome at looked
  obtain ⟨after, happened, held⟩ := outcome
  dsimp only at looked ⊢
  split <;> rw [Happening.tasks_append, looked] <;> rfl

/-- Giving up on the end of a hold is a task of its own. -/
theorem tasks_awaitEnd (key : Bytes) (generation : Nat) (giveUp : Option Instant) :
    tasks (l.awaitEnd now key generation giveUp).happened
      = if (l.awaitEnd now key generation giveUp).answer = .gaveUp then [.waitTimeout] else [] := by
  have looked := l.tasks_consult now key
  unfold awaitEnd
  generalize l.consult now key = outcome at looked
  obtain ⟨after, happened, held⟩ := outcome
  cases held with
  | none => exact looked
  | some h =>
    dsimp only at looked ⊢
    split
    · exact looked
    · split
      · rw [Happening.tasks_append, looked]
        rfl
      · exact looked

/-- A sweep is counted for what it finds and not for being made. -/
theorem tasks_sweep : tasks (l.sweep now).happened = [] := by
  refine List.filterMap_eq_nil_iff.mpr (fun what mem => ?_)
  obtain ⟨key, heldBy, rfl⟩ := of_mem_sweep mem
  rfl

end Locks

namespace Store

variable (s : Store) (now : Instant)

/-- Letting go is the release that it tries. -/
theorem tasks_relinquish (claimant : Claimant) (key holder : Bytes) :
    tasks (s.relinquish now claimant key holder).happened = [.release] := by
  have released : tasks (s.release now claimant key holder).happened = [.release] :=
    s.locks.tasks_release now claimant key holder
  unfold relinquish
  generalize s.release now claimant key holder = outcome at released
  obtain ⟨after, happened, answer⟩ := outcome
  cases answer with
  | ok => exact released
  | error =>
    dsimp only at released ⊢
    rw [Happening.tasks_append, released]
    rfl

/-- Beginning to wait is one task, whether there is anything to wait for or not. -/
theorem tasks_beginWait (key : Bytes) : tasks (s.beginWait now key).happened = [.wait] :=
  congrArg (Task.wait :: ·) (s.locks.tasks_consult now key)

/-- **A read is one task**, whether it finds a record or not. -/
theorem tasks_read (key : Bytes) : tasks (s.read key).happened = [.read] := by
  unfold read
  split <;> rfl

/-- **A write is one task**, be it refused or not. -/
theorem tasks_write (claimant : Claimant) (key : Bytes) (content : Content) (holder : Bytes) :
    tasks (s.write now claimant key content holder).happened = [.write] := by
  have asked : tasks (s.permits now key holder).happened = [] := s.locks.tasks_consult now key
  unfold write
  generalize s.permits now key holder = outcome at asked
  obtain ⟨after, happened, permitted⟩ := outcome
  dsimp only at asked
  cases permitted <;> dsimp only <;> rw [Happening.tasks_append, asked] <;> rfl

/-- A look at a lock is no task of its own. -/
theorem tasks_inspectLock (key : Bytes) (version : Nat) (keepAlive : Bool) :
    tasks (s.inspectLock now key version keepAlive).happened = [] := by
  have looked : tasks (s.look now key).happened = [] := s.locks.tasks_consult now key
  unfold inspectLock
  generalize s.look now key = outcome at looked
  obtain ⟨after, happened, held⟩ := outcome
  cases held <;> exact looked

/-- What a request asks for is no further task. -/
theorem tasks_answer (r : Request) (target : Target) :
    tasks (s.answer now r target).happened = [] := by
  cases target with
  | lock escaped =>
    rw [answer]
    split
    · rfl
    · exact s.tasks_inspectLock now _ r.version r.keepAlive
  | _ => rfl

/-- **A request is one task**, whatever it asks for. -/
theorem tasks_serve (r : Request) : tasks (s.serve now r).happened = [.request] := by
  unfold serve
  split
  · exact congrArg (Task.request :: ·) (tasks_answer _ now r _)
  · rfl

end Store

namespace World

variable {w u v : World} {now : Instant} {i : Nat}

/-- **These tasks were carried out**, and no others are on record. -/
def Does (done : List Deed) (w w' : World) : Prop := w'.deeds = done.reverse ++ w.deeds

theorem Does.refl (w : World) : w.Does [] w := rfl

/-- What is done in two steps is done in the one and then in the other. -/
theorem Does.trans {first rest : List Deed} (h : w.Does first u) (more : u.Does rest v) :
    w.Does (first ++ rest) v := by
  unfold Does at h more ⊢
  rw [more, h, List.reverse_append, List.append_assoc]

/-- What stores take no notice of is no deed. -/
theorem Does.aside {done : List Deed} (h : w.Does done u) (events : v.events = u.events) :
    w.Does done v := by
  unfold Does deeds at h ⊢
  rwa [events]

/-- **An operation of a store does the tasks that it tells of**, in that store. -/
theorem does_on {α : Type} (f : Store → Outcome Store α) (there : i < w.stores.length)
    {done : List Task} (eq : tasks (f (w.store i)).happened = done) :
    w.Does (done.map (Deed.mk i)) (w.on now i f).1 := by
  unfold Does deeds
  rw [filterMap_events_on there, ← eq, tasks, List.map_filterMap]
  rfl

/-- The same of what comes of an operation, whatever is made of its answer. -/
theorem does_of_on {α : Type} {f : Store → Outcome Store α} {answer : α}
    (eq : w.on now i f = (u, answer)) (there : i < w.stores.length) {done : List Task}
    (carried : tasks (f (w.store i)).happened = done) : w.Does (done.map (Deed.mk i)) u := by
  have does : w.Does (done.map (Deed.mk i)) (w.on now i f).1 := does_on f there carried
  rwa [eq] at does

/-- A remark that tells of no task is no deed. -/
theorem does_note (there : i < w.stores.length) {what : Happening} (silent : what.task? = none) :
    w.Does [] (w.note now i what) := by
  have none_told : tasks [what] = [] := by
    rw [tasks, List.filterMap_cons, silent]
    rfl
  exact does_on (·.noting [what] ()) there none_told

/-- Remarks that tell of no task are no deeds. -/
theorem does_remarks {remarks : List Happening} (there : i < w.stores.length)
    (silent : ∀ what ∈ remarks, what.task? = none) :
    w.Does [] (remarks.foldl (·.note now i ·) w) := by
  induction remarks generalizing w with
  | nil => exact .refl w
  | cons what rest ih =>
    obtain ⟨first, others⟩ := List.forall_mem_cons.mp silent
    have noted : w.Does [] (w.note now i what) := does_note there first
    exact noted.trans (ih ((w.steady_note now i what).there there) others)

/-! ### Letting go -/

/-- What lets go of handles' locks. -/
def lettingGo (handles : List Handle) : List Deed := handles.map (⟨·.store, .release⟩)

/-- Letting go of a lock is one deed in the store of the lock. -/
theorem does_relinquish (there : i < w.stores.length) (claimant : Claimant) (key holder : Bytes) :
    w.Does [⟨i, .release⟩] (w.relinquish now i claimant key holder) :=
  does_on (·.relinquish now claimant key holder) there (Store.tasks_relinquish ..)

/-- **A handle that lets go releases what it owns.** -/
theorem does_letGo {h : Handle} (there : h.store < w.stores.length) :
    w.Does (lettingGo ([h].filter Handle.owns)) (w.letGo now h) := by
  unfold letGo
  cases owns : h.owns with
  | false =>
    rw [List.filter_singleton, owns]
    exact .refl w
  | true =>
    rw [List.filter_singleton, owns]
    exact does_relinquish there .handle h.key h.holder

/-- A slot is vacated by releasing what the handle in it owns. -/
theorem does_vacate (seated : w.Seated) (slot : Bytes) :
    w.Does (lettingGo (w.slots.owning slot)) (w.vacate now slot) := by
  unfold vacate
  cases found : w.slots.get? slot with
  | none =>
    rw [KeyMap.owning_of_get?_eq_none found]
    exact .refl w
  | some h =>
    rw [KeyMap.owning_of_get? found]
    exact does_letGo (seated.slots slot h found)

theorem does_place (seated : w.Seated) (slot : Bytes) (h : Handle) :
    w.Does (lettingGo (w.slots.owning slot)) (w.place now slot h) :=
  (does_vacate seated slot).aside rfl

/-- A handle that is ousted by a move releases what it owns. -/
theorem does_move (seated : w.Seated) (source target : Bytes) :
    w.Does (lettingGo (w.ousted source target)) (w.move now source target).1 := by
  unfold move ousted
  cases found : w.slots.get? source with
  | none => exact .refl w
  | some h =>
    by_cases same : source = target
    · simp only [same, if_true, ne_eq, not_true_eq_false, and_false, if_false]
      exact .refl w
    · simp only [same, if_false, ne_eq, not_false_eq_true, and_true, Option.isSome_some, if_true]
      exact (does_place seated target h).aside rfl

/-- A handle is released once, if it owns a lock. -/
theorem does_handleRelease (seated : w.Seated) (slot : Bytes) :
    w.Does (lettingGo (w.slots.owning slot)) (w.handleRelease now slot).1 := by
  unfold handleRelease
  cases found : w.slots.get? slot with
  | none =>
    rw [KeyMap.owning_of_get?_eq_none found]
    exact .refl w
  | some h =>
    rw [KeyMap.owning_of_get? found, List.filter_singleton]
    cases owns : h.owns with
    | false =>
      simp only [owns]
      exact .refl w
    | true =>
      let emptied := { w with slots := w.slots.insert slot { h with owns := false } }
      have there : h.store < emptied.stores.length := seated.slots slot h found
      have apart : w.Does [] emptied := (Does.refl w).aside rfl
      have released : emptied.Does [⟨h.store, .release⟩]
          (emptied.on now h.store (·.release now .handle h.key h.holder)).1 :=
        does_on (·.release now .handle h.key h.holder) there (Locks.tasks_release ..)
      have done := apart.trans released
      simp only [owns, if_true]
      split <;> next eq => rwa [eq] at done

/-- A handle that is destroyed releases what it owns. -/
theorem does_handleDestroy (seated : w.Seated) (slot : Bytes) :
    w.Does (lettingGo (w.slots.owning slot)) (w.handleDestroy now slot).1 := by
  unfold handleDestroy
  cases found : w.slots.get? slot with
  | none =>
    rw [KeyMap.owning_of_get?_eq_none found]
    exact .refl w
  | some h =>
    rw [KeyMap.owning_of_get? found]
    let emptied := { w with slots := w.slots.erase slot }
    have apart : w.Does [] emptied := (Does.refl w).aside rfl
    have there : h.store < emptied.stores.length := seated.slots slot h found
    exact apart.trans (does_letGo there)

end World

/-! ## What a move carries out -/

/-- **The tasks of what is done at once.** -/
def Operation.deeds (w : World) : Operation → List Deed
  | release .. => [⟨w.current, .release⟩]
  | handleRelease slot => World.lettingGo (w.slots.owning slot)
  | handleDestroy slot => World.lettingGo (w.slots.owning slot)
  | handleMove source target => World.lettingGo (w.ousted source target)
  | read _ => [⟨w.current, .read⟩]
  | write .. => [⟨w.current, .write⟩]
  | serve _ => [⟨w.current, .request⟩]
  | _ => []

/-- **What is done at once are the deeds that the operation says.** -/
theorem World.does_perform {w : World} (seated : w.Seated) (now : Instant) (o : Operation) :
    w.Does (o.deeds w) (w.perform now o).1 := by
  have there := seated.current
  cases o with
  | handleRelease slot => exact does_handleRelease seated slot
  | handleDestroy slot => exact does_handleDestroy seated slot
  | handleMove source target => exact does_move seated source target
  | release key holder =>
    rw [perform]
    split <;> next eq => exact does_of_on eq there (Locks.tasks_release ..)
  | read key =>
    rw [perform]
    split <;> next eq => exact does_of_on eq there (Store.tasks_read ..)
  | write key content holder =>
    rw [perform]
    split <;> next eq => exact does_of_on eq there (Store.tasks_write ..)
  | serve request => exact does_on (·.serve now request) there (Store.tasks_serve ..)
  | look key =>
    rw [perform]
    split <;> next eq => exact does_of_on eq there (Locks.tasks_consult ..)
  | isHeld key | isHeldBy key =>
    exact does_on (·.look now key) there (Locks.tasks_consult ..)
  | sweep => exact does_on (·.sweep now) there (Locks.tasks_sweep ..)
  | clear =>
    have silent : tasks ((w.store w.current).clearLocks).happened = [] := rfl
    exact does_on (·.clearLocks) there silent
  | inspect key version keepAlive =>
    exact does_on (·.inspectLock now key version keepAlive) there (Store.tasks_inspectLock ..)
  | tryChange key holder fault =>
    show w.Does [] (w.tryChange now key holder fault).1
    unfold tryChange
    split
    · next eq => exact does_of_on eq there (Locks.tasks_consult ..)
    · next u eq =>
      have asked : w.Does [] u := does_of_on eq there (Locks.tasks_consult ..)
      cases fault <;> exact asked.aside rfl
  | handleInfo slot =>
    rw [perform]
    split <;> exact .refl w
  | use k =>
    show w.Does [] (if k < w.stores.length then { w with current := k } else w)
    split
    · exact (Does.refl w).aside rfl
    · exact .refl w
  | shared =>
    show w.Does [] (w.turnToShared now).1
    unfold turnToShared
    split
    · exact (Does.refl w).aside rfl
    · split
      · exact .refl w
      · next settings _ =>
        let added := { w.addStore settings with shared := some w.stores.length }
        have apart : w.Does [] added := (Does.refl w).aside rfl
        have new : w.stores.length < added.stores.length := by simp [added, addStore]
        exact apart.trans (does_note new rfl)
  | newStore | setEnvironment | forgetShared => exact (Does.refl w).aside rfl
  | heldCount | counters | contains | recordTotal | settings | metrics | highlights =>
    exact .refl w

/-- **The tasks of a run that is over**: it writes if it has something to write,
and releases its lock. -/
def Run.closing (r : Run) : List Deed :=
  match r.outcome with
  | .ok _ => [⟨r.store, .write⟩, ⟨r.store, .release⟩]
  | .error _ => [⟨r.store, .release⟩]

/-- **The tasks that a lock is taken for**, by who has it. A run reads; if there
is a record it is over, and if there is none it is over when its script is. -/
def Purpose.deeds (w : World) (store : Nat) (request : LockRequest) : Purpose → List Deed
  | answer => []
  | handle slot => World.lettingGo (w.slots.owning slot)
  | run script outcome =>
    ⟨store, .read⟩ ::
      match (w.store store).records.get? request.key, script with
      | some _, _ => [⟨store, .release⟩]
      | none, [] => Run.closing ⟨store, request.key, request.holder, outcome⟩
      | none, _ :: _ => []

/-- **The tasks of a call that gets past a point.** Nobody who gets past a lock
has to wait any longer: the attempt has come to its end, and who may have the
lock has it. -/
def Point.deeds (now : Instant) (w : World) (waited : Bool) (c : Control) : Point → List Deed
  | lock i request purpose =>
    ⟨i, .lock (waited && ((w.store i).locks.live? now request.key).isNone)⟩ ::
      if (w.store i).locks.admits now request.key request.holder then purpose.deeds w i request
      else []
  | release i _ _ _ =>
    match c.focus with
    | .answer (.flag false) => [⟨i, .waitTimeout⟩]
    | _ => []
  | sleep _ => []

/-- **The tasks that a move of a call carries out.** -/
def Thread.deeds (now : Instant) (w : World) : Thread → Option Thread → List Deed
  | going ⟨.perform (.operation o), _⟩, _ => o.deeds w
  | going ⟨.perform (.wait ..), _⟩, _ => [⟨w.current, .wait⟩]
  | going ⟨.arrive p, _⟩, some (going c) => p.deeds now w false c
  | waiting p _, some (going c) => p.deeds now w true c
  | going ⟨.answer _, .script r _ [] :: _⟩, _ => r.closing
  | _, _ => []

namespace World

variable {w : World} {now : Instant}

/-- **A run that ends does what it has to by its outcome**: it writes if there is
something to write, and releases its lock. -/
theorem does_conclude {r : Run} (there : r.store < w.stores.length) (answers : List Reply) :
    w.Does r.closing (w.conclude now r answers).1 := by
  have computed : w.Does [] (w.note now r.store (.computed r.key r.holder)) := does_note there rfl
  have there := (w.steady_note now r.store (.computed r.key r.holder)).there there
  have ending := ending_conclude w now r answers
  generalize w.conclude now r answers = ended at ending ⊢
  cases ending with
  | failed outcome =>
    rw [Run.closing, outcome]
    exact computed.trans (does_relinquish there .run r.key r.holder)
  | @refused content fault u outcome refused =>
    have wrote := does_of_on refused there (Store.tasks_write ..)
    have there := (steady_of_on _ now refused).there there
    rw [Run.closing, outcome]
    exact (computed.trans wrote).trans (does_relinquish there .run r.key r.holder)
  | @committed content u outcome written =>
    have wrote := does_of_on written there (Store.tasks_write ..)
    have there := (steady_of_on _ now written).there there
    have released : u.Does [⟨r.store, .release⟩] (u.relinquish now r.store .run r.key r.holder) :=
      does_relinquish there .run r.key r.holder
    have there := (u.steady_relinquish now r.store .run r.key r.holder).there there
    rw [Run.closing, outcome]
    exact ((computed.trans wrote).trans released).trans (does_note there rfl)

/-- **A run that begins reads**, and is over when there is a record. -/
theorem does_enterRun {i : Nat} (there : i < w.stores.length) (request : LockRequest)
    (script : List Action) (outcome : Except Fault Content) (stack : List Frame) :
    w.Does ((Purpose.run script outcome).deeds w i request)
      (w.enterRun now ⟨i, request.key, request.holder, outcome⟩ script stack).1 := by
  have entry := entry_enterRun w now ⟨i, request.key, request.holder, outcome⟩ script stack
  generalize w.enterRun now ⟨i, request.key, request.holder, outcome⟩ script stack = entered
    at entry ⊢
  cases entry with
  | @cached content u found =>
    have read := does_of_on found there (Store.tasks_read ..)
    have record : (w.store i).records.get? request.key = some content :=
      (Store.answer_read ..).symm.trans (congrArg Prod.snd found)
    have there := (w.steady_of_on now found).there there
    have noted : u.Does [] (u.note now i (.cached request.key request.holder content)) :=
      does_note there rfl
    have there :=
      (u.steady_note now i (.cached request.key request.holder content)).there there
    simp only [Purpose.deeds, record]
    exact (read.trans noted).trans (does_relinquish there .run request.key request.holder)
  | @computes u absent =>
    have read := does_of_on absent there (Store.tasks_read ..)
    have record : (w.store i).records.get? request.key = none :=
      (Store.answer_read ..).symm.trans (congrArg Prod.snd absent)
    have there := (w.steady_of_on now absent).there there
    have noted : u.Does [] (u.note now i (.computing request.key request.holder)) :=
      does_note there rfl
    have there := (u.steady_note now i (.computing request.key request.holder)).there there
    simp only [Purpose.deeds, record]
    cases script with
    | nil => exact (read.trans noted).trans (does_conclude there [])
    | cons a rest => exact read.trans noted

/-- After an operation of a store everything is there that was. -/
theorem Seated.on {α : Type} (seated : w.Seated) (now : Instant) (i : Nat)
    (f : Store → Outcome Store α) : (w.on now i f).1.Seated where
  current := by
    rw [(w.steady_on now i f).current]
    exact (w.steady_on now i f).there seated.current
  shared k known := by
    rw [(w.steady_on now i f).shared] at known
    exact (w.steady_on now i f).there (seated.shared k known)
  slots slot h found := by
    rw [slots_on] at found
    exact (w.steady_on now i f).there (seated.slots slot h found)

/-- **What a lock was taken for is carried out.** -/
theorem does_fulfil (seated : w.Seated) {i : Nat} (there : i < w.stores.length)
    (request : LockRequest) (purpose : Purpose) (stack : List Frame) :
    w.Does (purpose.deeds w i request) (w.fulfil now i request purpose stack).1 := by
  cases purpose with
  | answer => exact .refl w
  | handle slot => exact does_place seated slot _
  | run script outcome => exact does_enterRun there request script outcome stack

end World

/-- The tasks that a lock is taken for are the same before and after it is
taken. -/
theorem Purpose.deeds_on_attempt {w : World} {i : Nat} (there : i < w.stores.length)
    (now : Instant) (request : LockRequest) (waited : Bool) (purpose : Purpose) :
    purpose.deeds (w.on now i (·.attempt now request waited)).1 i request
      = purpose.deeds w i request := by
  cases purpose with
  | answer => rfl
  | handle slot => rw [deeds, deeds, World.slots_on]
  | run script outcome =>
    have records : ((w.on now i (·.attempt now request waited)).1.store i).records
        = (w.store i).records := by
      show ((w.putBack now i _ _).store i).records = _
      rw [World.store_putBack there, if_pos rfl]
      rfl
    simp only [deeds, records]

variable {now : Instant} {w w' : World}

/-- **Whoever gets past a point carries out its tasks.** -/
theorem Point.does_of_pass {p : Point} {waited : Bool} {stack : List Frame} {c : Control}
    (seated : w.Seated) (present : p.Present w)
    (pass : p.pass now w waited stack = .passed w' c) : w.Does (p.deeds now w waited c) w' := by
  cases passes_of_pass pass with
  | @gaveUp i request purpose u tried =>
    have there : i < w.stores.length := present
    have tasks_eq := (w.store i).locks.tasks_attempt now request waited
    have answer : ((w.store i).locks.attempt now request waited).answer = .gaveUp :=
      congrArg Prod.snd tried
    rw [answer] at tasks_eq
    obtain ⟨carried, granted⟩ := tasks_eq nofun
    have barred : ¬ (w.store i).locks.admits now request.key request.holder :=
      fun admits => nomatch granted.mpr admits
    rw [deeds, if_neg barred]
    exact World.does_of_on tried there carried
  | @granted i request purpose u tried =>
    have there : i < w.stores.length := present
    have tasks_eq := (w.store i).locks.tasks_attempt now request waited
    have seated' := seated.on now i (·.attempt now request waited)
    have same := purpose.deeds_on_attempt there now request waited
    have answer : ((w.store i).locks.attempt now request waited).answer = .granted :=
      congrArg Prod.snd tried
    rw [tried] at seated' same
    rw [answer] at tasks_eq
    obtain ⟨carried, granted⟩ := tasks_eq nofun
    rw [deeds, if_pos (granted.mp rfl), ← same]
    have taken := World.does_of_on tried there carried
    have there := (w.steady_of_on now tried).there there
    exact taken.trans (World.does_fulfil seated' there request purpose stack)
  | @waitOver i key generation giveUp u ended looked =>
    have there : i < w.stores.length := present
    have tasks_eq := (w.store i).locks.tasks_awaitEnd now key generation giveUp
    have answer : ((w.store i).locks.awaitEnd now key generation giveUp).answer
        = if ended then .ended else .gaveUp := congrArg Prod.snd looked
    rw [answer] at tasks_eq
    cases ended <;> exact World.does_of_on looked there tasks_eq
  | slept => exact .refl w

/-- **A move leaves on record what it carries out**, and nothing else. -/
theorem Thread.Turn.does {t : Thread} {t' : Option Thread} (turn : t.Turn now w w' t')
    (seated : w.Seated) (present : t.Present w) : w.Does (t.deeds now w t') w' := by
  cases turn with
  | move step =>
    cases Control.goesOn_of_step step with
    | begins a stack =>
      cases a with
      | operation o => exact World.does_perform seated now o
      | wait key patience =>
        show w.Does [⟨w.current, .wait⟩] (Control.begin now w (.wait key patience) stack).1
        rw [Control.begin]
        split <;> next eq => exact World.does_of_on eq seated.current (Store.tasks_beginWait ..)
      | sleep d =>
        show w.Does [] (Control.begin now w (.sleep d) stack).1
        rw [Control.begin]
        split <;> exact .refl w
      | acquire | lock | run | demo => exact .refl w
    | passes pass => exact Point.does_of_pass seated (present.point _ rfl) pass
    | resumes reply frame rest =>
      have there := present.frames frame List.mem_cons_self
      cases frame with
      | script r answers script =>
        cases script with
        | nil => exact World.does_conclude there (answers ++ [reply])
        | cons a script => exact .refl w
      | demo store worker keys left =>
        refine World.does_remarks there (fun what mem => ?_)
        obtain ⟨_, _, rfl⟩ | ⟨_, _, rfl⟩ := Control.of_mem_demoRemark mem <;> rfl
  | suspend step =>
    obtain ⟨rfl, -⟩ := Control.eq_arrive_of_waits step
    exact .refl w
  | finish step =>
    obtain rfl := Control.eq_answer_of_finished step
    exact .refl w
  | resume pass => exact Point.does_of_pass seated (present.point _ rfl) pass

end AdvisoryStore
