import AdvisoryStore.Proofs.Dealings
import AdvisoryStore.Proofs.Scenes

/-!
# Handles release exactly once

Every lock that a lock step takes is owned by a handle until an attempt is
made to give it back, and of attempts there is one: however the handle is
moved about, released or destroyed, in whatever order, and whether its lock
is still held by then or not. A balance says so, of the locks that were
taken for handles on one side and the attempts and the owners on the other
(`Scene.Balanced`). `Thread.deal_of_turn` tells what a move of a call can do
to it, and from there it is carried along every sequence of steps.

The balance is one of lists and not of numbers: each attempt asks the store
of the very lock that was taken, with its key and holder.
-/

namespace AdvisoryStore

/-! ## Runs deal with no handle -/

namespace World

variable (w : World) (now : Instant)

/-- **A run that ends deals with no handle**: what it lets go of is its own. -/
theorem undealt_conclude (r : Run) (answers : List Reply) :
    w.Undealt (w.conclude now r answers).1 := by
  have released (u : World) : u.Undealt (u.relinquish now r.store .run r.key r.holder) :=
    u.undealt_relinquish now r.store (by decide) r.key r.holder
  have computed : w.Undealt (w.note now r.store (.computed r.key r.holder)) :=
    w.undealt_note now r.store ⟨rfl, rfl⟩
  have written (content : Content) := computed.trans (undealt_write
    (w.note now r.store (.computed r.key r.holder)) now r.store .run r.key content r.holder)
  have exits := ending_conclude w now r answers
  generalize w.conclude now r answers = ended at exits ⊢
  cases exits with
  | failed => exact computed.trans (released _)
  | @refused content fault u _ refused =>
    have wrote := written content
    rw [refused] at wrote
    exact wrote.trans (released u)
  | @committed content u _ ok =>
    have wrote := written content
    rw [ok] at wrote
    have committed (u : World) :
        u.Undealt (u.note now r.store (.committed r.key r.holder content)) :=
      u.undealt_note now r.store ⟨rfl, rfl⟩
    exact (wrote.trans (released u)).trans (committed _)

/-- A run that goes on with its script deals with no handle by that. -/
theorem undealt_proceed (r : Run) (answers : List Reply) (rest : List Action)
    (stack : List Frame) : w.Undealt (w.proceed now r answers rest stack).1 := by
  cases rest with
  | nil => exact w.undealt_conclude now r answers
  | cons a rest => exact .refl w

/-- Nor does a run that begins. -/
theorem undealt_enterRun (r : Run) (script : List Action) (stack : List Frame) :
    w.Undealt (w.enterRun now r script stack).1 := by
  have read := w.undealt_read now r.store r.key
  unfold enterRun
  split
  · next u content eq =>
    rw [eq] at read
    have cached := u.undealt_note now r.store
      (show (Happening.cached r.key r.holder content).Unhandled from ⟨rfl, rfl⟩)
    exact (read.trans cached).trans (undealt_relinquish _ now r.store (by decide) r.key r.holder)
  · next u eq =>
    rw [eq] at read
    have computing := u.undealt_note now r.store
      (show (Happening.computing r.key r.holder).Unhandled from ⟨rfl, rfl⟩)
    exact (read.trans computing).trans (undealt_proceed ..)

end World

/-! ## One move of a call -/

/-- **A point asks on behalf of the right one**: a handle for a handle, in a
store that is there, and nobody else. -/
def Point.Fits (w : World) : Point → Prop
  | lock i request (.handle _) => i < w.stores.length ∧ request.claimant = .handle
  | lock _ request _ => request.claimant ≠ .handle
  | _ => True

/-- A point that fits a world fits it when there are more stores. -/
theorem Point.Fits.mono {w w' : World} {p : Point} (fits : p.Fits w)
    (more : w.stores.length ≤ w'.stores.length) : p.Fits w' := by
  cases p with
  | lock i request purpose =>
    cases purpose with
    | handle slot => exact ⟨Nat.lt_of_lt_of_le fits.1 more, fits.2⟩
    | answer | run => exact fits
  | release | sleep => trivial

namespace Thread

/-- Whatever the call asks for, it asks for on behalf of the right one. -/
def Fits (w : World) (t : Thread) : Prop := ∀ p, t.point? = some p → p.Fits w

/-- **The handle that a lock step is answered with**, if it is one that comes
to its answer by this move. -/
def taken? (t : Thread) (t' : Option Thread) : Option Handle :=
  match t.point?, t' with
  | some (.lock _ _ (.handle _)), some (.going ⟨.answer (.handle h), _⟩) => some h
  | _, _ => none

/-- **What a move can do to handles.** -/
inductive Deal (now : Instant) (w : World) (t : Thread) : World → Option Thread → Prop
  | undealt {w' : World} {t' : Option Thread} (undealt : w.Undealt w')
      (untaken : t.taken? t' = none) : Deal now w t w' t'
  /-- A slot is emptied or marked. -/
  | yields {w' : World} {t' : Option Thread} {given : List Handle} (yields : w.Yields given w')
      (untaken : t.taken? t' = none) : Deal now w t w' t'
  /-- A lock step comes to its end, and the handle is put into its slot. -/
  | takes {i : Nat} {request : LockRequest} {slot : Bytes} {waited : Bool}
      (point : t.point? = some (.lock i request (.handle slot)))
      (granted : (w.on now i (·.attempt now request waited)).2 = .granted) :
      Deal now w t
        ((w.on now i (·.attempt now request waited)).1.place now slot
          (.owner i (request.key, request.holder)))
        (some (.going ⟨.answer (.handle (.owner i (request.key, request.holder))), t.stack⟩))

variable {now : Instant} {w w' : World} {t : Thread}

/-- Who is at no point takes no lock. -/
theorem taken?_of_point?_eq_none (nowhere : t.point? = none) (t' : Option Thread) :
    t.taken? t' = none := by
  unfold taken?
  rw [nowhere]

/-- A lock step is answered with its handle. -/
theorem taken?_flag (t : Thread) (b : Bool) (stack : List Frame) :
    t.taken? (some (.going ⟨.answer (.flag b), stack⟩)) = none := by
  unfold taken?
  split
  · next eq => cases eq
  · rfl

/-- **Getting past a point deals with no handle**, or a lock step comes to its
end. -/
theorem deal_of_pass {p : Point} {waited : Bool} {c : Control} (fits : t.Fits w)
    (point : t.point? = some p) (pass : p.pass now w waited t.stack = .passed w' c) :
    Deal now w t w' (some (.going c)) := by
  have fit := fits p point
  cases Point.passes_of_pass pass with
  | gaveUp eq =>
    have undealt := World.undealt_of_gaveUp (congrArg Prod.snd eq)
    rw [eq] at undealt
    exact .undealt undealt (taken?_flag ..)
  | @granted i request purpose u eq =>
    cases purpose with
    | handle slot =>
      have takes := Deal.takes (t := t) point (congrArg Prod.snd eq)
      rwa [eq] at takes
    | answer =>
      have tried := w.undealt_attempt now i fit waited
      rw [eq] at tried
      exact .undealt tried (taken?_flag ..)
    | run script outcome =>
      have tried := w.undealt_attempt now i fit waited
      rw [eq] at tried
      refine .undealt (tried.trans (u.undealt_enterRun ..)) ?_
      unfold taken?
      rw [point]
  | @waitOver i key generation giveUp u _ eq =>
    have looked := w.undealt_awaitEnd now i key generation giveUp
    rw [eq] at looked
    exact .undealt looked (taken?_flag ..)
  | slept =>
    refine .undealt (.refl w) ?_
    unfold taken?
    rw [point]

/-- Setting out on an action deals with handles as the operations on slots
do. -/
theorem deal_of_begin (seated : w.Seated) (a : Action) (stack : List Frame) :
    Deal now w (.going ⟨.perform a, stack⟩) (Control.begin now w a stack).1
      (some (.going (Control.begin now w a stack).2)) := by
  have untaken := taken?_of_point?_eq_none (t := .going ⟨.perform a, stack⟩) rfl
  cases a with
  | operation o =>
    by_cases apart : o.isOnSlots = false
    · exact .undealt (w.undealt_perform now apart) (untaken _)
    · cases o with
      | handleRelease slot =>
        exact .yields (World.yields_handleRelease seated now slot).1 (untaken _)
      | handleDestroy slot =>
        exact .yields (World.yields_handleDestroy seated now slot).1 (untaken _)
      | handleMove source target =>
        exact .yields (World.yields_move seated now source target) (untaken _)
      | _ => exact absurd rfl apart
  | wait key patience =>
    have began := w.undealt_beginWait now w.current key
    rw [Control.begin]
    split <;> next eq => rw [eq] at began; exact .undealt began (untaken _)
  | sleep d =>
    rw [Control.begin]
    split <;> exact .undealt (.refl w) (untaken _)
  | acquire | lock | run | demo => exact .undealt (.refl w) (untaken _)

/-- Remarks about a store deal with no handle. -/
theorem undealt_remarks {store : Nat} {remarks : List Happening}
    (unhandled : ∀ what ∈ remarks, what.Unhandled) (w : World) :
    w.Undealt (remarks.foldl (·.note now store ·) w) := by
  induction remarks generalizing w with
  | nil => exact .refl w
  | cons what rest ih =>
    have noted := w.undealt_note now store (unhandled what List.mem_cons_self)
    exact noted.trans (ih (fun other mem => unhandled other (List.mem_cons_of_mem _ mem)) _)

/-- Handing on an answer deals with no handle. -/
theorem undealt_resume (reply : Reply) (frame : Frame) (rest : List Frame) :
    w.Undealt (Control.resume now w reply frame rest).1 := by
  cases frame with
  | script r answers script => exact w.undealt_proceed now r (answers ++ [reply]) script rest
  | demo store worker keys left =>
    refine undealt_remarks (fun what mem => ?_) w
    obtain ⟨_, _, rfl⟩ | ⟨_, _, rfl⟩ := Control.of_mem_demoRemark mem <;> exact ⟨rfl, rfl⟩

/-- **What a move does to handles**: it deals with none, or it is an operation
on slots, or a lock step comes to its end. -/
theorem deal_of_turn (seated : w.Seated) (fits : t.Fits w) {t' : Option Thread}
    (turn : t.Turn now w w' t') : Deal now w t w' t' := by
  cases turn with
  | move step =>
    cases Control.goesOn_of_step step with
    | begins a stack => exact deal_of_begin seated a stack
    | passes pass => exact deal_of_pass fits rfl pass
    | resumes reply frame rest =>
      exact .undealt (undealt_resume reply frame rest) (taken?_of_point?_eq_none rfl _)
  | @suspend c p stack wake step =>
    refine .undealt (.refl w) ?_
    unfold taken?
    split
    · next eq => cases eq
    · rfl
  | finish step =>
    refine .undealt (.refl w) ?_
    unfold taken?
    split
    · next eq => cases eq
    · rfl
  | resume pass => exact deal_of_pass fits rfl pass

/-! ## What is asked for next -/

/-- A run that goes on or ends is at no point. -/
theorem point?_proceed (now : Instant) (w : World) (r : Run) (answers : List Reply)
    (rest : List Action) (stack : List Frame) :
    (going (w.proceed now r answers rest stack).2).point? = none := by
  cases rest <;> rfl

/-- Who has got past a point is at none. -/
theorem point?_of_pass {p : Point} {waited : Bool} {stack : List Frame} {c : Control}
    (pass : p.pass now w waited stack = .passed w' c) : (going c).point? = none := by
  cases Point.passes_of_pass pass with
  | gaveUp | waitOver | slept => rfl
  | @granted i request purpose u =>
    cases purpose with
    | answer | handle => rfl
    | run script outcome =>
      show (going (u.enterRun now _ script stack).2).point? = none
      unfold World.enterRun
      split
      · rfl
      · exact point?_proceed ..

/-- A call that is at no point fits. -/
theorem fits_of_nowhere (nowhere : t.point? = none) : t.Fits w := by
  intro p eq
  rw [nowhere] at eq
  cases eq

theorem fits_arrive {p : Point} (fits : p.Fits w) (stack : List Frame) :
    (going ⟨.arrive p, stack⟩).Fits w := by
  intro q eq
  rwa [← Option.some.inj eq]

/-- The demo workload asks for locks on behalf of its runs. -/
theorem fits_demo (now : Instant) (w : World) (store : Nat) (worker : UInt32) (keys left : Nat)
    (stack : List Frame) : (going (Control.demo now w store worker keys left stack)).Fits w := by
  cases left with
  | zero => exact fits_of_nowhere rfl
  | succ left =>
    rintro p ⟨⟩
    show Claimant.run ≠ .handle
    decide

/-- Whatever an action asks for, it asks for on behalf of the right one. -/
theorem fits_begin (turned : w.Turned) (a : Action) (stack : List Frame) :
    (going (Control.begin now w a stack).2).Fits (Control.begin now w a stack).1 := by
  cases a with
  | operation o => exact fits_of_nowhere rfl
  | acquire key holder hold patience =>
    have fits : (w.seek now .caller key holder hold patience .answer).Fits w :=
      (by decide : Claimant.caller ≠ .handle)
    exact fits_arrive fits stack
  | lock slot key holder hold =>
    have fits : (w.seek now .handle key holder hold none (.handle slot)).Fits w :=
      ⟨turned.current, rfl⟩
    exact fits_arrive fits stack
  | wait key patience =>
    rw [Control.begin]
    split
    · exact fits_of_nowhere rfl
    · exact fits_arrive (p := .release ..) trivial _
  | sleep d =>
    rw [Control.begin]
    split
    · exact fits_of_nowhere rfl
    · exact fits_arrive (p := .sleep _) trivial _
  | run key holder hold script outcome =>
    have fits : (w.seek now .run key holder hold none (.run script outcome)).Fits w :=
      (by decide : Claimant.run ≠ .handle)
    exact fits_arrive fits stack
  | demo worker keys => exact fits_demo now w w.current worker keys.toNat keys.toNat stack

/-- **Whatever a call comes to ask for, it asks for on behalf of the right
one.** -/
theorem fits_of_turn (turned : w.Turned) (fits : t.Fits w) {t' : Thread}
    (turn : t.Turn now w w' (some t')) : t'.Fits w' := by
  cases turn with
  | move step =>
    cases Control.goesOn_of_step step with
    | begins a stack => exact fits_begin turned a stack
    | passes pass => exact fits_of_nowhere (point?_of_pass pass)
    | resumes reply frame rest =>
      cases frame with
      | script r answers script => exact fits_of_nowhere (point?_proceed ..)
      | demo store worker keys left => exact fits_demo now _ store worker keys left rest
  | suspend step =>
    obtain ⟨rfl, -⟩ := Control.eq_arrive_of_waits step
    exact fits
  | resume pass => exact fits_of_nowhere (point?_of_pass pass)

end Thread

/-! ## The balance -/

/-- **A move keeps the balance**, and tells of a lock that it took for a
handle. -/
theorem Thread.Deal.balanced {now : Instant} {w w' : World} {t : Thread} {t' : Option Thread}
    (deal : t.Deal now w w' t') (seated : w.Seated) (fits : t.Fits w)
    (balance : w.takings.Perm (w.attempts ++ w.slots.owned)) :
    w'.Seated ∧ w.stores.length ≤ w'.stores.length
      ∧ w'.takings = (t.taken? t').toList ++ w.takings
      ∧ w'.takings.Perm (w'.attempts ++ w'.slots.owned) := by
  cases deal with
  | undealt undealt untaken =>
    refine ⟨seated.of_undealt undealt, undealt.length, ?_, ?_⟩
    · rw [undealt.takings, untaken]
      rfl
    · rwa [undealt.takings, undealt.attempts, undealt.slots]
  | @yields _ _ given yields untaken =>
    refine ⟨yields.seated, Nat.le_of_eq yields.length.symm, ?_, ?_⟩
    · rw [yields.takings, untaken]
      rfl
    · rw [yields.takings, yields.attempts, List.append_assoc]
      -- who no longer owns a lock has made an attempt
      calc w.takings.Perm (w.attempts ++ w.slots.owned) := balance
        _ |>.Perm (w.attempts ++ (given ++ w'.slots.owned)) := yields.owned.symm.append_left _
        _ |>.Perm (given ++ (w.attempts ++ w'.slots.owned)) := List.perm_append_comm_assoc ..
  | @takes i request slot waited point granted =>
    obtain ⟨there, claimed⟩ := fits _ point
    have takes := (World.takes_attempt there claimed granted).place seated there now slot
    have taken : t.taken? (some (.going ⟨.answer (.handle
        (.owner i (request.key, request.holder))), t.stack⟩))
        = some (.owner i (request.key, request.holder)) := by
      unfold Thread.taken?
      rw [point]
    have owned := w.slots.owned_perm_insert slot (.owner i (request.key, request.holder))
    refine ⟨takes.seated, Nat.le_of_eq takes.length.symm, ?_, ?_⟩
    · rw [takes.takings, taken]
      rfl
    · rw [takes.takings, takes.attempts, takes.slots, List.append_assoc]
      -- the new owner is added, and the old one of the slot has made an attempt
      refine ((balance.cons _).trans List.perm_middle.symm).trans ?_
      exact (owned.symm.append_left w.attempts).trans (List.perm_append_comm_assoc ..)

/-- **The move by which a lock step comes to its answer** is the one by which
it is granted its lock and puts its handle into the slot. -/
theorem Thread.Deal.of_taken {now : Instant} {w w' : World} {t : Thread} {t' : Option Thread}
    (deal : t.Deal now w w' t') {h : Handle} (taken : t.taken? t' = some h) :
    ∃ i request slot waited, t.point? = some (.lock i request (.handle slot))
      ∧ (w.on now i (·.attempt now request waited)).2 = .granted
      ∧ h = .owner i (request.key, request.holder)
      ∧ w' = (w.on now i (·.attempt now request waited)).1.place now slot h := by
  cases deal with
  | undealt _ untaken | yields _ untaken =>
    rw [untaken] at taken
    cases taken
  | @takes i request slot waited point granted =>
    unfold Thread.taken? at taken
    rw [point] at taken
    obtain rfl := Option.some.inj taken
    exact ⟨i, request, slot, waited, point, granted, rfl, rfl⟩

namespace Scene

variable {s s' : Scene}

/-- **Every lock that was taken for a handle** was given back by an attempt,
or is owned by a handle; and whoever is about to take one asks as it should. -/
structure Balanced (s : Scene) : Prop where
  seated : s.world.Seated
  fits : ∀ t ∈ s.threads, t.Fits s.world
  balance : s.world.takings.Perm (s.world.attempts ++ s.world.slots.owned)

/-- **Every step keeps the balance** of what handles take and give back. -/
theorem Balanced.step (balanced : s.Balanced) (step : s.Step s') : s'.Balanced := by
  cases step with
  | begin a =>
    refine ⟨balanced.seated, List.forall_mem_append.mpr ⟨balanced.fits, ?_⟩, balanced.balance⟩
    exact List.forall_mem_singleton.mpr (Thread.fits_of_nowhere rfl)
  | tick le => exact ⟨balanced.seated, balanced.fits, balanced.balance⟩
  | @turn now w w' t t' turn before after =>
    obtain ⟨fits_before, fits_after⟩ := List.forall_mem_append.mp balanced.fits
    obtain ⟨fits, fits_after⟩ := List.forall_mem_cons.mp fits_after
    have deal := Thread.deal_of_turn balanced.seated fits turn
    obtain ⟨seated, more, -, balance⟩ := deal.balanced balanced.seated fits balanced.balance
    refine ⟨seated, ?_, balance⟩
    refine List.forall_mem_append.mpr ⟨List.forall_mem_append.mpr ⟨?_, ?_⟩, ?_⟩
    · exact fun other mem p eq => (fits_before other mem p eq).mono more
    · intro other mem
      obtain rfl := Option.mem_toList.mp mem
      exact Thread.fits_of_turn balanced.seated.toTurned fits turn
    · exact fun other mem p eq => (fits_after other mem p eq).mono more

/-- There are no handles to begin with. -/
theorem balanced_start (hash : Bytes → Nat) (settings : StoreSettings)
    (environment : Environment) (now : Instant) :
    (Session.start hash settings environment now).scene.Balanced where
  seated := ⟨⟨Nat.zero_lt_one, nofun⟩, fun _ _ found => nomatch found⟩
  fits := fun _ mem => nomatch mem
  balance := .nil

/-- **Every scene that a session may come to is balanced.** -/
theorem Leads.balanced {hash : Bytes → Nat} {settings : StoreSettings}
    {environment : Environment} {now : Instant}
    (reached : (Session.start hash settings environment now).scene.Leads s) : s.Balanced := by
  induction reached with
  | refl => exact balanced_start ..
  | tail _ step ih => exact ih.step step

/-- **Handles release exactly once**, in every scene that a session may come
to.

The locks that were taken for handles are those that handles have tried to
give back, one attempt each, and those that handles own, each told by its
store, key and holder. A move of a call adds to them exactly when it is one
by which a lock step comes to its answer; the answer is the handle, which is
then in its slot, and the handle that was there has made its attempt.

Releasing or destroying a handle makes one attempt if it owns a lock, and
none if it does not; a released handle owns nothing from then on, whatever
it was told, and a destroyed one is gone. A move between slots makes one for
the handle whose slot is taken, if that owns a lock, leaves what is moved to
its new slot, and a move from a slot to itself does nothing at all. -/
theorem handles_release_once {hash : Bytes → Nat} {settings : StoreSettings}
    {environment : Environment} {now : Instant}
    (reached : (Session.start hash settings environment now).scene.Leads s) :
    s.world.takings.Perm (s.world.attempts ++ s.world.slots.owned)
      ∧ s.world.takings.length = s.world.attempts.length + s.world.slots.owned.length
      ∧ (s.world.slots.owned = [] → s.world.takings.Perm s.world.attempts)
      ∧ (∀ t ∈ s.threads, ∀ w' t', t.Turn s.now s.world w' t' →
        w'.takings = (t.taken? t').toList ++ s.world.takings
          ∧ ∀ h, t.taken? t' = some h → ∃ i request slot,
            t.point? = some (.lock i request (.handle slot))
              ∧ h = .owner i (request.key, request.holder)
              ∧ w'.slots = s.world.slots.insert slot h
              ∧ w'.attempts = s.world.slots.owning slot ++ s.world.attempts)
      ∧ (∀ slot, s.world.Yields (s.world.slots.owning slot) (s.world.handleRelease s.now slot).1
        ∧ (s.world.handleRelease s.now slot).1.slots.owning slot = [])
      ∧ (∀ slot, s.world.Yields (s.world.slots.owning slot) (s.world.handleDestroy s.now slot).1
        ∧ (s.world.handleDestroy s.now slot).1.slots = s.world.slots.erase slot)
      ∧ ∀ source target, s.world.Yields (s.world.ousted source target)
          (s.world.move s.now source target).1
        ∧ (source = target → (s.world.move s.now source target).1 = s.world)
        ∧ ∀ h, s.world.slots.get? source = some h → source ≠ target →
          (s.world.move s.now source target).1.slots
            = (s.world.slots.insert target h).insert source { h with owns := false } := by
  have balanced := reached.balanced
  have seated := balanced.seated
  refine ⟨balanced.balance, ?_, ?_, ?_, World.yields_handleRelease seated s.now,
    World.yields_handleDestroy seated s.now, ?_⟩
  · rw [balanced.balance.length_eq, List.length_append]
  · intro none_owned
    have balance := balanced.balance
    rwa [none_owned, List.append_nil] at balance
  · intro t mem w' t' turn
    have fits := balanced.fits t mem
    have deal := Thread.deal_of_turn seated fits turn
    refine ⟨(deal.balanced seated fits balanced.balance).2.2.1, fun h taken => ?_⟩
    obtain ⟨i, request, slot, waited, point, granted, rfl, rfl⟩ := deal.of_taken taken
    obtain ⟨there, claimed⟩ := fits _ point
    have takes := (World.takes_attempt there claimed granted).place seated there s.now slot
    exact ⟨i, request, slot, point, rfl, takes.slots, takes.attempts⟩
  · intro source target
    refine ⟨World.yields_move seated s.now source target, ?_,
      fun h found apart => World.slots_move found apart s.now⟩
    rintro rfl
    exact s.world.move_self s.now source

end Scene

/-- A session in which a handle is moved onto another's slot, loses its lock
and is told so, and is destroyed, while a third keeps its own. -/
def Session.shuffled : Session :=
  ((Session.start (fun _ => 0) {} (fun _ => none) 0).carryOutAll
    [.call (.lock [1] [5] [10] none), .call (.lock [2] [6] [10] none),
      .call (.operation (.handleMove [1] [2])), .call (.operation .clear),
      .call (.operation (.handleRelease [2])), .call (.operation (.handleDestroy [2])),
      .call (.lock [3] [7] [10] none)]).1

theorem Scene.handles_release_once_of_shuffled :
    Session.shuffled.scene.world.attempts = [.owner 0 ([5], [10]), .owner 0 ([6], [10])]
      ∧ Session.shuffled.scene.world.slots.owned = [.owner 0 ([7], [10])]
      ∧ Session.shuffled.scene.world.takings.Perm
        [.owner 0 ([5], [10]), .owner 0 ([6], [10]), .owner 0 ([7], [10])] := by
  have attempts : Session.shuffled.scene.world.attempts
      = [.owner 0 ([5], [10]), .owner 0 ([6], [10])] := by decide +kernel
  have owned : Session.shuffled.scene.world.slots.owned = [.owner 0 ([7], [10])] := by
    decide +kernel
  have reached : (Session.start (fun _ => 0) {} (fun _ => none) 0).scene.Leads
      Session.shuffled.scene := Session.leads_carryOutAll ..
  obtain ⟨balance, -⟩ := Scene.handles_release_once reached
  rw [attempts, owned] at balance
  exact ⟨attempts, owned, balance⟩

end AdvisoryStore
