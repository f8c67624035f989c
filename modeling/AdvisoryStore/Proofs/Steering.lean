import AdvisoryStore.Proofs.Paths

/-!
# Who steers a session

A session has one store that actions are about, one that is shared, and an
environment. Five operations **steer** it, that is, change one of these or
add a store (`Operation.steers`). Everything else is steady: whatever calls
do with locks, records, handles and runs, the session is steered as it was
(`Thread.Turn.steady`), and has the same number of stores.

The settings of a store are not changed by anything (`Scene.Path.settings`).
-/

namespace AdvisoryStore

/-- **Whether an operation steers the session.** -/
def Operation.steers : Operation → Bool
  | setEnvironment _ | newStore _ | shared | forgetShared | use _ => true
  | _ => false

namespace World

/-- **Two worlds are steered alike**: the same store is current, the same is
shared, the environment is the same, and there are as many stores. -/
structure Steady (w w' : World) : Prop where
  hash : w'.hash = w.hash
  length : w'.stores.length = w.stores.length
  current : w'.current = w.current
  shared : w'.shared = w.shared
  environment : w'.environment = w.environment

theorem Steady.refl (w : World) : w.Steady w := ⟨rfl, rfl, rfl, rfl, rfl⟩

/-- What is steady at every step is steady. -/
theorem Steady.trans {w w' w'' : World} (h : w.Steady w') (more : w'.Steady w'') :
    w.Steady w'' where
  hash := more.hash.trans h.hash
  length := more.length.trans h.length
  current := more.current.trans h.current
  shared := more.shared.trans h.shared
  environment := more.environment.trans h.environment

/-- A store that is there stays there. -/
theorem Steady.there {w w' : World} (h : w.Steady w') {i : Nat} (there : i < w.stores.length) :
    i < w'.stores.length := by
  rwa [h.length]

variable (w : World) (now : Instant)

/-- **No operation of a store steers the session.** -/
theorem steady_on {α : Type} (i : Nat) (f : Store → Outcome Store α) :
    w.Steady (w.on now i f).1 := by
  have there : (w.on now i f).1
      = w.putBack now i (f (w.store i)).after (f (w.store i)).happened := rfl
  rw [there]
  refine ⟨?_, length_putBack .., ?_, ?_, ?_⟩ <;> unfold putBack <;> split <;> rfl

/-- What comes of an operation of a store, whatever is made of its answer. -/
theorem steady_of_on {α : Type} {i : Nat} {f : Store → Outcome Store α} {u : World} {answer : α}
    (eq : w.on now i f = (u, answer)) : w.Steady u := by
  have steady := w.steady_on now i f
  rwa [eq] at steady

theorem steady_note (i : Nat) (what : Happening) : w.Steady (w.note now i what) :=
  w.steady_on now i _

theorem steady_relinquish (i : Nat) (claimant : Claimant) (key holder : Bytes) :
    w.Steady (w.relinquish now i claimant key holder) :=
  w.steady_on now i _

/-- A handle that lets go steers nothing. -/
theorem steady_letGo (h : Handle) : w.Steady (w.letGo now h) := by
  unfold letGo
  split
  · exact w.steady_relinquish now h.store .handle h.key h.holder
  · exact .refl w

/-- Handles are put into slots without any store being turned to. -/
theorem steady_place (slot : Bytes) (h : Handle) : w.Steady (w.place now slot h) := by
  have vacated : w.Steady (w.vacate now slot) := by
    unfold vacate
    split
    · exact .refl w
    · exact w.steady_letGo now _
  exact ⟨vacated.hash, vacated.length, vacated.current, vacated.shared, vacated.environment⟩

/-- A move of a handle keeps the handle for the store it was taken in. -/
theorem steady_move (source target : Bytes) : w.Steady (w.move now source target).1 := by
  unfold move
  split
  · exact .refl w
  · next h _ =>
    split
    · exact .refl w
    · have placed := w.steady_place now target h
      exact ⟨placed.hash, placed.length, placed.current, placed.shared, placed.environment⟩

/-- A release goes to the store of the handle, whichever is current. -/
theorem steady_handleRelease (slot : Bytes) : w.Steady (w.handleRelease now slot).1 := by
  unfold handleRelease
  split
  · exact .refl w
  · next h _ =>
    split
    · let emptied := { w with slots := w.slots.insert slot { h with owns := false } }
      have apart : w.Steady emptied := ⟨rfl, rfl, rfl, rfl, rfl⟩
      simp only
      split <;> next eq => exact apart.trans (emptied.steady_of_on now eq)
    · exact .refl w

/-- So does the release by a handle that is destroyed. -/
theorem steady_handleDestroy (slot : Bytes) : w.Steady (w.handleDestroy now slot).1 := by
  unfold handleDestroy
  split
  · exact .refl w
  · next h _ =>
    let emptied := { w with slots := w.slots.erase slot }
    have apart : w.Steady emptied := ⟨rfl, rfl, rfl, rfl, rfl⟩
    exact apart.trans (emptied.steady_letGo now h)

/-- A change is tried in the current store, and turns to no other. -/
theorem steady_tryChange (key holder : Bytes) (fault : Option Fault) :
    w.Steady (w.tryChange now key holder fault).1 := by
  unfold tryChange
  split
  · next eq => exact w.steady_of_on now eq
  · next u eq =>
    have asked := w.steady_of_on now eq
    cases fault <;> exact ⟨asked.hash, asked.length, asked.current, asked.shared, asked.environment⟩

/-- **What does not steer is steady.** -/
theorem steady_perform {o : Operation} (straight : o.steers = false) :
    w.Steady (w.perform now o).1 := by
  cases o with
  | handleRelease slot => exact w.steady_handleRelease now slot
  | handleDestroy slot => exact w.steady_handleDestroy now slot
  | handleMove source target => exact w.steady_move now source target
  | tryChange key holder fault => exact w.steady_tryChange now key holder fault
  | release | look | read | write =>
    rw [perform]
    split <;> next eq => exact w.steady_of_on now eq
  | isHeld key | isHeldBy key => exact w.steady_on now w.current (·.look now key)
  | sweep => exact w.steady_on now w.current (·.sweep now)
  | clear => exact w.steady_on now w.current (·.clearLocks)
  | serve request => exact w.steady_on now w.current (·.serve now request)
  | inspect key version keepAlive =>
    exact w.steady_on now w.current (·.inspectLock now key version keepAlive)
  | handleInfo slot =>
    rw [perform]
    split <;> exact .refl w
  | heldCount | counters | contains | recordTotal | settings | metrics | highlights =>
    exact .refl w
  | setEnvironment | newStore | shared | forgetShared | use => cases straight

/-! ## Runs -/

/-- A run ends in its own store, and the session goes on where it was. -/
theorem steady_conclude (r : Run) (answers : List Reply) :
    w.Steady (w.conclude now r answers).1 := by
  have computed := w.steady_note now r.store (.computed r.key r.holder)
  have released (u : World) := u.steady_relinquish now r.store .run r.key r.holder
  have ending := ending_conclude w now r answers
  generalize w.conclude now r answers = ended at ending ⊢
  cases ending with
  | failed => exact computed.trans (released _)
  | refused _ refused => exact (computed.trans (steady_of_on _ now refused)).trans (released _)
  | committed _ written =>
    exact ((computed.trans (steady_of_on _ now written)).trans (released _)).trans
      (steady_note _ now r.store _)

/-- Whether a run goes on or ends, it steers nothing of its own. -/
theorem steady_proceed (r : Run) (answers : List Reply) (rest : List Action)
    (stack : List Frame) : w.Steady (w.proceed now r answers rest stack).1 := by
  cases rest with
  | nil => exact w.steady_conclude now r answers
  | cons a rest => exact .refl w

/-- A run begins in its own store. -/
theorem steady_enterRun (r : Run) (script : List Action) (stack : List Frame) :
    w.Steady (w.enterRun now r script stack).1 := by
  have entry := entry_enterRun w now r script stack
  generalize w.enterRun now r script stack = entered at entry ⊢
  cases entry with
  | cached found =>
    exact ((w.steady_of_on now found).trans (steady_note _ now r.store _)).trans
      (steady_relinquish _ now r.store .run r.key r.holder)
  | computes absent =>
    exact ((w.steady_of_on now absent).trans (steady_note _ now r.store _)).trans
      (steady_proceed _ now r [] script stack)

/-- What a lock was taken for is done in the store of the lock. -/
theorem steady_fulfil (store : Nat) (request : LockRequest) (purpose : Purpose)
    (stack : List Frame) : w.Steady (w.fulfil now store request purpose stack).1 := by
  cases purpose with
  | answer => exact .refl w
  | handle slot => exact w.steady_place now slot _
  | run script outcome => exact w.steady_enterRun now _ script stack

end World

/-! ## Moves -/

variable {now : Instant} {w w' : World}

/-- **Getting past a point is steady.** -/
theorem Point.steady_of_pass {p : Point} {waited : Bool} {stack : List Frame} {c : Control}
    (pass : p.pass now w waited stack = .passed w' c) : w.Steady w' := by
  cases passes_of_pass pass with
  | gaveUp tried => exact w.steady_of_on now tried
  | @granted store request purpose u tried =>
    exact (w.steady_of_on now tried).trans (u.steady_fulfil now store request purpose stack)
  | waitOver _ looked => exact w.steady_of_on now looked
  | slept => exact .refl w

/-- Setting out on an action is steady, unless it is an operation that steers. -/
theorem Control.steady_begin {a : Action} (straight : ∀ o, a = .operation o → o.steers = false)
    (stack : List Frame) : w.Steady (begin now w a stack).1 := by
  cases a with
  | operation o => exact w.steady_perform now (straight o rfl)
  | wait key patience =>
    rw [begin]
    split <;> next eq => exact w.steady_of_on now eq
  | sleep d =>
    rw [begin]
    split <;> exact .refl w
  | acquire | lock | run | demo => exact .refl w

/-- Remarks are steady. -/
theorem World.steady_remarks (w : World) (now : Instant) (store : Nat)
    (remarks : List Happening) : w.Steady (remarks.foldl (·.note now store ·) w) := by
  induction remarks generalizing w with
  | nil => exact .refl w
  | cons what rest ih => exact (w.steady_note now store what).trans (ih _)

/-- **Whatever a call does is steady**, unless it performs an operation that
steers. -/
theorem Thread.Turn.steady {t : Thread} {t' : Option Thread} (turn : t.Turn now w w' t')
    (straight : ∀ o, t.operation? = some o → o.steers = false) : w.Steady w' := by
  cases turn with
  | move step =>
    cases Control.goesOn_of_step step with
    | begins a stack =>
      refine Control.steady_begin (fun o eq => straight o ?_) stack
      rw [eq]
      rfl
    | passes pass => exact Point.steady_of_pass pass
    | resumes reply frame rest =>
      cases frame with
      | script r answers script => exact w.steady_proceed now r _ script rest
      | demo store worker keys left => exact w.steady_remarks now store _
  | suspend => exact .refl w
  | finish => exact .refl w
  | resume pass => exact Point.steady_of_pass pass

/-! ## Settings -/

/-- No change of a store changes its settings. -/
theorem Store.Occurs.settings {s t : Store} {happened : List Happening}
    (occurs : s.Occurs now happened t) : t.settings = s.settings := by
  cases occurs <;> rfl

/-- **The settings of a store are as they were when it was made.** -/
theorem World.Evolves.settings {P : Event → Prop} (evolves : World.Evolves P now w w') {i : Nat}
    (there : i < w.stores.length) : (w'.store i).settings = (w.store i).settings := by
  induction evolves with
  | refl => rfl
  | tail before change ih =>
    obtain ⟨_, occurs, -⟩ | ⟨same, -⟩ | ⟨absent, -⟩ := change.store_cases i
    · exact occurs.settings.trans ih
    · rw [same, ih]
    · have := World.Evolves.length_le before
      omega

/-- On no path is a store taken away. -/
theorem Scene.Path.length_le {s t : Scene} {strides : List Stride} (path : s.Path strides t) :
    s.world.stores.length ≤ t.world.stores.length := by
  induction path with
  | nil => exact Nat.le_refl _
  | begin _ _ ih => exact ih
  | tick _ _ ih => exact ih
  | turn x _ _ _ ih => exact Nat.le_trans ih x.evolves.length_le

/-- **A store has its settings for good.** -/
theorem Scene.Path.settings {s t : Scene} {strides : List Stride} (path : s.Path strides t)
    {i : Nat} (there : i < s.world.stores.length) :
    (t.world.store i).settings = (s.world.store i).settings := by
  induction path with
  | nil => rfl
  | begin _ _ ih => exact ih
  | tick _ _ ih => exact ih
  | turn x _ _ path ih =>
    exact (x.evolves.settings (Nat.lt_of_lt_of_le there path.length_le)).trans ih

end AdvisoryStore
