import AdvisoryStore.Proofs.Handles
import AdvisoryStore.Proofs.Steering
import AdvisoryStore.Proofs.Wakeup

/-!
# There is one shared store at a time

Whoever asks for the shared store is given the same one as everybody before,
until it is forgotten; then the next who asks sets up another, from the
environment of that moment. If that environment is not valid, the answer
says so and nothing is done, so that the next one who asks tries again.

This module tells it by the moves that were made on the way
(`Scene.Path`), and not by what the world keeps for the purpose. A move
*shares* a store if it is a call for the shared store that was answered with
one, and it *forgets* if it resets. `Scene.SharingLaw` is the whole of the
rule; it holds on every path from the beginning of a session, whatever else
is done on it and by however many calls at a time
(`Scene.Path.sharing_law`).
-/

namespace AdvisoryStore

/-! ## Turning to the shared store -/

namespace World

variable {w : World} {now : Instant}

/-- Who asks for the shared store when there is one is turned to it. -/
theorem turnToShared_of_some {i : Nat} (shared : w.shared = some i) (now : Instant) :
    w.turnToShared now = ({ w with current := i }, .turned i (w.store i).settings) := by
  rw [turnToShared, shared]

/-- Who asks for it in vain changes nothing. -/
theorem turnToShared_of_error {fault : SettingFault} (none_shared : w.shared = none)
    (invalid : StoreSettings.ofEnvironment w.environment = .error fault) (now : Instant) :
    w.turnToShared now = (w, .failed (.badSettings fault)) := by
  rw [turnToShared, none_shared]
  dsimp only
  rw [invalid]

/-- **The world with a new shared store**, of which nothing has happened but
that it was made. -/
def withShared (w : World) (now : Instant) (settings : StoreSettings) : World :=
  { w with
    stores := w.stores ++ [.new w.hash settings]
    current := w.stores.length
    shared := some w.stores.length
    events := ⟨w.stores.length, now, .created settings.shards⟩ :: w.events }

/-- **Who asks for it first sets it up.** -/
theorem turnToShared_of_ok {settings : StoreSettings} (none_shared : w.shared = none)
    (valid : StoreSettings.ofEnvironment w.environment = .ok settings) (now : Instant) :
    w.turnToShared now = (w.withShared now settings, .turned w.stores.length settings) := by
  let added : World := { w.addStore settings with shared := some w.stores.length }
  have store : added.store w.stores.length = .new w.hash settings :=
    (w.store_addStore settings w.stores.length).trans (if_pos rfl)
  have there : w.stores.length < added.stores.length := by simp [added, addStore]
  have noted : added.note now w.stores.length (.created settings.shards)
      = w.withShared now settings := by
    show added.putBack now w.stores.length
      ((added.store w.stores.length).note [.created settings.shards]) [.created settings.shards] = _
    rw [store, putBack_of_lt there]
    simp [added, withShared, addStore, Store.note, Happening.counted]
  rw [turnToShared, none_shared]
  dsimp only
  rw [valid]
  exact congrArg (·, Reply.turned w.stores.length settings) noted

theorem store_withShared (w : World) (now : Instant) (settings : StoreSettings) (i : Nat) :
    (w.withShared now settings).store i
      = if i = w.stores.length then .new w.hash settings else w.store i :=
  w.store_addStore settings i

/-- **Whoever steers leaves the stores that are there**, the handles, and the
calls that wait. -/
theorem others_of_steers (w : World) (now : Instant) {o : Operation} (steers : o.steers = true) :
    (∀ i < w.stores.length, (w.perform now o).1.store i = w.store i)
      ∧ (w.perform now o).1.slots = w.slots
      ∧ ∀ (p : Point) moment, p.Blocked now w moment →
        p.Blocked now (w.perform now o).1 moment ∧ p.rings (w.perform now o).1 = p.rings w := by
  have kept : (∀ i < w.stores.length, (w.perform now o).1.store i = w.store i)
      ∧ (w.perform now o).1.slots = w.slots := by
    cases o with
    | setEnvironment | forgetShared => exact ⟨fun _ _ => rfl, rfl⟩
    | newStore settings =>
      refine ⟨fun i there => ?_, rfl⟩
      exact (w.store_addStore settings i).trans (if_neg (Nat.ne_of_lt there))
    | use k =>
      show (∀ i < w.stores.length, (if k < w.stores.length then { w with current := k }
          else w).store i = w.store i)
        ∧ (if k < w.stores.length then { w with current := k } else w).slots = w.slots
      split <;> exact ⟨fun _ _ => rfl, rfl⟩
    | shared =>
      show (∀ i < w.stores.length, (w.turnToShared now).1.store i = w.store i)
        ∧ (w.turnToShared now).1.slots = w.slots
      cases known : w.shared with
      | some k =>
        rw [turnToShared_of_some known]
        exact ⟨fun _ _ => rfl, rfl⟩
      | none =>
        cases read : StoreSettings.ofEnvironment w.environment with
        | error fault =>
          rw [turnToShared_of_error known read]
          exact ⟨fun _ _ => rfl, rfl⟩
        | ok settings =>
          rw [turnToShared_of_ok known read]
          refine ⟨fun i there => ?_, rfl⟩
          exact (w.store_withShared now settings i).trans (if_neg (Nat.ne_of_lt there))
    | _ => cases steers
  refine ⟨kept.1, kept.2, fun p moment blocked => ?_⟩
  -- a call that is blocked waits for a hold, and so in a store that is there
  have same {i : Nat} {key : Bytes} {h : Hold} (live : (w.store i).locks.live? now key = some h) :
      (w.perform now o).1.store i = w.store i := by
    refine kept.1 i (Nat.lt_of_not_le (fun absent => ?_))
    cases live.symm.trans (live?_of_length_le absent)
  cases p with
  | lock i request purpose =>
    obtain ⟨h, live, rest⟩ := blocked
    exact ⟨⟨h, by rwa [same live], rest⟩, by simp only [Point.rings, Point.bell?, same live]⟩
  | release i key generation giveUp =>
    obtain ⟨h, live, rest⟩ := blocked
    exact ⟨⟨h, by rwa [same live], rest⟩, by simp only [Point.rings, Point.bell?, same live]⟩
  | sleep finish => exact ⟨blocked, rfl⟩

end World

/-! ## Sharing and forgetting -/

namespace Stride

variable {x : Stride} {i j : Nat} {settings : StoreSettings}

/-- **The move shares a store**: it is a call for the shared store that is
answered with this one. -/
def Shares (x : Stride) (i : Nat) (settings : StoreSettings) : Prop :=
  x.operation? = some .shared ∧ x.reply? = some (.turned i settings)

/-- **The move forgets** which store is shared. -/
def Forgets (x : Stride) : Prop := x.operation? = some .forgetShared

/-- **The three ways in which a call for the shared store can end.** -/
inductive Asking (x : Stride) : Prop
  /-- There is one. -/
  | found {i : Nat} (known : x.world.shared = some i)
      (after : x.after = { x.world with current := i })
      (reply : x.reply? = some (.turned i (x.world.store i).settings))
  /-- There is none, and the environment is not valid. -/
  | refused {fault : SettingFault} (unknown : x.world.shared = none)
      (invalid : StoreSettings.ofEnvironment x.world.environment = .error fault)
      (after : x.after = x.world) (reply : x.reply? = some (.failed (.badSettings fault)))
  /-- There is none, and it is set up. -/
  | made {settings : StoreSettings} (unknown : x.world.shared = none)
      (valid : StoreSettings.ofEnvironment x.world.environment = .ok settings)
      (after : x.after = x.world.withShared x.now settings)
      (reply : x.reply? = some (.turned x.world.stores.length settings))

theorem asking (asks : x.operation? = some .shared) : x.Asking := by
  have after : x.after = (x.world.turnToShared x.now).1 := x.after_of_operation asks
  have reply : x.reply? = some (x.world.turnToShared x.now).2 := by
    rw [reply?, asks]
    rfl
  cases known : x.world.shared with
  | some k =>
    rw [World.turnToShared_of_some known] at after reply
    exact .found known after reply
  | none =>
    cases read : StoreSettings.ofEnvironment x.world.environment with
    | error fault =>
      rw [World.turnToShared_of_error known read] at after reply
      exact .refused known read after reply
    | ok settings =>
      rw [World.turnToShared_of_ok known read] at after reply
      exact .made known read after reply

/-- **The store that is shared** is the one that was, or it is made by the
move. -/
theorem Shares.cases (shares : x.Shares i settings) :
    (x.world.shared = some i ∧ settings = (x.world.store i).settings
        ∧ x.after = { x.world with current := i })
      ∨ (x.world.shared = none ∧ i = x.world.stores.length
        ∧ StoreSettings.ofEnvironment x.world.environment = .ok settings
        ∧ x.after = x.world.withShared x.now settings) := by
  obtain ⟨asks, told⟩ := shares
  cases asking asks with
  | found known after reply =>
    cases reply.symm.trans told
    exact .inl ⟨known, rfl, after⟩
  | refused _ _ _ reply => cases reply.symm.trans told
  | made unknown valid after reply =>
    cases reply.symm.trans told
    exact .inr ⟨unknown, rfl, valid, after⟩

/-- After a store was shared it is known, there, and has the settings that
were told. -/
theorem Shares.known (shares : x.Shares i settings) (turned : x.world.Turned) :
    x.after.shared = some i ∧ i < x.after.stores.length
      ∧ (x.after.store i).settings = settings := by
  obtain ⟨known, rfl, after⟩ | ⟨unknown, rfl, valid, after⟩ := shares.cases
  · rw [after]
    exact ⟨known, turned.shared i known, rfl⟩
  · rw [after]
    refine ⟨rfl, by simp [World.withShared], ?_⟩
    rw [World.store_withShared, if_pos rfl]
    rfl

/-- Whoever asks while a store is shared is told of it. -/
theorem shares_of_known (asks : x.operation? = some .shared) (known : x.world.shared = some i) :
    x.Shares i (x.world.store i).settings := by
  cases asking asks with
  | found known' _ reply =>
    cases known.symm.trans known'
    exact ⟨asks, reply⟩
  | refused unknown | made unknown => cases known.symm.trans unknown

/-- After a reset no store is shared. -/
theorem Forgets.unknown (forgets : x.Forgets) : x.after.shared = none := by
  rw [x.after_of_operation forgets]
  rfl

/-- **Only sharing and forgetting have to do with which store is shared.** -/
theorem shared_after (unshared : ∀ i settings, ¬ x.Shares i settings) (kept : ¬ x.Forgets) :
    x.after.shared = x.world.shared := by
  by_cases straight : ∀ o, x.operation? = some o → o.steers = false
  · exact (x.turn.steady straight).shared
  · -- of what steers, only asking and resetting could have to do with it
    obtain ⟨o, steering⟩ := Classical.not_forall.mp straight
    obtain ⟨operation, steers⟩ := Classical.not_imp.mp steering
    have after := x.after_of_operation operation
    cases o with
    | forgetShared => exact absurd operation kept
    | shared =>
      cases asking operation with
      | found known _ reply => exact absurd ⟨operation, reply⟩ (unshared _ _)
      | refused _ _ same => rw [same]
      | made _ _ _ reply => exact absurd ⟨operation, reply⟩ (unshared _ _)
    | setEnvironment | newStore =>
      rw [after]
      rfl
    | use k =>
      rw [after]
      show (if k < x.world.stores.length then { x.world with current := k }
        else x.world).shared = _
      split <;> rfl
    | _ => exact absurd rfl steers

end Stride

/-! ## What moves tell -/

/-- **These moves forget nothing.** -/
def Remembered (strides : List Stride) : Prop := ∀ x ∈ strides, ¬ x.Forgets

/-- **No store is shared, as far as moves tell**: whichever they shared was
forgotten later. -/
def Unshared (strides : List Stride) : Prop :=
  ∀ early x late i settings, strides = early ++ x :: late → x.Shares i settings →
    ∃ y ∈ late, y.Forgets

section

variable {strides : List Stride} {x : Stride} {i : Nat} {settings : StoreSettings}

/-- Who shares a store does not forget it. -/
theorem Stride.Shares.not_forgets (shares : x.Shares i settings) : ¬ x.Forgets :=
  fun forgets => nomatch shares.1.symm.trans forgets

theorem unshared_of_forgets (strides : List Stride) (forgets : x.Forgets) :
    Unshared (strides ++ [x]) := by
  intro early y late i settings eq shares
  obtain ⟨-, rfl, -⟩ | ⟨most, rfl, -⟩ := concat_eq_split eq
  · exact absurd forgets shares.not_forgets
  · exact ⟨x, by simp, forgets⟩

theorem Unshared.concat (unshared : Unshared strides)
    (apart : ∀ i settings, ¬ x.Shares i settings) : Unshared (strides ++ [x]) := by
  intro early y late i settings eq shares
  obtain ⟨-, rfl, -⟩ | ⟨most, rfl, init⟩ := concat_eq_split eq
  · exact absurd shares (apart i settings)
  · obtain ⟨z, mem, forgets⟩ := unshared early y most i settings init shares
    exact ⟨z, List.mem_append_left _ mem, forgets⟩

theorem Remembered.concat (remembered : Remembered strides) (kept : ¬ x.Forgets) :
    Remembered (strides ++ [x]) :=
  List.forall_mem_append.mpr ⟨remembered, List.forall_mem_singleton.mpr kept⟩

end

/-- **What is shared after some moves**: nothing, as far as they tell; or the
store that was set up by one of them, from the environment of that moment,
and not forgotten since. -/
inductive World.SharedBy (strides : List Stride) (w : World) : Prop
  | nothing (unknown : w.shared = none) (unshared : Unshared strides)
  | store {early : List Stride} {x : Stride} {late : List Stride} {i : Nat}
      {settings : StoreSettings} (known : w.shared = some i) (eq : strides = early ++ x :: late)
      (unshared : Unshared early) (shares : x.Shares i settings)
      (valid : StoreSettings.ofEnvironment x.world.environment = .ok settings)
      (remembered : Remembered late) (settings_eq : (w.store i).settings = settings)

/-- Where none is shared as far as moves tell, none is. -/
theorem World.SharedBy.unknown {strides : List Stride} {w : World} (shared : w.SharedBy strides)
    (unshared : Unshared strides) : w.shared = none := by
  cases shared with
  | nothing unknown => exact unknown
  | store _ eq _ shares _ remembered =>
    obtain ⟨y, mem, forgets⟩ := unshared _ _ _ _ _ eq shares
    exact absurd forgets (remembered y mem)

namespace Stride

variable {strides : List Stride} {x : Stride} {i : Nat}

/-- A move shares a store, or it shares none. -/
theorem shares_or (x : Stride) :
    (∃ i settings, x.Shares i settings) ∨ ∀ i settings, ¬ x.Shares i settings := by
  by_cases apart : ∀ i settings, ¬ x.Shares i settings
  · exact .inr apart
  · obtain ⟨i, told⟩ := Classical.not_forall.mp apart
    obtain ⟨settings, shares⟩ := Classical.not_forall.mp told
    exact .inl ⟨i, settings, Classical.not_not.mp shares⟩

/-- **What is shared stays shared** by a move that does not forget it. -/
theorem remembers (known : x.world.shared = some i) (kept : ¬ x.Forgets) :
    x.after.shared = some i := by
  obtain ⟨j, settings, shares⟩ | apart := x.shares_or
  · obtain ⟨-, -, after⟩ | ⟨unknown, -⟩ := shares.cases
    · rw [after]
      exact known
    · cases unknown.symm.trans known
  · exact (shared_after apart kept).trans known

/-- **A store that is there and not shared will not be shared**: what is set
up is another. -/
theorem never_shares (there : i < x.world.stores.length) (unknown : x.world.shared ≠ some i) :
    x.after.shared ≠ some i := by
  by_cases forgets : x.Forgets
  · rw [forgets.unknown]
    nofun
  · obtain ⟨j, settings, shares⟩ | apart := x.shares_or
    · obtain ⟨-, -, after⟩ | ⟨-, rfl, -, after⟩ := shares.cases
      · rw [after]
        exact unknown
      · rw [after]
        intro eq
        have : x.world.stores.length = i := Option.some.inj eq
        omega
    · rwa [shared_after apart forgets]

/-- **A move keeps account of what is shared.** -/
theorem sharedBy (turned : x.world.Turned) (before : x.world.SharedBy strides) :
    x.after.SharedBy (strides ++ [x]) := by
  by_cases forgets : x.Forgets
  · exact .nothing forgets.unknown (unshared_of_forgets strides forgets)
  cases before with
  | store known eq unshared shares valid remembered settings_eq =>
    refine .store (remembers known forgets) ?_ unshared shares valid (remembered.concat forgets) ?_
    · rw [eq, List.append_assoc, List.cons_append]
    · exact (x.evolves.settings (turned.shared _ known)).trans settings_eq
  | nothing unknown unshared =>
    obtain ⟨j, settings, shares⟩ | apart := x.shares_or
    · obtain ⟨known, -⟩ | ⟨-, -, valid, -⟩ := shares.cases
      · cases unknown.symm.trans known
      · have known := shares.known turned
        exact .store known.1 rfl unshared shares valid (fun _ mem => nomatch mem) known.2.2
    · exact .nothing ((shared_after apart forgets).trans unknown) (unshared.concat apart)

end Stride

namespace Scene

variable {s t : Scene} {strides : List Stride} {i : Nat}

theorem Path.remembers (path : s.Path strides t) (known : s.world.shared = some i)
    (remembered : Remembered strides) : t.world.shared = some i := by
  induction path with
  | nil => exact known
  | begin _ _ ih => exact ih remembered
  | tick _ _ ih => exact ih remembered
  | turn x _ _ _ ih =>
    obtain ⟨first, last⟩ := List.forall_mem_append.mp remembered
    exact Stride.remembers (ih first) (last x List.mem_cons_self)

theorem Path.never_shares (path : s.Path strides t) (there : i < s.world.stores.length)
    (unknown : s.world.shared ≠ some i) : t.world.shared ≠ some i := by
  induction path with
  | nil => exact unknown
  | begin _ _ ih => exact ih
  | tick _ _ ih => exact ih
  | turn x _ _ path ih =>
    exact Stride.never_shares (Nat.lt_of_lt_of_le there path.length_le) ih

section

variable {hash : Bytes → Nat} {settings : StoreSettings} {environment : Environment}
  {now : Instant}

theorem Path.sharedBy
    (path : (Session.start hash settings environment now).scene.Path strides s) :
    s.world.SharedBy strides := by
  induction path with
  | nil => exact .nothing rfl (fun early x late i settings eq _ => by simp at eq)
  | begin _ _ ih => exact ih
  | tick _ _ ih => exact ih
  | turn x _ _ path ih => exact Stride.sharedBy path.leads.balanced.seated.toTurned ih

/-- **Who shares a store before and after it was forgotten does not share the
same.** -/
theorem Path.ne_of_forgets {early mid late : List Stride} {x y z : Stride} {i j : Nat}
    {σ τ : StoreSettings}
    (path : (Session.start hash settings environment now).scene.Path
      (early ++ x :: (mid ++ y :: late)) s)
    (first : x.Shares i σ) (second : y.Shares j τ) (mem : z ∈ mid) (forgets : z.Forgets) :
    i ≠ j := by
  rintro rfl
  obtain ⟨before, after, toX, fromX⟩ := path.split
  obtain ⟨before', after', toY, -⟩ := fromX.split
  obtain ⟨-, there, -⟩ := first.known toX.leads.balanced.seated.toTurned
  obtain ⟨most, rest, rfl⟩ := List.append_of_mem mem
  obtain ⟨before'', after'', toZ, fromZ⟩ := toY.split
  -- when it is forgotten the store is there, and it is never shared again
  have there' : i < z.after.stores.length := by
    have := toZ.length_le
    have := z.evolves.length_le
    simp only at *
    omega
  have gone : y.world.shared ≠ some i :=
    fromZ.never_shares there' (by rw [forgets.unknown]; nofun)
  obtain ⟨same, -⟩ | ⟨-, rfl, -⟩ := second.cases
  · exact gone same
  · have := fromZ.length_le
    simp only at *
    omega

/-- **Who shares a store while it is remembered shares the same.** -/
theorem Path.eq_of_remembered {early mid late : List Stride} {x y : Stride} {i j : Nat}
    {σ τ : StoreSettings}
    (path : (Session.start hash settings environment now).scene.Path
      (early ++ x :: (mid ++ y :: late)) s)
    (first : x.Shares i σ) (second : y.Shares j τ) (remembered : Remembered mid) : i = j := by
  obtain ⟨before, after, toX, fromX⟩ := path.split
  obtain ⟨before', after', toY, -⟩ := fromX.split
  obtain ⟨known, -⟩ := first.known toX.leads.balanced.seated.toTurned
  have known := toY.remembers known remembered
  obtain ⟨same, -⟩ | ⟨unknown, -⟩ := second.cases
  · exact Option.some.inj (known.symm.trans same)
  · cases known.symm.trans unknown

/-- **The law of the shared store**, for the moves on the way to a scene. -/
structure SharingLaw (strides : List Stride) (s : Scene) : Prop where
  /-- Two moves share the same store exactly if it was not forgotten between
  them. -/
  same_iff {early mid late : List Stride} {x y : Stride} {i j : Nat} {σ τ : StoreSettings}
    (eq : strides = early ++ x :: (mid ++ y :: late)) (first : x.Shares i σ)
    (second : y.Shares j τ) : i = j ↔ Remembered mid
  /-- Whoever asks before it is forgotten is given it, whatever the environment
  has become. -/
  kept {early mid late : List Stride} {x y : Stride} {i : Nat} {σ : StoreSettings}
    (eq : strides = early ++ x :: (mid ++ y :: late)) (first : x.Shares i σ)
    (remembered : Remembered mid) (asks : y.operation? = some .shared) : y.Shares i σ
  /-- The settings that were told are those of the store, now and then. -/
  settings {early late : List Stride} {x : Stride} {i : Nat} {σ : StoreSettings}
    (eq : strides = early ++ x :: late) (shares : x.Shares i σ) :
    (x.after.store i).settings = σ ∧ (s.world.store i).settings = σ
  /-- They were read from the environment when the store was first shared, that
  is, when none was. -/
  origin {before late : List Stride} {y : Stride} {i : Nat} {σ : StoreSettings}
    (eq : strides = before ++ y :: late) (shares : y.Shares i σ) :
    ∃ early x, x.Shares i σ ∧ Unshared early
      ∧ StoreSettings.ofEnvironment x.world.environment = .ok σ
      ∧ ((before = early ∧ y = x) ∨ ∃ mid, before = early ++ x :: mid ∧ Remembered mid)
  /-- Whoever asks when none is shared, and the environment is valid, makes a
  store of which nothing has happened but that it was made. -/
  made {early late : List Stride} {x : Stride} {σ : StoreSettings}
    (eq : strides = early ++ x :: late) (unshared : Unshared early)
    (asks : x.operation? = some .shared)
    (valid : StoreSettings.ofEnvironment x.world.environment = .ok σ) :
    x.Shares x.world.stores.length σ
      ∧ x.after = x.world.withShared x.now σ
      ∧ x.after.store x.world.stores.length = .new x.world.hash σ
  /-- Whoever asks when none is shared, and the environment is not valid, is
  told so. Nothing is done, and still none is shared. -/
  refused {early late : List Stride} {x : Stride} {fault : SettingFault}
    (eq : strides = early ++ x :: late) (unshared : Unshared early)
    (asks : x.operation? = some .shared)
    (invalid : StoreSettings.ofEnvironment x.world.environment = .error fault) :
    x.reply? = some (.failed (.badSettings fault)) ∧ x.after = x.world
      ∧ Unshared (early ++ [x])
  /-- Sharing, forgetting and changes of the environment leave every store that
  is there, every handle, and every call that waits. -/
  others {o : Operation} (steers : o.steers = true) :
    (∀ i < s.world.stores.length, (s.world.perform s.now o).1.store i = s.world.store i)
      ∧ (s.world.perform s.now o).1.slots = s.world.slots
      ∧ ∀ (p : Point) moment, p.Blocked s.now s.world moment →
        p.Blocked s.now (s.world.perform s.now o).1 moment
          ∧ p.rings (s.world.perform s.now o).1 = p.rings s.world

/-- **The law of the shared store holds**, on every path from the beginning of
a session. -/
theorem Path.sharing_law
    (path : (Session.start hash settings environment now).scene.Path strides s) :
    SharingLaw strides s where
  same_iff := by
    intro early mid late x y i j σ τ eq first second
    subst eq
    exact ⟨fun same z mem forgets => path.ne_of_forgets first second mem forgets same,
      path.eq_of_remembered first second⟩
  kept := by
    intro early mid late x y i σ eq first remembered asks
    subst eq
    obtain ⟨before, after, toX, fromX⟩ := path.split
    obtain ⟨before', after', toY, -⟩ := fromX.split
    obtain ⟨known, there, told⟩ := first.known toX.leads.balanced.seated.toTurned
    have shares := Stride.shares_of_known asks (toY.remembers known remembered)
    rwa [toY.settings there, told] at shares
  settings := by
    intro early late x i σ eq shares
    subst eq
    obtain ⟨before, after, toX, fromX⟩ := path.split
    obtain ⟨-, there, told⟩ := shares.known toX.leads.balanced.seated.toTurned
    exact ⟨told, (fromX.settings there).trans told⟩
  origin := by
    intro before late y i σ eq shares
    subst eq
    obtain ⟨_, _, toY, -⟩ := path.split
    cases toY.sharedBy with
    | nothing unknown unshared =>
      obtain ⟨known, -⟩ | ⟨-, -, valid, -⟩ := shares.cases
      · cases unknown.symm.trans known
      · exact ⟨before, y, shares, unshared, valid, .inl ⟨rfl, rfl⟩⟩
    | @store early x mid k τ known eq unshared first valid remembered settings_eq =>
      obtain ⟨same, rfl, -⟩ | ⟨unknown, -⟩ := shares.cases
      · cases known.symm.trans same
        rw [settings_eq]
        exact ⟨early, x, first, unshared, valid, .inr ⟨mid, eq, remembered⟩⟩
      · cases known.symm.trans unknown
  made := by
    intro early late x σ eq unshared asks valid
    subst eq
    obtain ⟨_, _, toX, -⟩ := path.split
    have unknown := toX.sharedBy.unknown unshared
    cases Stride.asking asks with
    | found known => cases unknown.symm.trans known
    | refused _ invalid => cases valid.symm.trans invalid
    | made _ valid' after reply =>
      cases valid.symm.trans valid'
      refine ⟨⟨asks, reply⟩, after, ?_⟩
      rw [after, World.store_withShared, if_pos rfl]
  refused := by
    intro early late x fault eq unshared asks invalid
    subst eq
    obtain ⟨_, _, toX, -⟩ := path.split
    have unknown := toX.sharedBy.unknown unshared
    cases Stride.asking asks with
    | found known => cases unknown.symm.trans known
    | made _ valid => cases invalid.symm.trans valid
    | refused _ invalid' after reply =>
      cases invalid.symm.trans invalid'
      refine ⟨reply, after, unshared.concat (fun i σ shares => ?_)⟩
      cases reply.symm.trans shares.2
  others := fun steers => s.world.others_of_steers s.now steers

end

/-- A session at its beginning. -/
def opened : Scene := (Session.start (fun _ => 0) {} (fun _ => none) 0).scene

/-- The same after the shared store was asked for. -/
def sharing : Scene := opened.performed .shared

/-- And after it was forgotten. -/
def forgotten : Scene := sharing.performed .forgetShared

/-- What is done between two calls for the shared store. -/
def forgetting : List Stride :=
  [opened.answering .shared, sharing.performing .forgetShared, sharing.answering .forgetShared]

theorem Path.sharing_law_of_forgetting :
    opened.Path (opened.performing .shared :: (forgetting
        ++ [forgotten.performing .shared, forgotten.answering .shared]))
        (forgotten.performed .shared)
      ∧ (opened.performing .shared).Shares 1 {} ∧ (forgotten.performing .shared).Shares 2 {}
      ∧ ¬ Remembered forgetting := by
  have path : opened.Path ([] ++ opened.performing .shared :: (forgetting
      ++ forgotten.performing .shared :: [forgotten.answering .shared]))
      (forgotten.performed .shared) :=
    ((Path.nil.perform .shared).perform .forgetShared).perform .shared
  have first : (opened.performing .shared).Shares 1 {} := ⟨rfl, rfl⟩
  have second : (forgotten.performing .shared).Shares 2 {} := ⟨rfl, rfl⟩
  refine ⟨path, first, second, fun remembered => ?_⟩
  cases ((Path.sharing_law path).same_iff rfl first second).mpr remembered

end Scene

end AdvisoryStore
