import AdvisoryStore.Proofs.Likeness.Store

/-!
# Worlds that are alike

Two worlds are alike if their stores are, one by one, and the same store is
current. When everything is looked at, handles, environment and the rest
are the same as well, and so is what happened but for the fleeting.

Whatever is done at once keeps worlds alike, and its answers agree
(`World.Alike.perform`). For one key that is what is asked under that key,
and what is asked of all keys alike; for everything it is every operation.
What an answer may differ in depends on what was asked
(`Operation.Agree`): the generation of a hold in any case, and beyond that
only what tells of the fleeting, or of what is not looked at.
-/

namespace AdvisoryStore

/-- **Which generations are counterparts**, by store and key. -/
abbrev Pairing := Nat → Bytes → Nat → Nat → Prop

namespace World

/-- **Worlds are alike** as far as they are looked at. -/
structure Alike (scope : Scope) (pair : Pairing) (now : Instant) (w v : World) : Prop where
  current : w.current = v.current
  length : w.stores.length = v.stores.length
  stores : ∀ i, (w.store i).Alike scope (pair i) now (v.store i)
  whole : scope = .all → w.SameAside v

variable {scope : Scope} {pair pair' : Pairing} {now later : Instant} {w w' v v' : World}
  {i : Nat} {key : Bytes}

/-- **What leaves alone what is looked at leaves worlds alike.** -/
theorem Alike.unmoved (alike : w.Alike scope pair now v) (left : w.Unmoved scope now w')
    (right : v.Unmoved scope now v') : w'.Alike scope pair now v' where
  current := left.current.trans (alike.current.trans right.current.symm)
  length := left.length.trans (alike.length.trans right.length.symm)
  stores i := (alike.stores i).unmoved (left.stores i) (right.stores i)
  whole all := by
    have here := left.whole all
    have there := (alike.whole all).trans (right.whole all)
    exact ⟨there.hash.trans here.hash.symm, there.shared.trans here.shared.symm,
      there.environment.trans here.environment.symm, there.slots.trans here.slots.symm,
      there.changes.trans here.changes.symm, there.lasting.trans here.lasting.symm⟩

/-- Worlds that are alike stay so while time passes. -/
theorem Alike.tick (alike : w.Alike scope pair now v) (le : now ≤ later) :
    w.Alike scope pair later v where
  current := alike.current
  length := alike.length
  stores i := (alike.stores i).tick le
  whole := alike.whole

/-! ## Operations of a store -/

/-- Stores that are alike are put back alike. -/
theorem Alike.putBack (alike : w.Alike scope pair now v) (there : i < w.stores.length)
    {s t : Store} {happened happened' : List Happening} (stores : s.Alike scope (pair' i) now t)
    (said : Happening.lasting happened = Happening.lasting happened')
    (others : ∀ j, j ≠ i → pair' j = pair j) :
    (w.putBack now i s happened).Alike scope pair' now (v.putBack now i t happened') := by
  have there' : i < v.stores.length := by rwa [← alike.length]
  refine ⟨?_, ?_, fun j => ?_, fun all => ?_⟩
  · rw [World.putBack, if_pos there, World.putBack, if_pos there']
    exact alike.current
  · rw [length_putBack, length_putBack, alike.length]
  · rw [store_putBack there, store_putBack there']
    split
    · next eq => rwa [eq]
    · next ne =>
      rw [others j ne]
      exact alike.stores j
  · have aside := alike.whole all
    have lasting : (v.putBack now i t happened').lasting
        = (w.putBack now i s happened).lasting := by
      rw [lasting_putBack there, lasting_putBack there', said, aside.lasting]
    rw [putBack_of_lt there, putBack_of_lt there'] at lasting ⊢
    exact ⟨aside.hash, aside.shared, aside.environment, aside.slots, aside.changes, lasting⟩

/-- **What agrees of a store agrees of the world.** -/
theorem Alike.on_both {α : Type} {A : α → α → Prop} (alike : w.Alike scope pair now v)
    (f g : Store → Outcome Store α)
    (agree : (f (w.store i)).Agree (Store.Alike scope (pair i) now) A (g (v.store i))) :
    (w.on now i f).1.Alike scope pair now (v.on now i g).1
      ∧ A (w.on now i f).2 (v.on now i g).2 := by
  refine ⟨?_, agree.answer⟩
  show (w.putBack now i (f (w.store i)).after (f (w.store i)).happened).Alike scope pair now
    (v.putBack now i (g (v.store i)).after (g (v.store i)).happened)
  by_cases there : i < w.stores.length
  · exact alike.putBack there agree.after agree.said (fun _ _ => rfl)
  · rw [putBack_of_not_lt there, putBack_of_not_lt (by rwa [← alike.length])]
    exact alike

/-- The same operation in both. -/
theorem Alike.on {α : Type} {A : α → α → Prop} (alike : w.Alike scope pair now v)
    (f : Store → Outcome Store α)
    (agree : (f (w.store i)).Agree (Store.Alike scope (pair i) now) A (f (v.store i))) :
    (w.on now i f).1.Alike scope pair now (v.on now i f).1
      ∧ A (w.on now i f).2 (v.on now i f).2 :=
  alike.on_both f f agree

/-- The same operation of the current store in both. -/
theorem Alike.on_current {α : Type} {A : α → α → Prop} (alike : w.Alike scope pair now v)
    (f : Store → Outcome Store α)
    (agree : (f (w.store w.current)).Agree (Store.Alike scope (pair w.current) now) A
      (f (v.store w.current))) :
    (w.on now w.current f).1.Alike scope pair now (v.on now v.current f).1
      ∧ A (w.on now w.current f).2 (v.on now v.current f).2 := by
  rw [← alike.current]
  exact alike.on f agree

/-- **Attempts come to the same**, and leave worlds alike by a pairing that
has the old pairs. -/
theorem Alike.on_attempt (alike : w.Alike scope pair now v) (i : Nat) {r : LockRequest}
    (covered : scope.Covers r.key) (waited : Bool) :
    (∃ pair', pair ≤ pair' ∧ (w.on now i (·.attempt now r waited)).1.Alike scope pair' now
        (v.on now i (·.attempt now r waited)).1)
      ∧ Attempt.Alike (w.on now i (·.attempt now r waited)).2
        (v.on now i (·.attempt now r waited)).2 := by
  obtain ⟨paired, le, agree⟩ := (alike.stores i).attempt covered waited
  refine ⟨?_, agree.answer⟩
  show ∃ pair', pair ≤ pair' ∧ (w.putBack now i ((w.store i).attempt now r waited).after
      ((w.store i).attempt now r waited).happened).Alike scope pair' now
    (v.putBack now i ((v.store i).attempt now r waited).after
      ((v.store i).attempt now r waited).happened)
  by_cases there : i < w.stores.length
  · have here : Function.update pair i paired i = paired := Function.update_self ..
    refine ⟨Function.update pair i paired, fun j => ?_, ?_⟩
    · by_cases eq : j = i
      · rw [eq, here]
        exact le
      · rw [Function.update_of_ne eq]
    · refine alike.putBack there ?_ agree.said (fun j ne => Function.update_of_ne ne ..)
      rw [here]
      exact agree.after
  · refine ⟨pair, le_refl pair, ?_⟩
    rw [putBack_of_not_lt there, putBack_of_not_lt (by rwa [← alike.length])]
    exact alike

/-- A remark keeps worlds alike. -/
theorem Alike.note (alike : w.Alike scope pair now v) (i : Nat) (what : Happening) :
    (w.note now i what).Alike scope pair now (v.note now i what) :=
  (alike.on (·.noting [what] ()) ((alike.stores i).noting [what] ())).1

/-- Letting go of a lock keeps worlds alike. -/
theorem Alike.relinquish (alike : w.Alike scope pair now v) (i : Nat)
    (covered : scope.Covers key) (claimant : Claimant) (holder : Bytes) :
    (w.relinquish now i claimant key holder).Alike scope pair now
      (v.relinquish now i claimant key holder) :=
  (alike.on (·.relinquish now claimant key holder)
    ((alike.stores i).relinquish covered claimant holder)).1

/-! ## Handles, when everything is looked at -/

theorem Alike.withSlots (alike : w.Alike .all pair now v) (slots : KeyMap Handle) :
    { w with slots }.Alike .all pair now { v with slots } where
  current := alike.current
  length := alike.length
  stores := alike.stores
  whole all := { alike.whole all with slots := rfl }

/-- Handles that are the same let go of the same. -/
theorem Alike.letGo (alike : w.Alike .all pair now v) (h : Handle) :
    (w.letGo now h).Alike .all pair now (v.letGo now h) := by
  unfold World.letGo
  split
  · exact alike.relinquish h.store trivial .handle h.holder
  · exact alike

/-- The handle that is in the way is the same in both worlds, and lets go in both. -/
theorem Alike.place (alike : w.Alike .all pair now v) (slot : Bytes) (h : Handle) :
    (w.place now slot h).Alike .all pair now (v.place now slot h) := by
  have vacated : (w.vacate now slot).Alike .all pair now (v.vacate now slot) := by
    unfold World.vacate
    rw [(alike.whole rfl).slots]
    split
    · exact alike
    · exact alike.letGo _
  unfold World.place
  simp only [(vacated.whole rfl).slots]
  exact vacated.withSlots _

/-- Moving a handle is answered the same in worlds that are alike. -/
theorem Alike.move (alike : w.Alike .all pair now v) (source target : Bytes) :
    (w.move now source target).1.Alike .all pair now (v.move now source target).1
      ∧ (w.move now source target).2 = (v.move now source target).2 := by
  unfold World.move
  rw [(alike.whole rfl).slots]
  split
  · exact ⟨alike, rfl⟩
  · next h _ =>
    split
    · exact ⟨alike, rfl⟩
    · have placed := alike.place target h
      simp only [(placed.whole rfl).slots]
      exact ⟨placed.withSlots _, trivial⟩

/-- A handle gives its lock back in both worlds, or finds in both that it
has lost it. -/
theorem Alike.handleRelease (alike : w.Alike .all pair now v) (slot : Bytes) :
    (w.handleRelease now slot).1.Alike .all pair now (v.handleRelease now slot).1
      ∧ (w.handleRelease now slot).2 = (v.handleRelease now slot).2 := by
  unfold World.handleRelease
  rw [(alike.whole rfl).slots]
  split
  · exact ⟨alike, rfl⟩
  · next h _ =>
    split
    · have emptied := alike.withSlots (w.slots.insert slot { h with owns := false })
      have covered : Scope.all.Covers h.key := trivial
      have released := emptied.on (·.release now .handle h.key h.holder)
        ((emptied.stores h.store).release covered .handle h.holder)
      simp only
      generalize World.on { w with slots := _ } now h.store _ = x at released
      generalize World.on { v with slots := _ } now h.store _ = y at released
      obtain ⟨w', answer⟩ := x
      obtain ⟨v', answer'⟩ := y
      obtain ⟨released, rfl⟩ := released
      cases answer <;> exact ⟨released, rfl⟩
    · exact ⟨alike, rfl⟩

theorem Alike.handleDestroy (alike : w.Alike .all pair now v) (slot : Bytes) :
    (w.handleDestroy now slot).1.Alike .all pair now (v.handleDestroy now slot).1
      ∧ (w.handleDestroy now slot).2 = (v.handleDestroy now slot).2 := by
  unfold World.handleDestroy
  rw [(alike.whole rfl).slots]
  split
  · exact ⟨alike, rfl⟩
  · next h _ => exact ⟨(alike.withSlots (w.slots.erase slot)).letGo h, rfl⟩

/-- Handles that are destroyed one after the other. -/
theorem Alike.destroy (alike : w.Alike .all pair now v) (slots : List Bytes) :
    (slots.foldl (fun w slot => (w.handleDestroy now slot).1) w).Alike .all pair now
      (slots.foldl (fun w slot => (w.handleDestroy now slot).1) v) := by
  induction slots generalizing w v with
  | nil => exact alike
  | cons slot more ih => exact ih (alike.handleDestroy slot).1

/-! ## Further stores, when everything is looked at -/

/-- A new store is added at the same place. -/
theorem Alike.addStore (alike : w.Alike .all pair now v) (settings : StoreSettings) :
    (w.addStore settings).Alike .all pair now (v.addStore settings) where
  current := alike.length
  length := by
    show (w.stores ++ _).length = (v.stores ++ _).length
    rw [List.length_append, List.length_append, alike.length]
    rfl
  stores i := by
    rw [store_addStore, store_addStore, ← alike.length, (alike.whole rfl).hash]
    split
    · next eq =>
      -- where no store was no generation had been given, so that none is paired
      have absent : w.store i = default := store_of_length_le (Nat.le_of_eq eq.symm)
      have absent' : v.store i = default := by
        refine store_of_length_le (Nat.le_of_eq ?_)
        rw [← alike.length, eq]
      have before := alike.stores i
      rw [absent, absent'] at before
      have free (key : Bytes) : (Locks.new w.hash settings.shards).live? now key = none := by
        rw [Locks.live?, Locks.stored?_new]
        rfl
      have none_given (key : Bytes) :
          (default : Store).locks.grants key ≤ (Locks.new w.hash settings.shards).grants key := by
        show (Locks.new _ _).grants key ≤ _
        rw [Locks.grants_new]
        exact Nat.zero_le _
      refine ⟨fun key covered => ?_, fun _ _ => rfl, rfl, fun _ => ⟨rfl, rfl⟩⟩
      exact (before.locks key covered).free (free key) (free key) (none_given key) (none_given key)
    · exact alike.stores i
  whole all := { alike.whole all with }

/-- Worlds that are alike may turn to the same store. -/
theorem Alike.turn (alike : w.Alike .all pair now v) (i : Nat) :
    { w with current := i }.Alike .all pair now { v with current := i } where
  current := rfl
  length := alike.length
  stores := alike.stores
  whole all := { alike.whole all with }

theorem Alike.share (alike : w.Alike .all pair now v) (shared : Option Nat) :
    { w with shared }.Alike .all pair now { v with shared } where
  current := alike.current
  length := alike.length
  stores := alike.stores
  whole all := { alike.whole all with shared := rfl }

/-- **The shared store is the same**, and made in both worlds if it is made in one. -/
theorem Alike.turnToShared (alike : w.Alike .all pair now v) :
    (w.turnToShared now).1.Alike .all pair now (v.turnToShared now).1
      ∧ (w.turnToShared now).2 = (v.turnToShared now).2 := by
  have aside := alike.whole rfl
  cases shared : w.shared with
  | some i =>
    have turns {u : World} (shared : u.shared = some i) :
        u.turnToShared now = ({ u with current := i }, .turned i (u.store i).settings) := by
      unfold World.turnToShared
      split <;> next eq => cases shared.symm.trans eq <;> rfl
    rw [turns shared, turns (aside.shared.trans shared), ((alike.stores i).whole rfl).1]
    exact ⟨alike.turn i, rfl⟩
  | none =>
    unfold World.turnToShared
    rw [shared, aside.shared.trans shared, aside.environment, ← alike.length]
    dsimp only
    split
    · exact ⟨alike, rfl⟩
    · next settings _ =>
      have marked := (alike.addStore settings).share (some w.stores.length)
      exact ⟨marked.note w.stores.length (.created settings.shards), rfl⟩

end World

/-! ## What is done at once -/

/-- The key that an operation is about, if it is about one. -/
def Operation.key? : Operation → Option Bytes
  | release key _ | isHeld key | isHeldBy key _ | look key | tryChange key _ _ => some key
  | read key | write key _ _ | contains key | inspect key _ _ => some key
  | _ => none

/-- **The operations whose answers are looked at.** Of one key it is those
about that key, and those that treat all keys alike. -/
def Scope.Fits : Scope → Operation → Prop
  | key k, o => o.key? = some k ∨ o = .sweep ∨ o = .clear
  | all, _ => True

/-- **Answers to an operation agree**: they are the same but for what the
operation tells of generations, of what is fleeting, and of changes under
keys that are not looked at. -/
def Operation.Agree (scope : Scope) (o : Operation) (r q : Reply) : Prop :=
  match o with
  | look _ => (r = .absent ∧ q = .absent) ∨ ∃ g h : Hold, r = .hold g ∧ q = .hold h
    ∧ g.holder = h.holder ∧ g.since = h.since ∧ g.deadline = h.deadline
  | tryChange .. => r = q
    ∨ (scope ≠ .all ∧ ∃ made n m, r = .changed made n ∧ q = .changed made m)
  | sweep => ∃ n m, r = .count n ∧ q = .count m
  | counters => ∃ cs ds : Counters, cs.Agree ds ∧ r = .numbers cs.toList ∧ q = .numbers ds.toList
  | metrics => ∃ cs ds : Counters, cs.Agree ds ∧ r = .text (Exposition.render cs)
    ∧ q = .text (Exposition.render ds)
  | serve _ => ∃ a b : Response, a.Agree b ∧ r = .response a ∧ q = .response b
  | _ => r = q

/-- An operation whose answers are looked at is about no other key. -/
theorem Scope.Fits.covers {scope : Scope} {o : Operation} (fits : scope.Fits o) {key : Bytes}
    (about : o.key? = some key) : scope.Covers key := by
  cases scope with
  | all => trivial
  | key k =>
    obtain eq | rfl | rfl := fits
    · exact Option.some.inj (about.symm.trans eq)
    · cases about
    · cases about

/-- Whether an operation is about all locks of a store at once. -/
def Operation.isOnAllLocks : Operation → Bool
  | sweep | clear => true
  | _ => false

/-- What is about no key in particular is looked at with everything. -/
theorem Scope.Fits.all_of {scope : Scope} {o : Operation} (fits : scope.Fits o)
    (about : o.key? = none) (apart : o.isOnAllLocks = false) : scope = .all := by
  cases scope with
  | all => rfl
  | key k =>
    obtain eq | rfl | rfl := fits
    · rw [about] at eq
      cases eq
    · cases apart
    · cases apart

namespace World

variable {scope : Scope} {pair : Pairing} {now : Instant} {w v : World}

/-- **A world is sound** if its books are in order and no hold is out of its
place. -/
structure Sound (w : World) : Prop where
  booked : w.Booked
  placed : ∀ i, (w.store i).locks.Placed

/-- **Whatever a world evolves by**, its books stay in order and its holds in their places. -/
theorem Evolves.sound {P : Event → Prop} {w' : World} (evolves : Evolves P now w w')
    (sound : w.Sound) : w'.Sound where
  booked := Evolves.booked evolves sound.booked
  placed i := by
    refine Evolves.invariant (I := fun s => s.locks.Placed) ?_ ?_ evolves sound.placed i
    · exact fun hash settings => Locks.placed_new hash settings.shards
    · intro s t happened occurs placed
      cases occurs with
      | locks occurs => exact occurs.placed placed
      | write => exact placed
      | remark => exact placed

theorem Sound.destroy (sound : w.Sound) (slots : List Bytes) :
    (slots.foldl (fun w slot => (w.handleDestroy now slot).1) w).Sound := by
  induction slots generalizing w with
  | nil => exact sound
  | cons slot more ih => exact ih ((w.evolves_handleDestroy now slot).sound sound)

/-- What lasts of the history of a store is its part of what lasts. -/
theorem lasting_history (w : World) (i : Nat) :
    Happening.lasting (w.history i) = (w.lasting.reverse.filter (·.store = i)).map (·.what) := by
  have part (events : List Event) :
      Happening.lasting ((events.filter (·.store = i)).map (·.what))
        = ((events.filterMap Event.lasting?).filter (·.store = i)).map (·.what) := by
    induction events with
    | nil => rfl
    | cons e rest ih =>
      by_cases here : e.store = i <;> cases kept : e.what.lasting? <;>
        simp_all [Happening.lasting, Event.lasting?]
  rw [history, part, lasting, List.filterMap_reverse]

/-- **In worlds that are alike counters agree**, as they count what happened. -/
theorem Alike.counters (alike : w.Alike .all pair now v) (booked : w.Booked) (booked' : v.Booked)
    (i : Nat) : (w.store i).counters.Agree (v.store i).counters := by
  intro c lasts
  rw [booked.counters i c, booked'.counters i c, ← Happening.tally_lasting _ lasts,
    ← Happening.tally_lasting (v.history i) lasts, lasting_history, lasting_history,
    (alike.whole rfl).lasting]

/-- In worlds that are alike as many keys are held. -/
theorem Alike.heldCount (alike : w.Alike .all pair now v) (sound : w.Sound) (sound' : v.Sound)
    (i : Nat) : (w.store i).heldCount now = (v.store i).heldCount now :=
  Locks.liveCount_eq_of_live? (sound.placed i) (sound'.placed i)
    (fun key => ((alike.stores i).locks key trivial).isSome)

/-- A change that is made in both worlds is counted in both. -/
theorem Alike.change (alike : w.Alike scope pair now v) :
    { w with changes := w.changes + 1 }.Alike scope pair now
      { v with changes := v.changes + 1 } where
  current := alike.current
  length := alike.length
  stores := alike.stores
  whole all := { alike.whole all with changes := by rw [(alike.whole all).changes] }

/-- A change is tried with the same success. -/
theorem Alike.tryChange (alike : w.Alike scope pair now v) {key : Bytes}
    (covered : scope.Covers key) (holder : Bytes) (fault : Option Fault) :
    (w.tryChange now key holder fault).1.Alike scope pair now (v.tryChange now key holder fault).1
      ∧ Operation.Agree scope (.tryChange key holder fault) (w.tryChange now key holder fault).2
        (v.tryChange now key holder fault).2 := by
  have asked := alike.on_current (·.permits now key holder)
    ((alike.stores w.current).permits covered holder)
  have counted {x y : World} (alike : x.Alike scope pair now y) (made : Bool) :
      Operation.Agree scope (.tryChange key holder fault) (.changed made x.changes)
        (.changed made y.changes) := by
    by_cases all : scope = .all
    · exact .inl (by rw [(alike.whole all).changes])
    · exact .inr ⟨all, made, x.changes, y.changes, rfl, rfl⟩
  unfold World.tryChange
  generalize w.on now w.current _ = x at asked
  generalize v.on now v.current _ = y at asked
  obtain ⟨w', permitted⟩ := x
  obtain ⟨v', permitted'⟩ := y
  obtain ⟨asked, rfl⟩ := asked
  cases permitted with
  | false => exact ⟨asked, counted asked false⟩
  | true =>
    cases fault with
    | none => exact ⟨asked.change, counted asked.change true⟩
    | some fault => exact ⟨asked.change, .inl rfl⟩

/-- **What is asked about a lock** is answered from holds that are
counterparts. -/
theorem Alike.asked (alike : w.Alike scope pair now v) {key : Bytes} (covered : scope.Covers key)
    {A : Reply → Reply → Prop} (reply : Option Hold → Reply) (none : A (reply none) (reply none))
    (some : ∀ {g h : Hold}, g.Alike (pair w.current key) h → A (reply (some g)) (reply (some h))) :
    (w.on now w.current (·.look now key)).1.Alike scope pair now
        (v.on now v.current (·.look now key)).1
      ∧ A (reply (w.on now w.current (·.look now key)).2)
        (reply (v.on now v.current (·.look now key)).2) := by
  have looked := alike.on_current (·.look now key) ((alike.stores w.current).look covered)
  refine ⟨looked.1, ?_⟩
  generalize (w.on now w.current (·.look now key)).2 = held at looked
  generalize (v.on now v.current (·.look now key)).2 = held' at looked
  cases looked.2 with
  | none => exact none
  | some same => exact some same

/-- An operation of the current store that comes to nothing but a fault. -/
theorem Alike.attempted (alike : w.Alike scope pair now v)
    {f : Store → Outcome Store (Except Fault Unit)}
    (agree : (f (w.store w.current)).Agree (Store.Alike scope (pair w.current) now) Eq
      (f (v.store w.current))) {o : Operation}
    (performs : ∀ u : World, u.perform now o
      = match u.on now u.current f with
        | (u, .ok _) => (u, .done)
        | (u, .error fault) => (u, .failed fault)) :
    (w.perform now o).1.Alike scope pair now (v.perform now o).1
      ∧ (w.perform now o).2 = (v.perform now o).2 := by
  have both := alike.on_current f agree
  rw [performs, performs]
  generalize w.on now w.current f = x at both
  generalize v.on now v.current f = y at both
  obtain ⟨w', answer⟩ := x
  obtain ⟨v', answer'⟩ := y
  obtain ⟨both, rfl⟩ := both
  cases answer <;> exact ⟨both, rfl⟩

/-- **Whatever is done at once keeps worlds alike, and is answered alike.** -/
theorem Alike.perform (alike : w.Alike scope pair now v) (sound : w.Sound) (sound' : v.Sound)
    {o : Operation} (fits : scope.Fits o) :
    (w.perform now o).1.Alike scope pair now (v.perform now o).1
      ∧ o.Agree scope (w.perform now o).2 (v.perform now o).2 := by
  have current := alike.current.symm
  have here := alike.stores w.current
  have there : v.currentStore = v.store w.current := congrArg v.store current
  cases o with
  | release key holder =>
    exact alike.attempted (here.release (fits.covers rfl) .caller holder) (fun _ => rfl)
  | write key content holder =>
    exact alike.attempted (here.write (fits.covers rfl) .caller content holder) (fun _ => rfl)
  | isHeld key =>
    exact alike.asked (fits.covers rfl) (A := Eq) (fun held => .flag held.isSome) rfl
      (fun _ => rfl)
  | isHeldBy key holder =>
    refine alike.asked (fits.covers rfl) (A := Eq)
      (fun held => .flag (held.any (fun h => h.holder = holder))) rfl (fun same => ?_)
    simp only [Option.any_some, same.holder]
  | look key =>
    have asked := alike.asked (fits.covers rfl) (A := Operation.Agree scope (.look key))
      (fun held => held.elim .absent .hold) (.inl ⟨rfl, rfl⟩)
      (fun same => .inr ⟨_, _, rfl, rfl, same.holder, same.since, same.deadline⟩)
    have performs (u : World) : u.perform now (.look key)
        = ((u.on now u.current (·.look now key)).1,
          (u.on now u.current (·.look now key)).2.elim .absent .hold) := by
      rw [World.perform]
      split <;> next eq => rw [eq]; rfl
    rw [performs, performs]
    exact asked
  | heldCount =>
    obtain rfl := fits.all_of rfl rfl
    refine ⟨alike, ?_⟩
    show Reply.count _ = Reply.count _
    rw [there, ← alike.heldCount sound sound' w.current, currentStore]
  | counters =>
    obtain rfl := fits.all_of rfl rfl
    have agree := alike.counters sound.booked sound'.booked w.current
    rw [← there] at agree
    exact ⟨alike, _, _, agree, rfl, rfl⟩
  | handleInfo slot =>
    obtain rfl := fits.all_of rfl rfl
    have same : (w.perform now (.handleInfo slot)).2 = (v.perform now (.handleInfo slot)).2 := by
      rw [World.perform, World.perform, (alike.whole rfl).slots]
      split <;> rfl
    have kept (u : World) : (u.perform now (.handleInfo slot)).1 = u := by
      rw [World.perform]
      split <;> rfl
    rw [kept, kept]
    exact ⟨alike, same⟩
  | handleRelease slot =>
    obtain rfl := fits.all_of rfl rfl
    exact alike.handleRelease slot
  | handleDestroy slot =>
    obtain rfl := fits.all_of rfl rfl
    exact alike.handleDestroy slot
  | handleMove source target =>
    obtain rfl := fits.all_of rfl rfl
    exact alike.move source target
  | tryChange key holder fault => exact alike.tryChange (fits.covers rfl) holder fault
  | sweep =>
    have swept := alike.on_current (·.sweep now) here.sweep
    exact ⟨swept.1, _, _, rfl, rfl⟩
  | clear =>
    have cleared := alike.on_current (·.clearLocks) here.clearLocks
    exact ⟨cleared.1, rfl⟩
  | read key =>
    have read := alike.on_current (·.read key) (here.read (fits.covers rfl))
    rw [World.perform, World.perform]
    generalize w.on now w.current _ = x at read
    generalize v.on now v.current _ = y at read
    obtain ⟨w', answer⟩ := x
    obtain ⟨v', answer'⟩ := y
    obtain ⟨read, rfl⟩ := read
    cases answer <;> exact ⟨read, rfl⟩
  | contains key =>
    refine ⟨alike, ?_⟩
    show Reply.flag _ = Reply.flag _
    rw [there, Records.contains, Records.contains, ← here.records key (fits.covers rfl),
      currentStore]
  | recordTotal =>
    obtain rfl := fits.all_of rfl rfl
    refine ⟨alike, ?_⟩
    show Reply.count _ = Reply.count _
    rw [there, Store.recordTotal, Store.recordTotal, ← (here.whole rfl).2, currentStore]
  | settings =>
    obtain rfl := fits.all_of rfl rfl
    refine ⟨alike, ?_⟩
    show Reply.settings _ = Reply.settings _
    rw [there, ← (here.whole rfl).1, currentStore]
  | metrics =>
    obtain rfl := fits.all_of rfl rfl
    have agree := alike.counters sound.booked sound'.booked w.current
    rw [← there] at agree
    exact ⟨alike, _, _, agree, rfl, rfl⟩
  | highlights =>
    obtain rfl := fits.all_of rfl rfl
    refine ⟨alike, ?_⟩
    have agree := alike.counters sound.booked sound'.booked w.current
    have same : w.currentStore.counters.highlights = v.currentStore.counters.highlights := by
      rw [← there] at agree
      exact List.map_congr_left (fun c mem => agree c (by
        simp only [List.mem_cons, List.not_mem_nil, or_false] at mem
        obtain rfl | rfl | rfl | rfl := mem <;> rfl))
    exact congrArg Reply.numbers same
  | serve request =>
    obtain rfl := fits.all_of rfl rfl
    have served := alike.on_current (·.serve now request)
      (here.serve (alike.counters sound.booked sound'.booked w.current) request)
    exact ⟨served.1, _, _, served.2, rfl, rfl⟩
  | inspect key version keepAlive =>
    have inspected := alike.on_current (·.inspectLock now key version keepAlive)
      (here.inspectLock (fits.covers rfl) version keepAlive)
    exact ⟨inspected.1, congrArg Reply.response inspected.2⟩
  | setEnvironment env =>
    obtain rfl := fits.all_of rfl rfl
    exact ⟨⟨alike.current, alike.length, alike.stores,
      fun all => { alike.whole all with environment := rfl }⟩, rfl⟩
  | newStore settings =>
    obtain rfl := fits.all_of rfl rfl
    refine ⟨alike.addStore settings, ?_⟩
    show Reply.turned _ _ = Reply.turned _ _
    rw [alike.length]
  | shared =>
    obtain rfl := fits.all_of rfl rfl
    exact alike.turnToShared
  | forgetShared =>
    obtain rfl := fits.all_of rfl rfl
    exact ⟨alike.share none, rfl⟩
  | use i =>
    obtain rfl := fits.all_of rfl rfl
    refine ⟨?_, rfl⟩
    rw [World.perform, World.perform, ← alike.length]
    dsimp only
    split
    · exact alike.turn i
    · exact alike

/-! ## New worlds -/

/-- **New worlds are alike**, no generation having been given. One key is
looked at whatever cells the keys are spread over. -/
theorem alike_new {hash hash' : Bytes → Nat} {settings settings' : StoreSettings}
    (environment : Environment) (defaultHold : settings.defaultHold = settings'.defaultHold)
    (whole : scope = .all → hash = hash' ∧ settings = settings') :
    (new hash settings environment).Alike scope (fun _ _ _ _ => False) now
      (new hash' settings' environment) := by
  refine ⟨rfl, rfl, fun i => ?_, fun all => ?_⟩
  · cases i with
    | zero => exact Store.alike_new defaultHold whole
    | succ i => exact Store.alike_new rfl (fun _ => ⟨rfl, rfl⟩)
  · obtain ⟨rfl, rfl⟩ := whole all
    exact ⟨rfl, rfl, rfl, rfl, rfl, rfl⟩

/-- A new world is sound. -/
theorem sound_new (hash : Bytes → Nat) (settings : StoreSettings) (environment : Environment) :
    (new hash settings environment).Sound where
  booked := booked_new hash settings environment
  placed i := by
    cases i with
    | zero => exact Locks.placed_new hash settings.shards
    | succ i => exact Locks.placed_new _ _

end World
end AdvisoryStore
