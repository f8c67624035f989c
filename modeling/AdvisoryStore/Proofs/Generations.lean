import AdvisoryStore.Proofs.Founding
import AdvisoryStore.Proofs.Origins
import AdvisoryStore.Proofs.Placement

/-!
# The table of holds

What is stored of the locks is a table, spread over cells. Exclusion, the books,
and whoever waits for the end of one hold among others rest on its order: every
key is in the cell that the hash selects, and there once, and the holds of a cell
have generations of their own, smaller than that of the next grant
(`Locks.Ordered`).

The order of generations is that of the grants, and the grants are on record. The
generation of a hold is the place of its grant among all the grants of the cell
(`World.Recorded`), whatever became of the holds in between – released, found to be
over, swept up or cleared away. So no generation is given twice.

What a hold says never changes while it is stored. A change of the world either
takes entries out of the table and leaves the others as they are, or it puts in
one entry where none was (`World.Alters`).
-/

namespace AdvisoryStore

/-- **A grant on record**: the key, the holder, and when. -/
structure Grant where
  key : Bytes
  holder : Bytes
  time : Instant
  deriving DecidableEq, Repr

/-- The grant of a lock that something tells of which happens at an instant. -/
def Happening.grant? (now : Instant) : Happening → Option Grant
  | acquired _ key holder _ => some ⟨key, holder, now⟩
  | _ => none

/-- The grants among what happens at an instant. -/
def Happening.grants (now : Instant) (happened : List Happening) : List Grant :=
  happened.filterMap (Happening.grant? now)

/-! ## Cells after a change -/

namespace Sharded

variable {σ : Type} (s : Sharded σ)

/-- A change of a key's cell leaves the other cells. -/
theorem getElem_update (key : Bytes) (f : σ → σ) {n : Nat} (there : n < s.count)
    (still : n < (s.update key f).count) :
    (s.update key f).cells[n]
      = if (s.pick key : Nat) = n then f (s.get key) else s.cells[n] :=
  Vector.getElem_set (s.pick key).isLt there

end Sharded

/-! ## The record and the table -/

namespace Locks

variable {l m : Locks} {now : Instant} {record : Nat → List Grant} {happened : List Happening}

/-- Those of the grants whose keys belong to a cell. -/
def grantsAt (l : Locks) (grants : List Grant) (n : Nat) : List Grant :=
  grants.filter (fun g => (l.cells.pick g.key : Nat) = n)

/-- **The generations of a cell are the places of its grants** in a record of
them, and the next generation is their number. -/
structure Recorded (record : Nat → List Grant) (l : Locks) : Prop where
  counted : ∀ n (there : n < l.cells.count), l.cells.cells[n].grants = (record n).length
  stored : ∀ key h, l.stored? key = some h →
    (record (l.cells.pick key))[h.generation]? = some ⟨key, h.holder, h.since⟩

/-- **What becomes of the table of holds**, and of its record. -/
inductive Alters (now : Instant) (l m : Locks) (record record' : Nat → List Grant) : Prop
  /-- Some entries are taken out, and the others stay as they are. -/
  | sheds (entries : ∀ key, m.stored? key = l.stored? key ∨ m.stored? key = none)
      (same : ∀ n, record' n = record n)
  /-- One entry is put in where none was. Its generation is the number of grants
  that there were in its cell. -/
  | inserts (key holder : Bytes) (deadline : Option Instant) (absent : l.stored? key = none)
      (entries : ∀ other, m.stored? other
        = if other = key then
            some ⟨holder, now, deadline, (record (l.cells.pick key)).length⟩
          else l.stored? other)
      (grown : ∀ n, record' n
        = if (l.cells.pick key : Nat) = n then record n ++ [⟨key, holder, now⟩] else record n)

/-- No change of the locks moves a key to another cell. -/
theorem Occurs.cells (occurs : l.Occurs now happened m) :
    m.cells.count = l.cells.count
      ∧ ∀ key, (m.cells.pick key : Nat) = l.cells.pick key := by
  cases occurs <;> exact ⟨rfl, fun _ => rfl⟩

/-- How the grants of a cell are counted where the cell of a key changes. -/
theorem grants_update (l : Locks) (key : Bytes) (f : LockCell → LockCell) (more : Nat)
    (changed : ∀ c, (f c).grants = c.grants + more) {n : Nat} (there : n < l.cells.count)
    (still : n < (l.cells.update key f).count) :
    (l.cells.update key f).cells[n].grants
      = l.cells.cells[n].grants + if (l.cells.pick key : Nat) = n then more else 0 := by
  rw [Sharded.getElem_update _ _ _ there]
  split
  · next own =>
    subst own
    exact changed _
  · rfl

/-- What is swept up was not granted. -/
theorem grants_sweep_happened (l : Locks) (now : Instant) :
    Happening.grants now (l.sweep now).happened = [] := by
  refine List.filterMap_eq_nil_iff.mpr (fun what mem => ?_)
  obtain ⟨key, heldBy, rfl⟩ := of_mem_sweep mem
  rfl

/-- **A change of the locks takes entries out, or puts one in.** -/
theorem Occurs.alters (occurs : l.Occurs now happened m) (recorded : l.Recorded record) :
    l.Alters now m record
      (fun n => record n ++ l.grantsAt (Happening.grants now happened) n) := by
  have dropped (key other : Bytes) :
      (l.drop key).stored? other = l.stored? other ∨ (l.drop key).stored? other = none := by
    rw [stored?_drop]
    split
    · exact .inr rfl
    · exact .inl rfl
  cases occurs with
  | expire => exact .sheds (dropped _) (fun n => List.append_nil _)
  | @grant key absent claimant holder waited hold =>
    refine .inserts key holder (hold.bind now.after?) absent (fun other => ?_) (fun n => ?_)
    · rw [stored?_grant, ← recorded.counted _ (l.cells.pick key).isLt]
      rfl
    · show record n ++ ([⟨key, holder, now⟩] : List Grant).filter _ = _
      rw [List.filter_singleton]
      split <;> simp [*]
  | @release key =>
    refine .sheds (fun other => ?_) (fun n => List.append_nil _)
    rw [stored?_ring]
    exact dropped key other
  | sweep =>
    refine .sheds (fun key => ?_) (fun n => ?_)
    · rw [stored?_sweep, live?]
      cases l.stored? key with
      | none => exact .inl rfl
      | some h => cases past : h.expired now <;> simp [past]
    · rw [grants_sweep_happened]
      exact List.append_nil _
  | clear => exact .sheds (fun key => .inr (stored?_clear ..)) (fun n => List.append_nil _)
  | @remark what told =>
    refine .sheds (fun _ => .inl rfl) (fun n => ?_)
    cases what with
    | acquired => exact told.elim
    | _ => exact List.append_nil _

/-- What is stored keeps to the record. -/
theorem Alters.stored {record' : Nat → List Grant} (alters : l.Alters now m record record')
    (recorded : l.Recorded record) {key : Bytes} {h : Hold} (stored : m.stored? key = some h) :
    (record' (l.cells.pick key))[h.generation]? = some ⟨key, h.holder, h.since⟩ := by
  cases alters with
  | sheds entries same =>
    obtain before | gone := entries key
    · rw [before] at stored
      rw [same]
      exact recorded.stored key h stored
    · rw [gone] at stored
      cases stored
  | inserts granted holder deadline absent entries grown =>
    rw [entries] at stored
    rw [grown]
    split at stored
    · next own =>
      cases stored
      rw [own, if_pos rfl]
      exact List.getElem?_concat_length
    · have before := recorded.stored key h stored
      split
      · rw [List.getElem?_append_left (List.getElem?_eq_some_iff.mp before).1]
        exact before
      · exact before

/-- A change of the locks counts the grants of each cell. -/
theorem Occurs.counted (occurs : l.Occurs now happened m) {n : Nat} (there : n < m.cells.count)
    (before : n < l.cells.count) :
    m.cells.cells[n].grants
      = l.cells.cells[n].grants + (l.grantsAt (Happening.grants now happened) n).length := by
  have dropped (key : Bytes) (still : n < (l.drop key).cells.count) :
      (l.drop key).cells.cells[n].grants
      = l.cells.cells[n].grants := by
    refine (l.grants_update key (LockCell.drop key) 0 (fun _ => rfl) before still).trans ?_
    rw [ite_self, Nat.add_zero]
  cases occurs with
  | expire => exact dropped _ there
  | @grant key absent claimant holder waited hold =>
    refine (l.grants_update key (LockCell.grant key holder now _) 1 (fun _ => rfl) before
      there).trans (congrArg (_ + ·) ?_)
    show _ = (([⟨key, holder, now⟩] : List Grant).filter _).length
    rw [List.filter_singleton]
    split <;> simp [*]
  | @release key =>
    refine ((l.drop key).grants_update key LockCell.ring 0 (fun _ => rfl) before there).trans ?_
    rw [ite_self, Nat.add_zero]
    exact dropped key before
  | sweep =>
    have swept : (l.cells.cells[n].sweep now).grants = l.cells.cells[n].grants := by
      rw [LockCell.sweep]
      split <;> rfl
    rw [grants_sweep_happened]
    exact (congrArg LockCell.grants (Vector.getElem_map _ before)).trans swept
  | clear =>
    exact (congrArg LockCell.grants (Vector.getElem_map LockCell.clear before)).trans rfl
  | @remark what told =>
    cases what with
    | acquired => exact told.elim
    | _ => rfl

/-- **Every change of the locks keeps to the record.** -/
theorem Occurs.recorded (occurs : l.Occurs now happened m) (recorded : l.Recorded record) :
    m.Recorded (fun n => record n ++ l.grantsAt (Happening.grants now happened) n) := by
  refine ⟨fun n there => ?_, fun key h stored => ?_⟩
  · have before : n < l.cells.count := by rwa [occurs.cells.1] at there
    rw [occurs.counted there before, recorded.counted n before, List.length_append]
  · have place : (m.cells.pick key : Nat) = l.cells.pick key := occurs.cells.2 key
    rw [place]
    exact (occurs.alters recorded).stored recorded stored

/-- Of new locks nothing is stored, and there have been no grants. -/
theorem recorded_new (hash : Bytes → Nat) (shards : Nat) :
    (new hash shards).Recorded (fun _ => []) := by
  refine ⟨fun n there => ?_, fun key h stored => ?_⟩
  · exact congrArg LockCell.grants (Vector.getElem_replicate there)
  · rw [stored?_new] at stored
    cases stored

end Locks

/-! ## The record of a world -/

/-- **Every change of a store is one of its table of holds**, with the grants
among what happened on record. -/
theorem Store.Occurs.locks_grants {s t : Store} {now : Instant} {happened : List Happening}
    (occurs : s.Occurs now happened t) :
    s.locks.Occurs now happened t.locks
      ∨ t.locks = s.locks ∧ Happening.grants now happened = [] := by
  cases occurs with
  | locks occurs => exact .inl occurs
  | write => exact .inr ⟨rfl, rfl⟩
  | @remark what told =>
    refine .inr ⟨rfl, ?_⟩
    cases what with
    | acquired => exact told.elim
    | _ => rfl

namespace World

variable {P : Event → Prop} {now : Instant} {w w' : World} {i : Nat}

/-- **The grants in a store**, oldest first. -/
def grantsIn (w : World) (i : Nat) : List Grant :=
  (w.events.reverse.filter (·.store = i)).filterMap (fun e => e.what.grant? e.time)

/-- **The grants in a cell of a store**, oldest first. -/
def grantsOf (w : World) (i n : Nat) : List Grant :=
  (w.store i).locks.grantsAt (w.grantsIn i) n

/-- What a change adds to the grants in a store. -/
theorem grantsIn_of_suffix (later : w.events <:+ w'.events) (i : Nat) :
    w'.grantsIn i = w.grantsIn i
      ++ ((w.since w').filter (·.store = i)).filterMap (fun e => e.what.grant? e.time) := by
  obtain ⟨added, eq⟩ := later
  unfold grantsIn since
  rw [← eq, addedTo_append, List.reverse_append, List.filter_append, List.filterMap_append]

/-- **A change as the locks of one store see it.** -/
theorem Change.locks_cases (change : Change P now w w') (i : Nat) :
    (∃ happened, (w.store i).locks.Occurs now happened (w'.store i).locks
        ∧ w'.grantsIn i = w.grantsIn i ++ Happening.grants now happened)
      ∨ ((w'.store i).locks = (w.store i).locks ∧ w'.grantsIn i = w.grantsIn i)
      ∨ (w.store i = default ∧ w'.grantsIn i = w.grantsIn i
        ∧ ∃ settings, w'.store i = .new w.hash settings) := by
  rw [grantsIn_of_suffix change.events.1]
  obtain ⟨happened, occurs, since_eq⟩ | ⟨same, apart⟩ | ⟨absent, since_eq, new⟩ :=
    change.store_cases i
  · have here : (happened.map (Event.mk i now)).filter (·.store = i)
        = happened.map (Event.mk i now) :=
      List.filter_eq_self.mpr (List.forall_mem_map.mpr (fun _ _ => decide_eq_true rfl))
    have grants : ((happened.map (Event.mk i now)).filterMap (fun e => e.what.grant? e.time))
        = Happening.grants now happened := List.filterMap_map
    rw [since_eq, here, grants]
    obtain occurs | ⟨same, none_granted⟩ := occurs.locks_grants
    · exact .inl ⟨happened, occurs, rfl⟩
    · rw [none_granted, List.append_nil]
      exact .inr (.inl ⟨same, rfl⟩)
  · have none_here : (w.since w').filter (·.store = i) = [] :=
      List.filter_eq_nil_iff.mpr (fun e mem => by simpa using apart e mem)
    rw [none_here, List.filterMap_nil, List.append_nil]
    exact .inr (.inl ⟨by rw [same], rfl⟩)
  · rw [since_eq, List.filter_nil, List.filterMap_nil, List.append_nil]
    exact .inr (.inr ⟨store_of_length_le absent, rfl, new⟩)

/-- **The generations in a world are the places of its grants.** -/
def Recorded (w : World) : Prop := ∀ i, (w.store i).locks.Recorded (w.grantsOf i)

/-- **What becomes of the tables of holds** by one change. -/
def Alters (now : Instant) (w w' : World) : Prop :=
  ∀ i, (w.store i).locks.Alters now (w'.store i).locks (w.grantsOf i) (w'.grantsOf i)

/-- In a store that is not there nothing was granted. -/
theorem Recorded.grantsIn_eq_nil (recorded : w.Recorded) (absent : w.store i = default) :
    w.grantsIn i = [] := by
  have counted := (recorded i).counted 0
  rw [grantsOf, absent] at counted
  -- all keys belong to the first cell
  have all : (default : Store).locks.grantsAt (w.grantsIn i) 0 = w.grantsIn i :=
    List.filter_eq_self.mpr fun g _ => decide_eq_true rfl
  rw [all] at counted
  exact List.eq_nil_of_length_eq_zero (counted (Sharded.cellCount_pos _)).symm

/-- **Every change keeps to the record**, and alters the tables of holds in one of
two ways. -/
theorem Change.recorded (change : Change P now w w') (recorded : w.Recorded) :
    w'.Recorded ∧ w.Alters now w' := by
  have each (i : Nat) : (w'.store i).locks.Recorded (w'.grantsOf i)
      ∧ (w.store i).locks.Alters now (w'.store i).locks (w.grantsOf i) (w'.grantsOf i) := by
    obtain ⟨happened, occurs, grown⟩ | ⟨same, grown⟩ | ⟨absent, grown, settings, new⟩ :=
      change.locks_cases i
    · have grown : w'.grantsOf i = fun n => w.grantsOf i n
          ++ (w.store i).locks.grantsAt (Happening.grants now happened) n := funext fun n => by
        unfold grantsOf Locks.grantsAt
        rw [grown, List.filter_append]
        simp only [occurs.cells.2]
      rw [grown]
      exact ⟨occurs.recorded (recorded i), occurs.alters (recorded i)⟩
    · have grown : w'.grantsOf i = w.grantsOf i := funext fun n => by
        rw [grantsOf, grantsOf, same, grown]
      rw [grown, same]
      exact ⟨recorded i, .sheds (fun _ => .inl rfl) (fun _ => rfl)⟩
    · have nothing := recorded.grantsIn_eq_nil absent
      have before : w.grantsOf i = fun _ => [] := funext fun n => by
        rw [grantsOf, nothing]
        rfl
      have after : w'.grantsOf i = fun _ => [] := funext fun n => by
        rw [grantsOf, grown, nothing]
        rfl
      rw [before, after, new]
      exact ⟨Locks.recorded_new .., .sheds (fun key => .inr (Locks.stored?_new ..)) (fun _ => rfl)⟩
  exact ⟨fun i => (each i).1, fun i => (each i).2⟩

theorem Evolves.recorded (evolves : Evolves P now w w') (recorded : w.Recorded) :
    w'.Recorded ∧ Relation.ReflTransGen (Alters now) w w' := by
  induction evolves with
  | refl => exact ⟨recorded, .refl⟩
  | tail _ change ih =>
    obtain ⟨kept, alters⟩ := change.recorded ih.1
    exact ⟨kept, ih.2.tail alters⟩

/-- **No grant is struck from the record.** -/
theorem grantsOf_prefix_of_alters (alters : Relation.ReflTransGen (Alters now) w w') (i n : Nat) :
    w.grantsOf i n <+: w'.grantsOf i n := by
  induction alters with
  | refl => exact List.prefix_refl _
  | tail _ alters ih =>
    refine ih.trans ?_
    cases alters i with
    | sheds _ same => exact (same n).symm ▸ List.prefix_refl _
    | inserts _ _ _ _ _ grown =>
      rw [grown]
      split
      · exact List.prefix_append _ _
      · exact List.prefix_refl _

end World

/-! ## The order of the table -/

/-- **A cell is in order**: its keys belong to it, each is there once, and its holds
have generations of their own, which lie behind the next, and are the places of
their grants. -/
structure LockCell.Ordered (belongs : Bytes → Prop) (record : List Grant) (c : LockCell) :
    Prop where
  own : ∀ key ∈ c.holds.keys, belongs key
  once : c.holds.keys.Nodup
  behind : ∀ e ∈ c.holds.entries, e.2.generation < c.grants
  apart : (c.holds.entries.map (fun e => e.2.generation)).Nodup
  counted : c.grants = record.length
  recorded : ∀ e ∈ c.holds.entries, record[e.2.generation]? = some ⟨e.1, e.2.holder, e.2.since⟩

/-- **The table of holds is in order**: there are as many cells as were asked for,
a key is looked for where the hash sends it, and each cell is in order. -/
structure Locks.Ordered (hash : Bytes → Nat) (shards : Nat) (record : Nat → List Grant)
    (l : Locks) : Prop where
  count : l.cells.count = Sharded.cellCount shards
  pick : ∀ key, (l.cells.pick key : Nat) = hash key % Sharded.cellCount shards
  cells : ∀ n (there : n < l.cells.count),
    l.cells.cells[n].Ordered (fun key => hash key % Sharded.cellCount shards = n) (record n)

/-- A store spreads its keys by this hash, over as many cells as its settings say. -/
def Store.Spreads (hash : Bytes → Nat) (s : Store) : Prop :=
  s.locks.cells.count = Sharded.cellCount s.settings.shards
    ∧ ∀ key, (s.locks.cells.pick key : Nat) = hash key % Sharded.cellCount s.settings.shards

theorem Store.Spreads.occurs {hash : Bytes → Nat} {s t : Store} {now : Instant}
    {happened : List Happening} (spreads : s.Spreads hash) (occurs : s.Occurs now happened t) :
    t.Spreads hash := by
  unfold Spreads
  rw [occurs.settings]
  obtain moved | same := occurs.locks_cases
  · refine ⟨moved.cells.1.trans spreads.1, fun key => ?_⟩
    rw [moved.cells.2]
    exact spreads.2 key
  · rw [same]
    exact spreads

/-- **What is in its place and on record is in order.** -/
theorem Locks.ordered_of_recorded {hash : Bytes → Nat} {shards : Nat} {record : Nat → List Grant}
    {l : Locks} (count : l.cells.count = Sharded.cellCount shards)
    (pick : ∀ key, (l.cells.pick key : Nat) = hash key % Sharded.cellCount shards)
    (placed : l.Placed) (recorded : l.Recorded record) : l.Ordered hash shards record := by
  refine ⟨count, pick, fun n there => ?_⟩
  have own (key : Bytes) (mem : key ∈ l.cells.cells[n].holds.keys) :
      (l.cells.pick key : Nat) = n := placed n there key mem
  have shown (e : Bytes × Hold) (mem : e ∈ l.cells.cells[n].holds.entries) :
      (record n)[e.2.generation]? = some ⟨e.1, e.2.holder, e.2.since⟩ := by
    have here := own e.1 (List.mem_map_of_mem mem)
    subst here
    exact recorded.stored e.1 e.2 (KeyMap.get?_eq_some_iff.mpr mem)
  refine ⟨fun key mem => (pick key).symm.trans (own key mem), l.cells.cells[n].holds.nodup,
    fun e mem => ?_, ?_, recorded.counted n there, shown⟩
  · rw [recorded.counted n there]
    exact (List.getElem?_eq_some_iff.mp (shown e mem)).1
  · refine List.Nodup.map_on (fun e mem e' mem' same => ?_) l.cells.cells[n].holds.nodup.of_map
    -- two holds of one generation have one grant, and so one key
    have grant := shown e mem
    rw [show e.2.generation = e'.2.generation from same, shown e' mem'] at grant
    have key : e'.1 = e.1 := congrArg Grant.key (Option.some.inj grant)
    have found := KeyMap.get?_eq_some_iff.mpr mem'
    rw [key, KeyMap.get?_eq_some_iff.mpr (show (e.1, e.2) ∈ _ from mem)] at found
    exact Prod.ext key.symm (Option.some.inj found)

namespace Scene

variable {s s' : Scene} {hash : Bytes → Nat} {settings : StoreSettings}
  {environment : Environment} {now : Instant}

theorem Step.recorded (step : s.Step s') (recorded : s.world.Recorded) :
    s'.world.Recorded ∧ Relation.ReflTransGen (World.Alters s.now) s.world s'.world :=
  World.Evolves.recorded step.evolves recorded

/-- **The record of a cell only grows**, whatever one scene leads to. -/
theorem Leads.recorded (leads : s.Leads s') (recorded : s.world.Recorded) :
    s'.world.Recorded ∧ ∀ i n, s.world.grantsOf i n <+: s'.world.grantsOf i n := by
  induction leads with
  | refl => exact ⟨recorded, fun _ _ => List.prefix_refl _⟩
  | tail _ step ih =>
    obtain ⟨kept, alters⟩ := step.recorded ih.1
    exact ⟨kept, fun i n => (ih.2 i n).trans (World.grantsOf_prefix_of_alters alters i n)⟩

/-- When a session starts nothing has been granted. -/
theorem recorded_start (hash : Bytes → Nat) (settings : StoreSettings)
    (environment : Environment) : (World.new hash settings environment).Recorded := by
  intro i
  have nothing : (World.new hash settings environment).grantsOf i = fun _ => [] := rfl
  rw [nothing]
  cases i with
  | zero => exact Locks.recorded_new ..
  | succ i =>
    rw [World.store_of_length_le (Nat.le_add_left 1 i)]
    exact Locks.recorded_new ..

/-- Every store of a session spreads its keys by the hash of the session. -/
theorem Leads.spreads (reached : Leads ⟨now, .new hash settings environment, []⟩ s) :
    ∀ i < s.world.stores.length, (s.world.store i).Spreads hash := by
  obtain ⟨strides, path⟩ := reached.path
  refine path.store_invariant (fun occurs spreads => spreads.occurs occurs)
    (fun _ _ settings _ => ⟨rfl, fun _ => rfl⟩) (fun i there => ?_)
  obtain rfl : i = 0 := Nat.lt_one_iff.mp there
  exact ⟨rfl, fun _ => rfl⟩

/-- A key stays in its cell. -/
theorem Leads.pick_eq (reached : Leads ⟨now, .new hash settings environment, []⟩ s)
    (further : s.Leads s') {i : Nat} (there : i < s.world.stores.length) (key : Bytes) :
    ((s'.world.store i).locks.cells.pick key : Nat) = (s.world.store i).locks.cells.pick key := by
  obtain ⟨strides, path⟩ := Leads.path further
  have still := Nat.lt_of_lt_of_le there path.length_le
  rw [(Leads.spreads reached i there).2, (Leads.spreads (reached.trans further) i still).2,
    path.settings there]

/-- **The table of holds is in order** in whatever scene a session comes to, and its
generations are never used again.

Each step from there is made of changes by which entries are taken out, or one is
put in where none was, with the number of grants so far as its generation. So
whatever is stored under a generation in a cell, now or later, is the one hold of
the one key to which the generation was given. -/
theorem table_ordered (reached : Leads ⟨now, .new hash settings environment, []⟩ s) :
    (∀ i < s.world.stores.length, (s.world.store i).locks.Ordered hash
        (s.world.store i).settings.shards (s.world.grantsOf i))
      ∧ (∀ s', s.Step s' → Relation.ReflTransGen (World.Alters s.now) s.world s'.world)
      ∧ ∀ s', s.Leads s' → ∀ i < s.world.stores.length,
        (∀ n, s.world.grantsOf i n <+: s'.world.grantsOf i n)
        ∧ ∀ key key' h h',
          (s.world.store i).locks.cells.pick key = (s.world.store i).locks.cells.pick key' →
          (s.world.store i).locks.stored? key = some h →
          (s'.world.store i).locks.stored? key' = some h' →
          h'.generation = h.generation → key' = key ∧ h' = h := by
  have recorded := (Leads.recorded reached (recorded_start hash settings environment)).1
  refine ⟨fun i there => ?_, fun s' step => (step.recorded recorded).2,
    fun s' further i there => ?_⟩
  · obtain ⟨count, pick⟩ := Leads.spreads reached i there
    exact Locks.ordered_of_recorded count pick (Leads.placed reached i) (recorded i)
  · obtain ⟨recorded', grown⟩ := Leads.recorded further recorded
    refine ⟨grown i, fun key key' h h' cell stored stored' same => ?_⟩
    -- the grant of the earlier hold is still where its generation says
    obtain ⟨behind, grant⟩ := List.getElem?_eq_some_iff.mp ((recorded i).stored key h stored)
    have early := List.prefix_iff_getElem?.mp (grown i _) _ behind
    rw [grant] at early
    have late := (recorded' i).stored key' h' stored'
    rw [Leads.pick_eq reached further there, ← cell, same, early] at late
    obtain rfl : key = key' := congrArg Grant.key (Option.some.inj late)
    exact ⟨rfl, Leads.eq_of_generation further (Leads.numbered reached i) stored stored' same⟩

end Scene

/-- A session in which a key was taken four times: a first hold was over when the
key was taken again, the second was cleared away, and the third was released. Three
keys share two cells by their lengths. -/
def Session.regranted : Session :=
  ((Session.start List.length { shards := 2 } (fun _ => none) 0).carryOutAll
    [.call (.acquire [1] [10] (some 5) none), .call (.acquire [1, 1, 1] [10] none none),
      .advance 10, .call (.acquire [1] [20] (some 5) none), .call (.operation .clear),
      .call (.acquire [1, 1] [10] none none), .call (.acquire [1] [20] none none),
      .call (.operation (.release [1] [20])), .call (.acquire [1] [20] none none)]).1

theorem Scene.table_ordered_of_regranted :
    (Session.regranted.world.store 0).locks.Ordered List.length 2
        (Session.regranted.world.grantsOf 0)
      ∧ (Session.regranted.world.grantsOf 0 1).map Grant.key = [[1], [1, 1, 1], [1], [1], [1]]
      ∧ ((Session.regranted.world.store 0).locks.stored? [1]).map Hold.generation = some 4 := by
  have reached : (Session.start List.length { shards := 2 } (fun _ => none) 0).scene.Leads
      Session.regranted.scene := Session.leads_carryOutAll ..
  have ordered := (Scene.table_ordered reached).1 0 (by decide +kernel)
  have shards : (Session.regranted.scene.world.store 0).settings.shards = 2 := by decide +kernel
  rw [shards] at ordered
  exact ⟨ordered, by decide +kernel, by decide +kernel⟩

end AdvisoryStore
