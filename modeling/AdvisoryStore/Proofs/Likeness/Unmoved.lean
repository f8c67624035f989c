import AdvisoryStore.Proofs.Conservation

/-!
# What leaves keys alone

Much of what is done in a store does not concern a key: what is done under
other keys, even if they share its cell, and what only looks. It drops
holds that are over, rings bells and takes generations, and yet the key is
**unmoved**: what is live of it is live still, its record is the same, and
no generation is given twice.

What is looked at is a `Scope`, one key or all of them. For one key it is
enough that what happens is not about it (`Happening.moves`). For all keys
at once it is enough that nothing happens but what is **fleeting**
(`Happening.lasting?`): holds are reclaimed and requests are counted.
-/

namespace AdvisoryStore

/-- **What is looked at**: one key, or everything. -/
inductive Scope
  | key (k : Bytes)
  | all

/-- The keys that are looked at. -/
def Scope.Covers : Scope → Bytes → Prop
  | key k, other => other = k
  | all, _ => True

namespace Happening

/-- Whether something is a change of a key's lock or record. -/
def moves (key : Bytes) : Happening → Bool
  | acquired _ k _ _ | released _ k _ | wrote _ k _ _ => k = key
  | cleared _ => true
  | _ => false

/-- **What is kept of something that happened** when the fleeting is left
out: that a hold was found to be over, that a request was answered, and of
a clearing how many holds it met. -/
def lasting? : Happening → Option Happening
  | expired .. | swept .. | served _ => none
  | cleared _ => some (.cleared 0)
  | what => some what

/-- What is kept of what happened. -/
def lasting (happened : List Happening) : List Happening := happened.filterMap lasting?

/-- What is kept of two lists of happenings is kept of the one and of the other. -/
@[simp] theorem lasting_append (first rest : List Happening) :
    lasting (first ++ rest) = lasting first ++ lasting rest := List.filterMap_append

end Happening

/-! ## The locks -/

namespace Locks

variable {l m n : Locks} {now : Instant} {key : Bytes} {happened : List Happening}

/-- How many grants there have been in a key's cell. -/
def grants (l : Locks) (key : Bytes) : Nat := (l.cells.get key).grants

/-- Dropping a hold takes back no generation. -/
@[simp] theorem grants_drop (l : Locks) (key other : Bytes) :
    (l.drop key).grants other = l.grants other := by
  unfold grants drop
  rw [Sharded.get_update]
  split <;> rfl

@[simp] theorem grants_ring (l : Locks) (key other : Bytes) :
    (l.ring key).grants other = l.grants other := by
  unfold grants ring
  rw [Sharded.get_update]
  split <;> rfl

/-- A grant takes one generation, in the cell of its key. -/
theorem grants_grant (l : Locks) (key other holder : Bytes) (now : Instant)
    (deadline : Option Instant) :
    (l.grant key holder now deadline).grants other
      = if l.cells.pick other = l.cells.pick key then l.grants other + 1 else l.grants other := by
  unfold grants grant
  rw [Sharded.get_update]
  split <;> rfl

/-- A sweep takes no generation. -/
@[simp] theorem grants_sweep (l : Locks) (now : Instant) (key : Bytes) :
    (l.sweep now).after.grants key = l.grants key := by
  unfold sweep grants
  rw [Sharded.get_map, LockCell.sweep]
  split <;> rfl

/-- Clearing takes back no generation either, so that none is given twice. -/
@[simp] theorem grants_clear (l : Locks) (key : Bytes) :
    l.clear.after.grants key = l.grants key := by
  unfold clear grants
  rw [Sharded.get_map]
  rfl

@[simp] theorem grants_new (hash : Bytes → Nat) (shards : Nat) (key : Bytes) :
    (new hash shards).grants key = 0 := by
  unfold new grants
  rw [Sharded.get_replicate]
  rfl

/-- No grant is taken back. -/
theorem Occurs.grants_le (occurs : l.Occurs now happened m) (key : Bytes) :
    l.grants key ≤ m.grants key := by
  cases occurs with
  | expire => exact Nat.le_of_eq (grants_drop ..).symm
  | grant =>
    rw [grants_grant]
    split
    · exact Nat.le_succ _
    · exact Nat.le_refl _
  | release => exact Nat.le_of_eq ((grants_ring ..).trans (grants_drop ..)).symm
  | sweep => exact Nat.le_of_eq (grants_sweep ..).symm
  | clear => exact Nat.le_of_eq (grants_clear ..).symm
  | remark => exact Nat.le_refl _

/-- **The locks leave a key alone.** -/
structure Unmoved (now : Instant) (key : Bytes) (l m : Locks) : Prop where
  live : m.live? now key = l.live? now key
  grants : l.grants key ≤ m.grants key

theorem Unmoved.refl (l : Locks) : Unmoved now key l l := ⟨rfl, Nat.le_refl _⟩

theorem Unmoved.trans (h : Unmoved now key l m) (more : Unmoved now key m n) :
    Unmoved now key l n :=
  ⟨more.live.trans h.live, Nat.le_trans h.grants more.grants⟩

/-- **What is no change of a key leaves it alone.** -/
theorem Occurs.unmoved (occurs : l.Occurs now happened m)
    (still : ∀ what ∈ happened, what.moves key = false) : Unmoved now key l m := by
  refine ⟨?_, occurs.grants_le key⟩
  have apart {k : Bytes} {what : Happening} (mem : what ∈ happened)
      (about : what.moves key = decide (k = key)) : key ≠ k := fun eq => by
    have moved := still what mem
    rw [about, eq, decide_eq_true rfl] at moved
    cases moved
  cases occurs with
  | @expire k h stored past =>
    -- a hold that is over was not live
    rw [live?_drop]
    split
    · next eq =>
      rw [eq, live?, stored, Option.filter_some, past]
      rfl
    · rfl
  | @grant k absent claimant holder waited hold =>
    rw [live?, stored?_grant, if_neg (apart List.mem_cons_self rfl), live?]
  | @release k h live claimant =>
    rw [live?_ring, live?_drop, if_neg (apart List.mem_cons_self rfl)]
  | sweep => exact l.live?_sweep now key
  | clear =>
    have moved := still (.cleared l.storedCount) List.mem_cons_self
    cases moved
  | remark => rfl

/-- **Changes that are not about a key leave it unmoved**, however many there are. -/
theorem Unfolds.unmoved (unfolds : l.Unfolds now happened m)
    (still : ∀ what ∈ happened, what.moves key = false) : Unmoved now key l m := by
  induction unfolds with
  | refl => exact .refl _
  | step occurs _ ih =>
    obtain ⟨first, rest⟩ := List.forall_mem_append.mp still
    exact (occurs.unmoved first).trans (ih rest)

end Locks

/-! ## The store -/

namespace Store

variable {scope : Scope} {now : Instant} {s t u : Store} {happened : List Happening}

/-- **A store leaves alone what is looked at.** -/
structure Unmoved (scope : Scope) (now : Instant) (s t : Store) : Prop where
  settings : t.settings = s.settings
  locks : ∀ key, scope.Covers key → s.locks.Unmoved now key t.locks
  records : ∀ key, scope.Covers key → t.records.get? key = s.records.get? key
  whole : scope = .all → t.records = s.records

theorem Unmoved.refl (s : Store) : s.Unmoved scope now s where
  settings := rfl
  locks _ _ := .refl _
  records _ _ := rfl
  whole _ := rfl

theorem Unmoved.trans (h : s.Unmoved scope now t) (more : t.Unmoved scope now u) :
    s.Unmoved scope now u where
  settings := more.settings.trans h.settings
  locks key covered := (h.locks key covered).trans (more.locks key covered)
  records key covered := (more.records key covered).trans (h.records key covered)
  whole all := (more.whole all).trans (h.whole all)

/-- A change of a store that is about no key that is looked at leaves the store
unmoved. -/
theorem Occurs.unmoved (occurs : s.Occurs now happened t)
    (still : ∀ what ∈ happened, ∀ key, scope.Covers key → what.moves key = false) :
    s.Unmoved scope now t := by
  cases occurs with
  | @locks _ l occurs =>
    exact ⟨rfl, fun key covered => occurs.unmoved (fun what mem => still what mem key covered),
      fun _ _ => rfl, fun _ => rfl⟩
  | @write k holder permitted claimant content =>
    have apart {key : Bytes} (covered : scope.Covers key) : key ≠ k := fun eq => by
      have moved := still _ List.mem_cons_self key covered
      rw [Happening.moves, eq, decide_eq_true rfl] at moved
      cases moved
    refine ⟨rfl, fun _ _ => .refl _, fun key covered => ?_, fun all => ?_⟩
    · exact (s.records.get?_put k key content).trans (if_neg (apart covered))
    · subst all
      have covered : Scope.all.Covers k := trivial
      exact absurd rfl (apart covered)
  | remark => exact ⟨rfl, fun _ _ => .refl _, fun _ _ => rfl, fun _ => rfl⟩

/-- **What happens otherwise leaves alone what is looked at.** -/
theorem Unfolds.unmoved (unfolds : s.Unfolds now happened t)
    (still : ∀ what ∈ happened, ∀ key, scope.Covers key → what.moves key = false) :
    s.Unmoved scope now t := by
  induction unfolds with
  | refl => exact .refl _
  | step occurs _ ih =>
    obtain ⟨first, rest⟩ := List.forall_mem_append.mp still
    exact (occurs.unmoved first).trans (ih rest)

end Store

/-! ## The world -/

/-- What is kept of an event when the fleeting is left out. -/
def Event.lasting? (e : Event) : Option Event :=
  e.what.lasting?.map (fun what => { e with what })

namespace World

variable {scope : Scope} {now : Instant} {w w' w'' : World}

/-- **What is kept of what happened in a world**, newest first. -/
def lasting (w : World) : List Event := w.events.filterMap Event.lasting?

/-- What is kept of what happens in a store is kept of the world. -/
theorem lasting_putBack {w : World} {i : Nat} (there : i < w.stores.length) (now : Instant)
    (s : Store) (happened : List Happening) :
    (w.putBack now i s happened).lasting
      = ((Happening.lasting happened).map (Event.mk i now)).reverse ++ w.lasting := by
  have kept : (happened.map (Event.mk i now)).filterMap Event.lasting?
      = (Happening.lasting happened).map (Event.mk i now) := by
    rw [List.filterMap_map, Happening.lasting, List.map_filterMap]
    exact congrArg (happened.filterMap ·) (funext fun what => rfl)
  rw [lasting, events_putBack there, List.filterMap_append, List.filterMap_reverse, kept, lasting]

/-- **What two worlds have in common besides their stores.** -/
structure SameAside (w w' : World) : Prop where
  hash : w'.hash = w.hash
  shared : w'.shared = w.shared
  environment : w'.environment = w.environment
  slots : w'.slots = w.slots
  changes : w'.changes = w.changes
  lasting : w'.lasting = w.lasting

theorem SameAside.refl (w : World) : w.SameAside w := ⟨rfl, rfl, rfl, rfl, rfl, rfl⟩

/-- What is beside the stores is the same along a chain of worlds. -/
theorem SameAside.trans (h : w.SameAside w') (more : w'.SameAside w'') : w.SameAside w'' where
  hash := more.hash.trans h.hash
  shared := more.shared.trans h.shared
  environment := more.environment.trans h.environment
  slots := more.slots.trans h.slots
  changes := more.changes.trans h.changes
  lasting := more.lasting.trans h.lasting

/-- **A world leaves alone what is looked at** in each of its stores, and
turns to no other. When everything is looked at, no more than the fleeting
happens. -/
structure Unmoved (scope : Scope) (now : Instant) (w w' : World) : Prop where
  current : w'.current = w.current
  length : w'.stores.length = w.stores.length
  stores : ∀ i, (w.store i).Unmoved scope now (w'.store i)
  whole : scope = .all → w.SameAside w'

theorem Unmoved.refl (w : World) : w.Unmoved scope now w :=
  ⟨rfl, rfl, fun _ => .refl _, fun _ => .refl _⟩

/-- What is unmoved at every step is unmoved. -/
theorem Unmoved.trans (h : w.Unmoved scope now w') (more : w'.Unmoved scope now w'') :
    w.Unmoved scope now w'' where
  current := more.current.trans h.current
  length := more.length.trans h.length
  stores i := (h.stores i).trans (more.stores i)
  whole all := (h.whole all).trans (more.whole all)

/-- **An operation leaves alone what it does not move.** -/
theorem unmoved_on {α : Type} {i : Nat} {f : Store → Outcome Store α}
    (unfolds : (w.store i).Unfolds now (f (w.store i)).happened (f (w.store i)).after)
    (still : ∀ what ∈ (f (w.store i)).happened, ∀ key, scope.Covers key → what.moves key = false)
    (fleeting : scope = .all → Happening.lasting (f (w.store i)).happened = []) :
    w.Unmoved scope now (w.on now i f).1 := by
  show w.Unmoved scope now (w.putBack now i (f (w.store i)).after (f (w.store i)).happened)
  by_cases there : i < w.stores.length
  · refine ⟨?_, length_putBack .., fun j => ?_, fun all => ?_⟩
    · rw [putBack, if_pos there]
    · rw [store_putBack there]
      split
      · next eq =>
        rw [eq]
        exact unfolds.unmoved still
      · exact .refl _
    · have same := lasting_putBack there now (f (w.store i)).after (f (w.store i)).happened
      rw [fleeting all, List.map_nil, List.reverse_nil, List.nil_append] at same
      rw [putBack, if_pos there] at same ⊢
      exact ⟨rfl, rfl, rfl, rfl, rfl, same⟩
  · rw [putBack_of_not_lt there]
    exact .refl w

end World

/-! ## What only looks -/

/-- **The operations that only look.** A sweep is one of them: it drops no
hold that anybody could still see. -/
def Operation.glances : Operation → Bool
  | sweep | isHeld _ | isHeldBy .. | look _ | heldCount | serve _ | inspect .. => true
  | _ => false

/-- What is fleeting moves no key. -/
theorem Happening.moves_of_fleeting {what : Happening} (fleeting : what.lasting? = none)
    (key : Bytes) : what.moves key = false := by
  cases what with
  | acquired | released | wrote | cleared => cases fleeting
  | _ => rfl

namespace World

variable {scope : Scope} {now : Instant} {w : World}

/-- **What is fleeting leaves everything alone.** -/
theorem unmoved_of_fleeting {α : Type} {i : Nat} (f : Store → Outcome Store α)
    (unfolds : (w.store i).Unfolds now (f (w.store i)).happened (f (w.store i)).after)
    (fleeting : ∀ what ∈ (f (w.store i)).happened, what.lasting? = none) :
    w.Unmoved scope now (w.on now i f).1 :=
  unmoved_on unfolds (fun what mem key _ => Happening.moves_of_fleeting (fleeting what mem) key)
    (fun _ => List.filterMap_eq_nil_iff.mpr fleeting)

/-- **A look moves nothing**, under whatever key. -/
theorem unmoved_look (w : World) (i : Nat) (key : Bytes) :
    w.Unmoved scope now (w.on now i (·.look now key)).1 := by
  refine unmoved_of_fleeting (·.look now key) (Store.unfolds_look ..) (fun what mem => ?_)
  obtain ⟨heldBy, rfl⟩ := Locks.of_mem_consult mem
  rfl

/-- **Who only looks leaves everything alone.** -/
theorem unmoved_glance (w : World) {o : Operation} (glances : o.glances = true) :
    w.Unmoved scope now (w.perform now o).1 := by
  cases o with
  | isHeld key => exact w.unmoved_look w.current key
  | isHeldBy key holder => exact w.unmoved_look w.current key
  | look key =>
    have looked : w.Unmoved scope now _ := w.unmoved_look w.current key
    rw [perform]
    split <;> next eq => rwa [eq] at looked
  | heldCount => exact .refl w
  | sweep =>
    refine unmoved_of_fleeting (·.sweep now) (Store.unfolds_sweep ..) (fun what mem => ?_)
    obtain ⟨key, heldBy, rfl⟩ := Locks.of_mem_sweep mem
    rfl
  | serve request =>
    refine unmoved_of_fleeting (·.serve now request) (Store.unfolds_serve ..) (fun what mem => ?_)
    obtain ⟨topic, rfl⟩ | ⟨key, heldBy, rfl⟩ := Store.of_mem_serve mem <;> rfl
  | inspect key version keepAlive =>
    refine unmoved_of_fleeting (·.inspectLock now key version keepAlive)
      (Store.unfolds_inspectLock ..) (fun what mem => ?_)
    obtain ⟨heldBy, rfl⟩ := Store.of_mem_inspectLock mem
    rfl
  | _ => cases glances

end World

end AdvisoryStore
