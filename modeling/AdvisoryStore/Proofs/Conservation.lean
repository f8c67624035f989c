import Mathlib.Algebra.BigOperators.Group.List.Basic
import Mathlib.Algebra.Ring.Nat
import AdvisoryStore.Proofs.Scenes

/-!
# Where the holds go

Every hold that was ever granted is accounted for: it is stored, or it was
released, or it was found to be over and reclaimed, or it was cleared away.
The books are kept twice. The counters of a store are one set, and what
happened in it (`World.history`) is the other; that they agree, and that
both balance with what is stored, is `World.Booked`, and no change of the
world upsets it.

A sweep is the one operation that looks at all holds at once. It settles
the difference between what is stored and what is live
(`Locks.answer_sweep_add_liveCount`), and leaves nothing for another.
-/

namespace AdvisoryStore

/-! ## How many holds are stored -/

/-- What is stored of a cell is live or overdue. -/
theorem LockCell.liveCount_add_overdue (c : LockCell) (now : Instant) :
    c.liveCount now + (c.overdue now).length = c.holds.size := by
  have split := List.length_eq_length_filter_add (l := c.holds.entries)
    (fun e => !e.2.expired now)
  simp only [Bool.not_not] at split
  exact split.symm

/-- A quantity summed over cells is the sum of a list. -/
theorem Sharded.total_eq_sum {σ : Type} (s : Sharded σ) (f : σ → Nat) :
    s.total f = (s.toList.map f).sum := rfl

namespace Locks

variable {l m : Locks} {now : Instant} {key : Bytes}

/-- **A sweep answers with the difference between what is stored and what
is live.** -/
theorem answer_sweep_add_liveCount (l : Locks) (now : Instant) :
    (l.sweep now).answer + l.liveCount now = l.storedCount := by
  have cells : (fun c : LockCell => (c.overdue now).length + c.liveCount now)
      = fun c => c.holds.size :=
    funext fun c => (Nat.add_comm _ _).trans (c.liveCount_add_overdue now)
  show (l.cells.toList.flatMap (LockCell.overdue now)).length + _ = _
  rw [List.length_flatMap, liveCount, Sharded.total_eq_sum, ← List.sum_map_add, cells]
  rfl

/-- After a sweep what is live is all that is stored. -/
theorem storedCount_sweep (l : Locks) (now : Instant) :
    (l.sweep now).after.storedCount = l.liveCount now := by
  show (l.cells.map (LockCell.sweep now)).total _ = _
  rw [Sharded.total_map]
  simp only [LockCell.holds_sweep]
  rfl

/-- A sweep does not change how much is live. -/
theorem liveCount_sweep (l : Locks) (now : Instant) :
    (l.sweep now).after.liveCount now = l.liveCount now := by
  have again (c : LockCell) : (c.sweep now).liveCount now = c.liveCount now := by
    unfold LockCell.liveCount
    rw [LockCell.holds_sweep]
    show ((c.holds.entries.filter _).filter _).length = (c.holds.entries.filter _).length
    rw [List.filter_filter]
    simp only [Bool.and_self]
  show (l.cells.map (LockCell.sweep now)).total _ = _
  rw [Sharded.total_map]
  simp only [again]
  rfl

/-- **There is nothing to sweep after a sweep.** -/
theorem answer_sweep_sweep (l : Locks) (now : Instant) :
    ((l.sweep now).after.sweep now).answer = 0 := by
  have again := (l.sweep now).after.answer_sweep_add_liveCount now
  rw [liveCount_sweep, storedCount_sweep] at again
  omega

/-- A sweep leaves every live hold as it is, and nothing else. -/
theorem live?_sweep (l : Locks) (now : Instant) (key : Bytes) :
    (l.sweep now).after.live? now key = l.live? now key := by
  rw [live?, stored?_sweep, live?, Option.filter_filter]
  simp only [Bool.and_self]

/-- Who drops a hold that is stored has one less. -/
theorem storedCount_drop {h : Hold} (stored : l.stored? key = some h) :
    (l.drop key).storedCount + 1 = l.storedCount := by
  have fewer : (LockCell.drop key (l.cells.get key)).holds.size + 1
      = (l.cells.get key).holds.size := KeyMap.size_erase_of_get? stored
  have changed : (l.drop key).storedCount + (l.cells.get key).holds.size
      = l.storedCount + (LockCell.drop key (l.cells.get key)).holds.size :=
    l.cells.total_update ..
  omega

/-- A grant where nothing is stored makes one more. -/
theorem storedCount_grant (absent : l.stored? key = none) (holder : Bytes) (now : Instant)
    (deadline : Option Instant) :
    (l.grant key holder now deadline).storedCount = l.storedCount + 1 := by
  have more : (LockCell.grant key holder now deadline (l.cells.get key)).holds.size
      = (l.cells.get key).holds.size + 1 := KeyMap.size_insert_of_get?_eq_none absent _
  have changed : (l.grant key holder now deadline).storedCount + (l.cells.get key).holds.size
      = l.storedCount + (LockCell.grant key holder now deadline (l.cells.get key)).holds.size :=
    l.cells.total_update ..
  omega

@[simp] theorem storedCount_ring (l : Locks) (key : Bytes) :
    (l.ring key).storedCount = l.storedCount := by
  have changed : (l.ring key).storedCount + (l.cells.get key).holds.size
      = l.storedCount + (l.cells.get key).holds.size := l.cells.total_update ..
  exact Nat.add_right_cancel changed

/-- After a clearing nothing is stored. -/
@[simp] theorem storedCount_clear (l : Locks) : l.clear.after.storedCount = 0 := by
  show (l.cells.map LockCell.clear).total _ = 0
  rw [Sharded.total_map]
  exact List.sum_eq_zero (List.forall_mem_map.mpr (fun _ _ => rfl))

@[simp] theorem storedCount_new (hash : Bytes → Nat) (shards : Nat) :
    (new hash shards).storedCount = 0 := by
  refine List.sum_eq_zero (List.forall_mem_map.mpr (fun cell mem => ?_))
  have fresh : cell = LockCell.empty :=
    (List.mem_replicate.mp (by simpa [new, Sharded.replicate, Sharded.toList] using mem)).2
  rw [fresh]
  rfl

end Locks

/-! ## What is counted of what happened -/

namespace Happening

/-- How many holds were cleared away. -/
def dropped : Happening → Nat
  | cleared n => n
  | _ => 0

/-- How often something was counted. -/
def tally (c : Counter) (happened : List Happening) : Nat :=
  (happened.flatMap Happening.counted).count c

/-- How many holds were cleared away in all. -/
def droppedIn (happened : List Happening) : Nat := (happened.map dropped).sum

@[simp] theorem tally_nil (c : Counter) : tally c [] = 0 := rfl

/-- What happened first is counted first. -/
@[simp] theorem tally_cons (c : Counter) (what : Happening) (rest : List Happening) :
    tally c (what :: rest) = what.counted.count c + tally c rest := by
  rw [tally, List.flatMap_cons, List.count_append, tally]

/-- **Counts add up** along what happened. -/
@[simp] theorem tally_append (c : Counter) (first rest : List Happening) :
    tally c (first ++ rest) = tally c first + tally c rest := by
  rw [tally, List.flatMap_append, List.count_append, tally, tally]

@[simp] theorem droppedIn_nil : droppedIn [] = 0 := rfl

@[simp] theorem droppedIn_cons (what : Happening) (rest : List Happening) :
    droppedIn (what :: rest) = what.dropped + droppedIn rest := rfl

/-- What a clearing has dropped adds up along what happened. -/
@[simp] theorem droppedIn_append (first rest : List Happening) :
    droppedIn (first ++ rest) = droppedIn first + droppedIn rest := by
  rw [droppedIn, List.map_append, List.sum_append, droppedIn, droppedIn]

/-- **How many holds came to be stored**, so far as was counted. -/
def granted (happened : List Happening) : Nat :=
  tally .acquiredAtOnce happened + tally .acquiredAfterWait happened

/-- **How many holds ceased to be stored**, so far as was counted or said. -/
def ended (happened : List Happening) : Nat :=
  tally .releases happened + tally .expiredReclaimed happened + droppedIn happened

/-- Grants add up along what happened. -/
theorem granted_append (first rest : List Happening) :
    granted (first ++ rest) = granted first + granted rest := by
  simp only [granted, tally_append]
  omega

/-- So do the ways in which holds end. -/
theorem ended_append (first rest : List Happening) :
    ended (first ++ rest) = ended first + ended rest := by
  simp only [ended, tally_append, droppedIn_append]
  omega

end Happening

namespace Locks

open Happening (tally droppedIn granted ended)

variable {l m : Locks} {now : Instant} {happened : List Happening}

/-- A sweep counts every hold that it sweeps up, and nothing else. -/
theorem tally_sweep (l : Locks) (now : Instant) (c : Counter) :
    tally c (l.sweep now).happened
      = if c = .expiredReclaimed then (l.sweep now).answer else 0 := by
  have swept (overdue : List (Bytes × Hold)) :
      tally c (overdue.map (fun e => .swept e.1 e.2.holder))
        = if c = .expiredReclaimed then overdue.length else 0 := by
    induction overdue with
    | nil => exact (ite_self 0).symm
    | cons e rest ih =>
      rw [List.map_cons, Happening.tally_cons, ih, Happening.counted, List.count_singleton]
      by_cases own : c = .expiredReclaimed
      · rw [if_pos own, if_pos own, if_pos (by rw [own]; rfl), List.length_cons, Nat.add_comm]
      · rw [if_neg own, if_neg own, if_neg (by simpa using Ne.symm own)]
  exact swept _

/-- A sweep takes holds away, but not as a clearing does. -/
theorem droppedIn_sweep (l : Locks) (now : Instant) : droppedIn (l.sweep now).happened = 0 := by
  refine List.sum_eq_zero (List.forall_mem_map.mpr (fun what mem => ?_))
  obtain ⟨e, -, rfl⟩ := List.mem_map.mp mem
  rfl

/-- **What comes to be stored and what ceases to be is counted.** -/
theorem Occurs.storedCount (occurs : l.Occurs now happened m) :
    m.storedCount + ended happened = l.storedCount + granted happened := by
  cases occurs with
  | @expire key h stored past =>
    have fewer := storedCount_drop stored
    simp [ended, granted, Happening.counted, Happening.dropped]
    omega
  | @grant key absent claimant holder waited hold =>
    have more := storedCount_grant absent holder now (hold.bind now.after?)
    cases waited <;> simp [ended, granted, Happening.counted, Happening.dropped] <;> omega
  | @release key h live claimant =>
    have fewer := storedCount_drop (live?_eq_some_iff.mp live).1
    simp [ended, granted, Happening.counted, Happening.dropped]
    omega
  | sweep =>
    have settled := l.answer_sweep_add_liveCount now
    simp only [ended, granted, tally_sweep, droppedIn_sweep, storedCount_sweep]
    simp
    omega
  | clear =>
    have said : l.clear.happened = [.cleared l.storedCount] := rfl
    simp [said, ended, granted, Happening.counted, Happening.dropped]
  | @remark what told =>
    cases what with
    | reentered | timedOut | refused | waitBegan | waitTimedOut =>
      simp [ended, granted, Happening.counted, Happening.dropped]
    | _ => exact told.elim

end Locks

/-! ## The books of a world -/

open Happening (tally droppedIn granted ended)

/-- An operation of a store moves the counters by what happened. -/
theorem Store.Occurs.accounted {s t : Store} {now : Instant} {happened : List Happening}
    (occurs : s.Occurs now happened t) (c : Counter) :
    t.counters.get c = s.counters.get c + UInt64.ofNat (tally c happened) := by
  cases occurs with
  | locks | write | remark => exact Counters.get_bumpAll ..

/-- Locks are the only thing that holds are stored in. -/
theorem Store.Occurs.storedCount {s t : Store} {now : Instant} {happened : List Happening}
    (occurs : s.Occurs now happened t) :
    t.locks.storedCount + ended happened = s.locks.storedCount + granted happened := by
  cases occurs with
  | locks occurs => exact occurs.storedCount
  | write => simp [ended, granted, Happening.counted, Happening.dropped, Store.note]
  | @remark what told =>
    cases what with
    | acquired | released | expired | swept | cleared => exact told.elim
    | reentered | timedOut | refused | waitBegan | waitTimedOut | wrote => exact told.elim
    | served topic =>
      cases topic <;> simp [ended, granted, Happening.counted, Happening.dropped, Store.note]
    | _ => simp [ended, granted, Happening.counted, Happening.dropped, Store.note]

namespace World

/-- **What happened in a store**, oldest first. -/
def history (w : World) (i : Nat) : List Happening :=
  (w.events.reverse.filter (·.store = i)).map (·.what)

/-- What an evolution adds to what happened in a store. -/
theorem history_of_suffix {w w' : World} (later : w.events <:+ w'.events) (i : Nat) :
    w'.history i = w.history i ++ ((w.since w').filter (·.store = i)).map (·.what) := by
  obtain ⟨added, eq⟩ := later
  unfold history since
  rw [← eq, addedTo_append, List.reverse_append, List.filter_append, List.map_append]

/-- **The books of a world are in order**: the counters of a store have
counted what happened in it, and what was granted there has ended or is
stored. -/
structure Booked (w : World) : Prop where
  counters : ∀ i c, (w.store i).counters.get c = UInt64.ofNat (tally c (w.history i))
  holds : ∀ i, (w.store i).locks.storedCount + ended (w.history i) = granted (w.history i)

variable {P : Event → Prop} {now : Instant} {w w' : World}

/-- A change adds to the history of a store what it is called there. -/
theorem Change.history_cases (change : Change P now w w') (i : Nat) :
    (∃ happened, (w.store i).Occurs now happened (w'.store i)
        ∧ w'.history i = w.history i ++ happened)
      ∨ (w'.store i = w.store i ∧ w'.history i = w.history i)
      ∨ (w.store i = default ∧ w'.history i = w.history i
        ∧ ∃ settings, w'.store i = .new w.hash settings) := by
  rw [history_of_suffix change.events.1]
  obtain ⟨happened, occurs, since_eq⟩ | ⟨same, apart⟩ | ⟨absent, since_eq, new⟩ :=
    change.store_cases i
  · have here : (happened.map (Event.mk i now)).filter (·.store = i)
        = happened.map (Event.mk i now) :=
      List.filter_eq_self.mpr (List.forall_mem_map.mpr (fun _ _ => decide_eq_true rfl))
    refine .inl ⟨happened, occurs, ?_⟩
    rw [since_eq, here, List.map_map]
    exact congrArg (_ ++ ·) (List.map_id' happened)
  · have none_here : (w.since w').filter (·.store = i) = [] :=
      List.filter_eq_nil_iff.mpr (fun e mem => by simpa using apart e mem)
    rw [none_here, List.map_nil, List.append_nil]
    exact .inr (.inl ⟨same, rfl⟩)
  · rw [since_eq, List.filter_nil, List.map_nil, List.append_nil]
    exact .inr (.inr ⟨store_of_length_le absent, rfl, new⟩)

/-- **A change keeps the books**: the counters are bumped by what it says, and so is
what is stored. -/
theorem Change.booked (change : Change P now w w') (booked : w.Booked) : w'.Booked := by
  constructor
  · intro i c
    have before := booked.counters i c
    obtain ⟨happened, occurs, grown⟩ | ⟨same, grown⟩ | ⟨absent, grown, settings, new⟩ :=
      change.history_cases i
    · rw [grown, occurs.accounted c, before, ← UInt64.ofNat_add, Happening.tally_append]
    · rw [grown, same, before]
    · rw [absent] at before
      rw [grown, new, ← before]
      rfl
  · intro i
    have before := booked.holds i
    obtain ⟨happened, occurs, grown⟩ | ⟨same, grown⟩ | ⟨absent, grown, settings, new⟩ :=
      change.history_cases i
    · have settled := occurs.storedCount
      rw [grown, Happening.ended_append, Happening.granted_append]
      omega
    · rw [grown, same, before]
    · rw [absent] at before
      rw [grown, new, ← before]
      exact congrArg (· + _) ((Locks.storedCount_new ..).trans (Locks.storedCount_new ..).symm)

/-- Whatever a world evolves by, its books stay in order. -/
theorem Evolves.booked (evolves : Evolves P now w w') (booked : w.Booked) : w'.Booked := by
  induction evolves with
  | refl => exact booked
  | tail _ change ih => exact change.booked ih

/-- **A new world's books are in order.** -/
theorem booked_new (hash : Bytes → Nat) (settings : StoreSettings) (environment : Environment) :
    (World.new hash settings environment).Booked := by
  constructor
  · intro i c
    cases i with
    | zero => exact Counters.get_zero c
    | succ i =>
      rw [store_of_length_le (Nat.le_add_left 1 i)]
      exact Counters.get_zero c
  · intro i
    cases i with
    | zero => exact Locks.storedCount_new ..
    | succ i =>
      rw [store_of_length_le (Nat.le_add_left 1 i)]
      exact Locks.storedCount_new ..

end World

namespace Scene

variable {s s' : Scene}

/-- The books of a scene stay in order, whatever it leads to. -/
theorem Leads.booked (leads : s.Leads s') (booked : s.world.Booked) : s'.world.Booked := by
  induction leads with
  | refl => exact booked
  | tail _ step ih => exact World.Evolves.booked step.evolves ih

/-- **Every hold is accounted for**, in every scene that a session may come
to, and in each of its stores.

A counter shows how often something was counted. What was granted, at once
or after waiting, was released, was reclaimed, was cleared away, or is
stored; while no counter has run over, the counters themselves say so. A
sweep answers with how much more is stored than is live, counts that as
reclaimed and counts nothing else, leaves every lock as it looks, and finds
nothing when it is made again. -/
theorem holds_conserved {hash : Bytes → Nat} {settings : StoreSettings}
    {environment : Environment} {now : Instant}
    (reached : (Session.start hash settings environment now).scene.Leads s) (i : Nat) :
    (∀ c, (s.world.store i).counters.get c = UInt64.ofNat (tally c (s.world.history i)))
      ∧ granted (s.world.history i)
        = ended (s.world.history i) + (s.world.store i).locks.storedCount
      ∧ ((∀ c, tally c (s.world.history i) < UInt64.size) →
        ((s.world.store i).counters.get .acquiredAtOnce).toNat
            + ((s.world.store i).counters.get .acquiredAfterWait).toNat
          = ((s.world.store i).counters.get .releases).toNat
            + ((s.world.store i).counters.get .expiredReclaimed).toNat
            + droppedIn (s.world.history i) + (s.world.store i).locks.storedCount)
      ∧ ((s.world.store i).sweep s.now).answer + (s.world.store i).heldCount s.now
          = (s.world.store i).locks.storedCount
      ∧ (∀ c, ((s.world.store i).sweep s.now).after.counters.get c
          = (s.world.store i).counters.get c
            + if c = .expiredReclaimed then UInt64.ofNat ((s.world.store i).sweep s.now).answer
              else 0)
      ∧ (∀ key, (((s.world.store i).sweep s.now).after.look s.now key).answer
          = ((s.world.store i).look s.now key).answer)
      ∧ (((s.world.store i).sweep s.now).after.sweep s.now).answer = 0 := by
  have booked : s.world.Booked := reached.booked (World.booked_new hash settings environment)
  have holds := booked.holds i
  refine ⟨booked.counters i, by omega, fun bounded => ?_, ?_, fun c => ?_, fun key => ?_, ?_⟩
  · have shows (c : Counter) :
        ((s.world.store i).counters.get c).toNat = tally c (s.world.history i) := by
      rw [booked.counters i c, UInt64.toNat_ofNat_of_lt' (bounded c)]
    simp only [shows]
    unfold ended granted at holds
    omega
  · exact (s.world.store i).locks.answer_sweep_add_liveCount s.now
  · have moved : ((s.world.store i).sweep s.now).after.counters.get c
        = (s.world.store i).counters.get c
          + UInt64.ofNat (tally c ((s.world.store i).sweep s.now).happened) :=
      Counters.get_bumpAll ..
    have counted : tally c ((s.world.store i).sweep s.now).happened
        = if c = .expiredReclaimed then ((s.world.store i).sweep s.now).answer else 0 :=
      (s.world.store i).locks.tally_sweep s.now c
    rw [moved, counted]
    split <;> rfl
  · exact (Locks.answer_consult ..).trans
      (((s.world.store i).locks.live?_sweep s.now key).trans (Locks.answer_consult ..).symm)
  · exact (s.world.store i).locks.answer_sweep_sweep s.now

end Scene

/-- A session in which a hold was cleared away, one was released to another
who waited for it, one was reclaimed when its key was taken again, and one
is over and still stored. -/
def Session.turnover : Session :=
  ((Session.start (fun _ => 0) {} (fun _ => none) 0).carryOutAll
    [.call (.acquire [1] [10] none none), .call (.operation .clear),
      .call (.acquire [1] [10] none none), .call (.acquire [1] [20] none none),
      .call (.operation (.release [1] [10])), .call (.acquire [2] [10] (some 5) none),
      .advance 10, .call (.acquire [2] [30] (some 5) none), .advance 10]).1

theorem Scene.holds_conserved_of_turnover :
    granted (Session.turnover.world.history 0) = 5
      ∧ ((Session.turnover.world.store 0).counters.get .acquiredAtOnce).toNat
            + ((Session.turnover.world.store 0).counters.get .acquiredAfterWait).toNat
          = ((Session.turnover.world.store 0).counters.get .releases).toNat
            + ((Session.turnover.world.store 0).counters.get .expiredReclaimed).toNat
            + droppedIn (Session.turnover.world.history 0)
            + (Session.turnover.world.store 0).locks.storedCount
      ∧ ((Session.turnover.world.store 0).sweep 20).answer = 1 := by
  have reached : (Session.start (fun _ => 0) {} (fun _ => none) 0).scene.Leads
      Session.turnover.scene := Session.leads_carryOutAll ..
  have bounded (c : Counter) : tally c (Session.turnover.world.history 0) < UInt64.size := by
    cases c <;> decide +kernel
  have conserved := Scene.holds_conserved reached 0
  exact ⟨by decide +kernel, conserved.2.2.1 bounded, by decide +kernel⟩

end AdvisoryStore
