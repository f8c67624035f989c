import AdvisoryStore.Proofs.Exclusion

/-!
# No wake-up is lost

A call that waits is woken by the clock or by a bell, and by nothing else.
That is enough if whenever it is not woken there is nothing for it to do:
what was in its way when it last looked still is. `Call.Vigilant` says so,
and it is an invariant – of whatever happens in the stores, since a hold
that ends by someone's doing rings the bell and a hold that is dropped as
expired was over before (`World.Evolves.stays_or_rings`), and of the clock,
since a call is to look again no later than its own time to give up or the
deadline of the hold (`Call.Vigilant.tick`).

What it comes to for sessions is said of those that have come to rest.
-/

namespace AdvisoryStore

/-! ## Moments -/

/-- The sooner of two moments comes no later than either. -/
theorem sooner_le {a b : Option Instant} {x : Instant} (either : a = some x ∨ b = some x) :
    ∃ t, sooner a b = some t ∧ t ≤ x := by
  obtain rfl | rfl := either
  · cases b with
    | none => exact ⟨x, rfl, Int.le_refl x⟩
    | some y => exact ⟨min x y, rfl, Int.min_le_left x y⟩
  · cases a with
    | none => exact ⟨x, rfl, Int.le_refl x⟩
    | some y => exact ⟨min y x, rfl, Int.min_le_right y x⟩

/-- The sooner of two moments is one of them. -/
theorem either_of_sooner {a b : Option Instant} {t : Instant} (eq : sooner a b = some t) :
    a = some t ∨ b = some t := by
  cases a with
  | none => exact .inr eq
  | some x =>
    cases b with
    | none => exact .inl eq
    | some y =>
      cases eq
      exact (Int.le_total x y).imp (fun le => by rw [Int.min_eq_left le])
        (fun le => by rw [Int.min_eq_right le])

/-- A moment that has come stays come. -/
theorem reached_mono {now later : Instant} {moment : Option Instant} (le : now ≤ later)
    (come : reached now moment = true) : reached later moment = true := by
  cases moment with
  | none => cases come
  | some t => exact decide_eq_true (Int.le_trans (of_decide_eq_true come) le)

/-- **What is to be looked at stays the same** until it is looked at. -/
theorem upcoming_of_early {now later : Instant} {moment : Option Instant} (lt : now < later)
    (le_last : later ≤ Instant.last) (early : reached later (upcoming now moment) = false) :
    upcoming later moment = upcoming now moment ∧ ∀ t, moment = some t → later < t := by
  cases moment with
  | none => exact ⟨rfl, nofun⟩
  | some t =>
    have before_last : now < Instant.last := Int.lt_of_lt_of_le lt le_last
    by_cases ahead : now < t
    · have soon : upcoming now (some t) = some t := if_pos ahead
      rw [soon] at early ⊢
      have before : later < t := Int.not_le.mp (of_decide_eq_false early)
      refine ⟨if_pos before, ?_⟩
      rintro _ ⟨⟩
      exact before
    · rw [upcoming, if_neg ahead, if_pos before_last] at early
      exact absurd lt (of_decide_eq_false early)

/-! ## A hold that ends by someone's doing rings the bell -/

namespace Locks

variable {l m : Locks} {now : Instant} {key : Bytes} {happened : List Happening}

@[simp] theorem rings_clear (l : Locks) (key : Bytes) :
    l.clear.after.rings key = l.rings key + 1 := by
  unfold clear rings
  rw [Sharded.get_map]
  rfl

@[simp] theorem rings_new (hash : Bytes → Nat) (shards : Nat) (key : Bytes) :
    (new hash shards).rings key = 0 := by
  unfold new rings
  rw [Sharded.get_replicate]
  rfl

theorem rings_le_sweep (l : Locks) (now : Instant) (key : Bytes) :
    l.rings key ≤ (l.sweep now).after.rings key := by
  unfold sweep rings
  rw [Sharded.get_map, LockCell.sweep]
  split
  · exact Nat.le_refl _
  · exact Nat.le_succ _

/-- A bell is not unrung. -/
theorem Occurs.rings_le (occurs : l.Occurs now happened m) (key : Bytes) :
    l.rings key ≤ m.rings key := by
  cases occurs with
  | expire => exact Nat.le_of_eq (rings_drop ..).symm
  | grant => exact Nat.le_of_eq (rings_grant ..).symm
  | release =>
    rw [rings_ring, rings_drop]
    split
    · exact Nat.le_succ _
    · exact Nat.le_refl _
  | sweep => exact l.rings_le_sweep now key
  | clear =>
    rw [rings_clear]
    exact Nat.le_succ _
  | remark => exact Nat.le_refl _

/-- **Who ends a hold rings the bell of its key.** -/
theorem Occurs.rings_lt_of_freed (occurs : l.Occurs now happened m) {what : Happening}
    (mem : what ∈ happened) {holder : Bytes} (freed : what.frees key holder = true) :
    l.rings key < m.rings key := by
  cases occurs with
  | expire | grant =>
    rw [List.mem_singleton.mp mem] at freed
    cases freed
  | @release k h live claimant =>
    rw [List.mem_singleton.mp mem] at freed
    have same : k = key := (of_decide_eq_true freed : _ ∧ _).1
    rw [same, rings_ring, if_pos rfl, rings_drop]
    exact Nat.lt_succ_self _
  | sweep =>
    obtain ⟨k, heldBy, rfl⟩ := of_mem_sweep mem
    cases freed
  | clear =>
    rw [rings_clear]
    exact Nat.lt_succ_self _
  | @remark other told =>
    rw [List.mem_singleton.mp mem] at freed
    cases other with
    | released | cleared => exact told.elim
    | _ => cases freed

/-- **A live hold stays, or the bell rings.** -/
theorem Occurs.stays_or_rings (occurs : l.Occurs now happened m) {h : Hold}
    (live : l.live? now key = some h) : m.live? now key = some h ∨ l.rings key < m.rings key := by
  by_cases freed : ∃ what ∈ happened, what.frees key h.holder = true
  · obtain ⟨what, mem, freed⟩ := freed
    exact .inr (occurs.rings_lt_of_freed mem freed)
  · refine .inl (occurs.keeps live (fun what mem => ?_)).1
    exact Bool.eq_false_iff.mpr (fun frees => freed ⟨what, mem, frees⟩)

end Locks

/-- The locks of a store change as the locks do, or not at all. -/
theorem Store.Occurs.locks_cases {s t : Store} {now : Instant} {happened : List Happening}
    (occurs : s.Occurs now happened t) :
    s.locks.Occurs now happened t.locks ∨ t.locks = s.locks := by
  cases occurs with
  | locks occurs => exact .inl occurs
  | write => exact .inr rfl
  | remark => exact .inr rfl

namespace World

variable {P : Event → Prop} {now : Instant} {w w' : World}

theorem rings_of_length_le {i : Nat} (absent : w.stores.length ≤ i) (key : Bytes) :
    (w.store i).locks.rings key = 0 := by
  rw [store_of_length_le absent]
  exact Locks.rings_new ..

/-- Bells are rung and never unrung. -/
theorem Change.rings_le (change : Change P now w w') (i : Nat) (key : Bytes) :
    (w.store i).locks.rings key ≤ (w'.store i).locks.rings key := by
  obtain ⟨happened, occurs, -⟩ | ⟨same, -⟩ | ⟨absent, -⟩ := change.store_cases i
  · obtain occurs | same := occurs.locks_cases
    · exact occurs.rings_le key
    · exact Nat.le_of_eq (by rw [same])
  · exact Nat.le_of_eq (by rw [same])
  · rw [rings_of_length_le absent]
    exact Nat.zero_le _

/-- A change that ends a hold rings the bell of its key. -/
theorem Change.stays_or_rings (change : Change P now w w') {i : Nat} {key : Bytes} {h : Hold}
    (live : (w.store i).locks.live? now key = some h) :
    (w'.store i).locks.live? now key = some h
      ∨ (w.store i).locks.rings key < (w'.store i).locks.rings key := by
  obtain ⟨happened, occurs, -⟩ | ⟨same, -⟩ | ⟨absent, -⟩ := change.store_cases i
  · obtain occurs | same := occurs.locks_cases
    · exact occurs.stays_or_rings live
    · exact .inl (by rwa [same])
  · exact .inl (by rwa [same])
  · rw [live?_of_length_le absent] at live
    cases live

theorem Evolves.rings_le (evolves : Evolves P now w w') (i : Nat) (key : Bytes) :
    (w.store i).locks.rings key ≤ (w'.store i).locks.rings key := by
  induction evolves with
  | refl => exact Nat.le_refl _
  | tail _ change ih => exact Nat.le_trans ih (change.rings_le i key)

/-- **A live hold stays, or the bell rings.** -/
theorem Evolves.stays_or_rings (evolves : Evolves P now w w') {i : Nat} {key : Bytes} {h : Hold}
    (live : (w.store i).locks.live? now key = some h) :
    (w'.store i).locks.live? now key = some h
      ∨ (w.store i).locks.rings key < (w'.store i).locks.rings key := by
  induction evolves with
  | refl => exact .inl live
  | tail before change ih =>
    obtain live | rung := ih
    · exact (change.stays_or_rings live).imp_right
        (Nat.lt_of_le_of_lt (Evolves.rings_le before i key))
    · exact .inr (Nat.lt_of_lt_of_le rung (change.rings_le i key))

end World

/-! ## What a call faces -/

namespace Locks

variable {l : Locks} {now : Instant}

/-- **Who has to wait for a lock** faces another's live hold, and it is not
time to give up. -/
theorem attempt_eq_blockedBy_iff {r : LockRequest} {waited : Bool} {h : Hold} :
    (l.attempt now r waited).answer = .blockedBy h
      ↔ l.live? now r.key = some h ∧ h.holder ≠ r.holder ∧ reached now r.giveUp = false := by
  cases live : l.live? now r.key with
  | none =>
    rw [attempt_of_live?_eq_none live]
    exact iff_of_false nofun (fun faces => nomatch faces.1)
  | some g =>
    by_cases own : g.holder = r.holder
    · rw [attempt_of_own live own]
      refine iff_of_false nofun (fun faces => faces.2.1 ?_)
      rw [← Option.some.inj faces.1]
      exact own
    · rw [attempt_of_other live own]
      split
      · next late =>
        refine iff_of_false nofun (fun faces => ?_)
        rw [faces.2.2] at late
        cases late
      · next patient =>
        constructor
        · intro blocked
          cases blocked
          exact ⟨rfl, own, Bool.eq_false_iff.mpr patient⟩
        · intro faces
          rw [Option.some.inj faces.1]

/-- **Who has to wait for the end of a hold** faces that very hold, and it
is not time to give up. -/
theorem awaitEnd_eq_heldBy_iff {key : Bytes} {generation : Nat} {giveUp : Option Instant}
    {h : Hold} :
    (l.awaitEnd now key generation giveUp).answer = .heldBy h
      ↔ l.live? now key = some h ∧ h.generation = generation ∧ reached now giveUp = false := by
  have answer := l.answer_consult now key
  unfold awaitEnd
  generalize l.consult now key = looked at answer
  obtain ⟨after, happened, held⟩ := looked
  rw [← answer]
  cases held with
  | none => exact iff_of_false nofun (fun faces => nomatch faces.1)
  | some g =>
    simp only
    split
    · next other =>
      refine iff_of_false nofun (fun faces => other ?_)
      rw [Option.some.inj faces.1]
      exact faces.2.1
    · next same =>
      split
      · next late =>
        refine iff_of_false nofun (fun faces => ?_)
        rw [faces.2.2] at late
        cases late
      · next patient =>
        constructor
        · intro held
          cases held
          exact ⟨rfl, Classical.not_not.mp same, Bool.eq_false_iff.mpr patient⟩
        · intro faces
          rw [Option.some.inj faces.1]

end Locks

namespace Point

variable {p : Point} {now : Instant} {w w' : World} {moment : Option Instant}

/-- **A call at a point is blocked**, and nothing changes for it by the
clock alone before some moment. -/
def Blocked (p : Point) (now : Instant) (w : World) (moment : Option Instant) : Prop :=
  match p with
  | lock i request _ => ∃ h, (w.store i).locks.live? now request.key = some h
    ∧ h.holder ≠ request.holder ∧ reached now request.giveUp = false
    ∧ moment = sooner request.giveUp h.deadline
  | release i key generation giveUp => ∃ h, (w.store i).locks.live? now key = some h
    ∧ h.generation = generation ∧ reached now giveUp = false
    ∧ moment = sooner giveUp h.deadline
  | sleep finish => reached now finish = false ∧ moment = finish

/-- **Trying a point is in vain when the call is blocked**, and only then. -/
theorem pass_eq_waits_iff {waited : Bool} {stack : List Frame} :
    p.pass now w waited stack = .waits moment ↔ p.Blocked now w moment := by
  cases p with
  | lock i request purpose =>
    have answer (h : Hold) : (w.on now i (·.attempt now request waited)).2 = .blockedBy h ↔ _ :=
      Locks.attempt_eq_blockedBy_iff (l := (w.store i).locks)
    rw [pass, Blocked]
    generalize w.on now i (·.attempt now request waited) = tried at answer
    obtain ⟨u, attempt⟩ := tried
    constructor
    · intro waits
      cases attempt with
      | blockedBy h =>
        cases waits
        obtain ⟨live, other, patient⟩ := (answer h).mp rfl
        exact ⟨h, live, other, patient, rfl⟩
      | _ => cases waits
    · rintro ⟨h, live, other, patient, rfl⟩
      obtain rfl : attempt = .blockedBy h := (answer h).mpr ⟨live, other, patient⟩
      rfl
  | release i key generation giveUp =>
    have answer (h : Hold) : (w.on now i (·.awaitEnd now key generation giveUp)).2 = .heldBy h
        ↔ _ := Locks.awaitEnd_eq_heldBy_iff (l := (w.store i).locks)
    rw [pass, Blocked]
    generalize w.on now i (·.awaitEnd now key generation giveUp) = tried at answer
    obtain ⟨u, wait⟩ := tried
    constructor
    · intro waits
      cases wait with
      | heldBy h =>
        cases waits
        obtain ⟨live, same, patient⟩ := (answer h).mp rfl
        exact ⟨h, live, same, patient, rfl⟩
      | _ => cases waits
    · rintro ⟨h, live, same, patient, rfl⟩
      obtain rfl : wait = .heldBy h := (answer h).mpr ⟨live, same, patient⟩
      rfl
  | sleep finish =>
    rw [pass, Blocked]
    split
    · next late =>
      refine iff_of_false (fun waits => by cases waits) ?_
      rintro ⟨early, -⟩
      rw [early] at late
      cases late
    · next early =>
      constructor
      · intro waits
        cases waits
        exact ⟨Bool.eq_false_iff.mpr early, rfl⟩
      · rintro ⟨-, rfl⟩
        rfl

/-- **What blocks a call goes on to, or the bell rings.** -/
theorem Blocked.evolves {P : Event → Prop} (blocked : p.Blocked now w moment)
    (evolves : World.Evolves P now w w') :
    p.Blocked now w' moment ∨ p.rings w < p.rings w' := by
  cases p with
  | lock i request purpose =>
    obtain ⟨h, live, rest⟩ := blocked
    exact (World.Evolves.stays_or_rings evolves live).imp_left (fun live => ⟨h, live, rest⟩)
  | release i key generation giveUp =>
    obtain ⟨h, live, rest⟩ := blocked
    exact (World.Evolves.stays_or_rings evolves live).imp_left (fun live => ⟨h, live, rest⟩)
  | sleep finish => exact .inl blocked

/-- The bell that a call waits at is never unrung. -/
theorem rings_le_of_evolves {P : Event → Prop} (p : Point)
    (evolves : World.Evolves P now w w') : p.rings w ≤ p.rings w' := by
  cases p with
  | lock | release => exact World.Evolves.rings_le evolves ..
  | sleep => exact Nat.le_refl _

/-- **And it goes on to until the moment has come.** -/
theorem Blocked.tick {later : Instant} (blocked : p.Blocked now w moment)
    (before : ∀ t, moment = some t → later < t) : p.Blocked later w moment := by
  have ahead {a b : Option Instant} (eq : moment = sooner a b) {x : Instant}
      (either : a = some x ∨ b = some x) : later < x := by
    obtain ⟨t, sooner_eq, le⟩ := sooner_le either
    exact Int.lt_of_lt_of_le (before t (eq.trans sooner_eq)) le
  have patient {a b : Option Instant} (eq : moment = sooner a b) : reached later a = false := by
    cases a with
    | none => rfl
    | some x => exact decide_eq_false (Int.not_le.mpr (ahead eq (.inl rfl)))
  cases p with
  | lock i request purpose =>
    obtain ⟨h, live, other, -, eq⟩ := blocked
    refine ⟨h, Locks.live?_of_lasting live (fun d deadline => ?_), other, patient eq, eq⟩
    exact Int.le_of_lt (ahead eq (.inr deadline))
  | release i key generation giveUp =>
    obtain ⟨h, live, same, -, eq⟩ := blocked
    refine ⟨h, Locks.live?_of_lasting live (fun d deadline => ?_), same, patient eq, eq⟩
    exact Int.le_of_lt (ahead eq (.inr deadline))
  | sleep finish =>
    obtain ⟨-, rfl⟩ := blocked
    refine ⟨?_, rfl⟩
    cases moment with
    | none => rfl
    | some x => exact decide_eq_false (Int.not_le.mpr (before x rfl))

end Point

/-! ## Vigilance -/

namespace Call

variable {c : Call} {now : Instant} {w w' : World}

/-- **A call is vigilant** if it has heard no more than was rung, and either
has cause to look again or is blocked, and will look again at the right
moment. -/
structure Vigilant (c : Call) (now : Instant) (w : World) : Prop where
  heard : c.heard ≤ c.point.rings w
  watches : c.ready now w = true
    ∨ ∃ moment, c.point.Blocked now w moment ∧ c.wake = upcoming now moment

/-- **Whatever happens, a vigilant call stays vigilant.** -/
theorem Vigilant.evolves {P : Event → Prop} (vigilant : c.Vigilant now w)
    (evolves : World.Evolves P now w w') : c.Vigilant now w' := by
  have le := c.point.rings_le_of_evolves evolves
  refine ⟨Nat.le_trans vigilant.heard le, ?_⟩
  have rung (lt : c.heard < c.point.rings w') : c.ready now w' = true := by
    rw [ready, decide_eq_true (Nat.ne_of_gt lt), Bool.or_true]
  obtain ready | ⟨moment, blocked, wake⟩ := vigilant.watches
  · refine .inl ?_
    obtain due | rings := (Bool.or_eq_true ..).mp ready
    · rw [Call.ready, due, Bool.true_or]
    · -- a bell that was ahead of what the call has heard stays ahead of it
      have ne := of_decide_eq_true rings
      exact rung (Nat.lt_of_lt_of_le (Nat.lt_of_le_of_ne vigilant.heard (Ne.symm ne)) le)
  · obtain blocked | lt := blocked.evolves evolves
    · exact .inr ⟨moment, blocked, wake⟩
    · exact .inl (rung (Nat.lt_of_le_of_lt vigilant.heard lt))

/-- **Whenever the clock moves on, a vigilant call stays vigilant.** -/
theorem Vigilant.tick {later : Instant} (vigilant : c.Vigilant now w) (le : now ≤ later)
    (le_last : later ≤ max now Instant.last) : c.Vigilant later w := by
  obtain lt | rfl := Int.lt_or_eq_of_le le
  case inr => exact vigilant
  have le_last : later ≤ Instant.last := by
    simp only [Instant] at *
    omega
  refine ⟨vigilant.heard, ?_⟩
  obtain ready | ⟨moment, blocked, wake⟩ := vigilant.watches
  · refine .inl ?_
    obtain due | rings := (Bool.or_eq_true ..).mp ready
    · rw [Call.ready, reached_mono le due, Bool.true_or]
    · rw [Call.ready, rings, Bool.or_true]
  · -- either the clock comes to where the call is to look again, or it stops short of that
    by_cases due : reached later c.wake = true
    · exact .inl (by rw [ready, due, Bool.true_or])
    · have early : reached later (upcoming now moment) = false := by
        rw [← wake]
        exact Bool.eq_false_iff.mpr due
      obtain ⟨same, before⟩ := upcoming_of_early lt le_last early
      exact .inr ⟨moment, blocked.tick before, wake.trans same.symm⟩

end Call

end AdvisoryStore
