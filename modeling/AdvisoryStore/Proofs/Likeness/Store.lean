import AdvisoryStore.Proofs.Likeness.Locks

/-!
# Stores that are alike

Two stores are alike if their locks are, and if the same is recorded under
the keys that are looked at. When everything is looked at they have the
same settings and records altogether, and differ in no more than holds that
are over, in the cells' bells and generations, and in the counters of what
is fleeting.

Each operation of a store keeps two stores alike and is answered the same.
The exceptions are those that tell of the fleeting itself: how many holds
a sweep met, and what the counters say of it (`Response.Agree`).
-/

namespace AdvisoryStore

/-! ## Counters -/

/-- Whether a counter counts what is fleeting. -/
def Counter.fleeting : Counter → Bool
  | requests | healthRequests | metricsRequests | lockRequests | otherRequests => true
  | expiredReclaimed => true
  | _ => false

/-- **Counters agree** if they do on all that is not fleeting. -/
def Counters.Agree (cs ds : Counters) : Prop := ∀ c, c.fleeting = false → cs.get c = ds.get c

/-- **Responses agree** if they are the same, or the same but for the
counters that they report, which agree. -/
def Response.Agree (r q : Response) : Prop :=
  r = q ∨ ∃ cs ds : Counters, cs.Agree ds ∧ r.body = Exposition.render cs
    ∧ q = { r with body := Exposition.render ds }

namespace Happening

/-- What is fleeting counts for nothing else. -/
theorem count_counted_of_lasting? (what : Happening) {c : Counter} (lasting : c.fleeting = false) :
    tally c what.lasting?.toList = what.counted.count c := by
  cases what with
  | expired | swept =>
    cases c <;> first | rfl | cases lasting
  | served topic =>
    cases topic <;> cases c <;> first | rfl | cases lasting
  | _ => simp [lasting?, counted]

/-- **What lasts of what happened is counted the same.** -/
theorem tally_lasting (happened : List Happening) {c : Counter} (lasts : c.fleeting = false) :
    tally c (lasting happened) = tally c happened := by
  induction happened with
  | nil => rfl
  | cons what rest ih =>
    have first := what.count_counted_of_lasting? lasts
    rw [tally_cons, ← ih, ← first]
    cases kept : what.lasting? with
    | none =>
      rw [lasting, List.filterMap_cons_none kept]
      exact (Nat.zero_add _).symm
    | some kind =>
      rw [lasting, List.filterMap_cons_some kept, tally_cons, Option.toList_some, tally_cons]
      rfl

end Happening

namespace Store

/-- **Stores are alike** as far as they are looked at. -/
structure Alike (scope : Scope) (pair : Bytes → Nat → Nat → Prop) (now : Instant) (s t : Store) :
    Prop where
  locks : s.locks.Alike scope pair now t.locks
  records : ∀ key, scope.Covers key → s.records.get? key = t.records.get? key
  defaultHold : s.settings.defaultHold = t.settings.defaultHold
  whole : scope = .all → s.settings = t.settings ∧ s.records = t.records

variable {scope : Scope} {pair pair' : Bytes → Nat → Nat → Prop} {now later : Instant}
  {s s' t t' : Store} {key : Bytes}

/-- **What leaves alone what is looked at leaves stores alike.** -/
theorem Alike.unmoved (alike : s.Alike scope pair now t) (left : s.Unmoved scope now s')
    (right : t.Unmoved scope now t') : s'.Alike scope pair now t' where
  locks := alike.locks.unmoved left.locks right.locks
  records key covered := by
    rw [left.records key covered, right.records key covered]
    exact alike.records key covered
  defaultHold := by
    rw [left.settings, right.settings]
    exact alike.defaultHold
  whole all := by
    rw [left.settings, right.settings, left.whole all, right.whole all]
    exact alike.whole all

/-- Stores that are alike stay so while time passes. -/
theorem Alike.tick (alike : s.Alike scope pair now t) (le : now ≤ later) :
    s.Alike scope pair later t where
  locks key covered := (alike.locks key covered).tick le
  records := alike.records
  defaultHold := alike.defaultHold
  whole := alike.whole

/-! ## Operations on locks -/

section

variable {α : Type} {A : α → α → Prop}

/-- **What agrees of the locks agrees of the stores.** -/
theorem Alike.onLocks (alike : s.Alike scope pair now t) {f g : Locks → Outcome Locks α}
    (agree : (f s.locks).Agree (Locks.Alike scope pair' now) A (g t.locks)) :
    (s.onLocks f).Agree (Alike scope pair' now) A (t.onLocks g) :=
  ⟨⟨agree.after, alike.records, alike.defaultHold, alike.whole⟩, agree.said, agree.answer⟩

end

/-- Of a store, a request takes nothing but how long it holds a lock by default. -/
theorem Alike.request (alike : s.Alike scope pair now t) (claimant : Claimant)
    (key holder : Bytes) (hold patience : Option Duration) :
    s.request now claimant key holder hold patience
      = t.request now claimant key holder hold patience := by
  rw [Store.request, Store.request, alike.defaultHold]

/-- **A lock is tried for with the same success**, and if it is granted in both stores
the two generations become counterparts. -/
theorem Alike.attempt (alike : s.Alike scope pair now t) {r : LockRequest}
    (covered : scope.Covers r.key) (waited : Bool) :
    ∃ pair', pair ≤ pair' ∧ (s.attempt now r waited).Agree (Alike scope pair' now) Attempt.Alike
      (t.attempt now r waited) := by
  obtain ⟨pair', le, agree⟩ := alike.locks.attempt covered waited
  exact ⟨pair', le, alike.onLocks agree⟩

/-- A release goes through in both stores or in neither. -/
theorem Alike.release (alike : s.Alike scope pair now t) (covered : scope.Covers key)
    (claimant : Claimant) (holder : Bytes) :
    (s.release now claimant key holder).Agree (Alike scope pair now) Eq
      (t.release now claimant key holder) :=
  alike.onLocks (alike.locks.release covered claimant holder)

/-- Looking finds the counterpart of a hold, or nothing in either store. -/
theorem Alike.look (alike : s.Alike scope pair now t) (covered : scope.Covers key) :
    (s.look now key).Agree (Alike scope pair now) (Option.Rel (Hold.Alike (pair key)))
      (t.look now key) :=
  alike.onLocks (alike.locks.consult covered)

theorem Alike.beginWait (alike : s.Alike scope pair now t) (covered : scope.Covers key) :
    (s.beginWait now key).Agree (Alike scope pair now) (Option.Rel (Hold.Alike (pair key)))
      (t.beginWait now key) := by
  have looked := alike.locks.consult covered
  refine alike.onLocks ⟨looked.after, ?_, looked.answer⟩
  exact congrArg (Happening.waitBegan key :: ·) looked.said

/-- Who awaits the end of one generation fares as one who awaits its counterpart. -/
theorem Alike.awaitEnd (alike : s.Alike scope pair now t) (covered : scope.Covers key) {a b : Nat}
    (paired : pair key a b) (giveUp : Option Instant) :
    (s.awaitEnd now key a giveUp).Agree (Alike scope pair now) Wait.Alike
      (t.awaitEnd now key b giveUp) :=
  alike.onLocks (alike.locks.awaitEnd covered paired giveUp)

/-- A key may be written in both stores or in neither. -/
theorem Alike.permits (alike : s.Alike scope pair now t) (covered : scope.Covers key)
    (holder : Bytes) :
    (s.permits now key holder).Agree (Alike scope pair now) Eq (t.permits now key holder) :=
  alike.onLocks (alike.locks.permits covered holder)

/-- Sweeps keep stores alike, and need not meet the same number of holds. -/
theorem Alike.sweep (alike : s.Alike scope pair now t) :
    (s.sweep now).Agree (Alike scope pair now) (fun _ _ => True) (t.sweep now) :=
  alike.onLocks alike.locks.sweep

/-- When all locks are cleared nothing is left that could differ. -/
theorem Alike.clearLocks (alike : s.Alike scope pair now t) :
    s.clearLocks.Agree (Alike scope pair now) Eq t.clearLocks :=
  alike.onLocks alike.locks.clear

/-! ## What is noted, and records -/

/-- What is counted makes no difference. -/
theorem Alike.note (alike : s.Alike scope pair now t) (happened happened' : List Happening) :
    (s.note happened).Alike scope pair now (t.note happened') :=
  ⟨alike.locks, alike.records, alike.defaultHold, alike.whole⟩

theorem Alike.noting {α : Type} (alike : s.Alike scope pair now t) (happened : List Happening)
    (answer : α) :
    (s.noting happened answer).Agree (Alike scope pair now) Eq (t.noting happened answer) :=
  ⟨alike.note .., rfl, rfl⟩

/-- What is noted after outcomes that agree is noted in both. -/
theorem agree_note {α β : Type} {o p : Outcome Store α} {A : α → α → Prop}
    (agree : o.Agree (Alike scope pair now) A p) (more : List Happening) (answer : β) :
    (⟨o.after.note more, o.happened ++ more, answer⟩ : Outcome Store β).Agree
      (Alike scope pair now) Eq ⟨p.after.note more, p.happened ++ more, answer⟩ where
  after := agree.after.note ..
  said := by rw [Happening.lasting_append, Happening.lasting_append, agree.said]
  answer := rfl

/-- Letting go comes to the same in both stores, be it refused or not. -/
theorem Alike.relinquish (alike : s.Alike scope pair now t) (covered : scope.Covers key)
    (claimant : Claimant) (holder : Bytes) :
    (s.relinquish now claimant key holder).Agree (Alike scope pair now) Eq
      (t.relinquish now claimant key holder) := by
  have released := alike.release covered claimant holder
  unfold Store.relinquish
  generalize s.release now claimant key holder = o at released
  generalize t.release now claimant key holder = p at released
  obtain ⟨after, happened, answer⟩ := o
  obtain ⟨after', happened', answer'⟩ := p
  obtain rfl : answer = answer' := released.answer
  cases answer with
  | ok => exact ⟨released.after, released.said, rfl⟩
  | error => exact agree_note released [.lost key holder] ()

/-- The same is read under a key that is looked at. -/
theorem Alike.read (alike : s.Alike scope pair now t) (covered : scope.Covers key) :
    (s.read key).Agree (Alike scope pair now) Eq (t.read key) := by
  unfold Store.read
  rw [alike.records key covered]
  split
  · exact alike.noting ..
  · exact alike.noting ..

/-- The same record may be put into both stores, under whatever key. -/
theorem Alike.put (alike : s.Alike scope pair now t) (key : Bytes) (content : Content) :
    { s with records := s.records.put key content }.Alike scope pair now
      { t with records := t.records.put key content } where
  locks := alike.locks
  records other covered := by
    rw [Records.get?_put, Records.get?_put, alike.records other covered]
  defaultHold := alike.defaultHold
  whole all := ⟨(alike.whole all).1, by rw [(alike.whole all).2]⟩

/-- **A write goes through in both stores or in neither.** -/
theorem Alike.write (alike : s.Alike scope pair now t) (covered : scope.Covers key)
    (claimant : Claimant) (content : Content) (holder : Bytes) :
    (s.write now claimant key content holder).Agree (Alike scope pair now) Eq
      (t.write now claimant key content holder) := by
  have asked := alike.permits covered holder
  unfold Store.write
  generalize s.permits now key holder = o at asked
  generalize t.permits now key holder = p at asked
  obtain ⟨after, happened, permitted⟩ := o
  obtain ⟨after', happened', permitted'⟩ := p
  obtain rfl : permitted = permitted' := asked.answer
  cases permitted with
  | true =>
    have wrote : (⟨{ after with records := after.records.put key content }, happened, ()⟩ :
        Outcome Store Unit).Agree (Alike scope pair now) Eq
        ⟨{ after' with records := after'.records.put key content }, happened', ()⟩ :=
      ⟨asked.after.put key content, asked.said, rfl⟩
    exact agree_note wrote [.wrote claimant key holder content] (.ok () : Except Fault Unit)
  | false =>
    exact agree_note asked [.conflicted key holder]
      (.error (.conflict key holder) : Except Fault Unit)

/-! ## Requests -/

/-- The answer to a request about a lock does not tell the generation, and is the
same. -/
theorem Alike.inspectLock (alike : s.Alike scope pair now t) (covered : scope.Covers key)
    (version : Nat) (keepAlive : Bool) :
    (s.inspectLock now key version keepAlive).Agree (Alike scope pair now) Eq
      (t.inspectLock now key version keepAlive) := by
  have looked := alike.look covered
  unfold Store.inspectLock
  generalize s.look now key = o at looked
  generalize t.look now key = p at looked
  obtain ⟨after, happened, held⟩ := o
  obtain ⟨after', happened', held'⟩ := p
  cases looked.answer with
  | none => exact ⟨looked.after, looked.said, rfl⟩
  | @some g h same =>
    refine ⟨looked.after, looked.said, ?_⟩
    have shown : g.toJson now key = h.toJson now key := by
      rw [Hold.toJson, Hold.toJson, same.holder, same.deadline]
    simp only [shown]

/-- What a request is answered differs in the counters at most. -/
theorem Alike.answer (alike : s.Alike .all pair now t) (counters : s.counters.Agree t.counters)
    (r : Request) (target : Target) :
    (s.answer now r target).Agree (Alike .all pair now) Response.Agree
      (t.answer now r target) := by
  cases target with
  | health => exact ⟨alike, rfl, .inl rfl⟩
  | metrics => exact ⟨alike, rfl, .inr ⟨_, _, counters, rfl, rfl⟩⟩
  | lock escaped =>
    cases decoded : Percent.decode escaped with
    | none =>
      simp only [Store.answer, decoded]
      exact ⟨alike, rfl, .inl rfl⟩
    | some key =>
      have covered : Scope.all.Covers key := trivial
      have inspected := alike.inspectLock covered r.version r.keepAlive
      simp only [Store.answer, decoded]
      exact ⟨inspected.after, inspected.said, .inl inspected.answer⟩
  | unknown => exact ⟨alike, rfl, .inl rfl⟩

/-- **A request is answered alike**, whatever it is and whether it can be read. -/
theorem Alike.serve (alike : s.Alike .all pair now t) (counters : s.counters.Agree t.counters)
    (r : Request) :
    (s.serve now r).Agree (Alike .all pair now) Response.Agree (t.serve now r) := by
  unfold Store.serve
  split
  · -- the request is counted first, and what it is counted under is fleeting
    let topic := (Target.ofBytes r.target).topic
    have counters : (s.note [.served topic]).counters.Agree (t.note [.served topic]).counters := by
      intro c lasts
      show (s.counters.bumpAll _).get c = (t.counters.bumpAll _).get c
      rw [Counters.get_bumpAll, Counters.get_bumpAll, counters c lasts]
    have answered := (alike.note [.served topic] [.served topic]).answer counters r
      (Target.ofBytes r.target)
    exact ⟨answered.after, answered.said, answered.answer⟩
  · exact ⟨alike.note .., rfl, .inl rfl⟩

/-! ## New stores -/

/-- **New stores are alike**, no generation having been given. -/
theorem alike_new {hash hash' : Bytes → Nat} {settings settings' : StoreSettings}
    (defaultHold : settings.defaultHold = settings'.defaultHold)
    (whole : scope = .all → hash = hash' ∧ settings = settings') :
    (new hash settings).Alike scope (fun _ _ _ => False) now (new hash' settings') where
  locks key _ := by
    have free (hash : Bytes → Nat) (shards : Nat) :
        (Locks.new hash shards).live? now key = none := by
      rw [Locks.live?, Locks.stored?_new]
      rfl
    refine ⟨?_, fun paired => paired.elim, fun paired => paired.elim⟩
    show Option.Rel _ ((Locks.new _ _).live? now key) ((Locks.new _ _).live? now key)
    rw [free, free]
    exact .none
  records key _ := (Records.get?_new ..).trans (Records.get?_new ..).symm
  defaultHold := defaultHold
  whole all := by
    obtain ⟨rfl, rfl⟩ := whole all
    exact ⟨rfl, rfl⟩

end Store

end AdvisoryStore
