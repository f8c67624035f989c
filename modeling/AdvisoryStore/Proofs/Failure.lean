import Mathlib
import AdvisoryStore.Proofs.Quiescence

/-!
# What fails changes nothing

A release by one who does not hold the lock, a write or a change that
another's lock is in the way of, and a lock or the end of a hold that is
waited for in vain: all of them fail, and it is as if they had not been
tried. A hold that was over anyway may have been dropped, and what is said
of the failure is counted and logged, but no lock and no record is another,
no bell has rung, and whoever waits goes on waiting for the same thing.

`World.Fruitless` is that relation between the worlds before and after. It
is proved of the six ways to fail (`World.fruitless_release` and the
statements beside it), and `Session.failure_changes_nothing` puts together
when they fail, what is left behind, and that nobody who waits is resumed.
-/

namespace AdvisoryStore

/-! ## The locks -/

namespace Locks

variable {l : Locks} {now : Instant} {key holder : Bytes} {fault : Fault}

/-- **Nobody can tell the locks from what they were**, now or later,
neither by looking at a key nor by listening for its bell. -/
structure Intact (now : Instant) (l m : Locks) : Prop where
  live : ∀ later key, now ≤ later → m.live? later key = l.live? later key
  rings : ∀ key, m.rings key = l.rings key

theorem Intact.refl (l : Locks) : l.Intact now l := ⟨fun _ _ _ => rfl, fun _ => rfl⟩

/-- Locks that are left intact at every step are intact. -/
theorem Intact.trans {m n : Locks} (h : l.Intact now m) (more : m.Intact now n) :
    l.Intact now n where
  live later key le := (more.live later key le).trans (h.live later key le)
  rings key := (more.rings key).trans (h.rings key)

/-- Looking leaves the locks intact. -/
theorem intact_consult (l : Locks) (now : Instant) (key : Bytes) :
    l.Intact now (l.consult now key).after :=
  ⟨fun _ other le => l.live?_consult le key other, l.rings_consult now key⟩

/-- **A release is refused exactly to those who do not hold the lock.** -/
theorem release_eq_error_iff {claimant : Claimant} :
    (l.release now claimant key holder).answer = .error fault
      ↔ fault = .notHolder key holder
        ∧ ∀ h, l.live? now key = some h → h.holder ≠ holder := by
  by_cases own : ∃ h, l.live? now key = some h ∧ h.holder = holder
  · obtain ⟨h, live, own⟩ := own
    rw [release_of_own live own]
    exact iff_of_false nofun (fun refused => refused.2 h live own)
  · have other : ∀ h, l.live? now key = some h → h.holder ≠ holder :=
      fun h live eq => own ⟨h, live, eq⟩
    rw [release_of_not_own other]
    constructor
    · rintro ⟨⟩
      exact ⟨rfl, other⟩
    · rintro ⟨rfl, -⟩
      rfl

end Locks

/-- **A write is refused exactly when another holds the key.** -/
theorem Store.write_eq_error_iff {s : Store} {now : Instant} {claimant : Claimant}
    {key holder : Bytes} {content : Content} {fault : Fault} :
    (s.write now claimant key content holder).answer = .error fault
      ↔ fault = .conflict key holder
        ∧ ∃ h, s.locks.live? now key = some h ∧ h.holder ≠ holder := by
  obtain permitted | ⟨h, live, other⟩ := s.locks.permitted_or_barred now key holder
  · rw [write_of_permitted permitted]
    exact iff_of_false nofun (fun ⟨_, h, live, other⟩ => other (permitted h live))
  · rw [write_of_conflict live other]
    constructor
    · rintro ⟨⟩
      exact ⟨rfl, h, live, other⟩
    · rintro ⟨rfl, -⟩
      rfl

/-! ## The store -/

namespace Store

variable {s t u : Store} {now : Instant} {remark : Happening → Prop}

/-- **Nothing came of it** in a store. Only what was said is counted, and
that a hold was found to be over. -/
structure Fruitless (now : Instant) (remark : Happening → Prop) (s t : Store) : Prop where
  settings : t.settings = s.settings
  records : t.records = s.records
  locks : s.locks.Intact now t.locks
  counters : ∀ c, c ≠ .expiredReclaimed → (∀ what, remark what → c ∉ what.counted) →
    t.counters.get c = s.counters.get c

theorem Fruitless.refl (s : Store) : s.Fruitless now remark s :=
  ⟨rfl, rfl, .refl _, fun _ _ _ => rfl⟩

/-- What comes to nothing at every step comes to nothing. -/
theorem Fruitless.trans (h : s.Fruitless now remark t) (more : t.Fruitless now remark u) :
    s.Fruitless now remark u where
  settings := more.settings.trans h.settings
  records := more.records.trans h.records
  locks := h.locks.trans more.locks
  counters c unreclaimed unsaid :=
    (more.counters c unreclaimed unsaid).trans (h.counters c unreclaimed unsaid)

/-- **An outcome of which nothing came**: all that it says is one of the
things that are allowed, or that a hold was over. -/
structure Barren {α : Type} (now : Instant) (remark : Happening → Prop) (s : Store)
    (o : Outcome Store α) : Prop where
  settings : o.after.settings = s.settings
  records : o.after.records = s.records
  locks : s.locks.Intact now o.after.locks
  counted : o.after.counters = s.counters.bumpAll (o.happened.flatMap Happening.counted)
  said : ∀ what ∈ o.happened, remark what ∨ ∃ key holder, what = .expired key holder

/-- **An outcome of which nothing came leaves a store as it was**, up to what was
said. -/
theorem Barren.fruitless {α : Type} {o : Outcome Store α} (barren : s.Barren now remark o) :
    s.Fruitless now remark o.after where
  settings := barren.settings
  records := barren.records
  locks := barren.locks
  counters c unreclaimed unsaid := by
    have uncounted : (o.happened.flatMap Happening.counted).count c = 0 := by
      refine List.count_eq_zero.mpr (fun mem => ?_)
      obtain ⟨what, what_mem, counted⟩ := List.mem_flatMap.mp mem
      obtain said | ⟨key, holder, rfl⟩ := barren.said what what_mem
      · exact unsaid what said counted
      · exact unreclaimed (List.mem_singleton.mp counted)
    rw [barren.counted, Counters.get_bumpAll, uncounted]
    exact UInt64.add_zero _

/-- An operation on the locks is barren if the locks stay intact. -/
theorem barren_onLocks {α : Type} {f : Locks → Outcome Locks α}
    (locks : s.locks.Intact now (f s.locks).after)
    (said : ∀ what ∈ (f s.locks).happened, remark what ∨ ∃ key holder, what = .expired key holder) :
    s.Barren now remark (s.onLocks f) :=
  ⟨rfl, rfl, locks, rfl, said⟩

variable {claimant : Claimant} {key holder : Bytes} {content : Content} {fault : Fault}

/-- All that looking says is that a hold was over. -/
theorem said_of_consult (l : Locks) (now : Instant) (key : Bytes) (remark : Happening → Prop) :
    ∀ what ∈ (l.consult now key).happened,
      remark what ∨ ∃ key holder, what = .expired key holder := by
  intro what mem
  obtain ⟨heldBy, rfl⟩ := Locks.of_mem_consult mem
  exact .inr ⟨key, heldBy, rfl⟩

/-- To ask whether one may write comes to nothing. -/
theorem barren_permits (s : Store) (now : Instant) (key holder : Bytes)
    (remark : Happening → Prop) : s.Barren now remark (s.permits now key holder) :=
  barren_onLocks (s.locks.intact_consult now key) (said_of_consult s.locks now key remark)

/-- To begin to wait comes to nothing but the remark. -/
theorem barren_beginWait (s : Store) (now : Instant) (key : Bytes) :
    s.Barren now (· = .waitBegan key) (s.beginWait now key) :=
  barren_onLocks (s.locks.intact_consult now key)
    (List.forall_mem_cons.mpr ⟨.inl rfl, said_of_consult s.locks now key _⟩)

/-- **A release that is refused comes to nothing.** -/
theorem barren_release (refused : (s.release now claimant key holder).answer = .error fault) :
    s.Barren now (· = .refused claimant key holder) (s.release now claimant key holder) := by
  obtain ⟨-, other⟩ := Locks.release_eq_error_iff.mp refused
  have eq := Locks.release_of_not_own other claimant
  refine barren_onLocks ?_ ?_
  · rw [eq]
    exact s.locks.intact_consult now key
  · rw [eq]
    exact List.forall_mem_append.mpr
      ⟨said_of_consult s.locks now key _, List.forall_mem_singleton.mpr (.inl rfl)⟩

/-- **A write that is refused comes to nothing.** -/
theorem barren_write (refused : (s.write now claimant key content holder).answer = .error fault) :
    s.Barren now (· = .conflicted key holder) (s.write now claimant key content holder) := by
  obtain ⟨-, h, live, other⟩ := write_eq_error_iff.mp refused
  have asked := s.barren_permits now key holder (· = .conflicted key holder)
  rw [write_of_conflict live other]
  refine ⟨asked.settings, asked.records, asked.locks, ?_, ?_⟩
  · rw [List.flatMap_append, Counters.bumpAll_append, ← asked.counted]
    rfl
  · exact List.forall_mem_append.mpr ⟨asked.said, List.forall_mem_singleton.mpr (.inl rfl)⟩

/-- **Nothing comes of giving up on a lock.** -/
theorem barren_attempt {r : LockRequest} {waited : Bool}
    (gaveUp : (s.attempt now r waited).answer = .gaveUp) :
    s.Barren now (fun what => ∃ heldBy, what = .timedOut r.key r.holder heldBy)
      (s.attempt now r waited) := by
  obtain ⟨heldBy, eq⟩ := Locks.attempt_of_gaveUp gaveUp
  refine barren_onLocks ?_ ?_
  · rw [eq]
    exact .refl _
  · rw [eq]
    exact List.forall_mem_singleton.mpr (.inl ⟨heldBy, rfl⟩)

/-- Nothing comes of giving up on the end of a hold. -/
theorem barren_awaitEnd {generation : Nat} {giveUp : Option Instant}
    (gaveUp : (s.awaitEnd now key generation giveUp).answer = .gaveUp) :
    s.Barren now (· = .waitTimedOut key) (s.awaitEnd now key generation giveUp) := by
  have eq := Locks.awaitEnd_of_gaveUp gaveUp
  refine barren_onLocks ?_ ?_
  · rw [eq]
    exact .refl _
  · rw [eq]
    exact List.forall_mem_singleton.mpr (.inl rfl)

end Store

/-! ## The world -/

namespace World

variable {w w' w'' : World} {now : Instant} {i : Nat} {remark : Happening → Prop}

/-- **Nothing came of it.** All that happened is that something was said in
one store, or that a hold was found to be over there. Nothing came of it in
that store, and everything else is the same. -/
structure Fruitless (now : Instant) (i : Nat) (remark : Happening → Prop) (w w' : World) :
    Prop where
  hash : w'.hash = w.hash
  current : w'.current = w.current
  shared : w'.shared = w.shared
  environment : w'.environment = w.environment
  slots : w'.slots = w.slots
  changes : w'.changes = w.changes
  length : w'.stores.length = w.stores.length
  here : (w.store i).Fruitless now remark (w'.store i)
  elsewhere : ∀ j, j ≠ i → w'.store j = w.store j
  added : w.events <:+ w'.events
  said : ∀ e ∈ w.since w', e.store = i ∧ e.time = now
    ∧ (remark e.what ∨ ∃ key holder, e.what = .expired key holder)

theorem Fruitless.refl (w : World) : w.Fruitless now i remark w where
  hash := rfl
  current := rfl
  shared := rfl
  environment := rfl
  slots := rfl
  changes := rfl
  length := rfl
  here := .refl _
  elsewhere _ _ := rfl
  added := List.suffix_refl _
  said e mem := by
    rw [since_self] at mem
    cases mem

/-- What comes to nothing in a world at every step comes to nothing. -/
theorem Fruitless.trans (h : w.Fruitless now i remark w') (more : w'.Fruitless now i remark w'') :
    w.Fruitless now i remark w'' where
  hash := more.hash.trans h.hash
  current := more.current.trans h.current
  shared := more.shared.trans h.shared
  environment := more.environment.trans h.environment
  slots := more.slots.trans h.slots
  changes := more.changes.trans h.changes
  length := more.length.trans h.length
  here := h.here.trans more.here
  elsewhere j other := (more.elsewhere j other).trans (h.elsewhere j other)
  added := h.added.trans more.added
  said := by
    rw [since_trans h.added more.added]
    exact List.forall_mem_append.mpr ⟨h.said, more.said⟩

/-- More may be said to have been remarked. -/
theorem Fruitless.mono {remark' : Happening → Prop} (h : w.Fruitless now i remark w')
    (weaker : ∀ what, remark what → remark' what) : w.Fruitless now i remark' w' :=
  { h with
    here := { h.here with
      counters := fun c unreclaimed unsaid =>
        h.here.counters c unreclaimed (fun what said => unsaid what (weaker what said)) }
    said := fun e mem =>
      have ⟨store, time, said⟩ := h.said e mem
      ⟨store, time, said.imp_left (weaker e.what)⟩ }

/-- **What is barren in a store is fruitless in the world.** -/
theorem fruitless_on {α : Type} {f : Store → Outcome Store α}
    (barren : (w.store i).Barren now remark (f (w.store i))) :
    w.Fruitless now i remark (w.on now i f).1 := by
  show w.Fruitless now i remark (w.putBack now i (f (w.store i)).after (f (w.store i)).happened)
  have length_eq := w.length_putBack now i (f (w.store i)).after (f (w.store i)).happened
  by_cases there : i < w.stores.length
  · have store_eq := w.store_putBack there now (f (w.store i)).after (f (w.store i)).happened
    have events_eq := w.events_putBack there now (f (w.store i)).after (f (w.store i)).happened
    rw [putBack_of_lt there] at length_eq store_eq events_eq ⊢
    refine ⟨rfl, rfl, rfl, rfl, rfl, rfl, length_eq, ?_, fun j other => ?_, ?_, ?_⟩
    · rw [store_eq, if_pos rfl]
      exact barren.fruitless
    · rw [store_eq, if_neg other]
    · exact List.suffix_append _ _
    · rw [since, events_eq, addedTo_append, List.reverse_reverse]
      exact List.forall_mem_map.mpr (fun what mem => ⟨rfl, rfl, barren.said what mem⟩)
  · rw [putBack_of_not_lt there]
    exact .refl w

/-- **Whoever waits waits for the same thing**, and is woken by the same. -/
theorem Fruitless.ready_eq (h : w.Fruitless now i remark w') (c : Call) (later : Instant) :
    c.ready later w' = c.ready later w := by
  have rings : c.point.rings w' = c.point.rings w := by
    unfold Point.rings
    split
    · rfl
    · next j key _ =>
      by_cases here : j = i
      · rw [here]
        exact h.here.locks.rings key
      · rw [h.elsewhere j here]
  rw [Call.ready, Call.ready, rings]

/-- Where nothing came of it, whoever looks later sees what would have been there. -/
theorem Fruitless.live? (h : w.Fruitless now i remark w') (j : Nat) {later : Instant}
    (le : now ≤ later) (key : Bytes) :
    (w'.store j).locks.live? later key = (w.store j).locks.live? later key := by
  by_cases here : j = i
  · rw [here]
    exact h.here.locks.live later key le
  · rw [h.elsewhere j here]

/-- **Trying a point is in vain as long as it was**, whenever it is tried. -/
theorem Fruitless.waits_iff (h : w.Fruitless now i remark w') {later : Instant} (le : now ≤ later)
    (p : Point) (waited : Bool) (stack : List Frame) (moment : Option Instant) :
    p.pass later w' waited stack = .waits moment ↔ p.pass later w waited stack = .waits moment := by
  rw [Point.pass_eq_waits_iff, Point.pass_eq_waits_iff]
  cases p with
  | lock | release => rw [Point.Blocked, Point.Blocked, h.live? _ le]
  | sleep => exact Iff.rfl

end World

/-! ## What fails -/

/-- **The ways in which an operation fails** in a world: what it answers
with, the world before with what the operation did to it of its own, the
store that was asked, and what is said there. -/
inductive Operation.Failure (w : World) :
    Operation → Reply → World → Nat → (Happening → Prop) → Prop
  | release (key holder : Bytes) (fault : Fault) :
      Failure w (.release key holder) (.failed fault) w w.current (· = .refused .caller key holder)
  | write (key : Bytes) (content : Content) (holder : Bytes) (fault : Fault) :
      Failure w (.write key content holder) (.failed fault) w w.current
        (· = .conflicted key holder)
  /-- A change is not made. -/
  | barred (key holder : Bytes) (fault : Option Fault) (changes : Nat) :
      Failure w (.tryChange key holder fault) (.changed false changes) w w.current
        (fun _ => False)
  /-- A change was tried, which is counted, and came to grief of its own. -/
  | thrown (key holder : Bytes) (fault : Option Fault) (other : Fault) :
      Failure w (.tryChange key holder fault) (.failed other)
        { w with changes := w.changes + 1 } w.current (fun _ => False)
  /-- A handle's lock was lost, and the handle owns nothing from then on. -/
  | handle {slot : Bytes} {h : Handle} (found : w.slots.get? slot = some h) (fault : Fault) :
      Failure w (.handleRelease slot) (.failed fault)
        { w with slots := w.slots.insert slot { h with owns := false } } h.store
        (· = .refused .handle h.key h.holder)

/-- **The ways in which an action fails** in a world. -/
inductive Action.Failure (w : World) :
    Action → Reply → World → Nat → (Happening → Prop) → Prop
  | operation {o : Operation} {r : Reply} {w₀ : World} {i : Nat} {remark : Happening → Prop}
      (failure : o.Failure w r w₀ i remark) : Failure w (.operation o) r w₀ i remark
  | acquire (key holder : Bytes) (hold patience : Option Duration) :
      Failure w (.acquire key holder hold patience) (.flag false) w w.current
        (fun what => ∃ heldBy, what = .timedOut key holder heldBy)
  | wait (key : Bytes) (patience : Option Duration) :
      Failure w (.wait key patience) (.flag false) w w.current
        (fun what => what = .waitBegan key ∨ what = .waitTimedOut key)

/-- **The points at which a call may give up**, with the store that is asked
and what is said there. -/
inductive Point.Failure : Point → Nat → (Happening → Prop) → Prop
  | lock (i : Nat) (request : LockRequest) :
      Failure (.lock i request .answer) i
        (fun what => ∃ heldBy, what = .timedOut request.key request.holder heldBy)
  | release (i : Nat) (key : Bytes) (generation : Nat) (giveUp : Option Instant) :
      Failure (.release i key generation giveUp) i (· = .waitTimedOut key)

namespace World

variable {w w' w₀ : World} {now : Instant} {i : Nat} {remark : Happening → Prop} {r : Reply}

/-- **A change fails of its own exactly when it was tried and does so**; its
fault is handed on as it is. -/
theorem tryChange_eq_failed_iff {key holder : Bytes} {fault : Option Fault} {other : Fault} :
    (w.tryChange now key holder fault).2 = .failed other
      ↔ fault = some other
        ∧ ∀ h, w.currentStore.locks.live? now key = some h → h.holder = holder := by
  have answer : (w.on now w.current (·.permits now key holder)).2 = true ↔ _ :=
    w.currentStore.locks.answer_permits now key holder
  unfold tryChange
  generalize w.on now w.current (·.permits now key holder) = asked at answer
  obtain ⟨u, permitted⟩ := asked
  rw [← answer]
  cases permitted with
  | false => exact iff_of_false nofun (fun failed => nomatch failed.2)
  | true =>
    cases fault with
    | none => exact iff_of_false nofun (fun failed => nomatch failed.1)
    | some fault =>
      constructor
      · rintro ⟨⟩
        exact ⟨rfl, rfl⟩
      · rintro ⟨⟨⟩, -⟩
        rfl

/-- A release that is refused leaves the world as it was. -/
theorem fruitless_release (w : World) (now : Instant) (i : Nat) (claimant : Claimant)
    (key holder : Bytes) ⦃fault : Fault⦄
    (refused : (w.on now i (·.release now claimant key holder)).2 = .error fault) :
    w.Fruitless now i (· = .refused claimant key holder)
      (w.on now i (·.release now claimant key holder)).1 :=
  fruitless_on (Store.barren_release refused)

/-- So does a write that is refused. -/
theorem fruitless_write (w : World) (now : Instant) (i : Nat) (claimant : Claimant)
    (key : Bytes) (content : Content) (holder : Bytes) ⦃fault : Fault⦄
    (refused : (w.on now i (·.write now claimant key content holder)).2 = .error fault) :
    w.Fruitless now i (· = .conflicted key holder)
      (w.on now i (·.write now claimant key content holder)).1 :=
  fruitless_on (Store.barren_write refused)

/-- So does giving up on a lock. -/
theorem fruitless_attempt (w : World) (now : Instant) (i : Nat) (request : LockRequest)
    (waited : Bool) (gaveUp : (w.on now i (·.attempt now request waited)).2 = .gaveUp) :
    w.Fruitless now i (fun what => ∃ heldBy, what = .timedOut request.key request.holder heldBy)
      (w.on now i (·.attempt now request waited)).1 :=
  fruitless_on (Store.barren_attempt gaveUp)

/-- So does giving up on the end of a hold. -/
theorem fruitless_awaitEnd (w : World) (now : Instant) (i : Nat) (key : Bytes)
    (generation : Nat) (giveUp : Option Instant)
    (gaveUp : (w.on now i (·.awaitEnd now key generation giveUp)).2 = .gaveUp) :
    w.Fruitless now i (· = .waitTimedOut key)
      (w.on now i (·.awaitEnd now key generation giveUp)).1 :=
  fruitless_on (Store.barren_awaitEnd gaveUp)

/-- Nothing comes of beginning to wait for the end of a hold. -/
theorem fruitless_beginWait (w : World) (now : Instant) (i : Nat) (key : Bytes) :
    w.Fruitless now i (· = .waitBegan key) (w.on now i (·.beginWait now key)).1 :=
  fruitless_on (Store.barren_beginWait ..)

/-- Nothing comes of asking whether a change may be made. -/
theorem fruitless_permits (w : World) (now : Instant) (i : Nat) (key holder : Bytes)
    (remark : Happening → Prop) :
    w.Fruitless now i remark (w.on now i (·.permits now key holder)).1 :=
  fruitless_on (Store.barren_permits ..)

/-- Nothing comes of it when it is answered that it was refused. -/
theorem fruitless_verdict {asked : World × Except Fault Unit} {fault : Fault}
    (fruitless : ∀ ⦃fault⦄, asked.2 = .error fault → w.Fruitless now i remark asked.1)
    (told : (verdict asked).2 = .failed fault) : w.Fruitless now i remark (verdict asked).1 := by
  obtain ⟨u, answer⟩ := asked
  cases answer with
  | ok => cases told
  | error => exact fruitless rfl

theorem perform_release (w : World) (now : Instant) (key holder : Bytes) :
    w.perform now (.release key holder)
      = verdict (w.on now w.current (·.release now .caller key holder)) := rfl

/-- A handle that owns a lock owns it no longer, and gives it back. -/
theorem perform_handleRelease_of_owns {slot : Bytes} {h : Handle}
    (found : w.slots.get? slot = some h) (owns : h.owns = true) (now : Instant) :
    w.perform now (.handleRelease slot)
      = verdict (World.on { w with slots := w.slots.insert slot { h with owns := false } } now
        h.store (·.release now .handle h.key h.holder)) := by
  rw [perform, handleRelease, found]
  exact if_pos owns

/-- **Nothing comes of an operation that fails**, but for what it did of its
own. -/
theorem fruitless_perform {o : Operation} (failure : o.Failure w r w₀ i remark)
    (told : (w.perform now o).2 = r) : w₀.Fruitless now i remark (w.perform now o).1 := by
  cases failure with
  | release key holder fault =>
    rw [perform_release] at told ⊢
    exact fruitless_verdict (w.fruitless_release now w.current .caller key holder) told
  | write key content holder fault =>
    rw [perform_write] at told ⊢
    exact fruitless_verdict (w.fruitless_write now w.current .caller key content holder) told
  | barred key holder fault changes =>
    have asking := w.fruitless_permits now w.current key holder (fun _ => False)
    rw [perform, tryChange] at told ⊢
    generalize w.on now w.current (·.permits now key holder) = asked at told asking ⊢
    obtain ⟨u, permitted⟩ := asked
    cases permitted with
    | false => exact asking
    | true => cases fault <;> cases told
  | thrown key holder fault other =>
    have asking := w.fruitless_permits now w.current key holder (fun _ => False)
    rw [perform, tryChange] at told ⊢
    generalize w.on now w.current (·.permits now key holder) = asked at told asking ⊢
    obtain ⟨u, permitted⟩ := asked
    cases permitted with
    | false => cases told
    | true =>
      cases fault with
      | none => cases told
      | some fault =>
        exact { asking with changes := congrArg (· + 1) asking.changes }
  | @handle slot h found fault =>
    cases owns : h.owns with
    | true =>
      rw [perform_handleRelease_of_owns found owns] at told ⊢
      exact fruitless_verdict (fruitless_release _ now h.store .handle h.key h.holder) told
    | false =>
      rw [perform, handleRelease, found] at told
      simp [owns] at told

end World

namespace Point

variable {p : Point} {now : Instant} {w w' : World} {i : Nat} {remark : Happening → Prop}
  {waited : Bool} {stack : List Frame}

/-- Who gets past a point at which one may give up is told whether it did. -/
theorem Failure.answer_of_pass (failure : p.Failure i remark) {c : Control}
    (pass : p.pass now w waited stack = .passed w' c) : ∃ b, c = ⟨.answer (.flag b), stack⟩ := by
  cases failure with
  | lock i request =>
    cases passes_of_pass pass with
    | gaveUp | granted => exact ⟨_, rfl⟩
  | release i key generation giveUp =>
    cases passes_of_pass pass with
    | waitOver ended => exact ⟨ended, rfl⟩

/-- **Nothing comes of a call that gives up** at its point. -/
theorem Failure.fruitless (failure : p.Failure i remark) {stack' : List Frame}
    (pass : p.pass now w waited stack = .passed w' ⟨.answer (.flag false), stack'⟩) :
    w.Fruitless now i remark w' := by
  cases failure with
  | lock i request =>
    have fruitless := w.fruitless_attempt now i request waited
    rw [Point.pass] at pass
    generalize w.on now i (·.attempt now request waited) = tried at pass fruitless
    obtain ⟨u, attempt⟩ := tried
    cases attempt with
    | blockedBy | granted => cases pass
    | gaveUp =>
      cases pass
      exact fruitless rfl
  | release i key generation giveUp =>
    have fruitless := w.fruitless_awaitEnd now i key generation giveUp
    rw [Point.pass] at pass
    generalize w.on now i (·.awaitEnd now key generation giveUp) = tried at pass fruitless
    obtain ⟨u, wait⟩ := tried
    cases wait with
    | heldBy | ended => cases pass
    | gaveUp =>
      cases pass
      exact fruitless rfl

/-- A call that comes to such a point and has its answer at once, and the
answer is that it gave up. -/
theorem Failure.fruitless_of_run (failure : p.Failure i remark)
    (ran : Control.run now w ⟨.arrive p, []⟩ = (w', .finished (.flag false))) :
    w.Fruitless now i remark w' := by
  cases pass : p.pass now w false [] with
  | waits wake =>
    have step : Control.step now w ⟨.arrive p, []⟩ = .waits p [] wake := by
      simp only [Control.step, pass]
    rw [Control.run_of_waits step] at ran
    cases ran
  | passed u c =>
    obtain ⟨b, rfl⟩ := failure.answer_of_pass pass
    have step : Control.step now w ⟨.arrive p, []⟩ = .moved u ⟨.answer (.flag b), []⟩ := by
      simp only [Control.step, pass]
    rw [Control.run_of_moved step, Control.run_answer] at ran
    cases ran
    exact failure.fruitless pass

end Point

/-! ## Calls and sessions -/

/-- **Nothing comes of a call that fails at once**, but for what it did of
its own. -/
theorem Action.Failure.fruitless {a : Action} {r : Reply} {w w₀ w' : World} {now : Instant}
    {i : Nat} {remark : Happening → Prop} (failure : a.Failure w r w₀ i remark)
    (ran : Control.run now w ⟨.perform a, []⟩ = (w', .finished r)) :
    w₀.Fruitless now i remark w' := by
  cases failure with
  | operation failure =>
    rw [Control.run_operation] at ran
    cases ran
    exact World.fruitless_perform failure rfl
  | acquire key holder hold patience =>
    have sought : Control.step now w ⟨.perform (.acquire key holder hold patience), []⟩
        = .moved w ⟨.arrive (w.seek now .caller key holder hold patience .answer), []⟩ := rfl
    rw [Control.run_of_moved sought] at ran
    exact (Point.Failure.lock ..).fruitless_of_run ran
  | wait key patience =>
    have began : w.Fruitless now w.current
        (fun what => what = .waitBegan key ∨ what = .waitTimedOut key) _ :=
      (w.fruitless_beginWait now w.current key).mono (fun _ said => .inl said)
    generalize eq : w.on now w.current (·.beginWait now key) = asked at began
    obtain ⟨u, held⟩ := asked
    cases held with
    | none =>
      have step : Control.step now w ⟨.perform (.wait key patience), []⟩
          = .moved u ⟨.answer (.flag true), []⟩ := by
        simp only [Control.step, Control.begin, eq]
      rw [Control.run_of_moved step, Control.run_answer] at ran
      cases ran
    | some h =>
      have step : Control.step now w ⟨.perform (.wait key patience), []⟩
          = .moved u ⟨.arrive (.release u.current key h.generation (patience.bind now.after?)),
            []⟩ := by
        simp only [Control.step, Control.begin, eq]
      rw [Control.run_of_moved step, began.current] at ran
      have gaveUp := (Point.Failure.release ..).fruitless_of_run ran
      exact began.trans (gaveUp.mono (fun _ said => .inr said))

/-- What an action does of its own when it fails, it does to no store. -/
theorem Action.Failure.stores_eq {a : Action} {r : Reply} {w w₀ : World} {i : Nat}
    {remark : Happening → Prop} (failure : a.Failure w r w₀ i remark) : w₀.stores = w.stores := by
  cases failure with
  | operation failure => cases failure <;> rfl
  | acquire | wait => rfl

namespace Session

variable {s : Session}

/-- **A call that fails at once resumes nobody**, and all who wait go on
waiting. -/
theorem AtRest.carryOut_of_failure (rest : s.AtRest) {a : Action} {r : Reply} {w₀ : World}
    {i : Nat} {remark : Happening → Prop} (failure : a.Failure s.world r w₀ i remark)
    (told : (s.carryOut (.call a)).2.reply = some r) :
    w₀.Fruitless s.now i remark (s.carryOut (.call a)).1.world
      ∧ (s.carryOut (.call a)).1.calls = s.calls
      ∧ (s.carryOut (.call a)).2.woken = [] := by
  generalize ran : Control.run s.now s.world ⟨.perform a, []⟩ = outcome
  obtain ⟨w, standing⟩ := outcome
  obtain rfl : standing = .finished r := by
    have replied : standing.reply? = some r := by
      rw [← told]
      exact congrArg (fun outcome => outcome.2.reply?) ran.symm
    cases standing with
    | waiting => cases replied
    | finished => rw [Option.some.inj replied]
  have fruitless := failure.fruitless ran
  let called : Session := { s with
    world := w
    returned := ⟨s.nextId, s.now, r⟩ :: s.returned
    nextId := s.nextId + 1 }
  have call_eq : (s.call a).1 = called := by
    rw [call, ran]
    exact congrArg (fun calls => { called with calls }) (List.append_nil s.calls)
  -- no bell has rung, so that nobody has cause to look again
  have idle : ∀ c ∈ called.calls, called.isIdle c := by
    intro c mem
    have ready_eq := fruitless.ready_eq c s.now
    have rings_eq : c.point.rings w₀ = c.point.rings s.world := by
      unfold Point.rings World.store
      rw [failure.stores_eq]
    show (!c.ready s.now w) = true
    rw [ready_eq, Call.ready, rings_eq, ← Call.ready]
    exact rest.idle c mem
  have drained : (s.call a).1.drain = called := by
    rw [call_eq, drain_of_isIdle idle]
  have world_eq : (s.carryOut (.call a)).1 = called := drained
  have woken_eq : (s.carryOut (.call a)).2.woken = addedTo (s.call a).1.returned called.returned :=
    congrArg (fun final : Session => addedTo (s.call a).1.returned final.returned) drained
  rw [world_eq, woken_eq, call_eq, addedTo_self]
  exact ⟨fruitless, rfl, rfl⟩

/-- **What fails changes nothing**, and fails when it should.

A release is refused exactly to those who do not hold the lock, a write
exactly when another holds the key, and a change fails with a fault exactly
when it may be made and brings that fault with it; it has then been tried
once, and the fault is handed on as it is.

A release or a write that is refused, whoever asks for it, an operation
that fails and a call that gives up at its point, however long it has
waited there, leave every lock and every record as they were. All that is
counted and logged is what is said of it, and that holds were over.

Whoever waits is then woken by the same as before, and comes to wait
further exactly if it would have before. In a session in which nobody has
cause to look again, a call that fails at once resumes nobody, and all who
wait go on waiting. -/
theorem failure_changes_nothing :
    (∀ (w : World) (now : Instant) (i : Nat) (claimant : Claimant) (key holder : Bytes)
        (fault : Fault),
      ((w.on now i (·.release now claimant key holder)).2 = .error fault
          ↔ fault = .notHolder key holder
            ∧ ∀ h, (w.store i).locks.live? now key = some h → h.holder ≠ holder)
        ∧ ((w.on now i (·.release now claimant key holder)).2 = .error fault →
          w.Fruitless now i (· = .refused claimant key holder)
            (w.on now i (·.release now claimant key holder)).1)
        ∧ ∀ content,
          ((w.on now i (·.write now claimant key content holder)).2 = .error fault
            ↔ fault = .conflict key holder
              ∧ ∃ h, (w.store i).locks.live? now key = some h ∧ h.holder ≠ holder)
          ∧ ((w.on now i (·.write now claimant key content holder)).2 = .error fault →
            w.Fruitless now i (· = .conflicted key holder)
              (w.on now i (·.write now claimant key content holder)).1))
      ∧ (∀ (w : World) (now : Instant) (key holder : Bytes) (thrown : Option Fault)
          (fault : Fault),
        (w.perform now (.tryChange key holder thrown)).2 = .failed fault
          ↔ thrown = some fault
            ∧ ∀ h, w.currentStore.locks.live? now key = some h → h.holder = holder)
      ∧ (∀ (w w₀ : World) (now : Instant) (o : Operation) (r : Reply) (i : Nat)
          (remark : Happening → Prop),
        o.Failure w r w₀ i remark → (w.perform now o).2 = r →
          w₀.Fruitless now i remark (w.perform now o).1)
      ∧ (∀ (w w' : World) (now : Instant) (p : Point) (i : Nat) (remark : Happening → Prop)
          (waited : Bool) (stack : List Frame),
        p.Failure i remark → p.pass now w waited stack = .passed w' ⟨.answer (.flag false), stack⟩ →
          w.Fruitless now i remark w')
      ∧ (∀ (w w' : World) (now later : Instant) (i : Nat) (remark : Happening → Prop) (c : Call),
        w.Fruitless now i remark w' → now ≤ later →
          c.ready later w' = c.ready later w
            ∧ ∀ moment, c.point.pass later w' true c.stack = .waits moment
              ↔ c.point.pass later w true c.stack = .waits moment)
      ∧ ∀ (s : Session) (a : Action) (r : Reply) (w₀ : World) (i : Nat)
          (remark : Happening → Prop),
        s.Quiescent → a.Failure s.world r w₀ i remark →
          (s.carryOut (.call a)).2.reply = some r →
          w₀.Fruitless s.now i remark (s.carryOut (.call a)).1.world
            ∧ (s.carryOut (.call a)).1.calls = s.calls
            ∧ (s.carryOut (.call a)).2.woken = [] := by
  refine ⟨fun w now i claimant key holder fault => ?_, ?_, ?_, ?_, ?_, ?_⟩
  · refine ⟨Locks.release_eq_error_iff, fun refused => ?_,
      fun content => ⟨Store.write_eq_error_iff, fun refused => ?_⟩⟩
    · exact w.fruitless_release now i claimant key holder refused
    · exact w.fruitless_write now i claimant key content holder refused
  · intro w now key holder thrown fault
    exact World.tryChange_eq_failed_iff
  · intro w w₀ now o r i remark failure told
    exact World.fruitless_perform failure told
  · intro w w' now p i remark waited stack failure pass
    exact failure.fruitless pass
  · intro w w' now later i remark c fruitless le
    exact ⟨fruitless.ready_eq c later, fruitless.waits_iff le c.point true c.stack⟩
  · intro s a r w₀ i remark quiescent failure told
    exact quiescent.atRest.carryOut_of_failure failure told

theorem failure_changes_nothing_of_contended :
    let asked := contended.carryOut (.call (.operation (.release [1] [30])))
    asked.2.reply = some (.failed (.notHolder [1] [30]))
      ∧ contended.world.Fruitless contended.now contended.world.current
        (· = .refused .caller [1] [30]) asked.1.world
      ∧ contended.pending = [1] ∧ asked.1.calls = contended.calls ∧ asked.2.woken = [] := by
  intro asked
  have quiescent : contended.Quiescent :=
    ((Quiescent.start (fun _ => 0) {} (fun _ => none) 0).carryOutAll _).carryOutAll _
  have told : asked.2.reply = some (.failed (.notHolder [1] [30])) := by cbv
  obtain ⟨-, -, -, -, -, sessions⟩ := failure_changes_nothing
  obtain ⟨fruitless, calls, woken⟩ := sessions contended _ _ _ _ _ quiescent
    (.operation (.release [1] [30] (.notHolder [1] [30]))) told
  exact ⟨told, fruitless, by decide +kernel, calls, woken⟩

end Session

end AdvisoryStore
