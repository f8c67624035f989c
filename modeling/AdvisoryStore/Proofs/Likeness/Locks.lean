import Mathlib.Data.Option.Basic
import Mathlib.Order.Basic
import AdvisoryStore.Proofs.Agreement
import AdvisoryStore.Proofs.Likeness.Unmoved

/-!
# Locks that are alike

The locks of two stores are **alike** as far as they are looked at if the
same is live in them. They need not be equal: either may still store holds
that are over, their cells may be others, and so may the generations of
their holds. A **pairing** says which generation of a key in one store is
which in the other. It pairs generations one to one and only such as have
been given, so that whoever awaits the end of a hold in one store awaits
the end of its counterpart in the other.

Operations keep locks alike, answer the same in both, and say the same but
for what is fleeting (`Outcome.Agree`). Only a grant adds to the pairing
(`Locks.Alike.attempt`).
-/

namespace AdvisoryStore

/-- **Holds that are counterparts**: the same but for their generations,
which are paired. -/
structure Hold.Alike (pair : Nat → Nat → Prop) (g h : Hold) : Prop where
  holder : g.holder = h.holder
  since : g.since = h.since
  deadline : g.deadline = h.deadline
  generation : pair g.generation h.generation

/-- **Two outcomes agree**: what comes of them is alike, they say the same
but for what is fleeting, and the answers agree. -/
structure Outcome.Agree {σ α : Type} (R : σ → σ → Prop) (A : α → α → Prop)
    (o p : Outcome σ α) : Prop where
  after : R o.after p.after
  said : Happening.lasting o.happened = Happening.lasting p.happened
  answer : A o.answer p.answer

/-- Attempts that come to the same. -/
inductive Attempt.Alike : Attempt → Attempt → Prop
  | granted : Alike .granted .granted
  | gaveUp : Alike .gaveUp .gaveUp
  | blocked {g h : Hold} (deadline : g.deadline = h.deadline) : Alike (.blockedBy g) (.blockedBy h)

/-- Waits that come to the same. -/
inductive Wait.Alike : Wait → Wait → Prop
  | ended : Alike .ended .ended
  | gaveUp : Alike .gaveUp .gaveUp
  | held {g h : Hold} (deadline : g.deadline = h.deadline) : Alike (.heldBy g) (.heldBy h)

/-- Holds that are alike expire together. -/
theorem Hold.Alike.expired_eq {pair : Nat → Nat → Prop} {g h : Hold} (alike : g.Alike pair h)
    (now : Instant) : g.expired now = h.expired now := by
  rw [expired, expired, alike.deadline]

/-- What is fleeting leaves nothing. -/
theorem Happening.lasting_eq_nil {happened : List Happening}
    (fleeting : ∀ what ∈ happened, what.lasting? = none) : lasting happened = [] :=
  List.filterMap_eq_nil_iff.mpr fleeting

/-! ## The locks of a key -/

namespace Locks

variable {pair : Nat → Nat → Prop} {now later : Instant} {key holder : Bytes}
  {l l' m m' : Locks}

/-- What is live later is what is live now and lasts. -/
theorem live?_later (l : Locks) (le : now ≤ later) (key : Bytes) :
    l.live? later key = (l.live? now key).filter (fun h => !h.expired later) := by
  rw [live?, live?, Option.filter_filter]
  refine congrArg (Option.filter · _) (funext fun h => ?_)
  cases past : h.expired now with
  | false => simp
  | true => simp [Hold.expired_mono le past]

/-- **The locks of a key are alike.** -/
structure AlikeAt (pair : Nat → Nat → Prop) (now : Instant) (key : Bytes) (l m : Locks) :
    Prop where
  live : Option.Rel (Hold.Alike pair) (l.live? now key) (m.live? now key)
  /-- Generations are paired one to one. -/
  unique : ∀ {a b a' b' : Nat}, pair a b → pair a' b' → (a = a' ↔ b = b')
  /-- Only generations that were given are paired. -/
  given : ∀ {a b : Nat}, pair a b → a < l.grants key ∧ b < m.grants key

/-- What is live is counterparts, or nothing is live. -/
theorem AlikeAt.cases (alike : AlikeAt pair now key l m) :
    (l.live? now key = none ∧ m.live? now key = none)
      ∨ ∃ g h, l.live? now key = some g ∧ m.live? now key = some h ∧ g.Alike pair h := by
  have live := alike.live
  revert live
  cases l.live? now key with
  | none =>
    cases m.live? now key with
    | none => exact fun _ => .inl ⟨rfl, rfl⟩
    | some h => exact fun live => nomatch live
  | some g =>
    cases m.live? now key with
    | none => exact fun live => nomatch live
    | some h =>
      rintro ⟨alike⟩
      exact .inr ⟨g, h, rfl, rfl, alike⟩

theorem AlikeAt.isSome (alike : AlikeAt pair now key l m) :
    (l.live? now key).isSome = (m.live? now key).isSome := by
  obtain ⟨none, none'⟩ | ⟨g, h, live, live', -⟩ := alike.cases
  · rw [none, none']
  · rw [live, live', Option.isSome_some, Option.isSome_some]

/-- Whom a key is open to is the same. -/
theorem AlikeAt.all (alike : AlikeAt pair now key l m) (holder : Bytes) :
    (l.live? now key).all (fun h => h.holder = holder)
      = (m.live? now key).all (fun h => h.holder = holder) := by
  obtain ⟨none, none'⟩ | ⟨g, h, live, live', same⟩ := alike.cases
  · rw [none, none']
  · rw [live, live', Option.all_some, Option.all_some, same.holder]

/-- **What leaves a key alone leaves it alike.** -/
theorem AlikeAt.unmoved (alike : AlikeAt pair now key l m) (left : Unmoved now key l l')
    (right : Unmoved now key m m') : AlikeAt pair now key l' m' where
  live := by
    rw [left.live, right.live]
    exact alike.live
  unique := alike.unique
  given paired :=
    ⟨Nat.lt_of_lt_of_le (alike.given paired).1 left.grants,
      Nat.lt_of_lt_of_le (alike.given paired).2 right.grants⟩

/-- What frees a key in both leaves it alike. -/
theorem AlikeAt.free (alike : AlikeAt pair now key l m) (left : l'.live? now key = none)
    (right : m'.live? now key = none) (grants : l.grants key ≤ l'.grants key)
    (grants' : m.grants key ≤ m'.grants key) : AlikeAt pair now key l' m' where
  live := by
    rw [left, right]
    exact .none
  unique := alike.unique
  given paired :=
    ⟨Nat.lt_of_lt_of_le (alike.given paired).1 grants,
      Nat.lt_of_lt_of_le (alike.given paired).2 grants'⟩

/-- **What is alike stays alike as time goes by.** -/
theorem AlikeAt.tick (alike : AlikeAt pair now key l m) (le : now ≤ later) :
    AlikeAt pair later key l m where
  live := by
    rw [l.live?_later le, m.live?_later le]
    obtain ⟨none, none'⟩ | ⟨g, h, live, live', same⟩ := alike.cases
    · rw [none, none']
      exact .none
    · rw [live, live', Option.filter_some, Option.filter_some, same.expired_eq]
      split
      · exact .some same
      · exact .none
  unique := alike.unique
  given := alike.given

/-- The generations that are paired when a key is granted in both. -/
def granting (pair : Nat → Nat → Prop) (key : Bytes) (l m : Locks) : Nat → Nat → Prop :=
  fun a b => pair a b ∨ (a = l.grants key ∧ b = m.grants key)

/-- **A key that is granted in both is alike**, and the new holds are
counterparts. -/
theorem AlikeAt.grant (alike : AlikeAt pair now key l m) (holder : Bytes)
    (deadline : Option Instant) :
    AlikeAt (granting pair key l m) now key (l.grant key holder now deadline)
      (m.grant key holder now deadline) where
  live := by
    let g : Hold := ⟨holder, now, deadline, l.grants key⟩
    let h : Hold := ⟨holder, now, deadline, m.grants key⟩
    have same : g.Alike (granting pair key l m) h := ⟨rfl, rfl, rfl, .inr ⟨rfl, rfl⟩⟩
    rw [live?, stored?_grant, if_pos rfl, live?, stored?_grant, if_pos rfl]
    show Option.Rel _ (Option.filter _ (some g)) (Option.filter _ (some h))
    rw [Option.filter_some, Option.filter_some, same.expired_eq]
    split
    · exact .some same
    · exact .none
  unique := by
    have fresh {a b : Nat} (paired : pair a b) : a ≠ l.grants key ∧ b ≠ m.grants key :=
      ⟨Nat.ne_of_lt (alike.given paired).1, Nat.ne_of_lt (alike.given paired).2⟩
    rintro a b a' b' (old | ⟨rfl, rfl⟩) (old' | ⟨rfl, rfl⟩)
    · exact alike.unique old old'
    · exact iff_of_false (fresh old).1 (fresh old).2
    · exact iff_of_false (Ne.symm (fresh old').1) (Ne.symm (fresh old').2)
    · exact iff_of_true rfl rfl
  given := by
    rw [grants_grant, if_pos rfl, grants_grant, if_pos rfl]
    rintro a b (old | ⟨rfl, rfl⟩)
    · exact ⟨Nat.lt_succ_of_lt (alike.given old).1, Nat.lt_succ_of_lt (alike.given old).2⟩
    · exact ⟨Nat.lt_succ_self _, Nat.lt_succ_self _⟩

/-! ## Operations on the locks -/

/-- **Locks are alike** as far as they are looked at. -/
def Alike (scope : Scope) (pair : Bytes → Nat → Nat → Prop) (now : Instant) (l m : Locks) : Prop :=
  ∀ key, scope.Covers key → AlikeAt (pair key) now key l m

section

variable {scope : Scope} {pair : Bytes → Nat → Nat → Prop}

/-- What leaves alone what is looked at leaves it alike. -/
theorem Alike.unmoved (alike : Alike scope pair now l m)
    (left : ∀ key, scope.Covers key → l.Unmoved now key l')
    (right : ∀ key, scope.Covers key → m.Unmoved now key m') : Alike scope pair now l' m' :=
  fun key covered => (alike key covered).unmoved (left key covered) (right key covered)

/-- What is done at a key and nowhere else is to be told at that key. -/
theorem Alike.of_at {pair' : Bytes → Nat → Nat → Prop} (alike : Alike scope pair now l m)
    (key : Bytes)
    (there : AlikeAt (pair' key) now key l' m')
    (same : ∀ other, other ≠ key → pair' other = pair other)
    (left : ∀ other, other ≠ key → l.Unmoved now other l')
    (right : ∀ other, other ≠ key → m.Unmoved now other m') : Alike scope pair' now l' m' := by
  intro other covered
  by_cases eq : other = key
  · rwa [eq]
  · rw [same other eq]
    exact (alike other covered).unmoved (left other eq) (right other eq)

/-- Looking leaves every key alone. -/
theorem unmoved_consult (l : Locks) (now : Instant) (key other : Bytes) :
    l.Unmoved now other (l.consult now key).after := by
  refine (l.unfolds_consult now key).unmoved (fun what mem => ?_)
  obtain ⟨heldBy, rfl⟩ := of_mem_consult mem
  rfl

/-- Nothing that lasts is said of a look. -/
@[simp] theorem lasting_consult (l : Locks) (now : Instant) (key : Bytes) :
    Happening.lasting (l.consult now key).happened = [] := by
  refine Happening.lasting_eq_nil (fun what mem => ?_)
  obtain ⟨heldBy, rfl⟩ := of_mem_consult mem
  rfl

theorem Alike.consult (alike : Alike scope pair now l m) (covered : scope.Covers key) :
    (l.consult now key).Agree (Alike scope pair now) (Option.Rel (Hold.Alike (pair key)))
      (m.consult now key) where
  after := alike.unmoved (fun other _ => l.unmoved_consult now key other)
    (fun other _ => m.unmoved_consult now key other)
  said := (l.lasting_consult now key).trans (m.lasting_consult now key).symm
  answer := by
    rw [answer_consult, answer_consult]
    exact (alike key covered).live

/-- Whether somebody may write is answered alike. -/
theorem Alike.permits (alike : Alike scope pair now l m) (covered : scope.Covers key)
    (holder : Bytes) :
    (l.permits now key holder).Agree (Alike scope pair now) Eq (m.permits now key holder) where
  after := (alike.consult covered).after
  said := (alike.consult covered).said
  answer := by
    rw [answer_permits_eq, answer_permits_eq]
    exact (alike key covered).all holder

/-- An attempt at a key leaves the others alone. -/
theorem unmoved_attempt (l : Locks) (now : Instant) (r : LockRequest) (waited : Bool)
    {other : Bytes} (ne : other ≠ r.key) : l.Unmoved now other (l.attempt now r waited).after := by
  refine (l.unfolds_attempt now r waited).unmoved (fun what mem => ?_)
  obtain ⟨heldBy, rfl⟩ | rfl | rfl | ⟨heldBy, rfl⟩ := of_mem_attempt mem
  · rfl
  · exact decide_eq_false (Ne.symm ne)
  · rfl
  · rfl

/-- **Attempts at a key come to the same.** If the key is granted, its
generations are paired from then on. -/
theorem Alike.attempt (alike : Alike scope pair now l m) {r : LockRequest}
    (covered : scope.Covers r.key) (waited : Bool) :
    ∃ pair', pair ≤ pair' ∧ (l.attempt now r waited).Agree (Alike scope pair' now) Attempt.Alike
      (m.attempt now r waited) := by
  have at_key := alike r.key covered
  obtain ⟨free, free'⟩ | ⟨g, h, live, live', same⟩ := at_key.cases
  · -- the key is free in both, and is granted in both
    let looked := (l.consult now r.key).after
    let looked' := (m.consult now r.key).after
    have at_looked : AlikeAt (pair r.key) now r.key looked looked' :=
      ((alike.consult covered).after r.key covered)
    let pair' := Function.update pair r.key (granting (pair r.key) r.key looked looked')
    have here : pair' r.key = granting (pair r.key) r.key looked looked' :=
      Function.update_self ..
    have elsewhere (other : Bytes) (ne : other ≠ r.key) : pair' other = pair other :=
      Function.update_of_ne ne ..
    refine ⟨pair', fun other => ?_, ⟨?_, ?_, ?_⟩⟩
    · by_cases eq : other = r.key
      · rw [eq, here]
        exact fun a b => .inl
      · rw [elsewhere other eq]
    · refine alike.of_at r.key ?_ elsewhere
        (fun other ne => l.unmoved_attempt now r waited ne)
        (fun other ne => m.unmoved_attempt now r waited ne)
      rw [attempt_of_live?_eq_none free, attempt_of_live?_eq_none free', here]
      exact at_looked.grant r.holder (r.hold.bind now.after?)
    · rw [attempt_of_live?_eq_none free, attempt_of_live?_eq_none free']
      simp
    · rw [attempt_of_live?_eq_none free, attempt_of_live?_eq_none free']
      exact .granted
  · refine ⟨pair, le_refl pair, ?_⟩
    by_cases own : g.holder = r.holder
    · rw [attempt_of_own live own, attempt_of_own live' (same.holder.symm.trans own)]
      exact ⟨alike, rfl, .granted⟩
    · have other : h.holder ≠ r.holder := fun eq => own (same.holder.trans eq)
      rw [attempt_of_other live own, attempt_of_other live' other, same.holder]
      split
      · exact ⟨alike, rfl, .gaveUp⟩
      · exact ⟨alike, rfl, .blocked same.deadline⟩

/-- A release at a key leaves the others alone. -/
theorem unmoved_release (l : Locks) (now : Instant) (claimant : Claimant) (key holder : Bytes)
    {other : Bytes} (ne : other ≠ key) :
    l.Unmoved now other (l.release now claimant key holder).after := by
  refine (l.unfolds_release now claimant key holder).unmoved (fun what mem => ?_)
  obtain ⟨heldBy, rfl⟩ | rfl | rfl := of_mem_release mem
  · rfl
  · exact decide_eq_false (Ne.symm ne)
  · rfl

/-- A key is given back alike. -/
theorem Alike.release (alike : Alike scope pair now l m) (covered : scope.Covers key)
    (claimant : Claimant) (holder : Bytes) :
    (l.release now claimant key holder).Agree (Alike scope pair now) Eq
      (m.release now claimant key holder) := by
  have refused (other : ∀ g, l.live? now key = some g → g.holder ≠ holder)
      (other' : ∀ h, m.live? now key = some h → h.holder ≠ holder) :
      (l.release now claimant key holder).Agree (Alike scope pair now) Eq
        (m.release now claimant key holder) := by
    rw [release_of_not_own other, release_of_not_own other']
    exact ⟨(alike.consult covered).after, by simp, rfl⟩
  have at_key := alike key covered
  obtain ⟨free, free'⟩ | ⟨g, h, live, live', same⟩ := at_key.cases
  · refine refused (fun g live => ?_) (fun h live' => ?_)
    · rw [free] at live
      cases live
    · rw [free'] at live'
      cases live'
  · by_cases own : g.holder = holder
    · have released := release_of_own live own claimant
      have released' := release_of_own live' (same.holder.symm.trans own) claimant
      have freed (l : Locks) : ((l.drop key).ring key).live? now key = none := by
        rw [live?_ring, live?_drop, if_pos rfl]
      have grants (l : Locks) : l.grants key ≤ ((l.drop key).ring key).grants key :=
        Nat.le_of_eq ((grants_ring ..).trans (grants_drop ..)).symm
      refine ⟨alike.of_at key ?_ (fun _ _ => rfl)
        (fun other ne => l.unmoved_release now claimant key holder ne)
        (fun other ne => m.unmoved_release now claimant key holder ne), ?_, ?_⟩
      · rw [released, released']
        exact at_key.free (freed l) (freed m) (grants l) (grants m)
      · rw [released, released']
      · rw [released, released']
    · refine refused (fun g' live₁ => ?_) (fun h' live₁ => ?_)
      · rwa [← Option.some.inj (live.symm.trans live₁)]
      · rwa [← Option.some.inj (live'.symm.trans live₁), ← same.holder]

/-- A hold's end is waited for alike, under generations that are paired. -/
theorem Alike.awaitEnd (alike : Alike scope pair now l m) (covered : scope.Covers key) {a b : Nat}
    (paired : pair key a b) (giveUp : Option Instant) :
    (l.awaitEnd now key a giveUp).Agree (Alike scope pair now) Wait.Alike
      (m.awaitEnd now key b giveUp) := by
  have unmoved (l : Locks) (generation : Nat) (other : Bytes) :
      l.Unmoved now other (l.awaitEnd now key generation giveUp).after := by
    refine (l.unfolds_awaitEnd now key generation giveUp).unmoved (fun what mem => ?_)
    obtain ⟨heldBy, rfl⟩ | rfl := of_mem_awaitEnd mem <;> rfl
  have after : Alike scope pair now (l.awaitEnd now key a giveUp).after
      (m.awaitEnd now key b giveUp).after :=
    alike.unmoved (fun other _ => unmoved l a other) (fun other _ => unmoved m b other)
  have at_key := alike key covered
  obtain ⟨free, free'⟩ | ⟨g, h, live, live', same⟩ := at_key.cases
  · have ended (l : Locks) (generation : Nat) (free : l.live? now key = none) :
        Happening.lasting (l.awaitEnd now key generation giveUp).happened = []
          ∧ (l.awaitEnd now key generation giveUp).answer = .ended := by
      have answer := l.answer_consult now key
      have said := l.lasting_consult now key
      unfold Locks.awaitEnd
      generalize l.consult now key = looked at answer said
      obtain ⟨after, happened, held⟩ := looked
      obtain rfl : held = none := answer.trans free
      exact ⟨said, rfl⟩
    obtain ⟨said, answer⟩ := ended l a free
    obtain ⟨said', answer'⟩ := ended m b free'
    refine ⟨after, said.trans said'.symm, ?_⟩
    rw [answer, answer']
    exact .ended
  · -- the holds are counterparts, so that one is awaited if the other is
    have awaited : g.generation = a ↔ h.generation = b :=
      at_key.unique same.generation paired
    refine ⟨after, ?_, ?_⟩
    all_goals
      simp only [Locks.awaitEnd, consult_of_live? live, consult_of_live? live', ne_eq, awaited]
      split
    · rfl
    · split <;> rfl
    · exact .ended
    · split
      · exact .gaveUp
      · exact .held same.deadline

/-- A sweep leaves tables that are alike. -/
theorem Alike.sweep (alike : Alike scope pair now l m) :
    (l.sweep now).Agree (Alike scope pair now) (fun _ _ => True) (m.sweep now) := by
  have unmoved (l : Locks) (key : Bytes) : l.Unmoved now key (l.sweep now).after :=
    ⟨l.live?_sweep now key, Nat.le_of_eq (l.grants_sweep now key).symm⟩
  have fleeting (l : Locks) : Happening.lasting (l.sweep now).happened = [] := by
    refine Happening.lasting_eq_nil (fun what mem => ?_)
    obtain ⟨key, heldBy, rfl⟩ := of_mem_sweep mem
    rfl
  exact ⟨alike.unmoved (fun key _ => unmoved l key) (fun key _ => unmoved m key),
    (fleeting l).trans (fleeting m).symm, trivial⟩

theorem Alike.clear (alike : Alike scope pair now l m) :
    l.clear.Agree (Alike scope pair now) Eq m.clear := by
  have free (l : Locks) (key : Bytes) : l.clear.after.live? now key = none := by
    rw [live?, stored?_clear]
    rfl
  refine ⟨fun key covered => ?_, rfl, rfl⟩
  exact (alike key covered).free (free l key) (free m key)
    (Nat.le_of_eq (l.grants_clear key).symm) (Nat.le_of_eq (m.grants_clear key).symm)

end

end Locks

end AdvisoryStore
