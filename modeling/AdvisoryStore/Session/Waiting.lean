import AdvisoryStore.Locks.View
import AdvisoryStore.Session.Call

/-!
# Trying a point in vain

A call that tries its point and has to wait hands back no world
(`Passage.waits`). This module says that none is lost: the world after
such a try is the world before it, to the last counter and event. What is
in the way is a live hold, and neither looking at it nor finding that it
is another's leaves a trace (`on_attempt_of_blockedBy`,
`on_awaitEnd_of_heldBy`). One who gives up instead leaves no more than word
of it.
-/

namespace AdvisoryStore

namespace Locks

/-- Who has to wait for a lock finds another's hold and leaves it. -/
theorem attempt_of_blockedBy {l : Locks} {now : Instant} {r : LockRequest} {waited : Bool}
    {h : Hold} (blocked : (l.attempt now r waited).answer = .blockedBy h) :
    l.attempt now r waited = ⟨l, [], .blockedBy h⟩ := by
  cases live : l.live? now r.key with
  | none =>
    rw [attempt_of_live?_eq_none live] at blocked
    cases blocked
  | some held =>
    by_cases own : held.holder = r.holder
    · rw [attempt_of_own live own] at blocked
      cases blocked
    · rw [attempt_of_other live own] at blocked ⊢
      split at blocked
      · cases blocked
      · next patient =>
        cases blocked
        rw [if_neg patient]

/-- Who has to wait for the end of a hold finds it live and leaves it. -/
theorem awaitEnd_of_heldBy {l : Locks} {now : Instant} {key : Bytes} {generation : Nat}
    {giveUp : Option Instant} {h : Hold}
    (waiting : (l.awaitEnd now key generation giveUp).answer = .heldBy h) :
    l.awaitEnd now key generation giveUp = ⟨l, [], .heldBy h⟩ := by
  have answer := l.answer_consult now key
  cases live : l.live? now key with
  | none =>
    rw [live] at answer
    unfold awaitEnd at waiting
    generalize l.consult now key = looked at waiting answer
    obtain ⟨after, happened, held⟩ := looked
    obtain rfl : held = none := answer
    cases waiting
  | some held =>
    simp only [awaitEnd, consult_of_live? live] at waiting ⊢
    split at waiting
    · cases waiting
    · next same =>
      split at waiting
      · cases waiting
      · next patient =>
        cases waiting
        rw [if_neg same, if_neg patient]

/-- Who gives up on a lock was told of another's hold. -/
theorem attempt_of_gaveUp {l : Locks} {now : Instant} {r : LockRequest} {waited : Bool}
    (gaveUp : (l.attempt now r waited).answer = .gaveUp) :
    ∃ heldBy, l.attempt now r waited = ⟨l, [.timedOut r.key r.holder heldBy], .gaveUp⟩ := by
  cases live : l.live? now r.key with
  | none =>
    rw [attempt_of_live?_eq_none live] at gaveUp
    cases gaveUp
  | some h =>
    by_cases own : h.holder = r.holder
    · rw [attempt_of_own live own] at gaveUp
      cases gaveUp
    · rw [attempt_of_other live own] at gaveUp ⊢
      split at gaveUp
      · next late => exact ⟨h.holder, if_pos late⟩
      · cases gaveUp

/-- Who gives up on the end of a hold found it live. -/
theorem awaitEnd_of_gaveUp {l : Locks} {now : Instant} {key : Bytes} {generation : Nat}
    {giveUp : Option Instant}
    (gaveUp : (l.awaitEnd now key generation giveUp).answer = .gaveUp) :
    l.awaitEnd now key generation giveUp = ⟨l, [.waitTimedOut key], .gaveUp⟩ := by
  cases live : l.live? now key with
  | none =>
    have answer := (l.answer_consult now key).trans live
    unfold awaitEnd at gaveUp
    generalize l.consult now key = looked at gaveUp answer
    obtain ⟨after, happened, held⟩ := looked
    obtain rfl : held = none := answer
    cases gaveUp
  | some h =>
    simp only [awaitEnd, consult_of_live? live] at gaveUp ⊢
    split at gaveUp
    · cases gaveUp
    · next same =>
      split at gaveUp
      · next late =>
        rw [if_neg same, if_pos late]
        rfl
      · cases gaveUp

end Locks

namespace Store

/-- An operation on the locks that changes nothing leaves the store. -/
theorem onLocks_eq_self {α : Type} {s : Store} {f : Locks → Outcome Locks α} {answer : α}
    (idle : f s.locks = ⟨s.locks, [], answer⟩) : s.onLocks f = ⟨s, [], answer⟩ := by
  simp [onLocks, idle, noting, note]

end Store

namespace World

/-- An operation that changes nothing of a store leaves the world. -/
theorem on_eq_self {α : Type} {w : World} {now : Instant} {i : Nat} {f : Store → Outcome Store α}
    {answer : α} (idle : f (w.store i) = ⟨w.store i, [], answer⟩) : w.on now i f = (w, answer) := by
  have stores : w.stores.set i (w.store i) = w.stores := by
    by_cases bound : i < w.stores.length
    · simp [store, List.getD_eq_getElem?_getD, bound]
    · exact List.set_eq_of_length_le (Nat.le_of_not_lt bound)
  simp [on, putBack, idle, stores]

/-- **Trying a lock in vain leaves the world as it was.** -/
theorem on_attempt_of_blockedBy {w : World} {now : Instant} {i : Nat} {r : LockRequest}
    {waited : Bool} {h : Hold}
    (blocked : (w.on now i (·.attempt now r waited)).2 = .blockedBy h) :
    w.on now i (·.attempt now r waited) = (w, .blockedBy h) :=
  on_eq_self (Store.onLocks_eq_self (Locks.attempt_of_blockedBy blocked))

/-- **Looking in vain for the end of a hold leaves the world as it was.** -/
theorem on_awaitEnd_of_heldBy {w : World} {now : Instant} {i : Nat} {key : Bytes}
    {generation : Nat} {giveUp : Option Instant} {h : Hold}
    (waiting : (w.on now i (·.awaitEnd now key generation giveUp)).2 = .heldBy h) :
    w.on now i (·.awaitEnd now key generation giveUp) = (w, .heldBy h) :=
  on_eq_self (Store.onLocks_eq_self (Locks.awaitEnd_of_heldBy waiting))

end World

end AdvisoryStore
