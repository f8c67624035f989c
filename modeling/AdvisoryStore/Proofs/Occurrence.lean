import AdvisoryStore.Locks.View
import AdvisoryStore.Inspection

/-!
# What happens to a store, one thing at a time

An operation answers with what happened, and a happening is more than a
word: each of them is one change of the locks or of the records, or a
remark that is true of them and changes nothing. `Locks.Occurs` and
`Store.Occurs` say which, and under which circumstances it comes to it – a
hold is dropped as expired only when its deadline has passed, a lock is
granted only when nothing is stored for its key, a record is written only
while nobody else holds the key.

Every operation **unfolds** into such changes, and the happenings it
answers with are exactly theirs, in order (`Locks.unfolds_attempt` and the
statements beside it, `Store.unfolds_write` and those beside it). Whatever
is to be shown of all operations therefore need only be shown of the
changes, and there are few of them: three of the locks at a key, two of
the locks as a whole, and one of the records.
-/

namespace AdvisoryStore

/-! ## The locks -/

/-- **What a remark says of the locks** it is made about. What is not a
remark is never said. -/
def Happening.TrueOfLocks (now : Instant) (l : Locks) : Happening → Prop
  | reentered _ key holder => ∃ h, l.live? now key = some h ∧ h.holder = holder
  | timedOut key holder heldBy =>
    ∃ h, l.live? now key = some h ∧ h.holder = heldBy ∧ heldBy ≠ holder
  | refused _ key holder => ∀ h, l.live? now key = some h → h.holder ≠ holder
  | waitBegan _ => True
  | waitTimedOut key => ∃ h, l.live? now key = some h
  | _ => False

namespace Locks

/-- **One change of the locks**, with what it is called. -/
inductive Occurs (now : Instant) (l : Locks) : List Happening → Locks → Prop
  /-- A hold that is over is dropped. -/
  | expire {key : Bytes} {h : Hold} (stored : l.stored? key = some h) (past : h.expired now) :
      Occurs now l [.expired key h.holder] (l.drop key)
  /-- A lock is granted of which nothing is stored. -/
  | grant {key : Bytes} (absent : l.stored? key = none) (claimant : Claimant) (holder : Bytes)
      (waited : Bool) (hold : Option Duration) :
      Occurs now l [.acquired claimant key holder waited]
        (l.grant key holder now (hold.bind now.after?))
  /-- A live hold is given back by its holder. -/
  | release {key : Bytes} {h : Hold} (live : l.live? now key = some h) (claimant : Claimant) :
      Occurs now l [.released claimant key h.holder] ((l.drop key).ring key)
  | sweep : Occurs now l (l.sweep now).happened (l.sweep now).after
  | clear : Occurs now l l.clear.happened l.clear.after
  /-- Something is said that is true, and nothing changes. -/
  | remark {what : Happening} (told : what.TrueOfLocks now l) : Occurs now l [what] l

/-- **Changes of the locks one after the other.** -/
inductive Unfolds (now : Instant) : Locks → List Happening → Locks → Prop
  | refl (l : Locks) : Unfolds now l [] l
  | step {l m n : Locks} {first rest : List Happening} (occurs : l.Occurs now first m)
      (more : Unfolds now m rest n) : Unfolds now l (first ++ rest) n

/-- One change is changes one after the other. -/
theorem Occurs.unfolds {now : Instant} {l m : Locks} {happened : List Happening}
    (occurs : l.Occurs now happened m) : l.Unfolds now happened m := by
  rw [← List.append_nil happened]
  exact .step occurs (.refl m)

/-- Changes may follow changes. -/
theorem Unfolds.trans {now : Instant} {l m n : Locks} {first rest : List Happening}
    (h : l.Unfolds now first m) (more : m.Unfolds now rest n) :
    l.Unfolds now (first ++ rest) n := by
  induction h with
  | refl => exact more
  | step occurs _ ih =>
    rw [List.append_assoc]
    exact .step occurs (ih more)

/-- Looking at a key drops its hold if that is over, and changes nothing otherwise. -/
theorem unfolds_consult (l : Locks) (now : Instant) (key : Bytes) :
    l.Unfolds now (l.consult now key).happened (l.consult now key).after := by
  unfold consult
  split
  · exact .refl l
  · next h stored =>
    split
    · next past => exact (Occurs.expire stored past).unfolds
    · exact .refl l

/-- What is live after looking is what was live before. -/
theorem live?_after_consult (l : Locks) (now : Instant) (key other : Bytes) :
    (l.consult now key).after.live? now other = l.live? now other :=
  l.live?_consult (Int.le_refl now) key other

/-- **Trying for a lock** drops what is over and grants the lock, or only says how it
went. -/
theorem unfolds_attempt (l : Locks) (now : Instant) (r : LockRequest) (waited : Bool) :
    l.Unfolds now (l.attempt now r waited).happened (l.attempt now r waited).after := by
  cases live : l.live? now r.key with
  | none =>
    rw [attempt_of_live?_eq_none live]
    refine (l.unfolds_consult now r.key).trans (Occurs.grant ?_ ..).unfolds
    rw [stored?_consult, if_pos rfl, live]
  | some h =>
    by_cases own : h.holder = r.holder
    · rw [attempt_of_own live own]
      refine Occurs.unfolds (.remark ?_)
      exact ⟨h, live, own⟩
    · rw [attempt_of_other live own]
      split
      · refine Occurs.unfolds (.remark ?_)
        exact ⟨h, live, rfl, own⟩
      · exact .refl l

/-- **A release** gives back the live hold, if it is the holder who asks, and else
drops what is over. -/
theorem unfolds_release (l : Locks) (now : Instant) (claimant : Claimant) (key holder : Bytes) :
    l.Unfolds now (l.release now claimant key holder).happened
      (l.release now claimant key holder).after := by
  by_cases own : ∃ h, l.live? now key = some h ∧ h.holder = holder
  · obtain ⟨h, live, rfl⟩ := own
    rw [release_of_own live rfl]
    exact (Occurs.release live claimant).unfolds
  · have other : ∀ h, l.live? now key = some h → h.holder ≠ holder :=
      fun h live eq => own ⟨h, live, eq⟩
    rw [release_of_not_own other]
    refine (l.unfolds_consult now key).trans (Occurs.unfolds (.remark ?_))
    intro h live
    exact other h (by rwa [live?_after_consult] at live)

/-- Asking whether a key may be written is looking at it. -/
theorem unfolds_permits (l : Locks) (now : Instant) (key holder : Bytes) :
    l.Unfolds now (l.permits now key holder).happened (l.permits now key holder).after :=
  l.unfolds_consult now key

/-- **Waiting for the end of a hold** drops it when it is over, and frees nothing. -/
theorem unfolds_awaitEnd (l : Locks) (now : Instant) (key : Bytes) (generation : Nat)
    (giveUp : Option Instant) :
    l.Unfolds now (l.awaitEnd now key generation giveUp).happened
      (l.awaitEnd now key generation giveUp).after := by
  have looked := l.unfolds_consult now key
  have answer := l.answer_consult now key
  have same := l.live?_after_consult now key key
  unfold awaitEnd
  generalize l.consult now key = found at looked answer same
  obtain ⟨after, happened, held⟩ := found
  cases held with
  | none => exact looked
  | some h =>
    have live : after.live? now key = some h := same.trans answer.symm
    simp only
    split
    · exact looked
    · split
      · refine looked.trans (Occurs.unfolds (.remark ?_))
        exact ⟨h, live⟩
      · exact looked

end Locks

/-! ## The store -/

/-- **What a remark says of the store** it is made about, where it is not
one about the locks. -/
def Happening.TrueOfStore (now : Instant) (s : Store) : Happening → Prop
  | hit key => (s.records.get? key).isSome
  | missed key => s.records.get? key = none
  | conflicted key holder => ∃ h, s.locks.live? now key = some h ∧ h.holder ≠ holder
  | lost .. | served _ | cached .. | computing .. | computed .. | committed .. => True
  | reused .. | demoFailed .. | created _ => True
  | _ => False

namespace Store

/-- **One change of the store**, with what it is called. -/
inductive Occurs (now : Instant) (s : Store) : List Happening → Store → Prop
  | locks {happened : List Happening} {l : Locks} (occurs : s.locks.Occurs now happened l) :
      Occurs now s happened ({ s with locks := l }.note happened)
  /-- A record is written that nobody else's lock is in the way of. -/
  | write {key holder : Bytes}
      (permitted : ∀ h, s.locks.live? now key = some h → h.holder = holder)
      (claimant : Claimant) (content : Content) :
      Occurs now s [.wrote claimant key holder content]
        ({ s with records := s.records.put key content }.note [.wrote claimant key holder content])
  /-- Something is said that is true, and only counted. -/
  | remark {what : Happening} (told : what.TrueOfStore now s) : Occurs now s [what] (s.note [what])

/-- **Changes of the store one after the other.** -/
inductive Unfolds (now : Instant) : Store → List Happening → Store → Prop
  | refl (s : Store) : Unfolds now s [] s
  | step {s t u : Store} {first rest : List Happening} (occurs : s.Occurs now first t)
      (more : Unfolds now t rest u) : Unfolds now s (first ++ rest) u

/-- One change of a store is changes one after the other. -/
theorem Occurs.unfolds {now : Instant} {s t : Store} {happened : List Happening}
    (occurs : s.Occurs now happened t) : s.Unfolds now happened t := by
  rw [← List.append_nil happened]
  exact .step occurs (.refl t)

/-- Changes of a store may follow changes. -/
theorem Unfolds.trans {now : Instant} {s t u : Store} {first rest : List Happening}
    (h : s.Unfolds now first t) (more : t.Unfolds now rest u) :
    s.Unfolds now (first ++ rest) u := by
  induction h with
  | refl => exact more
  | step occurs _ ih =>
    rw [List.append_assoc]
    exact .step occurs (ih more)

/-- Changes of the locks are changes of the store. -/
theorem unfolds_of_locks {now : Instant} {l m : Locks} {happened : List Happening}
    (h : l.Unfolds now happened m) (s : Store) (eq : s.locks = l) :
    s.Unfolds now happened ({ s with locks := m }.note happened) := by
  induction h generalizing s with
  | refl =>
    subst eq
    exact .refl s
  | @step l m n first rest occurs _ ih =>
    -- every change is counted before the next, so that the store is another each time
    subst eq
    have more := ih ({ s with locks := m }.note first) rfl
    rw [note_append]
    exact .step (.locks occurs) more

/-- **An operation on the locks unfolds as the locks do.** -/
theorem unfolds_onLocks {α : Type} {s : Store} {now : Instant} {f : Locks → Outcome Locks α}
    (h : s.locks.Unfolds now (f s.locks).happened (f s.locks).after) :
    s.Unfolds now (s.onLocks f).happened (s.onLocks f).after :=
  unfolds_of_locks h s rfl

/-- What happens to the locks of a store happens to the store. -/
theorem unfolds_attempt (s : Store) (now : Instant) (r : LockRequest) (waited : Bool) :
    s.Unfolds now (s.attempt now r waited).happened (s.attempt now r waited).after :=
  unfolds_onLocks (s.locks.unfolds_attempt now r waited)

theorem unfolds_release (s : Store) (now : Instant) (claimant : Claimant) (key holder : Bytes) :
    s.Unfolds now (s.release now claimant key holder).happened
      (s.release now claimant key holder).after :=
  unfolds_onLocks (s.locks.unfolds_release now claimant key holder)

theorem unfolds_look (s : Store) (now : Instant) (key : Bytes) :
    s.Unfolds now (s.look now key).happened (s.look now key).after :=
  unfolds_onLocks (s.locks.unfolds_consult now key)

theorem unfolds_awaitEnd (s : Store) (now : Instant) (key : Bytes) (generation : Nat)
    (giveUp : Option Instant) :
    s.Unfolds now (s.awaitEnd now key generation giveUp).happened
      (s.awaitEnd now key generation giveUp).after :=
  unfolds_onLocks (s.locks.unfolds_awaitEnd now key generation giveUp)

theorem unfolds_permits (s : Store) (now : Instant) (key holder : Bytes) :
    s.Unfolds now (s.permits now key holder).happened (s.permits now key holder).after :=
  unfolds_onLocks (s.locks.unfolds_permits now key holder)

theorem unfolds_sweep (s : Store) (now : Instant) :
    s.Unfolds now (s.sweep now).happened (s.sweep now).after :=
  unfolds_onLocks Locks.Occurs.sweep.unfolds

theorem unfolds_clearLocks (s : Store) (now : Instant) :
    s.Unfolds now s.clearLocks.happened s.clearLocks.after :=
  unfolds_onLocks Locks.Occurs.clear.unfolds

/-- Beginning to wait is a remark, and a look at the key. -/
theorem unfolds_beginWait (s : Store) (now : Instant) (key : Bytes) :
    s.Unfolds now (s.beginWait now key).happened (s.beginWait now key).after := by
  refine unfolds_onLocks (Locks.Unfolds.step (.remark ?_) (s.locks.unfolds_consult now key))
  trivial

/-- A remark unfolds into itself. -/
theorem unfolds_noting {α : Type} {s : Store} {now : Instant} {what : Happening}
    (told : what.TrueOfStore now s) (answer : α) :
    s.Unfolds now (s.noting [what] answer).happened (s.noting [what] answer).after :=
  (Occurs.remark told).unfolds

/-- Letting go is a release, and a remark if that is refused. -/
theorem unfolds_relinquish (s : Store) (now : Instant) (claimant : Claimant)
    (key holder : Bytes) :
    s.Unfolds now (s.relinquish now claimant key holder).happened
      (s.relinquish now claimant key holder).after := by
  have released := s.unfolds_release now claimant key holder
  unfold relinquish
  generalize s.release now claimant key holder = outcome at released
  obtain ⟨after, happened, answer⟩ := outcome
  cases answer with
  | ok => exact released
  | error =>
    refine released.trans (Occurs.unfolds (.remark ?_))
    trivial

/-- Reading a record is a remark about whether there is one. -/
theorem unfolds_read (s : Store) (now : Instant) (key : Bytes) :
    s.Unfolds now (s.read key).happened (s.read key).after := by
  unfold read
  split
  · next content found =>
    refine unfolds_noting ?_ _
    show (s.records.get? key).isSome
    rw [found, Option.isSome_some]
  · next absent =>
    refine unfolds_noting ?_ _
    exact absent

/-- Asking whether one may write leaves what is live, and the records. -/
theorem live?_after_permits (s : Store) (now : Instant) (key holder other : Bytes) :
    (s.permits now key holder).after.locks.live? now other = s.locks.live? now other :=
  s.locks.live?_after_consult now key other

/-- **A write is one change of the records**, or is refused. -/
theorem unfolds_write (s : Store) (now : Instant) (claimant : Claimant) (key : Bytes)
    (content : Content) (holder : Bytes) :
    s.Unfolds now (s.write now claimant key content holder).happened
      (s.write now claimant key content holder).after := by
  have asked := s.unfolds_permits now key holder
  have same := s.live?_after_permits now key holder key
  have answer : (s.permits now key holder).answer = true ↔ _ :=
    s.locks.answer_permits now key holder
  unfold write
  generalize s.permits now key holder = outcome at asked same answer
  obtain ⟨after, happened, permitted⟩ := outcome
  rw [← same] at answer
  cases permitted with
  | true => exact asked.trans (Occurs.write (answer.mp rfl) claimant content).unfolds
  | false =>
    refine asked.trans (Occurs.unfolds (.remark ?_))
    have refused := fun open_ => Bool.false_ne_true (answer.mpr open_)
    obtain ⟨h, other⟩ := Classical.not_forall.mp refused
    exact ⟨h, Classical.not_imp.mp other⟩

/-- A request about a lock is a look at it. -/
theorem unfolds_inspectLock (s : Store) (now : Instant) (key : Bytes) (version : Nat)
    (keepAlive : Bool) :
    s.Unfolds now (s.inspectLock now key version keepAlive).happened
      (s.inspectLock now key version keepAlive).after := by
  have looked := s.unfolds_look now key
  unfold inspectLock
  generalize s.look now key = outcome at looked
  obtain ⟨after, happened, held⟩ := outcome
  cases held <;> exact looked

/-- Whatever a request is for, answering it is a look at a lock, or nothing. -/
theorem unfolds_answer (s : Store) (now : Instant) (r : Request) (target : Target) :
    s.Unfolds now (s.answer now r target).happened (s.answer now r target).after := by
  unfold answer
  split
  · exact .refl s
  · exact .refl s
  · split
    · exact .refl s
    · exact unfolds_inspectLock ..
  · exact .refl s

/-- **A request** is remarked upon, and answered if it can be read. -/
theorem unfolds_serve (s : Store) (now : Instant) (r : Request) :
    s.Unfolds now (s.serve now r).happened (s.serve now r).after := by
  unfold serve
  split
  · refine .step (.remark ?_) (unfolds_answer ..)
    trivial
  · refine unfolds_noting ?_ _
    trivial

end Store

end AdvisoryStore
