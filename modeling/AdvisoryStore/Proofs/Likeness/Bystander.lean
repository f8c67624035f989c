import AdvisoryStore.Proofs.Likeness.Call

/-!
# Calls that stay on another key

A call that stays on a key does what it does under that key alone, and so
leaves alone every other, wherever it waits and however often it goes on.
What is looked at is unmoved by it if its key is not among what is looked
at (`Control.StaysOn.run`).
-/

namespace AdvisoryStore

/-- What is taken under a key and then done stays on the key. -/
def Purpose.StaysOn (key : Bytes) : Purpose → Prop
  | answer => True
  | handle _ => False
  | run script _ => ∀ a ∈ script, a.StaysOn key

/-- A point at which a call waits that stays on a key. -/
inductive Point.StaysOn (key : Bytes) : Point → Prop
  | lock {store : Nat} {request : LockRequest} {purpose : Purpose} (about : request.key = key)
      (stays : purpose.StaysOn key) : StaysOn key (.lock store request purpose)
  | release {store generation : Nat} {giveUp : Option Instant} :
      StaysOn key (.release store key generation giveUp)
  | sleep {finish : Option Instant} : StaysOn key (.sleep finish)

/-- What a call is in the middle of that stays on a key. -/
def Frame.StaysOn (key : Bytes) : Frame → Prop
  | script r _ rest => r.key = key ∧ ∀ a ∈ rest, a.StaysOn key
  | demo .. => False

/-- What a call is about to do that stays on a key. -/
def Focus.StaysOn (key : Bytes) : Focus → Prop
  | perform a => a.StaysOn key
  | arrive p => p.StaysOn key
  | answer _ => True

/-- **A call that stays on a key.** -/
structure Control.StaysOn (key : Bytes) (c : Control) : Prop where
  focus : c.focus.StaysOn key
  stack : ∀ f ∈ c.stack, f.StaysOn key

/-! ## What is done under a key -/

/-- **What happens moves no other key.** -/
def Happening.OnlyMoves (key : Bytes) (happened : List Happening) : Prop :=
  ∀ what ∈ happened, ∀ other, other ≠ key → what.moves other = false

namespace Store

variable (s : Store) (now : Instant) (key holder : Bytes)

/-- **Looking at a key moves no other key**, and nor does anything else that is done
under it. -/
theorem onlyMoves_consult (l : Locks) :
    Happening.OnlyMoves key (l.consult now key).happened := by
  intro what mem other ne
  obtain ⟨heldBy, rfl⟩ := Locks.of_mem_consult mem
  rfl

/-- A lock that is tried for is that of one key. -/
theorem onlyMoves_attempt (r : LockRequest) (waited : Bool) :
    Happening.OnlyMoves r.key (s.attempt now r waited).happened := by
  intro what mem other ne
  obtain ⟨heldBy, rfl⟩ | rfl | rfl | ⟨heldBy, rfl⟩ := Locks.of_mem_attempt mem
  · rfl
  · exact decide_eq_false (Ne.symm ne)
  · rfl
  · rfl

/-- A release is of one lock. -/
theorem onlyMoves_release (claimant : Claimant) :
    Happening.OnlyMoves key (s.release now claimant key holder).happened := by
  intro what mem other ne
  obtain ⟨heldBy, rfl⟩ | rfl | rfl := Locks.of_mem_release mem
  · rfl
  · exact decide_eq_false (Ne.symm ne)
  · rfl

/-- Who lets go of a lock lets go of no other. -/
theorem onlyMoves_relinquish (claimant : Claimant) :
    Happening.OnlyMoves key (s.relinquish now claimant key holder).happened := by
  intro what mem other ne
  obtain ⟨heldBy, rfl⟩ | rfl | rfl | rfl := of_mem_relinquish mem
  · rfl
  · exact decide_eq_false (Ne.symm ne)
  · rfl
  · rfl

theorem onlyMoves_beginWait : Happening.OnlyMoves key (s.beginWait now key).happened :=
  List.forall_mem_cons.mpr ⟨fun _ _ => rfl, onlyMoves_consult now key s.locks⟩

theorem onlyMoves_awaitEnd (generation : Nat) (giveUp : Option Instant) :
    Happening.OnlyMoves key (s.awaitEnd now key generation giveUp).happened := by
  intro what mem other ne
  obtain ⟨heldBy, rfl⟩ | rfl := Locks.of_mem_awaitEnd mem <;> rfl

theorem onlyMoves_read : Happening.OnlyMoves key (s.read key).happened := by
  intro what mem other ne
  obtain rfl | rfl := of_mem_read mem <;> rfl

/-- A write is of one record. -/
theorem onlyMoves_write (claimant : Claimant) (content : Content) :
    Happening.OnlyMoves key (s.write now claimant key content holder).happened := by
  intro what mem other ne
  obtain ⟨heldBy, rfl⟩ | rfl | rfl := of_mem_write mem
  · rfl
  · exact decide_eq_false (Ne.symm ne)
  · rfl

end Store

namespace World

variable {scope : Scope} {now : Instant} {w : World} {key : Bytes}

/-- **What moves no key that is looked at leaves alone what is looked at.** -/
theorem unmoved_on_key {α : Type} {i : Nat} {f : Store → Outcome Store α}
    (apart : ¬ scope.Covers key)
    (unfolds : (w.store i).Unfolds now (f (w.store i)).happened (f (w.store i)).after)
    (moves : Happening.OnlyMoves key (f (w.store i)).happened) :
    w.Unmoved scope now (w.on now i f).1 := by
  refine unmoved_on unfolds (fun what mem other covered => moves what mem other ?_) (fun all => ?_)
  · rintro rfl
    exact apart covered
  · subst all
    exact absurd trivial apart

/-- A remark about a key that is not looked at leaves alone what is. -/
theorem unmoved_note (apart : ¬ scope.Covers key) {i : Nat} {what : Happening}
    (told : what.TrueOfStore now (w.store i)) (moves : ∀ other, what.moves other = false) :
    w.Unmoved scope now (w.note now i what) := by
  refine unmoved_on_key apart (Store.unfolds_noting told ()) ?_
  exact List.forall_mem_singleton.mpr (fun other _ => moves other)

/-- Letting go under a key leaves unmoved what is looked at elsewhere. -/
theorem unmoved_relinquish (apart : ¬ scope.Covers key) (w : World) (i : Nat)
    (claimant : Claimant) (holder : Bytes) :
    w.Unmoved scope now (w.relinquish now i claimant key holder) :=
  unmoved_on_key apart (Store.unfolds_relinquish ..)
    ((w.store i).onlyMoves_relinquish now key holder claimant)

/-- **What is asked under a key leaves others alone.** -/
theorem unmoved_perform (apart : ¬ scope.Covers key) (w : World) {o : Operation}
    (about : o.key? = some key) : w.Unmoved scope now (w.perform now o).1 := by
  cases o with
  | release k holder =>
    obtain rfl : k = key := Option.some.inj about
    have released : w.Unmoved scope now (w.on now w.current (·.release now .caller k holder)).1 :=
      unmoved_on_key apart (Store.unfolds_release ..)
        ((w.store _).onlyMoves_release now k holder .caller)
    rw [perform]
    split <;> next eq => rwa [eq] at released
  | isHeld | isHeldBy | look | inspect => exact w.unmoved_glance rfl
  | tryChange k holder fault =>
    obtain rfl : k = key := Option.some.inj about
    have asked : w.Unmoved scope now (w.on now w.current (·.permits now k holder)).1 :=
      unmoved_on_key apart (Store.unfolds_permits ..) (Store.onlyMoves_consult now k _)
    have counted (u : World) : u.Unmoved scope now { u with changes := u.changes + 1 } :=
      ⟨rfl, rfl, fun _ => .refl _, fun all => absurd (by rw [all]; trivial) apart⟩
    rw [perform, tryChange]
    split
    · next eq => rwa [eq] at asked
    · next eq =>
      rw [eq] at asked
      cases fault <;> exact asked.trans (counted _)
  | read k =>
    obtain rfl : k = key := Option.some.inj about
    have read : w.Unmoved scope now (w.on now w.current (·.read k)).1 :=
      unmoved_on_key apart (Store.unfolds_read ..) ((w.store _).onlyMoves_read k)
    rw [perform]
    split <;> next eq => rwa [eq] at read
  | write k content holder =>
    obtain rfl : k = key := Option.some.inj about
    have wrote : w.Unmoved scope now
        (w.on now w.current (·.write now .caller k content holder)).1 :=
      unmoved_on_key apart (Store.unfolds_write ..)
        ((w.store _).onlyMoves_write now k holder .caller content)
    rw [perform]
    split <;> next eq => rwa [eq] at wrote
  | contains k => exact .refl w
  | _ => cases about

end World

/-! ## Moves of a call that stays on a key -/

/-- What a call comes to that stays on its key and leaves alone what is
looked at. -/
structure Beside (scope : Scope) (now : Instant) (key : Bytes) (w : World)
    (x : World × Control) : Prop where
  unmoved : w.Unmoved scope now x.1
  stays : x.2.StaysOn key

variable {scope : Scope} {now : Instant} {key : Bytes} {w v : World} {stack : List Frame}

/-- Who has an answer goes on with what it is in the middle of, on the same key. -/
theorem beside_answer (unmoved : w.Unmoved scope now v) {reply : Reply}
    (stays : ∀ f ∈ stack, f.StaysOn key) : Beside scope now key w (v, ⟨.answer reply, stack⟩) :=
  ⟨unmoved, trivial, stays⟩

/-- What is done first may be anything that leaves alone what is looked at. -/
theorem Beside.after {x : World × Control} (unmoved : w.Unmoved scope now v)
    (beside : Beside scope now key v x) : Beside scope now key w x :=
  ⟨unmoved.trans beside.unmoved, beside.stays⟩

namespace World

/-- **A run that ends leaves every other key unmoved**, however it ends. -/
theorem unmoved_conclude (apart : ¬ scope.Covers key) (w : World) {r : Run} (about : r.key = key)
    (answers : List Reply) : w.Unmoved scope now (w.conclude now r answers).1 := by
  subst about
  have computed : w.Unmoved scope now (w.note now r.store (.computed r.key r.holder)) :=
    unmoved_note apart trivial (fun _ => rfl)
  have released (u : World) : u.Unmoved scope now (u.relinquish now r.store .run r.key r.holder) :=
    unmoved_relinquish apart u r.store .run r.holder
  unfold conclude
  generalize r.outcome = outcome
  cases outcome with
  | error fault => exact computed.trans (released _)
  | ok content =>
    have wrote (u : World) : u.Unmoved scope now
        (u.on now r.store (·.write now .run r.key content r.holder)).1 :=
      unmoved_on_key apart (Store.unfolds_write ..)
        ((u.store _).onlyMoves_write now r.key r.holder .run content)
    have written := computed.trans (wrote _)
    simp only
    generalize (w.note now r.store _).on now r.store _ = x at written
    obtain ⟨w', answer⟩ := x
    cases answer with
    | error fault => exact written.trans (released w')
    | ok =>
      have committed (u : World) :
          u.Unmoved scope now (u.note now r.store (.committed r.key r.holder content)) :=
        unmoved_note apart trivial (fun _ => rfl)
      exact (written.trans (released w')).trans (committed _)

/-- A run that goes on with its script stays on its key, and so does one that ends. -/
theorem beside_proceed (apart : ¬ scope.Covers key) (w : World) {r : Run} (about : r.key = key)
    (answers : List Reply) {rest : List Action} (inner : ∀ a ∈ rest, a.StaysOn key)
    (stays : ∀ f ∈ stack, f.StaysOn key) :
    Beside scope now key w (w.proceed now r answers rest stack) := by
  cases rest with
  | cons a rest =>
    obtain ⟨first, others⟩ := List.forall_mem_cons.mp inner
    have frame : (Frame.script r answers rest).StaysOn key := ⟨about, others⟩
    exact ⟨.refl w, first, List.forall_mem_cons.mpr ⟨frame, stays⟩⟩
  | nil => exact beside_answer (w.unmoved_conclude apart about answers) stays

/-- A run that begins stays on its key, whether it finds a record or not. -/
theorem beside_enterRun (apart : ¬ scope.Covers key) (w : World) {r : Run} (about : r.key = key)
    {script : List Action} (inner : ∀ a ∈ script, a.StaysOn key)
    (stays : ∀ f ∈ stack, f.StaysOn key) :
    Beside scope now key w (w.enterRun now r script stack) := by
  subst about
  have read : w.Unmoved scope now (w.on now r.store (·.read r.key)).1 :=
    unmoved_on_key apart (Store.unfolds_read ..) ((w.store _).onlyMoves_read r.key)
  unfold enterRun
  generalize w.on now r.store _ = x at read
  obtain ⟨w', found⟩ := x
  cases found with
  | some content =>
    have cached : w'.Unmoved scope now (w'.note now r.store (.cached r.key r.holder content)) :=
      unmoved_note apart trivial (fun _ => rfl)
    have released (u : World) :
        u.Unmoved scope now (u.relinquish now r.store .run r.key r.holder) :=
      unmoved_relinquish apart u r.store .run r.holder
    exact beside_answer ((read.trans cached).trans (released _)) stays
  | none =>
    have computing : w'.Unmoved scope now (w'.note now r.store (.computing r.key r.holder)) :=
      unmoved_note apart trivial (fun _ => rfl)
    exact (beside_proceed apart _ rfl [] inner stays).after (read.trans computing)

/-- Whatever a lock was taken for stays on the key of the lock. -/
theorem beside_fulfil (apart : ¬ scope.Covers key) (w : World) (store : Nat)
    {request : LockRequest} (about : request.key = key) {purpose : Purpose}
    (does : purpose.StaysOn key) (stays : ∀ f ∈ stack, f.StaysOn key) :
    Beside scope now key w (w.fulfil now store request purpose stack) := by
  cases purpose with
  | answer => exact beside_answer (.refl w) stays
  | handle slot => exact does.elim
  | run script outcome => exact w.beside_enterRun apart about does stays

end World

/-- **A point is passed beside what is looked at.** -/
theorem Point.StaysOn.pass {p : Point} (point : p.StaysOn key) (apart : ¬ scope.Covers key)
    (stays : ∀ f ∈ stack, f.StaysOn key) {waited : Bool} {c : Control}
    (passed : p.pass now w waited stack = .passed v c) : Beside scope now key w (v, c) := by
  cases point with
  | @lock store request purpose about does =>
    subst about
    have tried : w.Unmoved scope now (w.on now store (·.attempt now request waited)).1 :=
      World.unmoved_on_key apart (Store.unfolds_attempt ..)
        ((w.store _).onlyMoves_attempt now request waited)
    rw [Point.pass] at passed
    generalize w.on now store _ = x at tried passed
    obtain ⟨w', answer⟩ := x
    cases answer with
    | blockedBy h => cases passed
    | gaveUp =>
      cases passed
      exact beside_answer tried stays
    | granted =>
      cases passed
      exact (w'.beside_fulfil apart store rfl does stays).after tried
  | @release store generation giveUp =>
    have looked : w.Unmoved scope now
        (w.on now store (·.awaitEnd now key generation giveUp)).1 :=
      World.unmoved_on_key apart (Store.unfolds_awaitEnd ..)
        ((w.store _).onlyMoves_awaitEnd now key generation giveUp)
    rw [Point.pass] at passed
    generalize w.on now store _ = x at looked passed
    obtain ⟨w', answer⟩ := x
    cases answer with
    | heldBy h => cases passed
    | gaveUp =>
      cases passed
      exact beside_answer looked stays
    | ended =>
      cases passed
      exact beside_answer looked stays
  | sleep =>
    rw [Point.pass] at passed
    split at passed
    · cases passed
      exact beside_answer (.refl _) stays
    · cases passed

namespace Control

/-- Whatever a call sets out to do stays on its key. -/
theorem beside_begin (apart : ¬ scope.Covers key) (w : World) {a : Action} (does : a.StaysOn key)
    (stays : ∀ f ∈ stack, f.StaysOn key) : Beside scope now key w (begin now w a stack) := by
  cases does with
  | operation about => exact beside_answer (w.unmoved_perform apart about) stays
  | acquire holder hold patience => exact ⟨.refl w, .lock rfl trivial, stays⟩
  | wait patience =>
    have began : w.Unmoved scope now (w.on now w.current (·.beginWait now key)).1 :=
      World.unmoved_on_key apart (Store.unfolds_beginWait ..)
        ((w.store _).onlyMoves_beginWait now key)
    rw [begin]
    generalize w.on now w.current _ = x at began
    obtain ⟨w', held⟩ := x
    cases held with
    | none => exact beside_answer began stays
    | some h => exact ⟨began, .release, stays⟩
  | sleep d =>
    rw [begin]
    split
    · exact beside_answer (.refl w) stays
    · exact ⟨.refl w, .sleep, stays⟩
  | run inner => exact ⟨.refl w, .lock rfl inner, stays⟩

/-- A call that takes up an answer stays on its key. -/
theorem beside_resume (apart : ¬ scope.Covers key) (w : World) (reply : Reply) {frame : Frame}
    (stays : ∀ f ∈ frame :: stack, f.StaysOn key) :
    Beside scope now key w (resume now w reply frame stack) := by
  obtain ⟨first, others⟩ := List.forall_mem_cons.mp stays
  cases frame with
  | script r answers rest => exact w.beside_proceed apart first.1 _ first.2 others
  | demo => exact first.elim

/-- **A call stays on its key by every move**, and what is looked at is left
alone. -/
theorem StaysOn.step {c d : Control} (stays : c.StaysOn key) (apart : ¬ scope.Covers key)
    (moved : c.step now w = .moved v d) : Beside scope now key w (v, d) := by
  obtain ⟨does, stays⟩ := stays
  cases goesOn_of_step moved with
  | begins => exact beside_begin apart w does stays
  | passes pass => exact does.pass apart stays pass
  | resumes reply => exact beside_resume apart w reply stays

end Control

/-- How a call stands that stays on a key. -/
def Standing.StaysOn (key : Bytes) : Standing → Prop
  | waiting p stack _ => p.StaysOn key ∧ ∀ f ∈ stack, f.StaysOn key
  | finished _ => True

/-- **A call that stays on a key leaves alone what is looked at**, as far as
it goes. -/
theorem Control.StaysOn.run {c : Control} (stays : c.StaysOn key) (apart : ¬ scope.Covers key) :
    w.Unmoved scope now (c.run now w).1 ∧ (c.run now w).2.StaysOn key := by
  fun_induction Control.run now w c with
  | case1 w c w' c' moved ih =>
    have beside := stays.step apart moved
    obtain ⟨unmoved, standing⟩ := ih beside.stays
    exact ⟨beside.unmoved.trans unmoved, standing⟩
  | case2 w c p stack wake waits =>
    obtain ⟨rfl, -⟩ := Control.eq_arrive_of_waits waits
    obtain ⟨does, stays⟩ := stays
    exact ⟨.refl w, does, stays⟩
  | case3 => exact ⟨.refl _, trivial⟩

end AdvisoryStore
