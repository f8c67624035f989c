import AdvisoryStore.Proofs.Likeness.World

/-!
# Calls that are alike

A call made in two worlds that are alike goes the same way in both. It
stands at the same point – only the generation it awaits may be another,
which is then the counterpart – and is in the middle of the same. What a
script was answered so far may differ as answers may, and nothing depends
on it: answers are only collected.

A stack is therefore read by what is awaited at its top and what is asked
at its bottom (`StackAlike`), so that in the end the answers to the whole
call agree as answers to that action do (`Action.Agree`). A move takes
calls that are alike to calls that are alike (`Control.Alike.step`), and so
does going on as far as a call can (`Control.Alike.run`).
-/

namespace AdvisoryStore

/-! ## Answers to actions -/

mutual

/-- **Answers to an action agree**: they are the same, or are answers to an
operation that agree, or a run came to the same by a script whose answers
agree. -/
inductive Action.Agree (scope : Scope) : Action → Reply → Reply → Prop
  | same {a : Action} {r : Reply} : Action.Agree scope a r r
  | operation {o : Operation} {r q : Reply} (agree : o.Agree scope r q) :
      Action.Agree scope (.operation o) r q
  | ran {key holder : Bytes} {hold : Option Duration} {script : List Action}
      {outcome : Except Fault Content} {content : Content} {stored : Bool}
      {inner inner' : List Reply}
      (agree : ScriptAgree scope script inner inner') :
      Action.Agree scope (.run key holder hold script outcome) (.ran content stored inner)
        (.ran content stored inner')
  | runFailed {key holder : Bytes} {hold : Option Duration} {script : List Action}
      {outcome : Except Fault Content} {fault : Fault} {inner inner' : List Reply}
      (agree : ScriptAgree scope script inner inner') :
      Action.Agree scope (.run key holder hold script outcome) (.runFailed fault inner)
        (.runFailed fault inner')

/-- **Answers to a script agree**, action by action. -/
inductive ScriptAgree (scope : Scope) : List Action → List Reply → List Reply → Prop
  | nil : ScriptAgree scope [] [] []
  | cons {a : Action} {rest : List Action} {r q : Reply} {rs qs : List Reply}
      (first : Action.Agree scope a r q) (more : ScriptAgree scope rest rs qs) :
      ScriptAgree scope (a :: rest) (r :: rs) (q :: qs)

end

/-- An answer that agrees may be added at the end. -/
theorem ScriptAgree.concat {scope : Scope} {done : List Action} {a : Action} {rs qs : List Reply}
    {r q : Reply} (agree : ScriptAgree scope done rs qs) (last : a.Agree scope r q) :
    ScriptAgree scope (done ++ [a]) (rs ++ [r]) (qs ++ [q]) := by
  induction done generalizing rs qs with
  | nil =>
    cases agree
    exact .cons last .nil
  | cons b rest ih =>
    cases agree with
    | cons first more => exact .cons first (ih more)

/-! ## Actions that are looked at -/

/-- **What stays on a key**: it asks about that key and no other, and so
does whatever it computes by. -/
inductive Action.StaysOn (key : Bytes) : Action → Prop
  | operation {o : Operation} (about : o.key? = some key) : StaysOn key (.operation o)
  | acquire (holder : Bytes) (hold patience : Option Duration) :
      StaysOn key (.acquire key holder hold patience)
  | wait (patience : Option Duration) : StaysOn key (.wait key patience)
  | sleep (d : Duration) : StaysOn key (.sleep d)
  | run {holder : Bytes} {hold : Option Duration} {script : List Action}
      {outcome : Except Fault Content} (inner : ∀ a ∈ script, StaysOn key a) :
      StaysOn key (.run key holder hold script outcome)

/-- The key that an action is about, if it is about one. -/
def Action.key? : Action → Option Bytes
  | operation o => o.key?
  | acquire key .. | lock _ key .. | wait key _ | run key .. => some key
  | sleep _ | demo .. => none

/-- What stays on a key is about no other. -/
theorem Action.StaysOn.eq_of_key? {a : Action} {key other : Bytes} (stays : a.StaysOn key)
    (about : a.key? = some other) : other = key := by
  cases stays with
  | operation stays => exact Option.some.inj (about.symm.trans stays)
  | sleep => cases about
  | acquire | wait | run => exact (Option.some.inj about).symm

/-- Whether an action stays on no key, whatever it is about. -/
def Action.strays : Action → Bool
  | lock .. | demo .. => true
  | _ => false

/-- **The actions whose answers are looked at.** -/
def Scope.Admits : Scope → Action → Prop
  | key k, a => a.StaysOn k ∨ a = .operation .sweep ∨ a = .operation .clear
  | all, _ => True

namespace Scope.Admits

variable {scope : Scope} {key holder : Bytes} {hold patience : Option Duration}

/-- An operation is looked at as the action that it is. -/
theorem fits {o : Operation} (admits : scope.Admits (.operation o)) : scope.Fits o := by
  cases scope with
  | all => trivial
  | key k =>
    obtain stays | eq | eq := admits
    · cases stays with
      | operation about => exact .inl about
    · cases eq
      exact .inr (.inl rfl)
    · cases eq
      exact .inr (.inr rfl)

/-- An action whose answers are looked at is about a key that is looked at. -/
theorem covers {a : Action} (admits : scope.Admits a) (about : a.key? = some key) :
    scope.Covers key := by
  cases scope with
  | all => trivial
  | key k =>
    obtain stays | rfl | rfl := admits
    · exact stays.eq_of_key? about
    · cases about
    · cases about

/-- When the answer of a run is looked at, its key is, and so are the answers in its
script. -/
theorem run {script : List Action} {outcome : Except Fault Content}
    (admits : scope.Admits (.run key holder hold script outcome)) :
    scope.Covers key ∧ ∀ a ∈ script, scope.Admits a := by
  cases scope with
  | all => exact ⟨trivial, fun _ _ => trivial⟩
  | key k =>
    obtain stays | eq | eq := admits
    · cases stays with
      | run inner => exact ⟨rfl, fun a mem => .inl (inner a mem)⟩
    · cases eq
    · cases eq

/-- What stays on no key is looked at with everything. -/
theorem all_of {a : Action} (admits : scope.Admits a) (strays : a.strays = true) :
    scope = .all := by
  cases scope with
  | all => rfl
  | key k =>
    obtain stays | rfl | rfl := admits
    · cases stays <;> cases strays
    · cases strays
    · cases strays

end Scope.Admits

/-! ## Points, stacks and calls -/

/-- What a lock is taken for fits the action that is asked. -/
def Purpose.Serves (scope : Scope) (r : LockRequest) (a : Action) : Purpose → Prop
  | answer => True
  | handle _ => scope = .all
  | run script outcome => (∃ hold, a = .run r.key r.holder hold script outcome)
    ∧ ∀ b ∈ script, scope.Admits b

/-- **Points are alike**: the same, or for the end of holds that are
counterparts. -/
inductive Point.Alike (scope : Scope) (pair : Pairing) (a : Action) : Point → Point → Prop
  | lock {store : Nat} {request : LockRequest} {purpose : Purpose}
      (covered : scope.Covers request.key) (serves : purpose.Serves scope request a) :
      Alike scope pair a (.lock store request purpose) (.lock store request purpose)
  | release {store : Nat} {key : Bytes} {m n : Nat} {giveUp : Option Instant}
      (covered : scope.Covers key) (paired : pair store key m n) :
      Alike scope pair a (.release store key m giveUp) (.release store key n giveUp)
  | sleep {finish : Option Instant} : Alike scope pair a (.sleep finish) (.sleep finish)

/-- **Stacks are alike** on which the answer to `b` is awaited to answer
`a`. -/
inductive StackAlike (scope : Scope) (a : Action) : Action → List Frame → List Frame → Prop
  | top : StackAlike scope a a [] []
  | script {r : Run} {hold : Option Duration} {done rest : List Action} {b : Action}
      {answers answers' : List Reply} {stack stack' : List Frame}
      (below : StackAlike scope a (.run r.key r.holder hold (done ++ b :: rest) r.outcome)
        stack stack')
      (covered : scope.Covers r.key) (agree : ScriptAgree scope done answers answers')
      (admits : ∀ c ∈ rest, scope.Admits c) :
      StackAlike scope a b (.script r answers rest :: stack) (.script r answers' rest :: stack')
  | demo {store : Nat} {worker number : UInt32} {keys left : Nat} {key holder : Bytes}
      {hold : Option Duration} {script : List Action} {outcome : Except Fault Content}
      {stack stack' : List Frame}
      (below : StackAlike scope a (.demo worker number) stack stack') (all : scope = .all) :
      StackAlike scope a (.run key holder hold script outcome)
        (.demo store worker keys left :: stack) (.demo store worker keys left :: stack')

/-- What calls are about to do is alike. -/
inductive Focus.Alike (scope : Scope) (pair : Pairing) (a : Action) : Focus → Focus → Prop
  | perform (admits : scope.Admits a) : Alike scope pair a (.perform a) (.perform a)
  | arrive {p q : Point} (points : p.Alike scope pair a q) :
      Alike scope pair a (.arrive p) (.arrive q)
  | answer {r q : Reply} (agree : a.Agree scope r q) : Alike scope pair a (.answer r) (.answer q)

/-- **Calls are alike** that are to answer `a`. -/
def Control.Alike (scope : Scope) (pair : Pairing) (a : Action) (c d : Control) : Prop :=
  ∃ b, c.focus.Alike scope pair b d.focus ∧ StackAlike scope a b c.stack d.stack

/-- Calls that have gone on are alike, and so are the worlds. -/
def AlikeNext (scope : Scope) (pair : Pairing) (now : Instant) (a : Action)
    (x y : World × Control) : Prop :=
  x.1.Alike scope pair now y.1 ∧ x.2.Alike scope pair a y.2

variable {scope : Scope} {pair pair' : Pairing} {now : Instant} {a b : Action} {w v : World}
  {stack stack' : List Frame}

/-- Points stay alike when there are more counterparts. -/
theorem Point.Alike.mono (le : pair ≤ pair') {p q : Point} (alike : p.Alike scope pair a q) :
    p.Alike scope pair' a q := by
  cases alike with
  | lock covered serves => exact .lock covered serves
  | release covered paired => exact .release covered (le _ _ _ _ paired)
  | sleep => exact .sleep

/-- Calls with the same answer before them are alike. -/
theorem alikeNext_answer {r q : Reply} (alike : w.Alike scope pair now v)
    (agree : b.Agree scope r q) (frames : StackAlike scope a b stack stack') :
    AlikeNext scope pair now a (w, ⟨.answer r, stack⟩) (v, ⟨.answer q, stack'⟩) :=
  ⟨alike, b, .answer agree, frames⟩

/-! ## Runs -/

namespace World

/-- **A run ends alike in worlds that are alike**, with the same result or the same
fault. -/
theorem Alike.conclude (alike : w.Alike scope pair now v) {r : Run} (covered : scope.Covers r.key)
    (hold : Option Duration) {script : List Action} {answers answers' : List Reply}
    (agree : ScriptAgree scope script answers answers') :
    (w.conclude now r answers).1.Alike scope pair now (v.conclude now r answers').1
      ∧ Action.Agree scope (.run r.key r.holder hold script r.outcome)
        (w.conclude now r answers).2 (v.conclude now r answers').2 := by
  have computed := alike.note r.store (.computed r.key r.holder)
  unfold World.conclude
  generalize r.outcome = outcome
  cases outcome with
  | error fault => exact ⟨computed.relinquish r.store covered .run r.holder, .runFailed agree⟩
  | ok content =>
    have written := computed.on (·.write now .run r.key content r.holder)
      ((computed.stores r.store).write covered .run content r.holder)
    simp only
    generalize (w.note now r.store _).on now r.store _ = x at written
    generalize (v.note now r.store _).on now r.store _ = y at written
    obtain ⟨w', answer⟩ := x
    obtain ⟨v', answer'⟩ := y
    obtain ⟨written, rfl⟩ := written
    have released := written.relinquish r.store covered .run r.holder
    cases answer with
    | error fault => exact ⟨released, .runFailed agree⟩
    | ok => exact ⟨released.note r.store (.committed r.key r.holder content), .ran agree⟩

/-- A run goes on alike with what is left of its script, and ends alike when nothing
is. -/
theorem Alike.proceed (alike : w.Alike scope pair now v) {r : Run} (covered : scope.Covers r.key)
    {hold : Option Duration} {done rest : List Action} {answers answers' : List Reply}
    (agree : ScriptAgree scope done answers answers') (admits : ∀ c ∈ rest, scope.Admits c)
    (below : StackAlike scope a (.run r.key r.holder hold (done ++ rest) r.outcome) stack stack') :
    AlikeNext scope pair now a (w.proceed now r answers rest stack)
      (v.proceed now r answers' rest stack') := by
  cases rest with
  | cons b rest =>
    obtain ⟨first, others⟩ := List.forall_mem_cons.mp admits
    exact ⟨alike, b, .perform first, .script below covered agree others⟩
  | nil =>
    rw [List.append_nil] at below
    have concluded := alike.conclude covered hold agree
    exact alikeNext_answer concluded.1 concluded.2 below

/-- A run begins alike: it finds the same record in both worlds, or computes
in both. -/
theorem Alike.enterRun (alike : w.Alike scope pair now v) {r : Run} (covered : scope.Covers r.key)
    {hold : Option Duration} {script : List Action} (admits : ∀ c ∈ script, scope.Admits c)
    (below : StackAlike scope a (.run r.key r.holder hold script r.outcome) stack stack') :
    AlikeNext scope pair now a (w.enterRun now r script stack)
      (v.enterRun now r script stack') := by
  have read := alike.on (·.read r.key) ((alike.stores r.store).read covered)
  unfold World.enterRun
  generalize w.on now r.store _ = x at read
  generalize v.on now r.store _ = y at read
  obtain ⟨w', found⟩ := x
  obtain ⟨v', found'⟩ := y
  obtain ⟨read, rfl⟩ := read
  cases found with
  | some content =>
    have cached := read.note r.store (.cached r.key r.holder content)
    exact alikeNext_answer (cached.relinquish r.store covered .run r.holder) .same below
  | none =>
    exact (read.note r.store (.computing r.key r.holder)).proceed covered .nil admits below

/-- What a lock was taken for is done alike. -/
theorem Alike.fulfil (alike : w.Alike scope pair now v) {store : Nat} {request : LockRequest}
    (covered : scope.Covers request.key) {purpose : Purpose}
    (serves : purpose.Serves scope request b) (frames : StackAlike scope a b stack stack') :
    AlikeNext scope pair now a (w.fulfil now store request purpose stack)
      (v.fulfil now store request purpose stack') := by
  cases purpose with
  | answer => exact alikeNext_answer alike .same frames
  | handle slot =>
    obtain rfl : scope = .all := serves
    exact alikeNext_answer (alike.place slot _) .same frames
  | run script outcome =>
    obtain ⟨⟨hold, rfl⟩, admits⟩ := serves
    exact alike.enterRun (r := ⟨store, request.key, request.holder, outcome⟩) covered admits frames

end World

/-! ## Points -/

/-- **What comes of trying points** is alike. -/
inductive Passage.Alike (scope : Scope) (pair : Pairing) (now : Instant) (a : Action) :
    Passage → Passage → Prop
  | passed {pair' : Pairing} {w v : World} {c d : Control} (le : pair ≤ pair')
      (next : AlikeNext scope pair' now a (w, c) (v, d)) :
      Alike scope pair now a (.passed w c) (.passed v d)
  | waits {m n : Option Instant} (same : m = n) : Alike scope pair now a (.waits m) (.waits n)

/-- **Points that are alike are passed alike**, or both in vain. -/
theorem Point.Alike.pass {p q : Point} (points : p.Alike scope pair b q)
    (alike : w.Alike scope pair now v) (frames : StackAlike scope a b stack stack')
    (waited : Bool) :
    (p.pass now w waited stack).Alike scope pair now a (q.pass now v waited stack') := by
  cases points with
  | @lock store request purpose covered serves =>
    obtain ⟨⟨pair', le, after⟩, answers⟩ := alike.on_attempt store covered waited
    rw [Point.pass, Point.pass]
    generalize w.on now store _ = x at after answers
    generalize v.on now store _ = y at after answers
    obtain ⟨w', answer⟩ := x
    obtain ⟨v', answer'⟩ := y
    cases answers with
    | granted => exact .passed le (after.fulfil covered serves frames)
    | gaveUp => exact .passed le (alikeNext_answer after .same frames)
    | blocked deadline => exact .waits (congrArg (sooner request.giveUp) deadline)
  | @release store key m n giveUp covered paired =>
    have looked := alike.on_both (·.awaitEnd now key m giveUp) (·.awaitEnd now key n giveUp)
      ((alike.stores store).awaitEnd covered paired giveUp)
    rw [Point.pass, Point.pass]
    generalize w.on now store _ = x at looked
    generalize v.on now store _ = y at looked
    obtain ⟨w', answer⟩ := x
    obtain ⟨v', answer'⟩ := y
    obtain ⟨after, answers⟩ := looked
    cases answers with
    | ended => exact .passed (le_refl pair) (alikeNext_answer after .same frames)
    | gaveUp => exact .passed (le_refl pair) (alikeNext_answer after .same frames)
    | held deadline => exact .waits (congrArg (sooner giveUp) deadline)
  | @sleep finish =>
    rw [Point.pass, Point.pass]
    split
    · exact .passed (le_refl pair) (alikeNext_answer alike .same frames)
    · exact .waits rfl

/-! ## Moves -/

namespace Control

/-- The demo workload goes on to the same key in both worlds. -/
theorem alikeNext_demo (alike : w.Alike .all pair now v) (store : Nat) (worker number : UInt32)
    (keys left : Nat) (frames : StackAlike .all a (.demo worker number) stack stack') :
    AlikeNext .all pair now a (w, demo now w store worker keys left stack)
      (v, demo now v store worker keys left stack') := by
  cases left with
  | zero => exact alikeNext_answer alike .same frames
  | succ left =>
    have wished := (alike.stores store).request .run (Demo.key (keys - (left + 1)))
      (Demo.holder worker) (some Demo.hold) none
    refine ⟨alike, .run (Demo.key (keys - (left + 1))) (Demo.holder worker) (some Demo.hold)
      Demo.script (.ok (Demo.content (Demo.key (keys - (left + 1))) (Demo.holder worker))), ?_,
      .demo frames rfl⟩
    unfold demo
    simp only
    rw [wished]
    exact .arrive (.lock trivial ⟨⟨_, rfl⟩, fun _ _ => trivial⟩)

/-- A point for a lock of the current store is the same in worlds that are
alike. -/
theorem alikeNext_seek (alike : w.Alike scope pair now v) {key : Bytes}
    (covered : scope.Covers key) (claimant : Claimant) (holder : Bytes)
    (hold patience : Option Duration) {purpose : Purpose}
    (serves : ∀ request : LockRequest, request.key = key → request.holder = holder →
      purpose.Serves scope request b)
    (frames : StackAlike scope a b stack stack') :
    AlikeNext scope pair now a
      (w, ⟨.arrive (w.seek now claimant key holder hold patience purpose), stack⟩)
      (v, ⟨.arrive (v.seek now claimant key holder hold patience purpose), stack'⟩) := by
  refine ⟨alike, b, ?_, frames⟩
  have wished := (alike.stores w.current).request claimant key holder hold patience
  unfold World.seek World.currentStore
  rw [← alike.current, ← wished]
  exact .arrive (.lock covered (serves _ rfl rfl))

/-- **Whatever a call sets out to do it begins alike**, and arrives at the
same point. -/
theorem alikeNext_begin (alike : w.Alike scope pair now v) (sound : w.Sound) (sound' : v.Sound)
    (admits : scope.Admits b) (frames : StackAlike scope a b stack stack') :
    AlikeNext scope pair now a (begin now w b stack) (begin now v b stack') := by
  cases b with
  | operation o =>
    have performed := alike.perform sound sound' admits.fits
    exact alikeNext_answer performed.1 (.operation performed.2) frames
  | acquire key holder hold patience =>
    exact alikeNext_seek alike (admits.covers rfl) .caller holder hold patience
      (fun _ _ _ => trivial) frames
  | lock slot key holder hold =>
    obtain rfl := admits.all_of rfl
    have covered : Scope.all.Covers key := trivial
    exact alikeNext_seek alike covered .handle holder hold none (fun _ _ _ => rfl) frames
  | wait key patience =>
    have covered : scope.Covers key := admits.covers rfl
    have began := alike.on (·.beginWait now key) ((alike.stores w.current).beginWait covered)
    have turned := w.current_on now w.current (·.beginWait now key)
    rw [begin, begin, ← alike.current]
    generalize w.on now w.current _ = x at began turned
    generalize v.on now w.current _ = y at began
    obtain ⟨w', held⟩ := x
    obtain ⟨v', held'⟩ := y
    obtain ⟨after, answers⟩ := began
    cases answers with
    | none => exact alikeNext_answer after .same frames
    | some same =>
      -- the holds are counterparts, and so the same end is awaited in both
      refine ⟨after, .wait key patience, ?_, frames⟩
      have current : v'.current = w'.current := after.current.symm
      simp only [current]
      have paired := same.generation
      rw [← turned] at paired
      exact .arrive (.release covered paired)
  | sleep d =>
    rw [begin, begin]
    split
    · exact alikeNext_answer alike .same frames
    · exact ⟨alike, .sleep d, .arrive .sleep, frames⟩
  | run key holder hold script outcome =>
    obtain ⟨covered, inner⟩ := admits.run
    refine alikeNext_seek alike covered .run holder hold none (fun request key_eq holder_eq => ?_)
      frames
    rw [← key_eq, ← holder_eq]
    exact ⟨⟨hold, rfl⟩, inner⟩
  | demo worker keys =>
    obtain rfl := admits.all_of rfl
    rw [begin, begin, ← alike.current]
    exact alikeNext_demo alike w.current worker keys keys.toNat keys.toNat frames

/-- What the demo workload remarks of a run depends on no more than what
answers agree on. -/
theorem demoRemark_eq {key holder : Bytes} {hold : Option Duration} {script : List Action}
    {outcome : Except Fault Content} {r q : Reply}
    (agree : Action.Agree scope (.run key holder hold script outcome) r q) (worker : UInt32)
    (name : Bytes) : demoRemark worker name r = demoRemark worker name q := by
  cases agree with
  | same => rfl
  | @ran _ _ _ _ _ content stored => cases stored <;> rfl
  | runFailed => rfl

/-- Remarks, one after the other, keep worlds alike. -/
theorem alike_remarks (remarks : List Happening) (store : Nat)
    (alike : w.Alike scope pair now v) :
    (remarks.foldl (·.note now store ·) w).Alike scope pair now
      (remarks.foldl (·.note now store ·) v) := by
  induction remarks generalizing w v with
  | nil => exact alike
  | cons what rest ih => exact ih (alike.note store what)

/-- A call that takes up answers that agree goes on alike. -/
theorem alikeNext_resume (alike : w.Alike scope pair now v) {r q : Reply} {frame frame' : Frame}
    (agree : b.Agree scope r q)
    (frames : StackAlike scope a b (frame :: stack) (frame' :: stack')) :
    AlikeNext scope pair now a (resume now w r frame stack) (resume now v q frame' stack') := by
  cases frames with
  | @script run hold done rest _ answers answers' _ _ below covered answered admits =>
    rw [List.append_cons] at below
    exact alike.proceed covered (answered.concat agree) admits below
  | @demo store worker number keys left _ _ _ _ _ _ _ below all =>
    subst all
    rw [resume, resume, demoRemark_eq agree]
    exact alikeNext_demo (alike_remarks _ store alike) store worker number keys left below

/-- **What a move comes to** is alike. -/
inductive Move.Alike (scope : Scope) (pair : Pairing) (now : Instant) (a : Action) :
    Move → Move → Prop
  | moved {pair' : Pairing} {w v : World} {c d : Control} (le : pair ≤ pair')
      (next : AlikeNext scope pair' now a (w, c) (v, d)) :
      Alike scope pair now a (.moved w c) (.moved v d)
  | waits {b : Action} {p q : Point} {stack stack' : List Frame} {m : Option Instant}
      (points : p.Alike scope pair b q) (frames : StackAlike scope a b stack stack') :
      Alike scope pair now a (.waits p stack m) (.waits q stack' m)
  | finished {r q : Reply} (agree : a.Agree scope r q) :
      Alike scope pair now a (.finished r) (.finished q)

/-- **Calls that are alike move alike.** -/
theorem Alike.step {c d : Control} (calls : c.Alike scope pair a d)
    (alike : w.Alike scope pair now v) (sound : w.Sound) (sound' : v.Sound) :
    (c.step now w).Alike scope pair now a (d.step now v) := by
  obtain ⟨focus, stack⟩ := c
  obtain ⟨focus', stack'⟩ := d
  obtain ⟨b, focuses, frames⟩ := calls
  cases focuses with
  | perform admits =>
    exact .moved (le_refl pair) (alikeNext_begin alike sound sound' admits frames)
  | @arrive p q points =>
    have passed := points.pass alike frames false
    unfold Control.step
    simp only
    generalize p.pass now w false stack = x at passed
    generalize q.pass now v false stack' = y at passed
    cases passed with
    | passed le next => exact .moved le next
    | waits same =>
      subst same
      exact .waits points frames
  | answer agree =>
    cases frames with
    | top => exact .finished agree
    | script below covered answered admits =>
      exact .moved (le_refl pair)
        (alikeNext_resume alike agree (.script below covered answered admits))
    | demo below all =>
      exact .moved (le_refl pair) (alikeNext_resume alike agree (.demo below all))

end Control

/-- How calls stand is alike. -/
inductive Standing.Alike (scope : Scope) (pair : Pairing) (a : Action) :
    Standing → Standing → Prop
  | waiting {b : Action} {p q : Point} {stack stack' : List Frame} {m : Option Instant}
      (points : p.Alike scope pair b q) (frames : StackAlike scope a b stack stack') :
      Alike scope pair a (.waiting p stack m) (.waiting q stack' m)
  | finished {r q : Reply} (agree : a.Agree scope r q) :
      Alike scope pair a (.finished r) (.finished q)

/-- **Calls that are alike go on alike** as far as they can. -/
theorem Control.Alike.run {c d : Control} (calls : c.Alike scope pair a d)
    (alike : w.Alike scope pair now v) (sound : w.Sound) (sound' : v.Sound) :
    ∃ pair', pair ≤ pair' ∧ (c.run now w).1.Alike scope pair' now (d.run now v).1
      ∧ (c.run now w).2.Alike scope pair' a (d.run now v).2 := by
  fun_induction Control.run now w c generalizing v d pair with
  | case1 w c w' c' moved ih =>
    have steps := calls.step alike sound sound'
    rw [moved] at steps
    generalize moved' : d.step now v = step at steps
    cases steps with
    | moved le next =>
      have sound := (Thread.Turn.move moved).evolves.sound sound
      have sound' := (Thread.Turn.move moved').evolves.sound sound'
      obtain ⟨pair', le', after⟩ := ih next.2 next.1 sound sound'
      rw [run_of_moved moved']
      exact ⟨pair', le_trans le le', after⟩
  | case2 w c p stack wake waits =>
    have steps := calls.step alike sound sound'
    rw [waits] at steps
    generalize waits' : d.step now v = step at steps
    cases steps with
    | waits points frames =>
      rw [run_of_waits waits']
      exact ⟨pair, le_refl pair, alike, .waiting points frames⟩
  | case3 w c reply finished =>
    have steps := calls.step alike sound sound'
    rw [finished] at steps
    generalize finished' : d.step now v = step at steps
    cases steps with
    | finished agree =>
      rw [run_of_finished finished']
      exact ⟨pair, le_refl pair, alike, .finished agree⟩

end AdvisoryStore
