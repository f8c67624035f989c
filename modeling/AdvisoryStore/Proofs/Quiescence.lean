import AdvisoryStore.Proofs.Wakeup

/-!
# Sessions at rest

When a command and all that it woke have come to an end, the session is at
rest: no call has cause to look again. That none of them *needs* to look
again is the other half, and follows since every call is vigilant
(`Session.Vigilant`) – from when it is filed, through whatever others do,
and whenever the clock moves on.

So in a session that commands have led to (`Session.Quiescent`) each call
that waits is blocked, and is to look again at the right moment.
-/

namespace AdvisoryStore

/-! ## Calls that are filed -/

/-- How a call stands is settled: if it waits, it is blocked, and was told
until when. -/
def Standing.Settled (now : Instant) (w : World) : Standing → Prop
  | waiting p _ wake => p.Blocked now w wake
  | finished _ => True

/-- However far a call goes on, the world evolves by it. -/
theorem Control.evolves_run (now : Instant) (w : World) (c : Control) :
    World.Evolves (fun _ => True) now w (c.run now w).1 := by
  fun_induction run now w c with
  | case1 w c w' c' moved ih => exact (Thread.Turn.move moved).evolves.trans ih
  | case2 => exact .refl
  | case3 => exact .refl

/-- A call that goes on as far as it can comes to its answer, or is
blocked. -/
theorem Control.settled_run (now : Instant) (w : World) (c : Control) :
    (c.run now w).2.Settled now (c.run now w).1 := by
  fun_induction run now w c with
  | case1 w c w' c' moved ih => exact ih
  | case2 w c p stack wake waits =>
    obtain ⟨-, pass⟩ := Control.eq_arrive_of_waits waits
    exact Point.pass_eq_waits_iff.mp pass
  | case3 => trivial

/-- The world evolves by a call that looks again, if it goes on at all. -/
theorem Call.evolves_retry (now : Instant) (w : World) (c : Call) :
    World.Evolves (fun _ => True) now w (c.retry now w).1 := by
  unfold retry
  split
  · next pass =>
    have resumed := Thread.Turn.resume pass
    exact resumed.evolves.trans (Control.evolves_run ..)
  · exact .refl

/-- A call that looks again is settled afterwards, and waits on only if it
is blocked. -/
theorem Call.settled_retry (now : Instant) (w : World) (c : Call) :
    (c.retry now w).2.Settled now (c.retry now w).1 := by
  unfold retry
  split
  · exact Control.settled_run ..
  · next waits => exact Point.pass_eq_waits_iff.mp waits

/-! ## Vigilant sessions -/

namespace Session

variable {s : Session}

/-- Every call that waits is vigilant. -/
def Vigilant (s : Session) : Prop := ∀ c ∈ s.calls, c.Vigilant s.now s.world

/-- **A session at rest**: no call has cause to look again, and each of
them is vigilant. -/
structure AtRest (s : Session) : Prop where
  vigilant : s.Vigilant
  idle : ∀ c ∈ s.calls, s.isIdle c = true

/-- **Who is settled is vigilant**, and the others have heard what was rung
meanwhile. -/
theorem Vigilant.file {P : Event → Prop} {before after : List Call} {id : Nat}
    {outcome : World × Standing} (evolves : World.Evolves P s.now s.world outcome.1)
    (settled : outcome.2.Settled s.now outcome.1)
    (others : ∀ c ∈ before ++ after, c.Vigilant s.now s.world) :
    (s.file before id after outcome).Vigilant := by
  have others : ∀ c ∈ before ++ after, c.Vigilant s.now outcome.1 :=
    fun c mem => (others c mem).evolves evolves
  obtain ⟨w, standing⟩ := outcome
  cases standing with
  | finished => exact others
  | waiting p stack wake =>
    obtain ⟨earlier, later⟩ := List.forall_mem_append.mp others
    refine List.forall_mem_append.mpr ⟨earlier, List.forall_mem_cons.mpr ⟨⟨?_, ?_⟩, later⟩⟩
    · exact Nat.le_refl _
    · exact .inr ⟨wake, settled, rfl⟩

/-- A vigilant session stays vigilant when one of its calls looks again. -/
theorem Vigilant.retry (vigilant : s.Vigilant) {before after : List Call} {c : Call}
    (calls_eq : s.calls = before ++ c :: after) :
    (s.file before c.id after (c.retry s.now s.world)).Vigilant := by
  refine .file (c.evolves_retry ..) (c.settled_retry ..) (fun other mem => vigilant other ?_)
  rw [calls_eq]
  exact (List.mem_append.mp mem).elim (List.mem_append_left _)
    (fun mem => List.mem_append_right _ (List.mem_cons_of_mem _ mem))

/-- Who looks again leaves all others vigilant, and so do all that look again. -/
theorem Vigilant.drain (vigilant : s.Vigilant) : s.drain.Vigilant := by
  fun_induction Session.drain s with
  | case1 => exact vigilant
  | case2 s c after eq ih => exact ih (vigilant.retry (calls_eq_of_dropWhile eq))

/-- A call that is made leaves a vigilant session vigilant. -/
theorem Vigilant.call (vigilant : s.Vigilant) (a : Action) : (s.call a).1.Vigilant := by
  refine Vigilant.file (Control.evolves_run ..) (Control.settled_run ..) ?_
  rw [List.append_nil]
  exact vigilant

/-- When the clock moves on, a session stays vigilant. -/
theorem Vigilant.tick (vigilant : s.Vigilant) {later : Instant} (le : s.now ≤ later)
    (le_last : later ≤ max s.now Instant.last) : { s with now := later }.Vigilant :=
  fun c mem => (vigilant c mem).tick le le_last

/-- After a round a vigilant session is at rest. -/
theorem Vigilant.atRest_drain (vigilant : s.Vigilant) : s.drain.AtRest :=
  ⟨vigilant.drain, s.isIdle_of_mem_drain⟩

/-! ## The next moment -/

/-- The next moment comes no later than any at which a call is to look
again. -/
theorem nextWake_le {c : Call} (mem : c ∈ s.calls) {x : Instant} (wake : c.wake = some x) :
    ∃ t, s.nextWake = some t ∧ t ≤ x := by
  have folded (calls : List Call) (first : Option Instant)
      (either : (∃ y, first = some y ∧ y ≤ x) ∨ ∃ c ∈ calls, c.wake = some x) :
      ∃ t, calls.foldl (fun wake c => sooner wake c.wake) first = some t ∧ t ≤ x := by
    induction calls generalizing first with
    | nil => exact either.resolve_right (fun ⟨_, mem, _⟩ => nomatch mem)
    | cons c rest ih =>
      refine ih (sooner first c.wake) ?_
      obtain ⟨y, eq, le⟩ | ⟨other, mem, wake⟩ := either
      · obtain ⟨t, sooner_eq, le_y⟩ := sooner_le (.inl eq)
        exact .inl ⟨t, sooner_eq, Int.le_trans le_y le⟩
      · obtain rfl | mem := List.mem_cons.mp mem
        · exact .inl (sooner_le (.inr wake))
        · exact .inr ⟨other, mem, wake⟩
  exact folded s.calls none (.inr ⟨c, mem, wake⟩)

/-- The next moment is one at which a call is to look again. -/
theorem exists_of_nextWake {t : Instant} (next : s.nextWake = some t) :
    ∃ c ∈ s.calls, c.wake = some t := by
  have folded (calls : List Call) (first : Option Instant)
      (eq : calls.foldl (fun wake c => sooner wake c.wake) first = some t) :
      first = some t ∨ ∃ c ∈ calls, c.wake = some t := by
    induction calls generalizing first with
    | nil => exact .inl eq
    | cons c rest ih =>
      obtain sooner_eq | ⟨other, mem, wake⟩ := ih _ eq
      · exact (either_of_sooner sooner_eq).imp_right (fun wake => ⟨c, List.mem_cons_self, wake⟩)
      · exact .inr ⟨other, List.mem_cons_of_mem _ mem, wake⟩
  exact (folded s.calls none next).resolve_left nofun

end Session

/-! ## Commands -/

/-- The clock is moved no further than to the last instant. -/
theorem Instant.getD_after?_le (now : Instant) (d : Duration) :
    (now.after? d).getD Instant.last ≤ max now Instant.last := by
  unfold after?
  split
  · exact Int.le_max_right ..
  · next fits =>
    rw [Option.getD_some]
    simp only [Instant, Duration] at *
    omega

namespace Session

variable {s : Session}

/-- **Time passes from rest to rest**, and nobody is left that was to look again in
between. -/
theorem AtRest.runUntil {target : Instant} (rest : s.AtRest)
    (le_last : target ≤ max s.now Instant.last) :
    (s.runUntil target).AtRest
      ∧ ∀ c ∈ (s.runUntil target).calls, reached target c.wake = false := by
  fun_induction Session.runUntil s target with
  | case1 s none_next =>
    refine ⟨rest, fun c mem => ?_⟩
    cases wake : c.wake with
    | none => rfl
    | some x =>
      obtain ⟨t, next, -⟩ := nextWake_le mem wake
      rw [none_next] at next
      cases next
  | case2 s t next ahead ih =>
    have le : s.now ≤ t := Int.le_of_lt ahead.1
    have ticked : { s with now := t }.Vigilant :=
      rest.vigilant.tick le (Int.le_trans ahead.2 le_last)
    refine ih ticked.atRest_drain ?_
    rw [now_drain]
    simp only [Instant] at *
    omega
  | case3 s t next not_ahead =>
    refine ⟨rest, fun c mem => ?_⟩
    cases wake : c.wake with
    | none => rfl
    | some x =>
      -- the next moment lies ahead, so that the clock stopped because of the target
      obtain ⟨first, first_mem, first_wake⟩ := exists_of_nextWake next
      have lies_ahead := lt_wake_of_isIdle (rest.idle first first_mem) first_wake
      obtain ⟨t', next', le⟩ := nextWake_le mem wake
      rw [next] at next'
      obtain rfl := Option.some.inj next'
      refine decide_eq_false (fun late => not_ahead ⟨lies_ahead, ?_⟩)
      exact Int.le_trans le late

theorem AtRest.settle (rest : s.AtRest) : s.settle.AtRest :=
  (rest.runUntil (Int.le_max_right ..)).1

/-- A session at rest is at rest again after some time. -/
theorem AtRest.advance (rest : s.AtRest) (d : Duration) : (s.advance d).AtRest := by
  have le_last := s.now.getD_after?_le d
  unfold Session.advance
  generalize (s.now.after? d).getD Instant.last = target at le_last
  obtain ⟨ran, early⟩ := rest.runUntil le_last
  have le := s.now_le_runUntil target
  have later : (s.runUntil target).now ≤ max s.now target := s.runUntil_now_le_max target
  refine ⟨ran.vigilant.tick later ?_, fun c mem => ?_⟩
  · simp only [Instant] at *
    omega
  · have idle := ran.idle c mem
    simp only [isIdle, Call.ready, Bool.not_eq_true', Bool.or_eq_false_iff] at idle ⊢
    -- no bell has rung, and the clock moved past nobody's moment
    refine ⟨?_, idle.2⟩
    obtain at_start | at_target := Int.le_total target s.now
    · rw [Int.max_eq_left at_start]
      refine Bool.eq_false_iff.mpr (fun due => ?_)
      rw [reached_mono le due] at idle
      cases idle.1
    · rw [Int.max_eq_right at_target]
      exact early c mem

/-- **What a command leads to from a session at rest is at rest.** -/
theorem AtRest.carryOut (rest : s.AtRest) (c : Command) : (s.carryOut c).1.AtRest := by
  cases c with
  | call a => exact (rest.vigilant.call a).atRest_drain
  | advance d =>
    have issued : { s with nextId := s.nextId + 1 }.AtRest := ⟨rest.vigilant, rest.idle⟩
    have advanced := issued.advance d
    exact advanced
  | settle =>
    have issued : { s with nextId := s.nextId + 1 }.AtRest := ⟨rest.vigilant, rest.idle⟩
    have settled := issued.settle
    exact settled

/-- When the handles that are kept are destroyed, a session stays vigilant. -/
theorem Vigilant.destroy (vigilant : s.Vigilant) (slots : List Bytes) :
    { s with
      world := slots.foldl (fun w slot => (w.handleDestroy s.now slot).1) s.world }.Vigilant := by
  have destroyed (w : World) : World.Evolves Event.Quiet s.now w
      (slots.foldl (fun w slot => (w.handleDestroy s.now slot).1) w) := by
    induction slots generalizing w with
    | nil => exact .refl
    | cons slot more ih => exact (w.evolves_handleDestroy s.now slot).trans (ih _)
  exact fun c mem => (vigilant c mem).evolves (destroyed _)

/-- A session that closes at rest stays there, whatever its handles let go of. -/
theorem AtRest.close (rest : s.AtRest) : s.close.1.AtRest :=
  (rest.vigilant.destroy (inByteOrder s.world.slots.keys)).atRest_drain

/-- **The sessions that commands lead to**, each carried out to its end
before the next. -/
inductive Quiescent : Session → Prop
  | start (hash : Bytes → Nat) (settings : StoreSettings) (environment : Environment)
      (now : Instant) : Quiescent (.start hash settings environment now)
  | carryOut {s : Session} (quiescent : Quiescent s) (c : Command) : Quiescent (s.carryOut c).1
  | close {s : Session} (quiescent : Quiescent s) : Quiescent s.close.1

/-- **Commands lead from one quiescent session to another.** -/
theorem Quiescent.carryOutAll (quiescent : s.Quiescent) (commands : List Command) :
    (s.carryOutAll commands).1.Quiescent := by
  induction commands generalizing s with
  | nil => exact quiescent
  | cons c rest ih => exact ih (quiescent.carryOut c)

/-- A quiescent session is at rest. -/
theorem Quiescent.atRest (quiescent : s.Quiescent) : s.AtRest := by
  induction quiescent with
  | start => exact ⟨fun c mem => (nomatch mem), fun c mem => (nomatch mem)⟩
  | carryOut _ c ih => exact ih.carryOut c
  | close _ ih => exact ih.close

/-- **Who waits in a session at rest is blocked**, and is to look again at
the right moment. -/
theorem AtRest.blocked (rest : s.AtRest) {c : Call} (mem : c ∈ s.calls) :
    ∃ moment, c.point.Blocked s.now s.world moment ∧ c.wake = upcoming s.now moment := by
  have idle := rest.idle c mem
  refine (rest.vigilant c mem).watches.resolve_left (fun ready => ?_)
  rw [isIdle, ready] at idle
  cases idle

end Session

end AdvisoryStore
