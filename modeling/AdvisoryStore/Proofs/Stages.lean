import Mathlib.Data.List.TakeWhile
import AdvisoryStore.Proofs.Quiescence

/-!
# A session by stages

A command makes a session go through many **stages** (`Session.Stage`): the
call is made and goes as far as it can, the calls that have become ready are
resumed one after the other, the clock moves on, and again. Between any two
of them the session can be looked at, and whatever commands do is made of
them (`Session.AtRest.stages_carryOutAll`).

Every session that stages lead to is **in order** (`Session.InOrder`): its
calls are vigilant and stand in the order of their numbers, and none of them
waits beyond its limit.

A call that waits stays where it is until it is the next to look again and
gets past its point (`Session.Stages.stays_or_departs`). And if it is ready, it does
look again before the clock moves on, after calls with smaller numbers only
(`Session.InOrder.turn_of_ready`).
-/

namespace AdvisoryStore

/-- **The last instant at which a point can be in the way**, if there is one. -/
def Point.limit? : Point → Option Instant
  | lock _ request _ => request.giveUp
  | release _ _ _ giveUp => giveUp
  | sleep finish => finish

/-- **Who is blocked is before its limit**, and is to look again no later. -/
theorem Point.Blocked.limit {p : Point} {now : Instant} {w : World} {moment : Option Instant}
    (blocked : p.Blocked now w moment) {limit : Instant} (limited : p.limit? = some limit) :
    now < limit ∧ ∃ t, moment = some t ∧ t ≤ limit := by
  have ahead (patient : reached now (some limit) = false) : now < limit :=
    Int.not_le.mp (of_decide_eq_false patient)
  cases p with
  | lock i request purpose =>
    obtain ⟨h, -, -, patient, rfl⟩ := blocked
    change request.giveUp = some limit at limited
    rw [limited] at patient ⊢
    exact ⟨ahead patient, sooner_le (.inl rfl)⟩
  | release i key generation giveUp =>
    obtain ⟨h, -, -, patient, rfl⟩ := blocked
    change giveUp = some limit at limited
    rw [limited] at patient ⊢
    exact ⟨ahead patient, sooner_le (.inl rfl)⟩
  | sleep finish =>
    obtain ⟨patient, rfl⟩ := blocked
    change moment = some limit at limited
    rw [limited] at patient ⊢
    exact ⟨ahead patient, limit, rfl, Int.le_refl limit⟩

/-- **Who is blocked at a key faces a live hold**, and is to look again at its
deadline at the latest. -/
theorem Point.Blocked.held {p : Point} {now : Instant} {w : World} {moment : Option Instant}
    (blocked : p.Blocked now w moment) {i : Nat} {key : Bytes} (bell : p.bell? = some (i, key)) :
    ∃ h, (w.store i).locks.live? now key = some h
      ∧ ∀ d, h.deadline = some d → ∃ t, moment = some t ∧ t ≤ d := by
  cases p with
  | lock i request purpose =>
    cases bell
    obtain ⟨h, live, -, -, rfl⟩ := blocked
    exact ⟨h, live, fun d deadline => sooner_le (.inr deadline)⟩
  | release i key generation giveUp =>
    cases bell
    obtain ⟨h, live, -, -, rfl⟩ := blocked
    exact ⟨h, live, fun d deadline => sooner_le (.inr deadline)⟩
  | sleep => cases bell

/-- A call that is ready stays ready, whatever happens. -/
theorem Call.ready_of_evolves {c : Call} {now : Instant} {w w' : World} {P : Event → Prop}
    (vigilant : c.Vigilant now w) (ready : c.ready now w = true)
    (evolves : World.Evolves P now w w') : c.ready now w' = true := by
  obtain due | rings := (Bool.or_eq_true ..).mp ready
  · rw [Call.ready, due, Bool.true_or]
  · have ne := of_decide_eq_true rings
    have rung := Nat.lt_of_lt_of_le (Nat.lt_of_le_of_ne vigilant.heard (Ne.symm ne))
      (c.point.rings_le_of_evolves evolves)
    rw [Call.ready, decide_eq_true (Nat.ne_of_gt rung), Bool.or_true]

namespace Session

/-- **The next call to look again**: it has cause to, and none of those made
before it has. -/
structure Next (s : Session) (before : List Call) (c : Call) (after : List Call) : Prop where
  calls_eq : s.calls = before ++ c :: after
  idle : ∀ other ∈ before, s.isIdle other = true
  ready : s.isIdle c = false

/-- The session after one of its calls has looked again. -/
def resumed (s : Session) (before : List Call) (c : Call) (after : List Call) : Session :=
  s.file before c.id after (c.retry s.now s.world)

/-- **One stage of a session.** -/
inductive Stage (s : Session) : Session → Prop
  /-- A call is made. -/
  | call (idle : ∀ c ∈ s.calls, s.isIdle c = true) (a : Action) : Stage s (s.call a).1
  /-- A call looks again. -/
  | resume {before after : List Call} {c : Call} (next : s.Next before c after) :
      Stage s (s.resumed before c after)
  /-- The clock moves on, no further than to where a call is to look again. -/
  | tick (idle : ∀ c ∈ s.calls, s.isIdle c = true) {later : Instant} (le : s.now ≤ later)
      (le_last : later ≤ max s.now Instant.last)
      (early : ∀ c ∈ s.calls, ∀ x, c.wake = some x → later ≤ x) :
      Stage s { s with now := later }
  /-- A command that makes no call takes a number. -/
  | number : Stage s { s with nextId := s.nextId + 1 }
  /-- A handle that is still kept is destroyed. -/
  | destroy (slot : Bytes) :
      Stage s { s with world := (s.world.handleDestroy s.now slot).1 }

/-- **What a session comes to**, stage by stage. -/
abbrev Stages : Session → Session → Prop := Relation.ReflTransGen Stage

variable {s t u : Session}

/-! ## Stages and scenes -/

/-- Who is next is one of the calls. -/
theorem Next.mem {before after : List Call} {c : Call} (next : s.Next before c after) :
    c ∈ s.calls := by
  rw [next.calls_eq]
  exact List.mem_append_right _ List.mem_cons_self

/-- **A stage is what goes on in a scene**, seen from the session. -/
theorem Stage.leads (stage : s.Stage t) : s.scene.Leads t.scene := by
  cases stage with
  | call _ a => exact s.leads_call a
  | @resume before after c next =>
    have threads_eq : s.calls.map Call.thread
        = before.map Call.thread ++ c.thread :: after.map Call.thread := by
      rw [← List.map_cons, ← List.map_append, ← next.calls_eq]
    rw [resumed, scene_file, scene, threads_eq]
    exact (Scene.moves_retry ..).leads
  | tick _ le => exact .single (.tick _ le)
  | number => exact .refl
  | destroy slot => exact s.scene.leads_perform (.handleDestroy slot)

/-- Stages are one course of a scene. -/
theorem Stages.leads (stages : s.Stages t) : s.scene.Leads t.scene := by
  induction stages with
  | refl => exact .refl
  | tail _ stage ih => exact ih.trans stage.leads

/-- The clock never goes back. -/
theorem Stages.now_le (stages : s.Stages t) : s.now ≤ t.now := stages.leads.now_le

/-- **Only a tick takes time**: nobody has cause to look again, and the clock
moves no further than to where somebody is to. -/
theorem Stage.of_now_lt (stage : s.Stage t) (lt : s.now < t.now) :
    (∀ c ∈ s.calls, s.isIdle c = true) ∧ t.now ≤ max s.now Instant.last
      ∧ (∀ c ∈ s.calls, ∀ x, c.wake = some x → t.now ≤ x) ∧ t = { s with now := t.now } := by
  cases stage with
  | call _ a =>
    rw [Session.call, now_file] at lt
    exact absurd lt (Int.lt_irrefl _)
  | resume =>
    rw [resumed, now_file] at lt
    exact absurd lt (Int.lt_irrefl _)
  | tick idle _ le_last early => exact ⟨idle, le_last, early, rfl⟩
  | number | destroy => exact absurd lt (Int.lt_irrefl _)

/-! ## Commands by stages -/

/-- The first call that has cause to look again is next. -/
theorem next_of_dropWhile {c : Call} {after : List Call}
    (eq : s.calls.dropWhile s.isIdle = c :: after) :
    s.Next (s.calls.takeWhile s.isIdle) c after where
  calls_eq := calls_eq_of_dropWhile eq
  idle _ mem := List.mem_takeWhile_imp mem
  ready := by
    have due := List.head_dropWhile_not (p := s.isIdle) (l := s.calls) (by simp [eq])
    simpa [eq] using due

/-- **A round is made of calls that look again.** -/
theorem stages_drain (s : Session) : s.Stages s.drain := by
  fun_induction drain s with
  | case1 => exact .refl
  | case2 s c after eq ih => exact .head (.resume (next_of_dropWhile eq)) ih

/-- **Time passes by stages**: a tick to where somebody is to look again, and
everybody who then has cause to does. -/
theorem AtRest.stages_runUntil {target : Instant} (rest : s.AtRest)
    (le_last : target ≤ max s.now Instant.last) : s.Stages (s.runUntil target) := by
  fun_induction Session.runUntil s target with
  | case1 => exact .refl
  | case2 s t next ahead ih =>
    have le : s.now ≤ t := Int.le_of_lt ahead.1
    have le_last' : t ≤ max s.now Instant.last := Int.le_trans ahead.2 le_last
    have early : ∀ c ∈ s.calls, ∀ x, c.wake = some x → t ≤ x := by
      intro c mem x wake
      obtain ⟨t', next', le⟩ := nextWake_le mem wake
      rwa [Option.some.inj (next.symm.trans next')]
    refine .head (.tick rest.idle le le_last' early) ((stages_drain _).trans (ih ?_ ?_))
    · exact (rest.vigilant.tick le le_last').atRest_drain
    · rw [now_drain]
      simp only [Instant] at *
      omega
  | case3 => exact .refl

/-- To advance the clock is to let time pass. -/
theorem AtRest.stages_advance (rest : s.AtRest) (d : Duration) : s.Stages (s.advance d) := by
  have le_last := s.now.getD_after?_le d
  unfold Session.advance
  generalize (s.now.after? d).getD Instant.last = target at le_last
  obtain ⟨ran, early⟩ := rest.runUntil le_last
  have le := s.now_le_runUntil target
  have later : (s.runUntil target).now ≤ max s.now target := s.runUntil_now_le_max target
  refine (rest.stages_runUntil le_last).tail (.tick ran.idle later ?_ (fun c mem x wake => ?_))
  · simp only [Instant] at *
    omega
  · have ahead := lt_wake_of_isIdle (ran.idle c mem) wake
    have beyond : target < x := by
      have unreached := early c mem
      rw [wake] at unreached
      exact Int.not_le.mp (of_decide_eq_false unreached)
    simp only [Instant] at *
    omega

/-- **A command is carried out by stages.** -/
theorem AtRest.stages_carryOut (rest : s.AtRest) (c : Command) : s.Stages (s.carryOut c).1 := by
  have issued : { s with nextId := s.nextId + 1 }.AtRest := ⟨rest.vigilant, rest.idle⟩
  cases c with
  | call a => exact .head (.call rest.idle a) (stages_drain _)
  | advance d => exact .head .number (issued.stages_advance d)
  | settle => exact .head .number (issued.stages_runUntil (Int.le_max_right ..))

/-- **Commands come to a session by stages.** -/
theorem AtRest.stages_carryOutAll (rest : s.AtRest) (commands : List Command) :
    s.Stages (s.carryOutAll commands).1 := by
  induction commands generalizing s with
  | nil => exact .refl
  | cons c more ih => exact (rest.stages_carryOut c).trans (ih (rest.carryOut c))

/-! ## Sessions in order -/

/-- **A session in order.** -/
structure InOrder (s : Session) : Prop where
  vigilant : s.Vigilant
  le_last : s.now ≤ Instant.last
  /-- The calls that wait stand in the order of their numbers. -/
  sorted : s.pending.Pairwise (· < ·)
  numbered : ∀ n ∈ s.pending, n < s.nextId
  /-- Nobody waits beyond its limit. -/
  timely : ∀ c ∈ s.calls, ∀ limit, c.point.limit? = some limit → s.now ≤ limit

/-- Filing a call adds no number but its own. -/
theorem pending_file (s : Session) (before : List Call) (id : Nat) (after : List Call)
    (outcome : World × Standing) :
    (s.file before id after outcome).pending.Sublist
      (before.map Call.id ++ id :: after.map Call.id) := by
  obtain ⟨w, standing⟩ := outcome
  cases standing with
  | waiting p stack wake =>
    simp only [file, pending, List.map_append, List.map_cons, List.Sublist.refl]
  | finished reply =>
    rw [file, pending, List.map_append]
    exact (List.sublist_cons_self ..).append_left _

/-- Whoever else was waiting is waiting still when a call has been filed. -/
theorem mem_file_of_mem {before after : List Call} {id : Nat} {outcome : World × Standing}
    {c : Call} (mem : c ∈ before ++ after) : c ∈ (s.file before id after outcome).calls := by
  obtain ⟨w, standing⟩ := outcome
  cases standing with
  | waiting p stack wake =>
    exact (List.mem_append.mp mem).elim (List.mem_append_left _)
      (fun later => List.mem_append_right _ (List.mem_cons_of_mem _ later))
  | finished => exact mem

/-- Who is filed is before its limit, as the others are. -/
theorem timely_file {before after : List Call} {id : Nat} {outcome : World × Standing}
    (settled : outcome.2.Settled s.now outcome.1)
    (others : ∀ c ∈ before ++ after, ∀ limit, c.point.limit? = some limit → s.now ≤ limit) :
    ∀ c ∈ (s.file before id after outcome).calls, ∀ limit, c.point.limit? = some limit →
      s.now ≤ limit := by
  obtain ⟨w, standing⟩ := outcome
  cases standing with
  | finished => exact others
  | waiting p stack wake =>
    obtain ⟨earlier, later⟩ := List.forall_mem_append.mp others
    refine List.forall_mem_append.mpr ⟨earlier, List.forall_mem_cons.mpr ⟨?_, later⟩⟩
    exact fun limit limited => Int.le_of_lt (Point.Blocked.limit settled limited).1

/-- A session that begins is in order. -/
theorem inOrder_start (hash : Bytes → Nat) (settings : StoreSettings) (environment : Environment)
    {now : Instant} (le_last : now ≤ Instant.last) :
    (start hash settings environment now).InOrder where
  vigilant _ mem := nomatch mem
  le_last := le_last
  sorted := .nil
  numbered _ mem := nomatch mem
  timely _ mem := nomatch mem

/-- **A call that is made has the largest number**, and waits behind all others if it
waits. -/
theorem InOrder.call (order : s.InOrder) (a : Action) : (s.call a).1.InOrder where
  vigilant := order.vigilant.call a
  le_last := by
    rw [Session.call, now_file]
    exact order.le_last
  sorted := by
    refine List.Pairwise.sublist (pending_file ..) (List.pairwise_append.mpr
      ⟨order.sorted, List.pairwise_singleton .., fun n mem m new => ?_⟩)
    rw [List.mem_singleton.mp new]
    exact order.numbered n mem
  numbered n mem := by
    have next_eq : (s.call a).1.nextId = s.nextId + 1 := by
      rw [Session.call]
      generalize Control.run s.now s.world ⟨.perform a, []⟩ = outcome
      obtain ⟨w, standing⟩ := outcome
      cases standing <;> rfl
    rw [next_eq]
    obtain old | new := List.mem_append.mp ((pending_file ..).subset mem)
    · exact Nat.lt_succ_of_lt (order.numbered n old)
    · rw [List.mem_singleton.mp new]
      exact Nat.lt_succ_self _
  timely := by
    rw [Session.call, now_file]
    refine timely_file (Control.settled_run ..) ?_
    rw [List.append_nil]
    exact order.timely

/-- Who looks again has its number already. -/
theorem nextId_resumed (s : Session) (before : List Call) (c : Call) (after : List Call) :
    (s.resumed before c after).nextId = s.nextId := by
  rw [resumed]
  generalize c.retry s.now s.world = outcome
  obtain ⟨w, standing⟩ := outcome
  cases standing <;> rfl

/-- Looking again takes no time. -/
@[simp] theorem now_resumed (s : Session) (before : List Call) (c : Call) (after : List Call) :
    (s.resumed before c after).now = s.now :=
  now_file ..

/-- The world is as the call has left it that looked again. -/
theorem world_resumed (s : Session) (before : List Call) (c : Call) (after : List Call) :
    (s.resumed before c after).world = (c.retry s.now s.world).1 := by
  rw [resumed]
  generalize c.retry s.now s.world = outcome
  obtain ⟨w, standing⟩ := outcome
  cases standing <;> rfl

/-- **A call that looks again keeps its place** among those that wait, or
leaves it. -/
theorem InOrder.resumed (order : s.InOrder) {before after : List Call} {c : Call}
    (calls_eq : s.calls = before ++ c :: after) : (s.resumed before c after).InOrder := by
  have pending_eq : s.pending = before.map Call.id ++ c.id :: after.map Call.id := by
    rw [pending, calls_eq, List.map_append, List.map_cons]
  have fewer : (s.resumed before c after).pending.Sublist s.pending := by
    rw [pending_eq]
    exact pending_file ..
  refine ⟨order.vigilant.retry calls_eq, ?_, order.sorted.sublist fewer, fun n mem => ?_, ?_⟩
  · rw [now_resumed]
    exact order.le_last
  · rw [nextId_resumed]
    exact order.numbered n (fewer.subset mem)
  · rw [now_resumed]
    refine timely_file (c.settled_retry ..) (fun other mem => order.timely other ?_)
    rw [calls_eq]
    exact (List.mem_append.mp mem).elim (List.mem_append_left _)
      (fun mem => List.mem_append_right _ (List.mem_cons_of_mem _ mem))

/-- **The clock moves no further than to where a call that waits is to look
again**, or, if that has come already, by one nanosecond. -/
theorem AtRest.le_moment (rest : s.AtRest) {later : Instant}
    (le_last : later ≤ max s.now Instant.last)
    (early : ∀ c ∈ s.calls, ∀ x, c.wake = some x → later ≤ x) {c : Call} (mem : c ∈ s.calls) :
    ∃ moment, c.point.Blocked s.now s.world moment
      ∧ ∀ t, moment = some t → later ≤ max t (s.now + 1) := by
  obtain ⟨moment, blocked, wake⟩ := rest.blocked mem
  refine ⟨moment, blocked, ?_⟩
  rintro t rfl
  by_cases ahead : s.now < t
  · rw [upcoming, if_pos ahead] at wake
    exact Int.le_trans (early c mem t wake) (Int.le_max_left ..)
  · by_cases room : s.now < Instant.last
    · rw [upcoming, if_neg ahead, if_pos room] at wake
      exact Int.le_trans (early c mem _ wake) (Int.le_max_right ..)
    · simp only [Instant] at *
      omega

/-- **The clock does not move past the limit of a call that waits.** -/
theorem AtRest.le_limit (rest : s.AtRest) {later : Instant}
    (le_last : later ≤ max s.now Instant.last)
    (early : ∀ c ∈ s.calls, ∀ x, c.wake = some x → later ≤ x) {c : Call} (mem : c ∈ s.calls)
    {limit : Instant} (limited : c.point.limit? = some limit) : later ≤ limit := by
  obtain ⟨moment, blocked, le⟩ := rest.le_moment le_last early mem
  obtain ⟨before, t, rfl, le_limit⟩ := blocked.limit limited
  exact Int.le_trans (le t rfl) (Int.max_le.mpr ⟨le_limit, before⟩)

/-- **The clock does not move past the first instant after the deadline** of a hold
that a call faces. -/
theorem AtRest.le_deadline (rest : s.AtRest) {later : Instant}
    (le_last : later ≤ max s.now Instant.last)
    (early : ∀ c ∈ s.calls, ∀ x, c.wake = some x → later ≤ x) {c : Call} (mem : c ∈ s.calls)
    {i : Nat} {key : Bytes} (bell : c.point.bell? = some (i, key)) {h : Hold}
    (live : (s.world.store i).locks.live? s.now key = some h) {d : Instant}
    (deadline : h.deadline = some d) : later ≤ d + 1 := by
  obtain ⟨moment, blocked, le⟩ := rest.le_moment le_last early mem
  obtain ⟨g, held, moments⟩ := blocked.held bell
  obtain rfl := Option.some.inj (held.symm.trans live)
  obtain ⟨t, rfl, le_d⟩ := moments d deadline
  have lasting := Hold.expired_eq_false_iff.mp (Locks.live?_eq_some_iff.mp live).2 d deadline
  have le_t := le t rfl
  simp only [Instant] at *
  omega

/-- Nobody misses its limit while the clock moves no further than to where somebody is
to look again. -/
theorem InOrder.tick (order : s.InOrder) (idle : ∀ c ∈ s.calls, s.isIdle c = true)
    {later : Instant} (le : s.now ≤ later) (le_last : later ≤ max s.now Instant.last)
    (early : ∀ c ∈ s.calls, ∀ x, c.wake = some x → later ≤ x) :
    { s with now := later }.InOrder where
  vigilant := order.vigilant.tick le le_last
  le_last := by
    have := order.le_last
    simp only [Instant] at *
    omega
  sorted := order.sorted
  numbered := order.numbered
  timely _ mem _ limited := AtRest.le_limit ⟨order.vigilant, idle⟩ le_last early mem limited

/-- **A session in order stays in order.** -/
theorem InOrder.stage (order : s.InOrder) (stage : s.Stage t) : t.InOrder := by
  cases stage with
  | call _ a => exact order.call a
  | resume next => exact order.resumed next.calls_eq
  | tick idle le le_last early => exact order.tick idle le le_last early
  | number =>
    exact ⟨order.vigilant, order.le_last, order.sorted,
      fun n mem => Nat.lt_succ_of_lt (order.numbered n mem), order.timely⟩
  | destroy slot =>
    exact ⟨order.vigilant.destroy [slot], order.le_last, order.sorted, order.numbered,
      order.timely⟩

/-- **A session stays in order**, whatever it comes to. -/
theorem InOrder.stages (order : s.InOrder) (stages : s.Stages t) : t.InOrder := by
  induction stages with
  | refl => exact order
  | tail _ stage ih => exact ih.stage stage

/-- **The sessions that stages lead to**, from a start that the clock can show. -/
def Reachable (s : Session) : Prop :=
  ∃ hash settings environment now, now ≤ Instant.last
    ∧ Session.Stages (.start hash settings environment now) s

/-- A session that begins has been reached. -/
theorem reachable_start (hash : Bytes → Nat) (settings : StoreSettings) (environment : Environment)
    {now : Instant} (le_last : now ≤ Instant.last) :
    (start hash settings environment now).Reachable :=
  ⟨hash, settings, environment, now, le_last, .refl⟩

/-- What a reachable session comes to is reachable. -/
theorem Reachable.stages (reachable : s.Reachable) (stages : s.Stages t) : t.Reachable := by
  obtain ⟨hash, settings, environment, now, le_last, reached⟩ := reachable
  exact ⟨hash, settings, environment, now, le_last, reached.trans stages⟩

/-- **Reachable sessions are in order.** -/
theorem Reachable.inOrder (reachable : s.Reachable) : s.InOrder := by
  obtain ⟨hash, settings, environment, now, le_last, reached⟩ := reachable
  exact (inOrder_start hash settings environment le_last).stages reached

/-- **Commands lead from one reachable session to another**, if it is at rest. -/
theorem Reachable.carryOutAll (reachable : s.Reachable) (rest : s.AtRest)
    (commands : List Command) : (s.carryOutAll commands).1.Reachable :=
  reachable.stages (rest.stages_carryOutAll commands)

/-- **Whoever waits in a session at rest is before its limit.** -/
theorem AtRest.lt_limit (rest : s.AtRest) {c : Call} (mem : c ∈ s.calls) {limit : Instant}
    (limited : c.point.limit? = some limit) : s.now < limit := by
  obtain ⟨moment, blocked, -⟩ := rest.blocked mem
  exact (blocked.limit limited).1

/-! ## A call from where it waits to where it goes on -/

/-- **Under this number a call waits at a point**, in the middle of something. -/
def Suspends (s : Session) (id : Nat) (p : Point) (stack : List Frame) : Prop :=
  ∃ c ∈ s.calls, c.id = id ∧ c.point = p ∧ c.stack = stack

/-- **A call that has to wait is suspended where it came to.** -/
theorem suspends_file (s : Session) (before : List Call) (id : Nat) (after : List Call) {w : World}
    {p : Point} {stack : List Frame} {wake : Option Instant} :
    (s.file before id after (w, .waiting p stack wake)).Suspends id p stack
      ∧ (s.file before id after (w, .waiting p stack wake)).world = w :=
  ⟨⟨_, List.mem_append_right _ List.mem_cons_self, rfl, rfl, rfl⟩, rfl⟩

/-- A call that has to wait as it is made is suspended under the number it
was given. -/
theorem suspends_call {a : Action} {w : World} {p : Point} {stack : List Frame}
    {wake : Option Instant}
    (waits : Control.run s.now s.world ⟨.perform a, []⟩ = (w, .waiting p stack wake)) :
    (s.call a).1.Suspends s.nextId p stack ∧ (s.call a).1.world = w := by
  rw [Session.call, waits]
  exact suspends_file ..

/-- A call that looks again and has to wait on is suspended as before, or
further on. -/
theorem suspends_resumed {before after : List Call} {c : Call} {w : World} {p : Point}
    {stack : List Frame} {wake : Option Instant}
    (waits : c.retry s.now s.world = (w, .waiting p stack wake)) :
    (s.resumed before c after).Suspends c.id p stack ∧ (s.resumed before c after).world = w := by
  rw [resumed, waits]
  exact suspends_file ..

/-- **A call gets past the point it waits at**: it is the next to look again,
and goes on in `w` as `goal` says. -/
inductive Departs (s : Session) : Nat → Point → List Frame → World → Control → Session → Prop
  | intro {before after : List Call} {c : Call} {w : World} {goal : Control}
      (next : s.Next before c after)
      (pass : c.point.pass s.now s.world true c.stack = .passed w goal) :
      Departs s c.id c.point c.stack w goal (s.resumed before c after)

/-- Who departs was waiting there. -/
theorem Departs.suspends {id : Nat} {p : Point} {stack : List Frame} {w : World} {goal : Control}
    (departs : s.Departs id p stack w goal t) : s.Suspends id p stack := by
  cases departs with
  | @intro _ _ c _ _ next => exact ⟨c, next.mem, rfl, rfl, rfl⟩

/-- A departure is one stage. -/
theorem Departs.stage {id : Nat} {p : Point} {stack : List Frame} {w : World} {goal : Control}
    (departs : s.Departs id p stack w goal t) : s.Stage t := by
  cases departs with
  | intro next => exact .resume next

/-- Who departs has got past its point. -/
theorem Departs.pass {id : Nat} {p : Point} {stack : List Frame} {w : World} {goal : Control}
    (departs : s.Departs id p stack w goal t) :
    p.pass s.now s.world true stack = .passed w goal := by
  cases departs with
  | intro _ pass => exact pass

/-- **A call that waits is still there after a stage**, unless it departed. -/
theorem Stage.departs (stage : s.Stage t) {id : Nat} {p : Point} {stack : List Frame}
    (waits : s.Suspends id p stack) :
    t.Suspends id p stack ∨ ∃ w goal, s.Departs id p stack w goal t := by
  obtain ⟨c, mem, rfl, rfl, rfl⟩ := waits
  cases stage with
  | call _ a =>
    refine .inl ⟨c, ?_, rfl, rfl, rfl⟩
    rw [Session.call]
    exact mem_file_of_mem (List.mem_append_left _ mem)
  | @resume before after d next =>
    rw [next.calls_eq] at mem
    obtain earlier | at_once := List.mem_append.mp mem
    · exact .inl ⟨c, mem_file_of_mem (List.mem_append_left _ earlier), rfl, rfl, rfl⟩
    obtain rfl | later := List.mem_cons.mp at_once
    · cases pass : c.point.pass s.now s.world true c.stack with
      | passed w goal => exact .inr ⟨w, goal, .intro next pass⟩
      | waits wake =>
        refine .inl ⟨⟨c.id, c.point, c.stack, upcoming s.now wake, c.point.rings s.world⟩, ?_,
          rfl, rfl, rfl⟩
        rw [resumed, Call.retry, pass]
        exact List.mem_append_right _ List.mem_cons_self
    · exact .inl ⟨c, mem_file_of_mem (List.mem_append_right _ later), rfl, rfl, rfl⟩
  | tick | number | destroy => exact .inl ⟨c, mem, rfl, rfl, rfl⟩

/-- **Stages in which a call does not get past the point it waits at.** -/
abbrev Stays (id : Nat) (p : Point) (stack : List Frame) : Session → Session → Prop :=
  Relation.ReflTransGen (fun s t => s.Stage t ∧ ¬ ∃ w goal, s.Departs id p stack w goal t)

/-- While a call stays where it is the session goes on. -/
theorem Stays.stages {id : Nat} {p : Point} {stack : List Frame} (stays : Stays id p stack s t) :
    s.Stages t :=
  Relation.ReflTransGen.mono (fun _ _ stage => stage.1) _ _ stays

/-- Who stays is still waiting in the end. -/
theorem Stays.suspends {id : Nat} {p : Point} {stack : List Frame} (stays : Stays id p stack s t)
    (waits : s.Suspends id p stack) : t.Suspends id p stack := by
  induction stays with
  | refl => exact waits
  | tail _ stage ih => exact (stage.1.departs ih).resolve_right stage.2

/-- **A call that waits is still there, whatever the session comes to**, unless
it departed on the way. -/
theorem Stages.stays_or_departs (stages : s.Stages t) (id : Nat) (p : Point)
    (stack : List Frame) :
    Stays id p stack s t
      ∨ ∃ u w goal v, Stays id p stack s u ∧ u.Departs id p stack w goal v ∧ v.Stages t := by
  induction stages with
  | refl => exact .inl .refl
  | @tail t t' _ stage ih =>
    obtain stays | ⟨u, w, goal, v, stays, departs, rest⟩ := ih
    · by_cases past : ∃ w goal, t.Departs id p stack w goal t'
      · obtain ⟨w, goal, departs⟩ := past
        exact .inr ⟨t, w, goal, t', stays, departs, .refl⟩
      · exact .inl (stays.tail ⟨stage, past⟩)
    · exact .inr ⟨u, w, goal, v, stays, departs, rest.tail stage⟩

/-! ## Whose turn it is -/

/-- **Calls with smaller numbers look again**, one after the other. -/
inductive Earlier (n : Nat) (s : Session) : Session → Prop
  | refl : Earlier n s s
  | tail {t : Session} {before after : List Call} {c : Call} (earlier : Earlier n s t)
      (next : t.Next before c after) (smaller : c.id < n) :
      Earlier n s (t.resumed before c after)

/-- Calls that look again before others are stages. -/
theorem Earlier.stages {n : Nat} (earlier : s.Earlier n t) : s.Stages t := by
  induction earlier with
  | refl => exact .refl
  | tail _ next _ ih => exact ih.tail (.resume next)

/-- The clock stands still meanwhile. -/
theorem Earlier.now_eq {n : Nat} (earlier : s.Earlier n t) : t.now = s.now := by
  induction earlier with
  | refl => rfl
  | tail _ _ _ ih => rwa [now_resumed]

/-- The world evolves while they do, all at one instant. -/
theorem Earlier.evolves {n : Nat} (earlier : s.Earlier n t) :
    World.Evolves (fun _ => True) s.now s.world t.world := by
  induction earlier with
  | refl => exact .refl
  | @tail t before after c earlier _ _ ih =>
    rw [world_resumed]
    have looked := c.evolves_retry t.now t.world
    rw [earlier.now_eq] at looked ⊢
    exact ih.trans looked

/-- One more may have looked again before them all. -/
theorem Earlier.head {n : Nat} {before after : List Call} {c : Call}
    (next : s.Next before c after) (smaller : c.id < n)
    (earlier : (s.resumed before c after).Earlier n t) : s.Earlier n t := by
  induction earlier with
  | refl => exact .tail .refl next smaller
  | tail _ next smaller ih => exact ih.tail next smaller

/-- **Who is ready looks again before the clock moves on**, after calls with
smaller numbers only. -/
theorem InOrder.turn_of_ready (order : s.InOrder) {c : Call} (mem : c ∈ s.calls)
    (ready : c.ready s.now s.world = true) :
    ∃ u before after, s.Earlier c.id u ∧ u.Next before c after
      ∧ s.drain = (u.resumed before c after).drain := by
  fun_induction drain s with
  | case1 s none =>
    have idle := List.dropWhile_eq_nil_iff.mp none c mem
    rw [isIdle, ready] at idle
    cases idle
  | case2 s d after eq ih =>
    have next := next_of_dropWhile eq
    generalize s.calls.takeWhile s.isIdle = before at next ih
    have calls_eq := next.calls_eq
    have place : c ∈ before ++ d :: after := by rwa [← calls_eq]
    obtain earlier | at_once := List.mem_append.mp place
    · -- those made before the first that is ready have no cause to look again
      have idle := next.idle c earlier
      rw [isIdle, ready] at idle
      cases idle
    obtain rfl | later := List.mem_cons.mp at_once
    · exact ⟨s, before, after, .refl, next, rfl⟩
    · have smaller : d.id < c.id := by
        have sorted := order.sorted
        rw [pending, calls_eq, List.map_append, List.map_cons] at sorted
        exact List.rel_of_pairwise_cons (List.pairwise_append.mp sorted).2.1
          (List.mem_map_of_mem later)
      have still : c.ready s.now (s.resumed before d after).world = true := by
        rw [world_resumed]
        exact Call.ready_of_evolves (order.vigilant c mem) ready (d.evolves_retry ..)
      obtain ⟨u, first, rest, turns, own, drain_eq⟩ := ih (order.resumed calls_eq)
        (mem_file_of_mem (List.mem_append_right _ later)) (by rwa [now_file])
      exact ⟨u, first, rest, .head next smaller turns, own, drain_eq⟩

end Session

end AdvisoryStore
