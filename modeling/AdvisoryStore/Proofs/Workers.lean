import AdvisoryStore.Proofs.Promptness
import AdvisoryStore.Proofs.Views

/-!
# Workers of the demo workload

A call of the demo workload goes through few states. It has not begun; it
wants the lock of a key; it has the lock and computes, which is to sleep for
a moment; it has been told the result for a key; or it is over. A **worker**
says in which of them a call is (`Demo.Worker`), and `Demo.Worker.thread` is
the call.

What a worker does next depends on what its store shows and on nothing else.
`Demo.Worker.move_of_turn` is the whole of it: every move of such a call is
one of eight, with what it does to the view of the store. It takes for granted
that a worker that computes has its lock, and that nobody else acts under
its name – which is for those to show who know of all workers.
-/

namespace AdvisoryStore.Demo

/-! ## Names -/

/-- Keys of different numbers are different. -/
theorem key_inj {i j : Nat} : key i = key j ↔ i = j := by
  refine ⟨fun same => ?_, congrArg key⟩
  have digits : decimal i = decimal j := List.append_cancel_left same
  rw [← Numeral.value_decimal i, digits, Numeral.value_decimal]

/-- Different workers act as different holders. -/
theorem holder_inj {a b : UInt32} : holder a = holder b ↔ a = b := by
  refine ⟨fun same => UInt32.toNat_inj.mp ?_, congrArg holder⟩
  have digits : decimal a.toNat = decimal b.toNat := List.append_cancel_left same
  rw [← Numeral.value_decimal a.toNat, digits, Numeral.value_decimal]

/-- No key is called like a worker. -/
theorem key_ne_holder (i : Nat) (worker : UInt32) : key i ≠ holder worker := by
  intro same
  -- they differ at their sixth byte
  have sixth := congrArg (·[5]?) same
  unfold key holder at sixth
  rw [List.getElem?_append_left (by decide), List.getElem?_append_left (by decide)] at sixth
  exact absurd sixth (by decide)

/-! ## Workers -/

/-- How far a computation has come. -/
inductive Phase
  | starting
  | dozing
  | sleeping
  | waking
  deriving DecidableEq

/-- **What a worker is at.** -/
inductive Stage
  /-- It has not begun. -/
  | setting
  /-- It wants a lock, and perhaps has asked for it before. -/
  | queueing (asked : Bool)
  /-- It computes, until `finish`. -/
  | computing (finish : Instant) (phase : Phase)
  /-- It has been told a result. -/
  | served (content : Content) (stored : Bool) (inner : List Reply)
  | done

/-- **A worker of the demo workload.** -/
structure Worker where
  number : UInt32
  keys : UInt32
  /-- How many keys are to come after the one it is at. -/
  left : Nat
  stage : Stage

/-- How long a computation takes. -/
def moment : Duration := Duration.milliseconds 20

namespace Worker

variable (m : Worker)

/-- The number and the keys that the worker was given. -/
def hand : UInt32 × UInt32 := (m.number, m.keys)

/-- The number of the key that the worker is at. -/
def index : Nat := m.keys.toNat - (m.left + 1)

/-- The key that the worker is at. -/
def key : Bytes := Demo.key m.index

/-- The name that the worker acts under. -/
def holder : Bytes := Demo.holder m.number

/-- What the worker computes for the key that it is at. -/
def content : Content := Demo.content m.key m.holder

/-- What the worker asks for when it wants a lock. -/
def request : LockRequest := ⟨m.key, m.holder, some hold, none, .run⟩

/-- The worker's run on the key that it is at. -/
def run : Run := ⟨0, m.key, m.holder, .ok m.content⟩

/-- What the worker is in the middle of. -/
def frame : Frame := .demo 0 m.number m.keys.toNat m.left

/-- What the worker is in the middle of when it computes. -/
def inside : List Frame := [.script m.run [] [], m.frame]

/-- **The call that the worker is.** -/
def thread : Thread :=
  match m.stage with
  | .setting => .going ⟨.perform (.demo m.number m.keys), []⟩
  | .queueing false =>
    .going ⟨.arrive (.lock 0 m.request (.run script (.ok m.content))), [m.frame]⟩
  | .queueing true => .waiting (.lock 0 m.request (.run script (.ok m.content))) [m.frame]
  | .computing _ .starting => .going ⟨.perform (.sleep moment), m.inside⟩
  | .computing finish .dozing => .going ⟨.arrive (.sleep (some finish)), m.inside⟩
  | .computing finish .sleeping => .waiting (.sleep (some finish)) m.inside
  | .computing _ .waking => .going ⟨.answer .done, m.inside⟩
  | .served content stored inner => .going ⟨.answer (.ran content stored inner), [m.frame]⟩
  | .done => .going ⟨.answer .done, []⟩

/-- **The worker with so many keys to go.** -/
def next : Nat → Worker
  | 0 => { m with stage := .done }
  | left + 1 => { m with left, stage := .queueing false }

/-- The worker at another stage. -/
def atStage (stage : Stage) : Worker := { m with stage }

/-- A call that goes on with the workload is the worker with so many keys to
go. -/
theorem thread_next (now : Instant) (w : World) (left : Nat) :
    (m.next left).thread = .going (Control.demo now w 0 m.number m.keys.toNat left []) := by
  cases left <;> rfl

/-- A worker performs no operation. -/
theorem operation?_thread : m.thread.operation? = none := by
  unfold thread
  split <;> rfl

/-- **What a move of a worker comes to.** -/
inductive Move (now : Instant) (w : World) : World → Option Worker → Prop
  | begins (stage : m.stage = .setting) : Move now w w (some (m.next m.keys.toNat))
  /-- Somebody has the key. -/
  | waits (stage : m.stage = .queueing false) : Move now w w (some (m.atStage (.queueing true)))
  /-- There is a record. -/
  | reuses {asked : Bool} {content : Content} {u : World} (stage : m.stage = .queueing asked)
      (record : (w.view now 0).records.get? m.key = some content)
      (shows : u.view now 0 = (w.view now 0).tell
        [.acquired .run m.key m.holder asked, .hit m.key, .cached m.key m.holder content,
          .released .run m.key m.holder]) :
      Move now w u (some (m.atStage (.served content true [])))
  /-- There is none, and the key is the worker's. -/
  | computes {asked : Bool} {h : Hold} {u : World} (stage : m.stage = .queueing asked)
      (free : (w.view now 0).live m.key = none)
      (absent : (w.view now 0).records.get? m.key = none) (own : h.holder = m.holder)
      (deadline : h.deadline = now.after? hold)
      (shows : u.view now 0 = ((w.view now 0).grant m.key h).tell
        [.acquired .run m.key m.holder asked, .missed m.key, .computing m.key m.holder])
      (noted : ⟨0, now, .computing m.key m.holder⟩ ∈ u.events) :
      Move now w u (some (m.atStage (.computing (now + moment) .starting)))
  /-- It goes on sleeping, or wakes. -/
  | rests {finish : Instant} {phase phase' : Phase} (stage : m.stage = .computing finish phase)
      (later : phase' ≠ .starting) : Move now w w (some (m.atStage (.computing finish phase')))
  /-- It stores what it has computed. -/
  | stores {finish : Instant} {phase : Phase} {u : World}
      (stage : m.stage = .computing finish phase)
      (shows : u.view now 0 = (((w.view now 0).put m.key m.content).drop m.key).tell
        [.computed m.key m.holder, .wrote .run m.key m.holder m.content,
          .released .run m.key m.holder, .committed m.key m.holder m.content]) :
      Move now w u (some (m.atStage (.served m.content false [.done])))
  /-- It takes up the next key. -/
  | passes {content : Content} {stored : Bool} {inner : List Reply} {u : World}
      (stage : m.stage = .served content stored inner)
      (shows : u.view now 0
        = (w.view now 0).tell (if stored then [.reused m.key m.holder] else [])) :
      Move now w u (some (m.next m.left))
  | leaves (stage : m.stage = .done) : Move now w w none

variable {m} {now : Instant} {w w' : World}

/-- A hold lasts for some time. -/
theorem le_after?_hold {d : Instant} (deadline : now.after? hold = some d) : now + moment ≤ d := by
  unfold Instant.after? at deadline
  split at deadline <;> cases deadline
  have longer : moment ≤ hold := by decide
  simp only [Instant, Duration] at *
  omega

/-- Whoever is granted the lock of a key begins its run. -/
theorem pass_of_granted (m : Worker) {u : World} {asked : Bool}
    (granted : w.on now 0 (·.attempt now m.request asked) = (u, .granted)) :
    Point.pass (.lock 0 m.request (.run script (.ok m.content))) now w asked [m.frame]
      = .passed (u.enterRun now m.run script [m.frame]).1
        (u.enterRun now m.run script [m.frame]).2 := by
  rw [Point.pass, granted]
  rfl

/-- **Whoever gets past a key** is given the record, or begins to compute it. -/
theorem move_of_pass (there : 0 < w.stores.length) {asked : Bool}
    (stage : m.stage = .queueing asked)
    (apart : ∀ h, (w.view now 0).live m.key = some h → h.holder ≠ m.holder) {c : Control}
    (pass : Point.pass (.lock 0 m.request (.run script (.ok m.content))) now w asked [m.frame]
      = .passed w' c) :
    ∃ m', Thread.going c = thread m' ∧ m.Move now w w' (some m') := by
  cases live : (w.view now 0).live m.key with
  | some h =>
    -- somebody else has the key, and the worker does not give up
    have blocked : Point.Blocked (.lock 0 m.request (.run script (.ok m.content))) now w
        (sooner none h.deadline) := ⟨h, live, apart h live, rfl, rfl⟩
    rw [Point.pass_eq_waits_iff.mpr blocked] at pass
    cases pass
  | none =>
    have lasts : ∀ d, now.after? hold = some d → now ≤ d := fun d deadline => by
      have le := le_after?_hold deadline
      have pos : 0 < moment := by decide
      simp only [Instant, Duration] at *
      omega
    obtain ⟨granted, h, own, deadline, taken⟩ :=
      World.view_attempt_of_free (r := m.request) there live lasts asked
    have there := (w.steady_on now 0 (·.attempt now m.request asked)).there there
    generalize tried : w.on now 0 (·.attempt now m.request asked) = outcome
      at granted taken there
    obtain ⟨u, attempt⟩ := outcome
    obtain rfl : attempt = .granted := granted
    rw [m.pass_of_granted tried, Passage.passed.injEq] at pass
    obtain ⟨rfl, rfl⟩ := pass
    have there : 0 < u.stores.length := there
    have taken : u.view now 0 = ((w.view now 0).grant m.key h).tell
        [.acquired .run m.key m.holder asked] := taken
    have held : (u.view now 0).live m.run.key = some h := by
      rw [taken]
      exact if_pos rfl
    cases record : (w.view now 0).records.get? m.key with
    | some content =>
      have recorded : (u.view now 0).records.get? m.run.key = some content := by
        rw [taken]
        exact record
      obtain ⟨answer, shows⟩ :=
        World.view_enterRun_of_record (r := m.run) there recorded held own script [m.frame]
      rw [answer]
      refine ⟨m.atStage (.served content true []), rfl, .reuses stage record ?_⟩
      refine shows.trans ?_
      show ((u.view now 0).drop m.key).tell _ = _
      rw [taken, View.drop_tell, View.drop_grant live, View.tell_tell]
      rfl
    | none =>
      have absent : (u.view now 0).records.get? m.run.key = none := by
        rw [taken]
        exact record
      obtain ⟨control, shows, noted⟩ :=
        World.enterRun_of_none (r := m.run) there absent (.sleep moment) [] [m.frame]
      have entered : u.enterRun now m.run script [m.frame]
          = u.enterRun now m.run [.sleep moment] [m.frame] := rfl
      rw [entered, control]
      refine ⟨m.atStage (.computing (now + moment) .starting), rfl,
        .computes stage live record own deadline ?_ noted⟩
      refine shows.trans ?_
      show (u.view now 0).tell _ = _
      rw [taken, View.tell_tell]
      rfl

/-- **Every move of a worker is one of these.** -/
theorem move_of_turn (there : 0 < w.stores.length) (current : w.current = 0)
    (apart : ∀ asked, m.stage = .queueing asked →
      ∀ h, (w.view now 0).live m.key = some h → h.holder ≠ m.holder)
    (holds : ∀ finish phase, m.stage = .computing finish phase →
      ∃ h, (w.view now 0).live m.key = some h ∧ h.holder = m.holder)
    (timely : ∀ finish, m.stage = .computing finish .starting →
      now.after? moment = some finish) {t' : Option Thread}
    (turn : m.thread.Turn now w w' t') :
    ∃ m', t' = Option.map thread m' ∧ m.Move now w w' m' := by
  cases stage : m.stage with
  | setting =>
    rw [thread, stage] at turn
    cases turn with
    | move step =>
      cases step
      refine ⟨some (m.next m.keys.toNat), ?_, .begins stage⟩
      rw [Option.map_some, m.thread_next now w, current]
    | suspend step | finish step => cases step
  | queueing asked =>
    cases asked with
    | false =>
      rw [thread, stage] at turn
      obtain ⟨c, pass, rfl⟩ | ⟨rfl, rfl⟩ := turn.of_arrive
      · obtain ⟨m', same, move⟩ := move_of_pass there stage (apart false stage) pass
        exact ⟨some m', congrArg some same, move⟩
      · exact ⟨some (m.atStage (.queueing true)), rfl, .waits stage⟩
    | true =>
      rw [thread, stage] at turn
      cases turn with
      | resume pass =>
        obtain ⟨m', same, move⟩ := move_of_pass there stage (apart true stage) pass
        exact ⟨some m', congrArg some same, move⟩
  | computing finish phase =>
    cases phase with
    | starting =>
      rw [thread, stage] at turn
      cases turn with
      | move step =>
        cases step
        rw [timely finish stage]
        exact ⟨some (m.atStage (.computing finish .dozing)), rfl, .rests stage (by decide)⟩
      | suspend step | finish step => cases step
    | dozing =>
      rw [thread, stage] at turn
      obtain ⟨c, pass, rfl⟩ | ⟨rfl, rfl⟩ := turn.of_arrive
      · cases Point.passes_of_pass pass with
        | slept =>
          exact ⟨some (m.atStage (.computing finish .waking)), rfl, .rests stage (by decide)⟩
      · exact ⟨some (m.atStage (.computing finish .sleeping)), rfl, .rests stage (by decide)⟩
    | sleeping =>
      rw [thread, stage] at turn
      cases turn with
      | resume pass =>
        cases Point.passes_of_pass pass with
        | slept =>
          exact ⟨some (m.atStage (.computing finish .waking)), rfl, .rests stage (by decide)⟩
    | waking =>
      rw [thread, stage] at turn
      cases turn with
      | move step =>
        obtain ⟨h, live, own⟩ := holds finish .waking stage
        have outcome : m.run.outcome = .ok m.content := rfl
        obtain ⟨answer, shows⟩ :=
          World.view_conclude (r := m.run) there outcome live own [.done]
        cases step
        refine ⟨some (m.atStage (.served m.content false [.done])), ?_, .stores stage shows⟩
        exact congrArg (fun reply => some (Thread.going ⟨.answer reply, [m.frame]⟩)) answer
      | suspend step | finish step => cases step
  | served content stored inner =>
    rw [thread, stage] at turn
    cases turn with
    | move step =>
      cases step
      refine ⟨some (m.next m.left), ?_, .passes stage ?_⟩
      · exact congrArg some (m.thread_next now _ m.left).symm
      · cases stored with
        | true => exact World.view_note there now (.reused m.key m.holder)
        | false => exact (View.tell_nil _).symm
    | suspend step | finish step => cases step
  | done =>
    rw [thread, stage] at turn
    cases turn with
    | finish step => exact ⟨none, rfl, .leaves stage⟩
    | move step | suspend step => cases step

end Worker

end AdvisoryStore.Demo
