import AdvisoryStore.Proofs.Handles
import AdvisoryStore.Proofs.Steering

/-!
# Calls name stores that are there

A call keeps the number of the store it is about while it waits, and while a
run of it computes. Stores are never taken away, and a call takes the number
from the store that was current when it set out, which is there
(`World.Seated`); so the stores that calls name are always there
(`Scene.Leads.present`), and what they do to them is done.
-/

namespace AdvisoryStore

/-- The store that a point is about is there. -/
def Point.Present (w : World) : Point → Prop
  | lock i _ _ => i < w.stores.length
  | release i _ _ _ => i < w.stores.length
  | sleep _ => True

/-- The store that a frame is about is there. -/
def Frame.Present (w : World) : Frame → Prop
  | script r _ _ => r.store < w.stores.length
  | demo store _ _ _ => store < w.stores.length

namespace Thread

/-- **The stores that a call names are there.** -/
structure Present (w : World) (t : Thread) : Prop where
  point : ∀ p, t.point? = some p → p.Present w
  frames : ∀ f ∈ t.stack, f.Present w

variable {now : Instant} {w w' : World} {t : Thread}

/-- A store that is there stays there. -/
theorem Present.mono (present : t.Present w) (more : w.stores.length ≤ w'.stores.length) :
    t.Present w' where
  point p eq := by
    have there := present.point p eq
    cases p with
    | lock | release => exact Nat.lt_of_lt_of_le there more
    | sleep => trivial
  frames f mem := by
    have there := present.frames f mem
    cases f <;> exact Nat.lt_of_lt_of_le there more

/-- The store of a run that may return is there. -/
theorem Present.due (present : t.Present w) {r : Run} (due : t.due? = some r) :
    r.store < w.stores.length := by
  unfold due? at due
  split at due
  · cases due
    exact present.frames _ List.mem_cons_self
  · obtain ⟨p, point, wanted⟩ := Option.bind_eq_some_iff.mp due
    have there := present.point p point
    cases p with
    | lock store request purpose =>
      cases purpose with
      | run script outcome =>
        cases wanted
        exact there
      | answer | handle => cases wanted
    | release | sleep => cases wanted

/-- A call that is at no point names the stores of its frames. -/
theorem present_of_nowhere {c : Control} (nowhere : (going c).point? = none)
    (frames : ∀ f ∈ c.stack, f.Present w) : (going c).Present w := by
  refine ⟨fun p eq => ?_, frames⟩
  rw [nowhere] at eq
  cases eq

/-- Who arrives at a point names its store. -/
theorem present_arrive {p : Point} {stack : List Frame} (there : p.Present w)
    (frames : ∀ f ∈ stack, f.Present w) : (going ⟨.arrive p, stack⟩).Present w := by
  refine ⟨fun q eq => ?_, frames⟩
  rwa [← Option.some.inj eq]

/-- A worker keeps to the store that it began in. -/
theorem present_demo (now : Instant) (u : World) {store : Nat} (there : store < w.stores.length)
    (worker : UInt32) (keys left : Nat) {stack : List Frame}
    (frames : ∀ f ∈ stack, f.Present w) :
    (going (Control.demo now u store worker keys left stack)).Present w := by
  cases left with
  | zero => exact present_of_nowhere rfl frames
  | succ left => exact present_arrive there (List.forall_mem_cons.mpr ⟨there, frames⟩)

/-- A run that goes on keeps to its store. -/
theorem frames_proceed {r : Run} (there : r.store < w.stores.length) (answers : List Reply)
    (rest : List Action) {stack : List Frame} (frames : ∀ f ∈ stack, f.Present w) :
    ∀ f ∈ (w.proceed now r answers rest stack).2.stack, f.Present w := by
  cases rest with
  | nil => exact frames
  | cons a rest => exact List.forall_mem_cons.mpr ⟨there, frames⟩

/-- Setting out on an action a call names the current store. -/
theorem present_begin (turned : w.Turned) (a : Action) {stack : List Frame}
    (frames : ∀ f ∈ stack, f.Present w) :
    (going (Control.begin now w a stack).2).Present w := by
  cases a with
  | operation o => exact present_of_nowhere rfl frames
  | acquire | lock | run => exact present_arrive turned.current frames
  | wait key patience =>
    rw [Control.begin]
    split
    · exact present_of_nowhere rfl frames
    · next u h eq =>
      refine present_arrive (p := .release ..) ?_ frames
      show u.current < w.stores.length
      rw [(w.steady_of_on now eq).current]
      exact turned.current
  | sleep d =>
    rw [Control.begin]
    split
    · exact present_of_nowhere rfl frames
    · exact present_arrive (p := .sleep _) trivial frames
  | demo worker keys => exact present_demo now w turned.current worker _ _ frames

/-- Past a point a call names no further store. -/
theorem frames_of_pass {p : Point} {waited : Bool} {stack : List Frame} {c : Control}
    (there : p.Present w) (frames : ∀ f ∈ stack, f.Present w)
    (pass : p.pass now w waited stack = .passed w' c) : ∀ f ∈ c.stack, f.Present w := by
  cases Point.passes_of_pass pass with
  | gaveUp | waitOver | slept => exact frames
  | @granted i request purpose u =>
    cases purpose with
    | answer | handle => exact frames
    | run script outcome =>
      obtain same | ⟨rest, same⟩ := u.stack_enterRun now
        ⟨i, request.key, request.holder, outcome⟩ script stack
      · show ∀ f ∈ (u.enterRun now _ script stack).2.stack, _
        rwa [same]
      · show ∀ f ∈ (u.enterRun now _ script stack).2.stack, _
        rw [same]
        exact List.forall_mem_cons.mpr ⟨there, frames⟩

/-- **Whatever store a call comes to name is there.** -/
theorem present_of_turn (turned : w.Turned) (present : t.Present w) {t' : Thread}
    (turn : t.Turn now w w' (some t')) : t'.Present w' := by
  have more := turn.evolves.length_le
  refine Present.mono ?_ more
  cases turn with
  | move step =>
    cases Control.goesOn_of_step step with
    | begins a => exact present_begin turned a present.frames
    | passes pass =>
      exact present_of_nowhere (point?_of_pass pass)
        (frames_of_pass (present.point _ rfl) present.frames pass)
    | resumes reply frame =>
      obtain ⟨there, frames⟩ := List.forall_mem_cons.mp present.frames
      cases frame with
      | script r answers script =>
        exact present_of_nowhere (point?_proceed ..) (frames_proceed there _ script frames)
      | demo store worker keys left => exact present_demo now _ there worker keys left frames
  | suspend step =>
    obtain ⟨rfl, -⟩ := Control.eq_arrive_of_waits step
    exact ⟨present.point, present.frames⟩
  | resume pass =>
    exact present_of_nowhere (point?_of_pass pass)
      (frames_of_pass (present.point _ rfl) present.frames pass)

end Thread

/-- **The stores that calls name are there**, in every scene that a session may
come to. -/
theorem Scene.Leads.present {hash : Bytes → Nat} {settings : StoreSettings}
    {environment : Environment} {now : Instant} {s : Scene}
    (reached : (Session.start hash settings environment now).scene.Leads s) :
    ∀ t ∈ s.threads, t.Present s.world := by
  induction reached with
  | refl => exact fun _ mem => nomatch mem
  | tail before step ih =>
    cases step with
    | begin s a =>
      refine List.forall_mem_append.mpr ⟨ih, List.forall_mem_singleton.mpr ?_⟩
      exact Thread.present_of_nowhere rfl (fun _ mem => nomatch mem)
    | tick _ le => exact ih
    | @turn now w w' t t' turn first rest =>
      obtain ⟨present_first, present_rest⟩ := List.forall_mem_append.mp ih
      obtain ⟨present, present_rest⟩ := List.forall_mem_cons.mp present_rest
      have more := turn.evolves.length_le
      refine List.forall_mem_append.mpr ⟨List.forall_mem_append.mpr ⟨?_, ?_⟩, ?_⟩
      · exact fun other mem => (present_first other mem).mono more
      · intro other mem
        obtain rfl := Option.mem_toList.mp mem
        have turned := Leads.balanced before |>.seated.toTurned
        exact Thread.present_of_turn turned present turn
      · exact fun other mem => (present_rest other mem).mono more

end AdvisoryStore
