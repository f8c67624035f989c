import AdvisoryStore.Proofs.Quiescence

/-!
# Nobody oversleeps

A scene lets its clock move on whenever it likes. In a session it does not:
it stops at every moment at which a call is to look again, and stands still
while a call can go on by itself. So whoever sleeps is woken on time, and
what a call does between one wait and the next takes no time.

`Scene.Prompt` is what goes on in a scene under this rule, with the actions
that calls were made for; what is done at once is taken as one step. A
session at rest goes on by it, whatever the commands are
(`Session.AtRest.prompt_carryOutAll`).
-/

namespace AdvisoryStore

/-- A call waits, and it does not sleep beyond its time when the clock moves on. -/
def Thread.Patient (later : Instant) : Thread → Prop
  | waiting (.sleep (some finish)) _ => later ≤ finish
  | waiting .. => True
  | going _ => False

namespace Scene

/-- **What goes on under a prompt clock**, and the actions of the calls that are
made, oldest first. -/
inductive Prompt (s : Scene) : List Action → Scene → Prop
  | nil : Prompt s [] s
  /-- Something is done at once. -/
  | perform {actions : List Action} {t : Scene} (prompt : Prompt s actions t) (o : Operation) :
      Prompt s (actions ++ [.operation o]) { t with world := (t.world.perform t.now o).1 }
  /-- A call is made for something that may take time. -/
  | begin {actions : List Action} {t : Scene} (prompt : Prompt s actions t) {a : Action}
      (slow : ∀ o, a ≠ .operation o) :
      Prompt s (actions ++ [a]) { t with threads := t.threads ++ [.going ⟨.perform a, []⟩] }
  | move {actions : List Action} {t u : Scene} (prompt : Prompt s actions t) (move : t.Move u) :
      Prompt s actions u
  /-- The clock moves on while every call waits. -/
  | tick {actions : List Action} {t : Scene} (prompt : Prompt s actions t) {later : Instant}
      (le : t.now ≤ later) (patient : ∀ thread ∈ t.threads, thread.Patient later) :
      Prompt s actions { t with now := later }

variable {s t u : Scene} {actions : List Action}

/-- Calls may go on as they like, in a prompt course as in any. -/
theorem Prompt.moves (prompt : s.Prompt actions t) (moves : t.Moves u) : s.Prompt actions u := by
  induction moves with
  | refl => exact prompt
  | tail _ move ih => exact ih.move move

end Scene

/-- The action that a command makes a call for. -/
def Command.action? : Command → Option Action
  | call a => some a
  | advance _ => none
  | settle => none

namespace Session

variable {s : Session} {origin : Scene} {actions : List Action} {target : Instant}

/-- **Whoever sleeps is to look again when its sleep is over.** -/
theorem AtRest.wake_of_sleep (rest : s.AtRest) {c : Call} (mem : c ∈ s.calls) {finish : Instant}
    (sleeps : c.point = .sleep (some finish)) : s.now < finish ∧ c.wake = some finish := by
  obtain ⟨moment, blocked, wake⟩ := rest.blocked mem
  rw [sleeps] at blocked
  obtain ⟨early, rfl⟩ := blocked
  have ahead : s.now < finish := Int.not_le.mp (of_decide_eq_false early)
  exact ⟨ahead, wake.trans (if_pos ahead)⟩

/-- When the clock moves no further than where calls look again, nobody
oversleeps. -/
theorem AtRest.patient (rest : s.AtRest) {later : Instant}
    (early : ∀ c ∈ s.calls, ∀ x, c.wake = some x → later ≤ x) :
    ∀ thread ∈ s.scene.threads, thread.Patient later := by
  intro thread mem
  obtain ⟨c, waits, rfl⟩ := List.mem_map.mp mem
  show Thread.Patient later (.waiting c.point c.stack)
  cases sleeps : c.point with
  | sleep finish =>
    cases finish with
    | none => trivial
    | some finish => exact early c waits finish (rest.wake_of_sleep waits sleeps).2
  | lock | release => trivial

/-- **Time passes promptly**: nobody is kept waiting who is to look again. -/
theorem AtRest.prompt_runUntil (rest : s.AtRest) (le_last : target ≤ max s.now Instant.last)
    (prompt : origin.Prompt actions s.scene) :
    origin.Prompt actions (s.runUntil target).scene := by
  fun_induction Session.runUntil s target with
  | case1 => exact prompt
  | case2 s t next ahead ih =>
    have le : s.now ≤ t := Int.le_of_lt ahead.1
    have ticked : { s with now := t }.Vigilant :=
      rest.vigilant.tick le (Int.le_trans ahead.2 le_last)
    have early : ∀ c ∈ s.calls, ∀ x, c.wake = some x → t ≤ x := by
      intro c mem x wake
      obtain ⟨t', next', le⟩ := nextWake_le mem wake
      rwa [Option.some.inj (next.symm.trans next')]
    -- the clock moves to where the first call looks again, and then the calls move
    refine ih ticked.atRest_drain ?_ ((prompt.tick le (rest.patient early)).moves ?_)
    · rw [now_drain]
      simp only [Instant] at *
      omega
    · exact moves_drain { s with now := t }
  | case3 => exact prompt

/-- To advance the clock of a session at rest is prompt. -/
theorem AtRest.prompt_advance (rest : s.AtRest) (d : Duration)
    (prompt : origin.Prompt actions s.scene) : origin.Prompt actions (s.advance d).scene := by
  have le_last := s.now.getD_after?_le d
  unfold Session.advance
  generalize (s.now.after? d).getD Instant.last = target at le_last
  obtain ⟨ran, early⟩ := rest.runUntil le_last
  refine (rest.prompt_runUntil le_last prompt).tick (s.runUntil_now_le_max target)
    (ran.patient (fun c mem x wake => ?_))
  have ahead := lt_wake_of_isIdle (ran.idle c mem) wake
  have beyond : target < x := by
    have unreached := early c mem
    rw [wake] at unreached
    exact Int.not_le.mp (of_decide_eq_false unreached)
  have le := s.now_le_runUntil target
  simp only [Instant] at *
  omega

/-- **A session at rest goes on under a prompt clock.** -/
theorem AtRest.prompt_carryOut (rest : s.AtRest) (c : Command)
    (prompt : origin.Prompt actions s.scene) :
    origin.Prompt (actions ++ c.action?.toList) (s.carryOut c).1.scene := by
  have issued : { s with nextId := s.nextId + 1 }.AtRest := ⟨rest.vigilant, rest.idle⟩
  cases c with
  | call a =>
    refine Scene.Prompt.moves ?_ (moves_drain _)
    have begun (slow : ∀ o, a ≠ .operation o) :
        origin.Prompt (actions ++ [a]) (s.call a).1.scene := by
      have ran := Scene.moves_run s.now s.world ⟨.perform a, []⟩ s.scene.threads []
      rw [call, scene_file, List.map_nil, List.append_nil]
      rw [List.append_nil] at ran
      exact (prompt.begin slow).moves ran
    cases a with
    | operation o =>
      have called : (s.call (.operation o)).1.scene
          = { s.scene with world := (s.world.perform s.now o).1 } := by
        rw [call, Control.run_operation, scene_file, Standing.thread?]
        simp only [Option.toList_none, List.map_nil, List.append_nil]
        rfl
      show origin.Prompt _ (s.call (.operation o)).1.scene
      rw [called]
      exact prompt.perform o
    | _ => exact begun (fun o eq => by cases eq)
  | advance d =>
    rw [Command.action?, Option.toList_none, List.append_nil]
    exact issued.prompt_advance d prompt
  | settle =>
    rw [Command.action?, Option.toList_none, List.append_nil]
    exact issued.prompt_runUntil (Int.le_max_right ..) prompt

/-- **Commands are carried out promptly**, one after the other. -/
theorem AtRest.prompt_carryOutAll (rest : s.AtRest) (commands : List Command)
    (prompt : origin.Prompt actions s.scene) :
    origin.Prompt (actions ++ commands.filterMap Command.action?)
      (s.carryOutAll commands).1.scene := by
  induction commands generalizing s actions with
  | nil =>
    rw [List.filterMap_nil, List.append_nil]
    exact prompt
  | cons c more ih =>
    have carried := ih (rest.carryOut c) (rest.prompt_carryOut c prompt)
    have same : (c :: more).filterMap Command.action?
        = c.action?.toList ++ more.filterMap Command.action? := by
      cases c <;> rfl
    rw [same, ← List.append_assoc]
    exact carried

end Session

end AdvisoryStore
