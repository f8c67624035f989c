import AdvisoryStore.Proofs.Paths

/-!
# One call among others

What goes on in a scene is one thing, and what one of the calls does is another:
in between its moves others make theirs, and the clock moves on. A **career** is a
call's own moves in order, with the world as the call finds it each time
(`Thread.Career`). In every scene that one with the call leads to, the call has had
one (`Scene.Leads.career`).

A call is in the middle of things, the innermost first, and a move is about the
innermost (`Thread.Turn.shift`). So a run that computes stays where it is in a call
until its script is done: the actions of the script are begun in order, each once,
and then the run ends (`Thread.Career.scripted`).
-/

namespace AdvisoryStore

namespace Thread

/-- **What a call does among others**, who do what they like. -/
inductive Career (now : Instant) (w : World) (t : Thread) :
    List Stride → Instant → World → Option Thread → Prop
  | nil : Career now w t [] now w (some t)
  /-- Others do something, or the clock moves on. -/
  | aside {own : List Stride} {now' later : Instant} {w' w'' : World} {t' : Option Thread}
      (career : Career now w t own now' w' t') (le : now' ≤ later)
      (evolves : World.Evolves (fun _ => True) later w' w'') : Career now w t own later w'' t'
  /-- The call makes a move. -/
  | move {own : List Stride} {x : Stride}
      (career : Career now w t own x.now x.world (some x.thread)) :
      Career now w t (own ++ [x]) x.now x.after x.next

end Thread

/-- **A call has a career**, in whatever scene. -/
theorem Scene.Leads.career {now : Instant} {w : World} {t : Thread} {before after : List Thread}
    {s : Scene} (leads : Scene.Leads ⟨now, w, before ++ t :: after⟩ s) :
    ∃ own t', t.Career now w own s.now s.world t'
      ∧ ∃ before' after', s.threads = before' ++ t'.toList ++ after' := by
  induction leads with
  | refl => exact ⟨[], some t, .nil, before, after, by simp⟩
  | tail _ step ih =>
    obtain ⟨own, t', career, before', after', place⟩ := ih
    cases step with
    | begin s a =>
      refine ⟨own, t', career, before', after' ++ [.going ⟨.perform a, []⟩], ?_⟩
      rw [place, List.append_assoc]
    | tick s le => exact ⟨own, t', career.aside le .refl, before', after', place⟩
    | @turn now' w' w'' t₁ t₂ turn first rest =>
      have aside := career.aside (Int.le_refl _) turn.evolves
      cases t' with
      | none => exact ⟨own, none, aside, first ++ t₂.toList ++ rest, [], by simp⟩
      | some t' =>
        rw [Option.toList_some, List.append_assoc, List.singleton_append] at place
        obtain ⟨between, rfl, eq⟩ | ⟨between, rfl, eq⟩ := List.append_eq_append_iff.mp place
        · cases between with
          | nil =>
            -- it is the call's own move
            cases eq
            let x : Stride := ⟨now', w', t₁, w'', t₂, turn⟩
            exact ⟨own ++ [x], t₂, career.move (x := x), first, after', rfl⟩
          | cons t₃ between =>
            cases eq
            refine ⟨own, some t', aside, first ++ t₂.toList ++ between, after', ?_⟩
            simp
        · cases between with
          | nil =>
            cases eq
            let x : Stride := ⟨now', w', t₁, w'', t₂, turn⟩
            exact ⟨own ++ [x], t₂, career.move (x := x), before', after', by simp⟩
          | cons t₃ between =>
            cases eq
            exact ⟨own, some t', aside, before', between ++ t₂.toList ++ rest, by simp⟩

namespace Thread

variable {now : Instant} {w w' : World} {t t' : Thread}

/-- The action that a call is about to perform. -/
def performs? : Thread → Option Action
  | going ⟨.perform a, _⟩ => some a
  | _ => none

/-- **How a move changes what a call is in the middle of.** -/
inductive Shift (t t' : Thread) : Prop
  /-- It goes on in the middle of the same. -/
  | stays (same : t'.stack = t.stack) (idle : t'.performs? = none)
  /-- It comes to be in the middle of something more. -/
  | enters (frame : Frame) (inside : t'.stack = frame :: t.stack)
  /-- It hands an answer to what it was in the middle of, which goes on. -/
  | resumes (reply : Reply) (frame next : Frame) (rest : List Frame)
      (eq : t = .going ⟨.answer reply, frame :: rest⟩) (inside : t'.stack = next :: rest)
  /-- It hands an answer to what it was in the middle of, which is over. -/
  | leaves (reply : Reply) (frame : Frame) (rest : List Frame)
      (eq : t = .going ⟨.answer reply, frame :: rest⟩) (outside : t'.stack = rest)
      (idle : t'.performs? = none)

theorem Turn.shift (turn : t.Turn now w w' (some t')) : Shift t t' := by
  have passed {p : Point} {waited : Bool} {stack : List Frame} {c : Control} {t : Thread}
      (own : t.stack = stack) (pass : p.pass now w waited stack = .passed w' c) :
      Shift t (.going c) := by
    cases Point.passes_of_pass pass with
    | gaveUp | waitOver | slept => exact .stays own.symm rfl
    | @granted i request purpose u =>
      cases purpose with
      | answer | handle => exact .stays own.symm rfl
      | run script outcome =>
        have entry := u.entry_enterRun now ⟨i, request.key, request.holder, outcome⟩ script stack
        show Shift t (.going (u.enterRun now _ script stack).2)
        generalize u.enterRun now _ script stack = entered at entry ⊢
        cases entry with
        | cached => exact .stays own.symm rfl
        | computes =>
          cases script with
          | nil => exact .stays own.symm rfl
          | cons => exact .enters _ (congrArg _ own.symm)
  have demo (u : World) (store : Nat) (worker : UInt32) (keys left : Nat) (rest : List Frame) :
      ((going (Control.demo now u store worker keys left rest)).stack = rest
        ∨ ∃ frame, (going (Control.demo now u store worker keys left rest)).stack = frame :: rest)
      ∧ (going (Control.demo now u store worker keys left rest)).performs? = none := by
    cases left with
    | zero => exact ⟨.inl rfl, rfl⟩
    | succ => exact ⟨.inr ⟨_, rfl⟩, rfl⟩
  cases turn with
  | move step =>
    cases Control.goesOn_of_step step with
    | begins a stack =>
      cases a with
      | operation | acquire | lock | run => exact .stays rfl rfl
      | wait key patience =>
        rw [Control.begin]
        split <;> exact .stays rfl rfl
      | sleep d =>
        rw [Control.begin]
        split <;> exact .stays rfl rfl
      | demo worker keys =>
        obtain ⟨same | ⟨frame, inside⟩, idle⟩ := demo w w.current worker keys.toNat keys.toNat stack
        · exact .stays same idle
        · exact .enters frame inside
    | passes pass => exact passed rfl pass
    | resumes reply frame rest =>
      cases frame with
      | script r answers script =>
        cases script with
        | nil => exact .leaves reply _ rest rfl rfl rfl
        | cons => exact .resumes reply _ _ rest rfl rfl
      | demo store worker keys left =>
        obtain ⟨same | ⟨frame, inside⟩, idle⟩ := demo
          ((Control.demoRemark worker (Demo.key (keys - (left + 1))) reply).foldl
            (·.note now store ·) w) store worker keys left rest
        · exact .leaves reply _ rest rfl same idle
        · exact .resumes reply _ frame rest rfl inside
  | suspend step =>
    obtain ⟨rfl, -⟩ := Control.eq_arrive_of_waits step
    exact .stays rfl rfl
  | resume pass => exact passed rfl pass

/-! ## A script -/

variable {r : Run} {script begun : List Action} {base : List Frame}

/-- The action that a call is about to begin in the middle of `n` things. -/
def begins? (n : Nat) (t : Thread) : Option Action :=
  if t.stack.length = n then t.performs? else none

/-- The call is about to hand an answer to what it is in the middle of, which is
itself in the middle of `n` things. -/
def Answers (n : Nat) (t : Thread) : Prop :=
  ∃ reply frame rest, t = .going ⟨.answer reply, frame :: rest⟩ ∧ rest.length = n

/-- **A call is in the middle of a run's script**, and otherwise in the middle of
`base`. The actions in `begun` are those that have been begun. -/
inductive Amid (r : Run) (script : List Action) (base : List Frame) (begun : List Action)
    (t : Thread) : Prop
  /-- The next action is to begin. -/
  | before (answers : List Reply) (a : Action) (rest : List Action)
      (eq : t = .going ⟨.perform a, .script r answers rest :: base⟩)
      (all : script = begun ++ a :: rest) (count : answers.length = begun.length)
  /-- The last action that was begun goes on, or hands back its answer. -/
  | during (above : List Frame) (answers : List Reply) (rest : List Action)
      (inside : t.stack = above ++ .script r answers rest :: base)
      (idle : above = [] → t.performs? = none)
      (all : script = begun ++ rest) (count : answers.length + 1 = begun.length)

/-- **A run ends**, with as many answers as its script has actions, and the call
goes on with the answer of the run. -/
inductive Concludes (now : Instant) (w : World) (r : Run) (script : List Action)
    (base : List Frame) : World → Option Thread → Prop
  | intro (answers : List Reply) (count : answers.length = script.length) :
      Concludes now w r script base (w.conclude now r answers).1
        (some (.going ⟨.answer (w.conclude now r answers).2, base⟩))

/-- What is begun in the middle of more than a script is no action of it. -/
theorem begins?_of_above {above : List Frame} {f frame : Frame}
    (inside : t.stack = f :: above ++ frame :: base) : t.begins? (base.length + 1) = none := by
  refine if_neg (fun same => ?_)
  rw [inside, List.length_append, List.length_cons, List.length_cons] at same
  omega

/-- What hands its answer to more than a script does not hand it to the script. -/
theorem not_answers_of_above {above : List Frame} {f frame : Frame}
    (inside : t.stack = f :: above ++ frame :: base) : ¬ t.Answers base.length := by
  rintro ⟨reply, _, rest, rfl, same⟩
  obtain rfl : rest = above ++ frame :: base := (List.cons.inj inside).2
  rw [List.length_append, List.length_cons] at same
  omega

/-- **In the middle of a script** a call stays, or begins the next action of it;
or the script is done, and the run ends. Going from action to action changes
nothing. -/
theorem Turn.amid {t' : Option Thread} (turn : t.Turn now w w' t')
    (amid : t.Amid r script base begun) :
    ((∃ next, t' = some next
        ∧ next.Amid r script base (begun ++ (t.begins? (base.length + 1)).toList))
      ∧ (t.Answers base.length → w' = w))
      ∨ (begun = script ∧ Concludes now w r script base w' t') := by
  cases t' with
  | none =>
    -- a call that is in the middle of something is not over
    cases turn with
    | finish step =>
      obtain rfl := Control.eq_answer_of_finished step
      cases amid with
      | before _ _ _ eq => cases eq
      | during above _ _ inside => cases above <;> cases inside
  | some next =>
    cases amid with
    | before answers a rest eq all count =>
      subst eq
      have begins : begins? (base.length + 1)
          (.going ⟨.perform a, .script r answers rest :: base⟩) = some a := if_pos rfl
      rw [begins]
      have all' : script = (begun ++ [a]) ++ rest := by
        rw [all, List.append_assoc, List.singleton_append]
      have count' : answers.length + 1 = (begun ++ [a]).length := by
        rw [count, List.length_append, List.length_singleton]
      refine .inl ⟨⟨next, rfl, ?_⟩, fun ⟨_, _, _, eq, _⟩ => nomatch eq⟩
      cases turn.shift with
      | stays same idle => exact .during [] answers rest same (fun _ => idle) all' count'
      | enters frame inside => exact .during [frame] answers rest inside nofun all' count'
      | resumes _ _ _ _ eq | leaves _ _ _ eq => cases eq
    | during above answers rest inside idle all count =>
      cases above with
      | nil =>
        have idles : t.begins? (base.length + 1) = none := by
          rw [begins?, idle rfl, ite_self]
        rw [idles, Option.toList_none, List.append_nil]
        by_cases answered : ∃ reply, t = .going ⟨.answer reply, .script r answers rest :: base⟩
        · obtain ⟨reply, rfl⟩ := answered
          cases turn with
          | move step =>
            cases rest with
            | nil =>
              rw [List.append_nil] at all
              cases step
              refine .inr ⟨all.symm, .intro (answers ++ [reply]) ?_⟩
              rw [List.length_append, List.length_singleton, count, all]
            | cons a rest =>
              cases step
              refine .inl ⟨⟨_, rfl, .before (answers ++ [reply]) a rest rfl all ?_⟩, fun _ => rfl⟩
              rw [List.length_append, List.length_singleton, count]
          | suspend step => cases step
        · have unanswered {reply : Reply} {frame : Frame} {more : List Frame}
              (eq : t = .going ⟨.answer reply, frame :: more⟩) : False := by
            subst eq
            cases inside
            exact answered ⟨reply, rfl⟩
          refine .inl ⟨⟨next, rfl, ?_⟩, fun ⟨_, _, _, eq, _⟩ => (unanswered eq).elim⟩
          cases turn.shift with
          | stays same idle =>
            exact .during [] answers rest (same.trans inside) (fun _ => idle) all count
          | enters frame enters =>
            exact .during [frame] answers rest (enters.trans (congrArg _ inside)) nofun all count
          | resumes _ _ _ _ eq | leaves _ _ _ eq => exact (unanswered eq).elim
      | cons f above =>
        rw [begins?_of_above inside, Option.toList_none, List.append_nil]
        refine .inl ⟨⟨next, rfl, ?_⟩, fun answers => (not_answers_of_above inside answers).elim⟩
        cases turn.shift with
        | stays same =>
          exact .during (f :: above) answers rest (same.trans inside) nofun all count
        | enters frame enters =>
          exact .during (frame :: f :: above) answers rest (enters.trans (congrArg _ inside))
            nofun all count
        | resumes reply frame upper more eq enters =>
          subst eq
          cases inside
          exact .during (upper :: above) answers rest enters nofun all count
        | leaves reply frame more eq outside quiet =>
          subst eq
          cases inside
          exact .during above answers rest outside (fun _ => quiet) all count

/-- **What a call has done of a run's script**, and that the run has done nothing
else. -/
structure Scripted (base : List Frame) (script : List Action) (own : List Stride) : Prop where
  /-- The actions of the script have been begun, in order, each once. -/
  begun : own.filterMap (·.thread.begins? (base.length + 1)) = script
  /-- Of its own the run has done nothing. -/
  unmoved : ∀ x ∈ own, x.thread.Answers base.length → x.after = x.world

/-- **A script is done once, in order**: as long as a call is in the middle of it,
what the call has begun of it is the first part of it; and when the run ends, all
of it. -/
theorem Career.scripted {own : List Stride} {later : Instant} {v : World} {t' : Option Thread}
    (career : t.Career now w own later v t') (amid : t.Amid r script base []) :
    (∃ next begun, t' = some next ∧ next.Amid r script base begun ∧ Scripted base begun own)
      ∨ ∃ first last rest, own = first ++ last :: rest
        ∧ t.Career now w first last.now last.world (some last.thread)
        ∧ Scripted base script first
        ∧ Concludes last.now last.world r script base last.after last.next := by
  induction career with
  | nil => exact .inl ⟨t, [], rfl, amid, List.filterMap_nil, fun _ mem => nomatch mem⟩
  | aside _ _ _ ih => exact ih
  | @move own x career ih =>
    obtain ⟨next, begun, eq, amid, scripted⟩ | ⟨first, last, rest, rfl, before, ended⟩ := ih
    · obtain rfl := Option.some.inj eq
      obtain ⟨⟨next, eq, amid⟩, still⟩ | ⟨rfl, concludes⟩ := x.turn.amid amid
      · refine .inl ⟨next, _, eq, amid, ?_, ?_⟩
        · rw [List.filterMap_append, scripted.begun, List.filterMap_cons, List.filterMap_nil]
          cases x.thread.begins? (base.length + 1) <;> rfl
        · exact List.forall_mem_append.mpr
            ⟨scripted.unmoved, List.forall_mem_singleton.mpr still⟩
      · exact .inr ⟨own, x, [], rfl, career, scripted, concludes⟩
    · refine .inr ⟨first, last, rest ++ [x], ?_, before, ended⟩
      rw [List.append_assoc, List.cons_append]

/-- Stores are never taken away. -/
theorem Career.length_le {own : List Stride} {later : Instant} {v : World} {t' : Option Thread}
    (career : t.Career now w own later v t') : w.stores.length ≤ v.stores.length := by
  induction career with
  | nil => exact Nat.le_refl _
  | aside _ _ evolves ih => exact Nat.le_trans ih evolves.length_le
  | @move _ x _ ih => exact Nat.le_trans ih x.evolves.length_le

end Thread

end AdvisoryStore
