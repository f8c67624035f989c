import AdvisoryStore.Proofs.Scenes

/-!
# The moves on the way

`Scene.Leads` says that one scene may lead to another, and not how. Some
statements are about the way itself: about what was done before what, or
about how often something was done. A **path** is a way from scene to scene
together with the moves that calls made on it, in order (`Scene.Path`); each
of them, a **stride**, keeps the call that made it and the world before and
after.

Whoever leads somewhere does so by a path (`Scene.Leads.path`), and a path
can be taken apart at each of its strides (`Scene.Path.split`).
-/

namespace AdvisoryStore

/-- **A move that a call made**: the call and the world before it, and what
became of them. -/
structure Stride where
  now : Instant
  world : World
  thread : Thread
  after : World
  /-- What is left of the call, if it is not over. -/
  next : Option Thread
  turn : thread.Turn now world after next

/-- The operation that a call is about to perform. -/
def Thread.operation? : Thread → Option Operation
  | going ⟨.perform (.operation o), _⟩ => some o
  | _ => none

/-- **An operation is performed in one move**, and answered. -/
theorem Thread.Turn.of_operation {now : Instant} {w w' : World} {t : Thread} {t' : Option Thread}
    {o : Operation} (turn : t.Turn now w w' t') (operation : t.operation? = some o) :
    w' = (w.perform now o).1 ∧ t' = some (.going ⟨.answer (w.perform now o).2, t.stack⟩) := by
  unfold operation? at operation
  split at operation
  · cases operation
    cases turn with
    | move step =>
      cases step
      exact ⟨rfl, rfl⟩
    | suspend step => cases step
    | finish step => cases step
  · cases operation

namespace Stride

/-- **What the move performs**, if it performs an operation and is not one of
the moves of waiting, or of runs. -/
def operation? (x : Stride) : Option Operation := x.thread.operation?

/-- The answer to what the move performs. -/
def reply? (x : Stride) : Option Reply :=
  x.operation?.map (fun o => (x.world.perform x.now o).2)

theorem after_of_operation {x : Stride} {o : Operation} (operation : x.operation? = some o) :
    x.after = (x.world.perform x.now o).1 :=
  (x.turn.of_operation operation).1

/-- By a move the world evolves. -/
theorem evolves (x : Stride) : World.Evolves (fun _ => True) x.now x.world x.after :=
  x.turn.evolves

end Stride

/-- Where an entry stands in a list that one is added to: at the end, or before
it. -/
theorem concat_eq_split {α : Type} {l early late : List α} {x y : α}
    (eq : l ++ [x] = early ++ y :: late) :
    (l = early ∧ x = y ∧ late = []) ∨ ∃ most, late = most ++ [x] ∧ l = early ++ y :: most := by
  obtain rfl | ⟨most, z, concat⟩ := late.eq_nil_or_concat
  · obtain ⟨rfl, same⟩ := List.append_inj' eq rfl
    exact .inl ⟨rfl, (List.cons.inj same).1, rfl⟩
  · obtain rfl : late = most ++ [z] := concat.trans (List.concat_eq_append ..)
    rw [← List.cons_append, ← List.append_assoc] at eq
    obtain ⟨init, same⟩ := List.append_inj' eq rfl
    exact .inr ⟨most, by rw [(List.cons.inj same).1], init⟩

namespace Scene

/-- **A way from one scene to another**, and the moves that calls made on it,
oldest first. -/
inductive Path (s : Scene) : List Stride → Scene → Prop
  | nil : Path s [] s
  /-- A call is made. -/
  | begin {strides : List Stride} {t : Scene} (path : Path s strides t) (a : Action) :
      Path s strides { t with threads := t.threads ++ [.going ⟨.perform a, []⟩] }
  /-- The clock moves on. -/
  | tick {strides : List Stride} {t : Scene} (path : Path s strides t) {later : Instant}
      (le : t.now ≤ later) : Path s strides { t with now := later }
  /-- Some call makes a move. -/
  | turn {strides : List Stride} (x : Stride) (before after : List Thread)
      (path : Path s strides ⟨x.now, x.world, before ++ x.thread :: after⟩) :
      Path s (strides ++ [x]) ⟨x.now, x.after, before ++ x.next.toList ++ after⟩

variable {s t u : Scene} {strides : List Stride}

theorem Path.leads (path : s.Path strides t) : s.Leads t := by
  induction path with
  | nil => exact .refl
  | begin _ a ih => exact ih.tail (.begin _ a)
  | tick _ le ih => exact ih.tail (.tick _ le)
  | turn x before after _ ih => exact ih.tail (.turn x.turn before after)

/-- **Whoever leads somewhere does so by a path.** -/
theorem Leads.path (leads : s.Leads t) : ∃ strides, s.Path strides t := by
  induction leads with
  | refl => exact ⟨[], .nil⟩
  | tail _ step ih =>
    obtain ⟨strides, path⟩ := ih
    cases step with
    | begin _ a => exact ⟨strides, path.begin a⟩
    | tick _ le => exact ⟨strides, path.tick le⟩
    | @turn now w w' t t' turn before after =>
      let x : Stride := ⟨now, w, t, w', t', turn⟩
      exact ⟨strides ++ [x], .turn x before after path⟩

/-- **A path taken apart at a stride**: there is a path up to it, and one from
there on. -/
theorem Path.split {early late : List Stride} {x : Stride}
    (path : s.Path (early ++ x :: late) t) :
    ∃ before after, s.Path early ⟨x.now, x.world, before ++ x.thread :: after⟩
      ∧ Path ⟨x.now, x.after, before ++ x.next.toList ++ after⟩ late t := by
  generalize eq : early ++ x :: late = strides at path
  induction path generalizing late with
  | nil => exact absurd eq (by simp)
  | begin _ a ih =>
    obtain ⟨before, after, first, rest⟩ := ih eq
    exact ⟨before, after, first, rest.begin a⟩
  | tick _ le ih =>
    obtain ⟨before, after, first, rest⟩ := ih eq
    exact ⟨before, after, first, rest.tick le⟩
  | turn y before after path ih =>
    obtain ⟨rfl, rfl, rfl⟩ | ⟨most, rfl, init⟩ := concat_eq_split eq.symm
    · exact ⟨before, after, path, .nil⟩
    · obtain ⟨before', after', first, rest⟩ := ih init.symm
      exact ⟨before', after', first, .turn y before after rest⟩

/-- **A path goes on by the move of one of the calls**, if it has one to make. -/
theorem Path.act (path : s.Path strides t) {n : Nat} {c : Thread}
    (found : t.threads[n]? = some c) (moves : (c.act t.now t.world).isSome) :
    ∃ x : Stride, x.thread = c ∧ s.Path (strides ++ [x]) (t.act n) := by
  obtain ⟨⟨w, next⟩, acts⟩ := Option.isSome_iff_exists.mp moves
  obtain ⟨split, eq⟩ := act_eq found acts
  let x : Stride := ⟨t.now, t.world, c, w, next, Thread.turn_iff_act.mpr acts⟩
  refine ⟨x, rfl, ?_⟩
  rw [eq]
  refine Path.turn x (t.threads.take n) (t.threads.drop (n + 1)) ?_
  rwa [split]

/-- A call that performs an operation. -/
def performing (s : Scene) (o : Operation) : Stride where
  now := s.now
  world := s.world
  thread := .going ⟨.perform (.operation o), []⟩
  after := (s.world.perform s.now o).1
  next := some (.going ⟨.answer (s.world.perform s.now o).2, []⟩)
  turn := .move rfl

/-- The scene after an operation. -/
def performed (s : Scene) (o : Operation) : Scene :=
  { s with world := (s.world.perform s.now o).1 }

/-- The call that has performed an operation hands back its answer. -/
def answering (s : Scene) (o : Operation) : Stride where
  now := s.now
  world := (s.performed o).world
  thread := .going ⟨.answer (s.world.perform s.now o).2, []⟩
  after := (s.performed o).world
  next := none
  turn := .finish rfl

/-- **An operation is done in two moves** of a call of its own. -/
theorem Path.perform (path : s.Path strides t) (o : Operation) :
    s.Path (strides ++ [t.performing o] ++ [t.answering o]) (t.performed o) := by
  have performed := Path.turn (t.performing o) t.threads [] (path.begin (.operation o))
  rw [List.append_nil] at performed
  have answered := Path.turn (t.answering o) t.threads [] performed
  have same : t.threads ++ (t.answering o).next.toList = t.threads := List.append_nil _
  rwa [List.append_nil, same] at answered

end Scene

end AdvisoryStore
