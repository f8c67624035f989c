import Mathlib
import AdvisoryStore.Proofs.Likeness.Session

/-!
# Who only looks changes nothing

Looking is not free of effects. Whoever consults a key drops a hold that is
over, and a sweep drops all of those and rings the bells of their cells, so
that calls are resumed that have nothing to do. What is stored, counted and
logged is then different. But it is different only in what is **fleeting**:
holds that were over anyway, how many were met, and which requests came.

`Session.glances_unobservable` compares two sessions, of which one is asked
to look, sweep and answer requests as often as one likes and whenever one
likes, and the other is not. They cannot be told apart by their own calls,
neither by the answers nor by when and in which order these come, nor by
what is left in the end (`Session.Indistinct`).
-/

namespace AdvisoryStore

/-! ## What only looks -/

/-- Whether a command is that somebody looks. -/
def Command.glances : Command → Bool
  | call (.operation o) => o.glances
  | _ => false

/-- A glance leaves alone whatever is looked at. -/
theorem Command.leavesAlone_of_glances {c : Command} (glances : c.glances = true)
    (scope : Scope) : c.LeavesAlone scope := by
  cases c with
  | advance d => cases glances
  | settle => cases glances
  | call a =>
    cases a with
    | operation o =>
      intro now w
      rw [Control.run_operation]
      exact ⟨w.unmoved_glance glances, trivial⟩
    | _ => cases glances

/-! ## What is left in the end -/

/-- Whether something is that a hold was found to be over. -/
def Happening.isExpiry : Happening → Bool
  | expired .. => true
  | _ => false

namespace World

/-- **The lines of the logs**, newest first, but for those about holds that
were found to be over. -/
def lines (w : World) : List Line :=
  (w.events.filter (fun e => !e.what.isExpiry)).filterMap w.line?

/-- They are the lines of what lasts. -/
theorem lines_eq (w : World) : w.lines = w.lasting.filterMap w.line? := by
  rw [lines, lasting, List.filterMap_filter, List.filterMap_filterMap]
  refine congrArg (List.filterMap · w.events) (funext fun e => ?_)
  obtain ⟨i, time, what⟩ := e
  cases what with
  | swept key heldBy =>
    show (Happening.swept key heldBy).line? (w.store i).settings.verbose = none
    cases (w.store i).settings.verbose <;> rfl
  | served topic =>
    show (Happening.served topic).line? (w.store i).settings.verbose = none
    cases (w.store i).settings.verbose <;> rfl
  | _ => rfl

end World

/-- What is told of a hold. -/
def Hold.told (h : Hold) : Bytes × Instant × Option Instant := (h.holder, h.since, h.deadline)

/-- **Sessions that cannot be told apart** by the calls that are selected:
these came to the same answers, but for what tells of the fleeting, at the
same instants and in the same order; the same of them wait; and the stores
have the same records, holds, counts and lines, but for the fleeting. -/
structure Session.Indistinct (m : Selection) (s t : Session) : Prop where
  now : s.now = t.now
  returned : List.Forall₂ (Return.Alike m .all) (s.returned.filter (m.keeps ·.id)) t.returned
  pending : t.pending = (s.pending.filter m.keeps).map m.rank
  records : ∀ i, (s.world.store i).records = (t.world.store i).records
  holds : ∀ i key, ((s.world.store i).locks.live? s.now key).map Hold.told
    = ((t.world.store i).locks.live? s.now key).map Hold.told
  counters : ∀ i c, c.fleeting = false →
    (s.world.store i).counters.get c = (t.world.store i).counters.get c
  lines : s.world.lines = t.world.lines

namespace Session

variable {m : Selection} {pair : Pairing} {s t : Session}

/-- **Sessions that are alike in everything cannot be told apart.** -/
theorem Alike.indistinct (alike : s.Alike m .all pair t) : s.Indistinct m t where
  now := alike.now
  returned := alike.returned_eq
  pending := alike.pending_eq
  records i := ((alike.world.stores i).whole rfl).2
  holds i key := by
    obtain ⟨none, none'⟩ | ⟨g, h, live, live', same⟩ :=
      ((alike.world.stores i).locks key trivial).cases
    · rw [none, none']
    · rw [live, live', Option.map_some, Option.map_some, Hold.told, Hold.told, same.holder,
        same.since, same.deadline]
  counters i := alike.world.counters alike.sound.booked alike.sound'.booked i
  lines := by
    have same : s.world.line? = t.world.line? := funext fun e => by
      rw [World.line?, World.line?, ((alike.world.stores e.store).whole rfl).1]
    rw [World.lines_eq, World.lines_eq, (alike.world.whole rfl).lasting, same]

/-- **Who only looks changes nothing.** However often and whenever somebody
looks, sweeps or asks by a request, the session cannot be told from the one
in which nobody does, neither before nor after the handles that are kept
are destroyed. -/
theorem glances_unobservable {m : Selection}
    (besides : ∀ x ∈ m, x.2 = false → x.1.glances = true) (hash : Bytes → Nat)
    (settings : StoreSettings) (environment : Environment) (now : Instant) :
    let full := ((start hash settings environment now).carryOutAll m.commands).1
    let own := ((start hash settings environment now).carryOutAll m.selected).1
    full.Indistinct m own ∧ full.close.1.Indistinct m own.close.1 := by
  intro full own
  have fits : m.Fits .all := by
    intro ⟨c, kept⟩ mem
    cases kept with
    | true => cases c <;> trivial
    | false => exact Command.leavesAlone_of_glances (besides _ mem rfl) .all
  obtain ⟨pair, alike⟩ := alike_of_start fits hash hash settings settings environment now rfl
    (fun _ => ⟨rfl, rfl⟩)
  have rest : full.AtRest := ((Quiescent.start ..).carryOutAll m.commands).atRest
  have rest' : own.AtRest := ((Quiescent.start ..).carryOutAll m.selected).atRest
  obtain ⟨pair', closed⟩ := alike.close rest rest'
  exact ⟨alike.indistinct, closed.indistinct⟩

/-- Two holds that end, and somebody who looks meanwhile and sweeps. -/
def watched : Selection :=
  [(.call (.acquire [1] [10] (some 50) none), true),
    (.call (.acquire [2] [10] (some 50) none), true), (.call (.operation (.isHeld [2])), false),
    (.call (.wait [1] none), true), (.advance 60, true), (.call (.operation .sweep), false),
    (.call (.acquire [2] [20] none none), true)]

theorem glances_unobservable_of_watched :
    let full := ((start (fun _ => 0) {} (fun _ => none) 0).carryOutAll watched.commands).1
    let own := ((start (fun _ => 0) {} (fun _ => none) 0).carryOutAll watched.selected).1
    (∀ x ∈ watched, x.2 = false → x.1.glances = true)
      ∧ full.returned.map (·.id) = [6, 5, 3, 2, 1, 0] ∧ own.returned.map (·.id) = [4, 2, 1, 0]
      ∧ full.Indistinct watched own := by
  have besides : ∀ x ∈ watched, x.2 = false → x.1.glances = true := by
    intro x mem unselected
    simp only [watched, List.mem_cons, List.not_mem_nil, or_false] at mem
    obtain rfl | rfl | rfl | rfl | rfl | rfl | rfl := mem <;> first | rfl | cases unselected
  obtain ⟨indistinct, -⟩ := glances_unobservable besides (fun _ => 0) {} (fun _ => none) 0
  exact ⟨besides, by cbv, by cbv, indistinct⟩

end Session

end AdvisoryStore
