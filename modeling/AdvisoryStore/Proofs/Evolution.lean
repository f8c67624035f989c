import Mathlib.Logic.Relation
import AdvisoryStore.Proofs.Occurrence
import AdvisoryStore.Session.Transcript
import AdvisoryStore.Session.Waiting

/-!
# How a world changes at an instant

A call does many things to the world in one move, but each of them comes
down to changes of one store at a time, to stores that are added, and to
what no store takes notice of – slots, the environment, which store is
current. `World.Change` is one such change, and a world **evolves** by any
number of them (`World.Evolves`), all at one reading of the clock.

What happened is on record: the events of a world only grow, and
`World.since` is what an evolution has added to them. Both notions carry a
condition on events, so that it can be said of a move not only that the
world evolves by it, but by what kind of happenings it does.
-/

namespace AdvisoryStore

/-! ## What was added to a list at its front -/

/-- What was put before a list is what was added to it, in the order in
which it came. -/
theorem addedTo_append {α : Type} (old new : List α) : addedTo old (new ++ old) = new.reverse := by
  unfold addedTo
  rw [List.length_append, Nat.add_sub_cancel, List.take_left']
  rfl

/-- Nothing was added where nothing has changed. -/
theorem addedTo_self {α : Type} (l : List α) : addedTo l l = [] := addedTo_append l []

/-- What was added in two steps was added in the one and then in the other. -/
theorem addedTo_trans {α : Type} {first second third : List α} (h₁ : first <:+ second)
    (h₂ : second <:+ third) :
    addedTo first third = addedTo first second ++ addedTo second third := by
  obtain ⟨added, rfl⟩ := h₁
  obtain ⟨more, rfl⟩ := h₂
  rw [addedTo_append, addedTo_append, ← List.append_assoc, addedTo_append, List.reverse_append]

namespace World

/-! ## One store among others -/

/-- **What happened since**, oldest first. -/
def since (w w' : World) : List Event := addedTo w.events w'.events

/-- A store that is not there is empty. -/
theorem store_of_length_le {w : World} {i : Nat} (absent : w.stores.length ≤ i) :
    w.store i = default := by
  rw [store, List.getD_eq_getElem?_getD, List.getElem?_eq_none absent, Option.getD_none]

/-- A store that is added is the last, and the others stay as they are. -/
theorem store_addStore (w : World) (settings : StoreSettings) (i : Nat) :
    (w.addStore settings).store i
      = if i = w.stores.length then .new w.hash settings else w.store i := by
  show (w.stores ++ [Store.new w.hash settings]).getD i default = _
  by_cases new : i = w.stores.length
  · subst new
    rw [if_pos rfl, List.getD_eq_getElem?_getD, List.getElem?_concat_length, Option.getD_some]
  · rw [if_neg new]
    by_cases there : i < w.stores.length
    · rw [store, List.getD_eq_getElem?_getD, List.getD_eq_getElem?_getD,
        List.getElem?_append_left there]
    · have beyond : (w.stores ++ [Store.new w.hash settings]).length ≤ i := by
        rw [List.length_append, List.length_singleton]
        omega
      rw [store_of_length_le (Nat.le_of_not_lt there), List.getD_eq_getElem?_getD,
        List.getElem?_eq_none beyond, Option.getD_none]

/-- Whoever looks up a store after one was put back finds that one or the old ones. -/
theorem store_putBack {w : World} {i : Nat} (there : i < w.stores.length) (now : Instant)
    (s : Store) (happened : List Happening) (j : Nat) :
    (w.putBack now i s happened).store j = if j = i then s else w.store j := by
  unfold putBack
  rw [if_pos there]
  unfold store
  rw [List.getD_eq_getElem?_getD, List.getElem?_set, List.getD_eq_getElem?_getD]
  by_cases same : j = i
  · subst same
    rw [if_pos rfl, if_pos rfl, if_pos there, Option.getD_some]
  · rw [if_neg (Ne.symm same), if_neg same]

/-- Putting a store back adds none. -/
theorem length_putBack (w : World) (now : Instant) (i : Nat) (s : Store)
    (happened : List Happening) :
    (w.putBack now i s happened).stores.length = w.stores.length := by
  unfold putBack
  split
  · exact List.length_set
  · rfl

/-- What happened in a store is put before all that has happened already. -/
theorem events_putBack {w : World} {i : Nat} (there : i < w.stores.length) (now : Instant)
    (s : Store) (happened : List Happening) :
    (w.putBack now i s happened).events
      = (happened.map (Event.mk i now)).reverse ++ w.events := by
  unfold putBack
  rw [if_pos there]

theorem putBack_of_lt {w : World} {i : Nat} (there : i < w.stores.length) (now : Instant)
    (s : Store) (happened : List Happening) :
    w.putBack now i s happened
      = { w with
          stores := w.stores.set i s
          events := (happened.map (Event.mk i now)).reverse ++ w.events } :=
  if_pos there

/-- A store that is not there cannot be put back, and nothing is said to have
happened. -/
theorem putBack_of_not_lt {w : World} {i : Nat} (absent : ¬ i < w.stores.length) (now : Instant)
    (s : Store) (happened : List Happening) : w.putBack now i s happened = w :=
  if_neg absent

/-- Putting a store back as it was changes nothing. -/
theorem putBack_self (w : World) (now : Instant) (i : Nat) :
    w.putBack now i (w.store i) [] = w :=
  congrArg Prod.fst (on_eq_self (f := fun s => ⟨s, [], ()⟩) rfl)

/-- Putting a store back twice is putting it back once. -/
theorem putBack_putBack (w : World) (now : Instant) (i : Nat) (s t : Store)
    (first rest : List Happening) :
    (w.putBack now i s first).putBack now i t rest = w.putBack now i t (first ++ rest) := by
  by_cases there : i < w.stores.length
  · have still : i < (w.putBack now i s first).stores.length := by rwa [length_putBack]
    unfold putBack at still ⊢
    rw [if_pos there] at still ⊢
    rw [if_pos still, if_pos there]
    simp [List.append_assoc]
  · rw [putBack_of_not_lt there, putBack_of_not_lt there, putBack_of_not_lt there]

/-! ## Evolution -/

/-- **One change of the world**, whose events are all of some kind. -/
inductive Change (P : Event → Prop) (now : Instant) (w : World) : World → Prop
  | occur {i : Nat} {s : Store} {happened : List Happening} (there : i < w.stores.length)
      (occurs : (w.store i).Occurs now happened s) (all : ∀ what ∈ happened, P ⟨i, now, what⟩) :
      Change P now w (w.putBack now i s happened)
  /-- Something changes that no store takes notice of. -/
  | aside {w' : World} (stores : w'.stores = w.stores) (events : w'.events = w.events) :
      Change P now w w'
  | newStore (settings : StoreSettings) : Change P now w (w.addStore settings)

/-- **Changes of the world one after the other**, at one reading of the
clock. -/
abbrev Evolves (P : Event → Prop) (now : Instant) : World → World → Prop :=
  Relation.ReflTransGen (Change P now)

section

variable {P Q : Event → Prop} {now : Instant} {w w' : World}

/-- What is true of the events of a change may be said more weakly. -/
theorem Change.mono (weaker : ∀ e, P e → Q e) (h : Change P now w w') : Change Q now w w' := by
  cases h with
  | occur there occurs all => exact .occur there occurs (fun what mem => weaker _ (all what mem))
  | aside stores events => exact .aside stores events
  | newStore settings => exact .newStore settings

theorem Evolves.mono (weaker : ∀ e, P e → Q e) (h : Evolves P now w w') : Evolves Q now w w' :=
  Relation.ReflTransGen.mono (fun _ _ change => Change.mono weaker change) _ _ h

/-- A change shows in one store at most, and the events are of that store. -/
theorem Change.store_cases (h : Change P now w w') (i : Nat) :
    (∃ happened, (w.store i).Occurs now happened (w'.store i)
        ∧ w.since w' = happened.map (Event.mk i now))
      ∨ (w'.store i = w.store i ∧ ∀ e ∈ w.since w', e.store ≠ i)
      ∨ (w.stores.length ≤ i ∧ w.since w' = []
        ∧ ∃ settings, w'.store i = .new w.hash settings) := by
  cases h with
  | @occur j s happened there occurs all =>
    have since_eq : w.since (w.putBack now j s happened) = happened.map (Event.mk j now) := by
      unfold since
      rw [events_putBack there, addedTo_append, List.reverse_reverse]
    rw [store_putBack there]
    by_cases same : i = j
    · subst same
      rw [if_pos rfl]
      exact .inl ⟨happened, occurs, since_eq⟩
    · rw [if_neg same, since_eq]
      refine .inr (.inl ⟨rfl, fun e mem => ?_⟩)
      obtain ⟨what, -, rfl⟩ := List.mem_map.mp mem
      exact Ne.symm same
  | aside stores events =>
    refine .inr (.inl ⟨by rw [store, stores, store], fun e mem => ?_⟩)
    rw [since, events, addedTo_self] at mem
    cases mem
  | newStore settings =>
    have none_since : w.since (w.addStore settings) = [] := addedTo_self w.events
    rw [store_addStore]
    by_cases new : i = w.stores.length
    · rw [if_pos new]
      exact .inr (.inr ⟨Nat.le_of_eq new.symm, none_since, settings, rfl⟩)
    · rw [if_neg new, none_since]
      exact .inr (.inl ⟨rfl, fun e mem => by cases mem⟩)

/-- **Events are only added**, and they are of the kind that was promised. -/
theorem Change.events (h : Change P now w w') :
    w.events <:+ w'.events ∧ ∀ e ∈ w.since w', P e := by
  cases h with
  | @occur i s happened there occurs all =>
    unfold since
    rw [events_putBack there, addedTo_append, List.reverse_reverse]
    refine ⟨List.suffix_append _ _, fun e mem => ?_⟩
    obtain ⟨what, what_mem, rfl⟩ := List.mem_map.mp mem
    exact all what what_mem
  | aside stores events =>
    unfold since
    rw [events, addedTo_self]
    exact ⟨List.suffix_refl _, fun e mem => nomatch mem⟩
  | newStore settings =>
    have none_since : w.since (w.addStore settings) = [] := addedTo_self w.events
    rw [none_since]
    exact ⟨List.suffix_refl _, fun e mem => nomatch mem⟩

theorem since_self (w : World) : w.since w = [] := addedTo_self w.events

theorem since_trans {w w₁ w₂ : World} (h₁ : w.events <:+ w₁.events)
    (h₂ : w₁.events <:+ w₂.events) : w.since w₂ = w.since w₁ ++ w₁.since w₂ :=
  addedTo_trans h₁ h₂

/-- **An evolution only adds events**, and all that it adds are of the kind that it is
said to be. -/
theorem Evolves.events (h : Evolves P now w w') :
    w.events <:+ w'.events ∧ ∀ e ∈ w.since w', P e := by
  induction h with
  | refl =>
    rw [since_self]
    exact ⟨List.suffix_refl _, fun e mem => nomatch mem⟩
  | tail _ change ih =>
    have last := change.events
    refine ⟨ih.1.trans last.1, fun e mem => ?_⟩
    rw [since_trans ih.1 last.1] at mem
    exact (List.mem_append.mp mem).elim (ih.2 e) (last.2 e)

/-- Stores are only added. -/
theorem Change.length_le (h : Change P now w w') : w.stores.length ≤ w'.stores.length := by
  cases h with
  | occur => exact Nat.le_of_eq (length_putBack ..).symm
  | aside stores _ => exact Nat.le_of_eq (by rw [stores])
  | newStore settings => simp [World.addStore]

/-- No store is ever taken away. -/
theorem Evolves.length_le (h : Evolves P now w w') : w.stores.length ≤ w'.stores.length := by
  induction h with
  | refl => exact Nat.le_refl _
  | tail _ change ih => exact Nat.le_trans ih change.length_le

/-- **What is true of a new store and outlives every change of one** is true
of all stores. -/
theorem Evolves.invariant {I : Store → Prop} (fresh : ∀ hash settings, I (.new hash settings))
    (kept : ∀ {s t happened}, s.Occurs now happened t → I s → I t) (h : Evolves P now w w')
    (all : ∀ i, I (w.store i)) (i : Nat) : I (w'.store i) := by
  induction h with
  | refl => exact all i
  | tail _ change ih =>
    obtain ⟨happened, occurs, -⟩ | ⟨same, -⟩ | ⟨-, -, settings, new⟩ := change.store_cases i
    · exact kept occurs ih
    · rwa [same]
    · rw [new]
      exact fresh _ settings

/-- **What unfolds in a store is an evolution of the world.** -/
theorem evolves_putBack {i : Nat} {s t : Store} {happened : List Happening}
    (unfolds : s.Unfolds now happened t) (w : World) (eq : w.store i = s)
    (all : ∀ what ∈ happened, P ⟨i, now, what⟩) :
    Evolves P now w (w.putBack now i t happened) := by
  by_cases there : i < w.stores.length
  · induction unfolds generalizing w with
    | refl =>
      rw [← eq, putBack_self]
    | @step s t u first rest occurs _ ih =>
      subst eq
      have first_all : ∀ what ∈ first, P ⟨i, now, what⟩ :=
        fun what mem => all what (List.mem_append_left _ mem)
      have rest_all : ∀ what ∈ rest, P ⟨i, now, what⟩ :=
        fun what mem => all what (List.mem_append_right _ mem)
      -- the store is put back after each change, and the last time counts
      have more := ih (w.putBack now i t first) (by rw [store_putBack there, if_pos rfl]) rest_all
        (by rwa [length_putBack])
      rw [putBack_putBack] at more
      exact .head (.occur there occurs first_all) more
  · rw [putBack_of_not_lt there]

/-- **An operation of a store is an evolution of the world**, by what it says to have
happened. -/
theorem evolves_on {α : Type} {i : Nat} {f : Store → Outcome Store α}
    (unfolds : (w.store i).Unfolds now (f (w.store i)).happened (f (w.store i)).after)
    (all : ∀ what ∈ (f (w.store i)).happened, P ⟨i, now, what⟩) :
    Evolves P now w (w.on now i f).1 :=
  evolves_putBack unfolds w rfl all

/-- A remark about a store is an evolution. -/
theorem evolves_note {i : Nat} {what : Happening} (told : what.TrueOfStore now (w.store i))
    (fits : P ⟨i, now, what⟩) : Evolves P now w (w.note now i what) := by
  refine evolves_on (Store.unfolds_noting told ()) ?_
  intro other mem
  rw [List.mem_singleton.mp mem]
  exact fits

end

end World

end AdvisoryStore
