import Mathlib
import AdvisoryStore.Proofs.Likeness.Session

/-!
# Keys do not depend on one another

The keys of a store share its cells, and with the cell a bell and the
numbering of generations. What is done under one key is therefore felt
under others: it drops holds that are over, wakes who waits, and uses up
generations. Nobody can tell. `Session.keys_independent` takes a session
made of calls about single keys, of the clock being moved on, and of locks
being swept and cleared, and leaves out of it all that is about other keys
than one. That key's calls come to the same answers, at the same instants
and in the same order – and however many cells there are, and whatever
hash spreads the keys over them, in either session.

What is not promised is what concerns all keys: how many holds a sweep
met, or how many changes were made under any key.
-/

namespace AdvisoryStore

namespace Command

/-- **The commands of a session about single keys.** A call is about one
key, also in what it computes by, or it sweeps or clears. -/
def SingleKeyed : Command → Prop
  | call a => (∃ key, a.key? = some key ∧ a.StaysOn key)
    ∨ a = .operation .sweep ∨ a = .operation .clear
  | advance _ => True
  | settle => False

/-- Whether a command is about a key, or about none in particular. -/
def concerns (key : Bytes) : Command → Bool
  | call a => a.key?.all (· = key)
  | _ => true

variable {key : Bytes} {c : Command}

/-- **What concerns the key is looked at.** -/
theorem SingleKeyed.lookedAt (single : c.SingleKeyed) (concerns : c.concerns key = true) :
    c.LookedAt (.key key) := by
  cases c with
  | advance d => trivial
  | settle => exact single.elim
  | call a =>
    obtain ⟨other, about, stays⟩ | swept | cleared := single
    · rw [Command.concerns, about, Option.all_some, decide_eq_true_eq] at concerns
      subst concerns
      exact .inl stays
    · exact .inr (.inl swept)
    · exact .inr (.inr cleared)

/-- **What is about another key leaves the key alone.** -/
theorem SingleKeyed.leavesAlone (single : c.SingleKeyed) (apart : c.concerns key = false) :
    c.LeavesAlone (.key key) := by
  cases c with
  | advance d => cases apart
  | settle => exact single.elim
  | call a =>
    obtain ⟨other, about, stays⟩ | rfl | rfl := single
    · rw [Command.concerns, about, Option.all_some, decide_eq_false_iff_not] at apart
      have uncovered : ¬ (Scope.key key).Covers other := apart
      have begins : Control.StaysOn other ⟨.perform a, []⟩ := ⟨stays, fun _ mem => nomatch mem⟩
      intro now w
      obtain ⟨unmoved, standing⟩ := begins.run uncovered
      exact ⟨unmoved, standing.aside uncovered⟩
    · cases apart
    · cases apart

end Command

namespace Selection

/-- The commands that concern a key, among others. -/
def about (key : Bytes) (commands : List Command) : Selection :=
  commands.map (fun c => (c, c.concerns key))

@[simp] theorem commands_about (key : Bytes) (commands : List Command) :
    (about key commands).commands = commands := by
  rw [Selection.commands, about, List.map_map]
  exact List.map_id' commands

@[simp] theorem selected_about (key : Bytes) (commands : List Command) :
    (about key commands).selected = commands.filter (·.concerns key) := by
  rw [selected, about, List.filter_map, List.map_map]
  exact List.map_id' _

/-- Commands of single keys fit the scope of the key whose commands are selected. -/
theorem fits_about {key : Bytes} {commands : List Command}
    (single : ∀ c ∈ commands, c.SingleKeyed) : (about key commands).Fits (.key key) := by
  refine List.forall_mem_map.mpr (fun c mem => ?_)
  cases concerns : c.concerns key with
  | true => exact (single c mem).lookedAt concerns
  | false => exact (single c mem).leavesAlone concerns

end Selection

namespace Session

/-- **Keys do not depend on one another, and cells cannot be told.** In a
session about single keys the calls that concern a key come to the same
answers, at the same instants and in the same order, as in the session in
which nothing else is asked, on a store of any other number of cells; and
the same of them wait. -/
theorem keys_independent (key : Bytes) {commands : List Command}
    (single : ∀ c ∈ commands, c.SingleKeyed) (hash hash' : Bytes → Nat)
    (settings : StoreSettings) (shards : Nat) (environment : Environment) (now : Instant) :
    let m := Selection.about key commands
    let full := ((start hash settings environment now).carryOutAll commands).1
    let own := ((start hash' { settings with shards } environment now).carryOutAll
      (commands.filter (·.concerns key))).1
    full.now = own.now
      ∧ List.Forall₂ (Return.Alike m (.key key)) (full.returned.filter (m.keeps ·.id)) own.returned
      ∧ own.pending = (full.pending.filter m.keeps).map m.rank := by
  intro m full own
  have fits : m.Fits (.key key) := Selection.fits_about single
  obtain ⟨pair, alike⟩ := alike_of_start fits hash hash' settings { settings with shards }
    environment now rfl nofun
  rw [Selection.commands_about, Selection.selected_about] at alike
  exact ⟨alike.now, alike.returned_eq, alike.pending_eq⟩

/-- Two keys are held and wanted. -/
def crowd : List Command :=
  [.call (.acquire [1] [10] (some 100) none), .call (.acquire [2] [10] (some 50) none),
    .call (.acquire [2] [20] none none), .call (.acquire [1] [20] none (some 200)),
    .call (.wait [1] none), .advance 150]

/-- In one cell the keys are told apart, and six commands are three. -/
theorem keys_independent_of_crowd :
    let m := Selection.about [1] crowd
    let full := ((start (fun _ => 0) {} (fun _ => none) 0).carryOutAll crowd).1
    let own := ((start (fun _ => 0) { shards := 1 } (fun _ => none) 0).carryOutAll
      (crowd.filter (·.concerns [1]))).1
    (∀ c ∈ crowd, c.SingleKeyed)
      ∧ full.returned.map (·.id) = [4, 3, 2, 1, 0] ∧ own.returned.map (·.id) = [2, 1, 0]
      ∧ List.Forall₂ (Return.Alike m (.key [1])) (full.returned.filter (m.keeps ·.id))
        own.returned := by
  have single : ∀ c ∈ crowd, c.SingleKeyed := by
    intro c mem
    simp only [crowd, List.mem_cons, List.not_mem_nil, or_false] at mem
    obtain rfl | rfl | rfl | rfl | rfl | rfl := mem
    · exact .inl ⟨[1], rfl, .acquire ..⟩
    · exact .inl ⟨[2], rfl, .acquire ..⟩
    · exact .inl ⟨[2], rfl, .acquire ..⟩
    · exact .inl ⟨[1], rfl, .acquire ..⟩
    · exact .inl ⟨[1], rfl, .wait ..⟩
    · trivial
  obtain ⟨-, returned, -⟩ := keys_independent [1] single (fun _ => 0) (fun _ => 0) {} 1
    (fun _ => none) 0
  exact ⟨single, by cbv, by cbv, returned⟩

end Session

end AdvisoryStore
