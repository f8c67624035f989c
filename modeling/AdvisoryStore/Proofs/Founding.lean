import AdvisoryStore.Proofs.SharedStore

/-!
# How stores are made

A session begins with one store. Another is made when a call asks for a new one,
and when the first call asks for the shared store in an environment that is valid;
in no other move (`Stride.store_cases`). Every store spreads its keys as the
session does, whose hash nothing changes.

So whatever holds of a store when it is made, and outlives every change of a
store, holds of all the stores of a session (`Scene.Path.store_invariant`). Unlike
`Scene.Leads.invariant` this may speak of the hash of the session, and of the
settings that were asked for.
-/

namespace AdvisoryStore

/-- **What every change of a store keeps** is kept of a store that is there. -/
theorem World.Evolves.keeps_of_there {P : Event → Prop} {now : Instant} {w w' : World}
    {I : Store → Prop} (kept : ∀ {s t happened}, s.Occurs now happened t → I s → I t)
    (evolves : World.Evolves P now w w') {i : Nat} (there : i < w.stores.length)
    (before : I (w.store i)) : I (w'.store i) := by
  induction evolves with
  | refl => exact before
  | tail first change ih =>
    obtain ⟨_, occurs, -⟩ | ⟨same, -⟩ | ⟨absent, -⟩ := change.store_cases i
    · exact kept occurs ih
    · rwa [same]
    · have := World.Evolves.length_le first
      omega

/-- **An operation makes a store** with these settings. -/
def Operation.Makes (o : Operation) (environment : Environment) (settings : StoreSettings) : Prop :=
  o = .newStore settings
    ∨ o = .shared ∧ StoreSettings.ofEnvironment environment = .ok settings

/-- **Whoever steers leaves the hash**, and what is added is a new store. -/
theorem World.added_of_steers (w : World) (now : Instant) {o : Operation}
    (steers : o.steers = true) :
    (w.perform now o).1.hash = w.hash
      ∧ ∀ i < (w.perform now o).1.stores.length, i < w.stores.length
        ∨ ∃ settings, o.Makes w.environment settings
          ∧ (w.perform now o).1.store i = .new w.hash settings := by
  have one_more {u : World} {settings : StoreSettings} {i : Nat}
      (stores : u.stores = w.stores ++ [.new w.hash settings]) (there : i < u.stores.length) :
      i < w.stores.length ∨ u.store i = .new w.hash settings := by
    rw [stores, List.length_append, List.length_singleton] at there
    refine (Nat.lt_succ_iff_lt_or_eq.mp there).imp_right (fun last => ?_)
    rw [store, stores, last, List.getD_eq_getElem?_getD, List.getElem?_concat_length,
      Option.getD_some]
  cases o with
  | setEnvironment | forgetShared => exact ⟨rfl, fun _ there => .inl there⟩
  | use k =>
    show (if k < w.stores.length then { w with current := k } else w).hash = w.hash
      ∧ ∀ i < (if k < w.stores.length then { w with current := k } else w).stores.length, _
    split <;> exact ⟨rfl, fun _ there => .inl there⟩
  | newStore settings =>
    refine ⟨rfl, fun i there => ?_⟩
    exact (one_more rfl there).imp_right (fun new => ⟨settings, .inl rfl, new⟩)
  | shared =>
    have asked : w.perform now .shared = w.turnToShared now := rfl
    rw [asked]
    cases known : w.shared with
    | some k =>
      rw [turnToShared_of_some known]
      exact ⟨rfl, fun _ there => .inl there⟩
    | none =>
      cases read : StoreSettings.ofEnvironment w.environment with
      | error fault =>
        rw [turnToShared_of_error known read]
        exact ⟨rfl, fun _ there => .inl there⟩
      | ok settings =>
        rw [turnToShared_of_ok known read]
        refine ⟨rfl, fun i there => ?_⟩
        exact (one_more rfl there).imp_right (fun new => ⟨settings, .inr ⟨rfl, read⟩, new⟩)
  | _ => cases steers

namespace Stride

variable (x : Stride)

/-- **The move makes a store** with these settings. -/
def Makes (settings : StoreSettings) : Prop :=
  ∃ o, x.operation? = some o ∧ o.Makes x.world.environment settings

/-- **No move changes the hash, and every store after it was there or is made by
it.** -/
theorem store_cases :
    x.after.hash = x.world.hash
      ∧ ∀ i < x.after.stores.length, i < x.world.stores.length
        ∨ ∃ settings, x.Makes settings ∧ x.after.store i = .new x.world.hash settings := by
  by_cases steers : ∃ o, x.operation? = some o ∧ o.steers = true
  · obtain ⟨o, operation, steers⟩ := steers
    obtain ⟨hash, added⟩ := x.world.added_of_steers x.now steers
    rw [x.after_of_operation operation]
    refine ⟨hash, fun i there => (added i there).imp_right ?_⟩
    rintro ⟨settings, makes, new⟩
    exact ⟨settings, ⟨o, operation, makes⟩, new⟩
  · have steady := x.turn.steady fun o operation =>
      Bool.eq_false_iff.mpr fun steers' => steers ⟨o, operation, steers'⟩
    exact ⟨steady.hash, fun i there => .inl (by rwa [steady.length] at there)⟩

end Stride

namespace Scene

variable {s t : Scene} {strides : List Stride}

theorem Path.hash (path : s.Path strides t) : t.world.hash = s.world.hash := by
  induction path with
  | nil => rfl
  | begin _ _ ih => exact ih
  | tick _ _ ih => exact ih
  | turn x _ _ _ ih => exact x.store_cases.1.trans ih

/-- **What holds of a store when it is made, and outlives every change of one**,
holds of all the stores of a session. -/
theorem Path.store_invariant {I : Store → Prop} (path : s.Path strides t)
    (kept : ∀ {now s t happened}, s.Occurs now happened t → I s → I t)
    (made : ∀ x ∈ strides, ∀ settings, x.Makes settings → I (.new s.world.hash settings))
    (start : ∀ i < s.world.stores.length, I (s.world.store i)) :
    ∀ i < t.world.stores.length, I (t.world.store i) := by
  induction path with
  | nil => exact start
  | begin _ _ ih => exact ih made
  | tick _ _ ih => exact ih made
  | turn x _ _ path ih =>
    obtain ⟨before, last⟩ := List.forall_mem_append.mp made
    intro i there
    obtain there | ⟨settings, makes, new⟩ := x.store_cases.2 i there
    · exact x.evolves.keeps_of_there kept there (ih before i there)
    · rw [new, path.hash]
      exact last x (List.mem_singleton_self x) settings makes

end Scene

end AdvisoryStore
