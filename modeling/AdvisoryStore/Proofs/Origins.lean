import AdvisoryStore.Proofs.Likeness.Unmoved
import AdvisoryStore.Proofs.Tenure
import AdvisoryStore.Proofs.Wakeup

/-!
# Where a hold comes from

A hold is stored because it was granted (`Scene.Leads.stored_cases`): the grant
is on record, the hold began when it was made and has its deadline from there,
and its generation is one that no hold of the cell had before. So a generation
is of one hold only: what is stored under it once is all that is ever stored
under it (`Scene.Leads.eq_of_generation`), however often the key is given up
and taken again, by whomever.
-/

namespace AdvisoryStore

/-- **A hold was granted on the way** from one world to another. -/
structure Hold.Arises (h : Hold) (i : Nat) (key : Bytes) (w w' : World) : Prop where
  /-- The grant is on record, at the instant at which the hold began. -/
  event : ∃ e ∈ w.since w', e.Grants i key h.holder ∧ e.time = h.since
  /-- The deadline counts from there. -/
  deadline : ∃ hold : Option Duration, h.deadline = hold.bind h.since.after?
  /-- The generation is a new one. -/
  generation : (w.store i).locks.grants key ≤ h.generation

namespace Locks

variable {l m : Locks} {now : Instant} {key : Bytes} {h : Hold} {happened : List Happening}

/-- **What is stored was stored before, or is granted now.** -/
theorem Occurs.stored_cases (occurs : l.Occurs now happened m) (stored : m.stored? key = some h) :
    l.stored? key = some h
      ∨ (∃ claimant waited, .acquired claimant key h.holder waited ∈ happened)
        ∧ h.since = now ∧ (∃ hold : Option Duration, h.deadline = hold.bind now.after?)
        ∧ h.generation = l.grants key ∧ h.generation < m.grants key := by
  cases occurs with
  | expire =>
    rw [stored?_drop] at stored
    split at stored
    · cases stored
    · exact .inl stored
  | @grant k absent claimant holder waited hold =>
    rw [stored?_grant] at stored
    split at stored
    · next same =>
      cases stored
      rw [grants_grant, same, if_pos rfl]
      exact .inr ⟨⟨claimant, waited, List.mem_singleton_self _⟩, rfl, ⟨hold, rfl⟩, rfl,
        Nat.lt_succ_self _⟩
    · exact .inl stored
  | release =>
    rw [stored?_ring, stored?_drop] at stored
    split at stored
    · cases stored
    · exact .inl stored
  | sweep =>
    rw [stored?_sweep] at stored
    exact .inl (live?_eq_some_iff.mp stored).1
  | clear =>
    rw [stored?_clear] at stored
    cases stored
  | remark => exact .inl stored

end Locks

namespace Store

variable {s t : Store} {now : Instant} {key : Bytes} {h : Hold} {happened : List Happening}

/-- No grant of a store is taken back. -/
theorem Occurs.grants_le (occurs : s.Occurs now happened t) (key : Bytes) :
    s.locks.grants key ≤ t.locks.grants key := by
  obtain occurs | same := occurs.locks_cases
  · exact occurs.grants_le key
  · exact Nat.le_of_eq (by rw [same])

/-- The generations that were given lie behind. -/
def Numbered (s : Store) : Prop :=
  ∀ key h, s.locks.stored? key = some h → h.generation < s.locks.grants key

/-- Where nothing is stored, nothing has a number yet to come. -/
theorem numbered_new (hash : Bytes → Nat) (settings : StoreSettings) :
    (Store.new hash settings).Numbered := by
  intro key h stored
  rw [show (Store.new hash settings).locks.stored? key = none from Locks.stored?_new ..] at stored
  cases stored

/-- **The next generation is newer than all that are stored**, whatever happens. -/
theorem Numbered.occurs (numbered : s.Numbered) (occurs : s.Occurs now happened t) :
    t.Numbered := by
  intro key h stored
  obtain moved | same := occurs.locks_cases
  · obtain before | ⟨-, -, -, -, behind⟩ := moved.stored_cases stored
    · exact Nat.lt_of_lt_of_le (numbered key h before) (moved.grants_le key)
    · exact behind
  · rw [same] at stored ⊢
    exact numbered key h stored

end Store

namespace World

variable {P : Event → Prop} {now : Instant} {w w' : World} {i : Nat} {key : Bytes} {h : Hold}

/-- A change of the world takes back no grant. -/
theorem Change.grants_le (change : Change P now w w') (i : Nat) (key : Bytes) :
    (w.store i).locks.grants key ≤ (w'.store i).locks.grants key := by
  obtain ⟨happened, occurs, -⟩ | ⟨same, -⟩ | ⟨absent, -⟩ := change.store_cases i
  · exact occurs.grants_le key
  · exact Nat.le_of_eq (by rw [same])
  · rw [store_of_length_le absent]
    exact Nat.le_trans (Nat.le_of_eq (Locks.grants_new ..)) (Nat.zero_le _)

/-- Nor does an evolution. -/
theorem Evolves.grants_le (evolves : Evolves P now w w') (i : Nat) (key : Bytes) :
    (w.store i).locks.grants key ≤ (w'.store i).locks.grants key := by
  induction evolves with
  | refl => exact Nat.le_refl _
  | tail _ change ih => exact Nat.le_trans ih (change.grants_le i key)

/-- **A hold that is stored was stored before, or arises in the change.** -/
theorem Change.stored_cases (change : Change P now w w')
    (stored : (w'.store i).locks.stored? key = some h) :
    (w.store i).locks.stored? key = some h ∨ h.Arises i key w w' := by
  obtain ⟨happened, occurs, since_eq⟩ | ⟨same, -⟩ | ⟨-, -, settings, new⟩ := change.store_cases i
  · obtain moved | same := occurs.locks_cases
    · refine (moved.stored_cases stored).imp_right ?_
      rintro ⟨⟨claimant, waited, mem⟩, rfl, deadline, generation, -⟩
      refine ⟨⟨⟨i, h.since, _⟩, ?_, ⟨rfl, claimant, waited, rfl⟩, rfl⟩, deadline,
        Nat.le_of_eq generation.symm⟩
      rw [since_eq]
      exact List.mem_map_of_mem mem
    · rw [same] at stored
      exact .inl stored
  · rw [same] at stored
    exact .inl stored
  · rw [new] at stored
    rw [show (Store.new w.hash settings).locks.stored? key = none from Locks.stored?_new ..]
      at stored
    cases stored

end World

/-- What was granted on a part of the way was granted on the way. -/
theorem Hold.Arises.head {h : Hold} {i : Nat} {key : Bytes} {w u w' : World}
    (arises : h.Arises i key w u) (first : w.events <:+ u.events)
    (rest : u.events <:+ w'.events) : h.Arises i key w w' := by
  obtain ⟨e, mem, grants⟩ := arises.event
  refine ⟨⟨e, ?_, grants⟩, arises.deadline, arises.generation⟩
  rw [World.since_trans first rest]
  exact List.mem_append_left _ mem

/-- What arises late in a course arises in the course. -/
theorem Hold.Arises.tail {h : Hold} {i : Nat} {key : Bytes} {w u w' : World}
    (first : w.events <:+ u.events) (rest : u.events <:+ w'.events)
    (le : (w.store i).locks.grants key ≤ (u.store i).locks.grants key)
    (arises : h.Arises i key u w') : h.Arises i key w w' := by
  obtain ⟨e, mem, grants⟩ := arises.event
  refine ⟨⟨e, ?_, grants⟩, arises.deadline, Nat.le_trans le arises.generation⟩
  rw [World.since_trans first rest]
  exact List.mem_append_right _ mem

/-- A hold that is stored was stored before, or arises on the way. -/
theorem World.Evolves.stored_cases {P : Event → Prop} {now : Instant} {w w' : World} {i : Nat}
    {key : Bytes} {h : Hold} (evolves : World.Evolves P now w w')
    (stored : (w'.store i).locks.stored? key = some h) :
    (w.store i).locks.stored? key = some h ∨ h.Arises i key w w' := by
  induction evolves with
  | refl => exact .inl stored
  | tail before change ih =>
    have first := (World.Evolves.events before).1
    have last := change.events.1
    obtain stored | arises := change.stored_cases stored
    · exact (ih stored).imp_right (fun arises => arises.head first last)
    · exact .inr (arises.tail first last (World.Evolves.grants_le before i key))

namespace Scene

variable {s s' : Scene} {i : Nat} {key : Bytes} {h : Hold}

/-- Grants are not taken back in whatever a scene leads to. -/
theorem Leads.grants_le (leads : s.Leads s') (i : Nat) (key : Bytes) :
    (s.world.store i).locks.grants key ≤ (s'.world.store i).locks.grants key := by
  induction leads with
  | refl => exact Nat.le_refl _
  | tail _ step ih => exact Nat.le_trans ih (step.evolves.grants_le i key)

/-- **A hold that is stored was stored before, or was granted on the way.** -/
theorem Leads.stored_cases (leads : s.Leads s')
    (stored : (s'.world.store i).locks.stored? key = some h) :
    (s.world.store i).locks.stored? key = some h ∨ h.Arises i key s.world s'.world := by
  induction leads with
  | refl => exact .inl stored
  | tail before step ih =>
    have first := Leads.events before
    obtain stored | arises := step.evolves.stored_cases stored
    · exact (ih stored).imp_right (fun arises => arises.head first step.events)
    · exact .inr (arises.tail first step.events (Leads.grants_le before i key))

/-- **Every hold was granted**, in whatever scene a session comes to. -/
theorem Leads.arises {hash : Bytes → Nat} {settings : StoreSettings} {environment : Environment}
    {now : Instant} (reached : Leads ⟨now, .new hash settings environment, []⟩ s)
    (stored : (s.world.store i).locks.stored? key = some h) :
    h.Arises i key (.new hash settings environment) s.world := by
  refine (Leads.stored_cases reached stored).resolve_left (fun before => ?_)
  have fresh : ((World.new hash settings environment).store i).locks.stored? key = none := by
    cases i with
    | zero => exact Locks.stored?_new ..
    | succ i =>
      rw [World.store_of_length_le (Nat.le_add_left 1 i)]
      exact Locks.stored?_new ..
  rw [fresh] at before
  cases before

/-- The generations that were given lie behind, in whatever scene a session
comes to. -/
theorem Leads.numbered {hash : Bytes → Nat} {settings : StoreSettings} {environment : Environment}
    {now : Instant} (reached : Leads ⟨now, .new hash settings environment, []⟩ s) (i : Nat) :
    (s.world.store i).Numbered :=
  Leads.invariant reached (I := Store.Numbered) Store.numbered_new
    (fun occurs numbered => numbered.occurs occurs) i

/-- **A generation is of one hold only.** -/
theorem Leads.eq_of_generation (leads : s.Leads s') (numbered : (s.world.store i).Numbered)
    (stored : (s.world.store i).locks.stored? key = some h) {g : Hold}
    (later : (s'.world.store i).locks.stored? key = some g)
    (same : g.generation = h.generation) : g = h := by
  obtain before | arises := Leads.stored_cases leads later
  · rw [stored] at before
    exact (Option.some.inj before).symm
  · have behind := numbered key h stored
    have ahead := arises.generation
    omega

/-- **A hold that is gone does not come back.** -/
theorem Leads.gone (leads : s.Leads s') (numbered : (s.world.store i).Numbered)
    (stored : (s.world.store i).locks.stored? key = some h) {t : Scene} (further : s'.Leads t)
    (gone : (s'.world.store i).locks.live? s'.now key ≠ some h) :
    (t.world.store i).locks.live? t.now key ≠ some h := by
  intro live
  obtain ⟨again, lasting⟩ := Locks.live?_eq_some_iff.mp live
  obtain there | arises := Leads.stored_cases further again
  · -- it is stored and lasts to a later instant, so that it was live before
    refine gone (Locks.live?_eq_some_iff.mpr ⟨there, ?_⟩)
    refine Bool.eq_false_iff.mpr (fun past => ?_)
    rw [Hold.expired_mono further.now_le past] at lasting
    cases lasting
  · have behind := numbered key h stored
    have ahead := Nat.le_trans (Leads.grants_le leads i key) arises.generation
    omega

end Scene

end AdvisoryStore
