import AdvisoryStore.Proofs.Exclusion
import AdvisoryStore.Proofs.Handles

/-!
# Who owns a handle holds the lock

A handle knows nothing of the locks: it is a note, in a slot, of a lock that
was taken once. Yet where a key is locked under a holder's name by lock steps
only, and no lock step is let in while a handle owns that lock, the two go
together – the holder has the key exactly if a handle owns the lock and the
deadline that the lock step obtained has not passed (`Scene.Tenure.holds_iff`).

One direction is that no lock is lost under a handle. A live hold stays
unless it is given back (`World.Evolves.keeps`), and giving it back is what
the handle does when it ceases to own it. The other is that no lock is left
behind without a handle. Nobody comes to hold a key but by being granted it
(`Locks.Occurs.gained`), and whoever has just tried to give a lock back does
not hold it, whether the attempt was refused or not (`Locks.Occurs.parted`).
-/

namespace AdvisoryStore

/-! ## How a hold is gained, and what an attempt to release it means -/

namespace Locks

variable {l m : Locks} {now : Instant} {key : Bytes} {h : Hold} {happened : List Happening}

/-- What is live later is live now. -/
theorem live?_earlier {later : Instant} (le : now ≤ later) (live : l.live? later key = some h) :
    l.live? now key = some h := by
  obtain ⟨stored, lasting⟩ := live?_eq_some_iff.mp live
  refine live?_eq_some_iff.mpr ⟨stored, Bool.eq_false_iff.mpr (fun past => ?_)⟩
  rw [Hold.expired_mono le past] at lasting
  cases lasting

/-- **Who takes a free lock holds it** up to the deadline asked for. -/
theorem stored?_attempt_of_free (l : Locks) {r : LockRequest} (waited : Bool)
    (free : l.live? now r.key = none) :
    ∃ h, (l.attempt now r waited).after.stored? r.key = some h ∧ h.holder = r.holder
      ∧ h.deadline = r.hold.bind now.after? := by
  rw [attempt_of_live?_eq_none free, stored?_grant, if_pos rfl]
  exact ⟨_, rfl, rfl, rfl⟩

/-- **Nobody comes to hold a key but by being granted it.** -/
theorem Occurs.gained (occurs : l.Occurs now happened m) (live : m.live? now key = some h) :
    l.live? now key = some h
      ∨ ∃ claimant waited, .acquired claimant key h.holder waited ∈ happened := by
  cases occurs with
  | @expire k g stored past =>
    rw [live?_drop] at live
    split at live
    · cases live
    · exact .inl live
  | @grant k absent claimant holder waited hold =>
    rw [live?, stored?_grant] at live
    split at live
    · next same =>
      obtain ⟨eq, -⟩ := Option.filter_eq_some_iff.mp live
      cases eq
      rw [same]
      exact .inr ⟨claimant, waited, List.mem_singleton_self _⟩
    · exact .inl live
  | @release k g held claimant =>
    rw [live?_ring, live?_drop] at live
    split at live
    · cases live
    · exact .inl live
  | sweep =>
    obtain ⟨stored, lasting⟩ := live?_eq_some_iff.mp live
    rw [stored?_sweep] at stored
    exact .inl stored
  | clear =>
    rw [live?, stored?_clear] at live
    cases live
  | remark => exact .inl live

/-- **Who has just tried to give a lock back does not hold it.** -/
theorem Occurs.parted (occurs : l.Occurs now happened m) {claimant : Claimant} {holder : Bytes}
    (tried : .released claimant key holder ∈ happened ∨ .refused claimant key holder ∈ happened)
    (live : m.live? now key = some h) : h.holder ≠ holder := by
  cases occurs with
  | expire | grant => simp at tried
  | @release k g held c =>
    obtain ⟨rfl, rfl, rfl⟩ : claimant = c ∧ key = k ∧ holder = g.holder := by simpa using tried
    rw [live?_ring, live?_drop, if_pos rfl] at live
    cases live
  | sweep => obtain mem | mem := tried <;> obtain ⟨_, _, eq⟩ := of_mem_sweep mem <;> cases eq
  | clear => obtain mem | mem := tried <;> cases List.mem_singleton.mp mem
  | @remark what told =>
    obtain mem | mem := tried
    · obtain rfl := (List.mem_singleton.mp mem).symm
      exact told.elim
    · obtain rfl := (List.mem_singleton.mp mem).symm
      exact told h live

end Locks

/-- A hold that was not there before was acquired. -/
theorem Store.Occurs.gained {s t : Store} {now : Instant} {key : Bytes} {h : Hold}
    {happened : List Happening} (occurs : s.Occurs now happened t)
    (live : t.locks.live? now key = some h) :
    s.locks.live? now key = some h
      ∨ ∃ claimant waited, .acquired claimant key h.holder waited ∈ happened := by
  cases occurs with
  | locks occurs => exact occurs.gained live
  | write => exact .inl live
  | remark => exact .inl live

/-- Whoever has tried to give a key back does not hold it. -/
theorem Store.Occurs.parted {s t : Store} {now : Instant} {key : Bytes} {h : Hold}
    {happened : List Happening} (occurs : s.Occurs now happened t) {claimant : Claimant}
    {holder : Bytes}
    (tried : .released claimant key holder ∈ happened ∨ .refused claimant key holder ∈ happened)
    (live : t.locks.live? now key = some h) : h.holder ≠ holder := by
  cases occurs with
  | locks occurs => exact occurs.parted tried live
  | write => simp at tried
  | @remark what told =>
    obtain mem | mem := tried <;> obtain rfl := (List.mem_singleton.mp mem).symm <;>
      exact told.elim

/-- By this event the holder is granted the key. -/
def Event.Grants (i : Nat) (key holder : Bytes) (e : Event) : Prop :=
  e.store = i ∧ ∃ claimant waited, e.what = .acquired claimant key holder waited

/-- By this event the holder has given the key back, or tried to. -/
def Event.Parts (i : Nat) (key holder : Bytes) (e : Event) : Prop :=
  e.store = i ∧ ∃ claimant, e.what = .released claimant key holder
    ∨ e.what = .refused claimant key holder

namespace World

variable {P : Event → Prop} {now : Instant} {w w' : World} {i : Nat} {key holder : Bytes}
  {h : Hold}

/-- A hold that a change brings was granted by it. -/
theorem Change.gained (change : Change P now w w')
    (live : (w'.store i).locks.live? now key = some h) :
    (w.store i).locks.live? now key = some h ∨ ∃ e ∈ w.since w', e.Grants i key h.holder := by
  obtain ⟨happened, occurs, since_eq⟩ | ⟨same, -⟩ | ⟨-, -, settings, new⟩ := change.store_cases i
  · refine (occurs.gained live).imp_right (fun ⟨claimant, waited, mem⟩ => ?_)
    rw [since_eq]
    exact ⟨_, List.mem_map_of_mem mem, rfl, claimant, waited, rfl⟩
  · rw [same] at live
    exact .inl live
  · rw [new] at live
    rw [Store.live?_new] at live
    cases live

/-- A hold that changes in a row bring was granted among them. -/
theorem Evolves.gained (evolves : Evolves P now w w')
    (live : (w'.store i).locks.live? now key = some h) :
    (w.store i).locks.live? now key = some h ∨ ∃ e ∈ w.since w', e.Grants i key h.holder := by
  induction evolves with
  | refl => exact .inl live
  | tail before change ih =>
    rw [since_trans (Evolves.events before).1 change.events.1]
    obtain live | ⟨e, mem, grants⟩ := change.gained live
    · exact (ih live).imp_right
        (fun ⟨e, mem, grants⟩ => ⟨e, List.mem_append_left _ mem, grants⟩)
    · exact .inr ⟨e, List.mem_append_right _ mem, grants⟩

/-- **A hold that is neither granted nor given back is what it was.** -/
theorem Evolves.live?_iff (evolves : Evolves P now w w') (own : h.holder = holder)
    (spared : ∀ e ∈ w.since w', e.Spares i key holder)
    (ungranted : ∀ e ∈ w.since w', ¬ e.Grants i key holder) :
    (w'.store i).locks.live? now key = some h ↔ (w.store i).locks.live? now key = some h := by
  subst own
  refine ⟨fun live => ?_, fun live => (evolves.keeps live spared).1⟩
  exact (evolves.gained live).resolve_right (fun ⟨e, mem, grants⟩ => ungranted e mem grants)

/-- Whoever parts with a key in a change does not hold it after. -/
theorem Change.parted (change : Change P now w w') {e : Event} (mem : e ∈ w.since w')
    (parts : e.Parts i key holder) (live : (w'.store i).locks.live? now key = some h) :
    h.holder ≠ holder := by
  obtain ⟨here, claimant, tried⟩ := parts
  obtain ⟨happened, occurs, since_eq⟩ | ⟨-, apart⟩ | ⟨-, none_since, -⟩ := change.store_cases i
  · rw [since_eq] at mem
    obtain ⟨what, what_mem, rfl⟩ := List.mem_map.mp mem
    have tried : .released claimant key holder ∈ happened
        ∨ .refused claimant key holder ∈ happened :=
      tried.imp (fun eq => by rwa [← eq]) (fun eq => by rwa [← eq])
    exact occurs.parted tried live
  · exact absurd here (apart e mem)
  · rw [none_since] at mem
    cases mem

/-- **Who has tried to give a key back does not hold it**, unless it was
granted the key since. -/
theorem Evolves.parted (evolves : Evolves P now w w')
    (parted : ∃ e ∈ w.since w', e.Parts i key holder)
    (ungranted : ∀ e ∈ w.since w', ¬ e.Grants i key holder)
    (live : (w'.store i).locks.live? now key = some h) : h.holder ≠ holder := by
  induction evolves with
  | refl =>
    obtain ⟨e, mem, -⟩ := parted
    rw [since_self] at mem
    cases mem
  | tail before change ih =>
    rw [since_trans (Evolves.events before).1 change.events.1] at parted ungranted
    obtain ⟨ungranted_before, ungranted_last⟩ := List.forall_mem_append.mp ungranted
    obtain ⟨e, mem, parts⟩ := parted
    obtain mem | mem := List.mem_append.mp mem
    · rintro rfl
      obtain live | ⟨e', mem', grants⟩ := change.gained live
      · exact ih ⟨e, mem, parts⟩ ungranted_before live rfl
      · exact ungranted_last e' mem' grants
    · exact change.parted mem parts live

/-! ## What the lists of handles tell of the events -/

theorem events_eq_since (added : w.events <:+ w'.events) :
    w'.events = (w.since w').reverse ++ w.events := by
  obtain ⟨more, eq⟩ := added
  rw [since, ← eq, addedTo_append, List.reverse_reverse]

/-- The locks taken are those taken since, before the earlier ones. -/
theorem takings_eq_since (added : w.events <:+ w'.events) :
    w'.takings = ((w.since w').filterMap Event.taking?).reverse ++ w.takings := by
  rw [takings, events_eq_since added, List.filterMap_append, List.filterMap_reverse, takings]

/-- So are the attempts to give them back. -/
theorem attempts_eq_since (added : w.events <:+ w'.events) :
    w'.attempts = ((w.since w').filterMap Event.attempt?).reverse ++ w.attempts := by
  rw [attempts, events_eq_since added, List.filterMap_append, List.filterMap_reverse, attempts]

end World

/-- Who owns a lock in a slot owns a lock. -/
theorem KeyMap.mem_owned_of_mem_owning (slots : KeyMap Handle) {slot : Bytes} {h : Handle}
    (mem : h ∈ slots.owning slot) : h ∈ slots.owned :=
  (slots.owned_perm_erase slot).mem_iff.mpr (List.mem_append_left _ mem)

theorem KeyMap.mem_owned_iff {slots : KeyMap Handle} {h : Handle} (owns : h.owns = true) :
    h ∈ slots.owned ↔ ∃ slot, slots.get? slot = some h := by
  rw [owned, List.mem_filter, List.mem_map]
  constructor
  · rintro ⟨⟨⟨slot, h⟩, mem, rfl⟩, -⟩
    exact ⟨slot, get?_eq_some_iff.mpr mem⟩
  · rintro ⟨slot, found⟩
    exact ⟨⟨(slot, h), get?_eq_some_iff.mp found, rfl⟩, owns⟩

/-- An owner that is put into a slot is there once. -/
theorem KeyMap.count_owned_insert (slots : KeyMap Handle) {slot : Bytes} {h : Handle}
    (owns : h.owns = true) (unowned : h ∉ slots.owned) :
    (slots.insert slot h).owned.count h = 1 := by
  have counts := (slots.owned_perm_insert slot h).count_eq h
  have absent : (slots.owning slot).count h = 0 :=
    List.count_eq_zero.mpr (fun mem => unowned (slots.mem_owned_of_mem_owning mem))
  rw [List.count_append, List.count_append, absent, List.count_eq_zero.mpr unowned,
    List.filter_singleton, owns, cond_true, List.count_singleton_self] at counts
  omega

/-! ## Tenure -/

/-- **Whether somebody who is no handle gets or loses a lock**: a key under a
holder's name, or all of them. -/
def Happening.intrudes (key holder : Bytes) : Happening → Bool
  | acquired claimant k h _ => claimant ≠ .handle ∧ k = key ∧ h = holder
  | released claimant k h => claimant ≠ .handle ∧ k = key ∧ h = holder
  | cleared _ => true
  | _ => false

namespace Scene

/-- **A session in which a key is locked under a holder's name by lock steps
only**, and by none while a handle owns that lock. It ends with the last
deadline that such a lock step obtained, if there was one. -/
inductive Tenure (i : Nat) (key holder : Bytes) : Scene → Option (Option Instant) → Prop
  | start (hash : Bytes → Nat) (settings : StoreSettings) (environment : Environment)
      (now : Instant) :
      Tenure i key holder (Session.start hash settings environment now).scene none
  /-- Something else goes on. -/
  | step {s s' : Scene} {last : Option (Option Instant)} (tenure : Tenure i key holder s last)
      (step : s.Step s')
      (alone : ∀ e ∈ s.since s', e.store = i → e.what.intrudes key holder = false)
      (untaken : ∀ e ∈ s.since s', e.taking? ≠ some (.owner i (key, holder))) :
      Tenure i key holder s' last
  /-- A lock step comes to its end. -/
  | lock {now : Instant} {w w' : World} {before after : List Thread} {t : Thread}
      {request : LockRequest} {slot : Bytes} {stack : List Frame}
      {last : Option (Option Instant)}
      (tenure : Tenure i key holder ⟨now, w, before ++ t :: after⟩ last)
      (point : t.point? = some (.lock i request (.handle slot)))
      (turn : t.Turn now w w'
        (some (.going ⟨.answer (.handle (.owner i (key, holder))), stack⟩)))
      (alone : ∀ e ∈ w.since w', e.store = i → e.what.intrudes key holder = false)
      (unowned : .owner i (key, holder) ∉ w.slots.owned) :
      Tenure i key holder
        ⟨now, w', before ++ [.going ⟨.answer (.handle (.owner i (key, holder))), stack⟩] ++ after⟩
        (some (request.hold.bind now.after?))

/-- **Whether a holder has a key and whether a handle owns its lock**, as far
as the two go together. -/
structure Tenancy (i : Nat) (key holder : Bytes) (s : Scene) (last : Option (Option Instant)) :
    Prop where
  balanced : s.Balanced
  single : s.world.slots.owned.count (.owner i (key, holder)) ≤ 1
  /-- Who holds the key does so through a handle, and up to the deadline that
  the lock step obtained. -/
  owned : ∀ h, (s.world.store i).locks.live? s.now key = some h → h.holder = holder →
    .owner i (key, holder) ∈ s.world.slots.owned ∧ last = some h.deadline
  /-- And the handle's lock is held that long. -/
  held : .owner i (key, holder) ∈ s.world.slots.owned → ∃ deadline, last = some deadline
    ∧ ((∀ d, deadline = some d → s.now ≤ d) →
      ∃ h, (s.world.store i).locks.live? s.now key = some h ∧ h.holder = holder)

variable {i : Nat} {key holder : Bytes} {s s' : Scene} {last : Option (Option Instant)}

/-- An attempt is one to give the lock back. -/
theorem parts_of_attempt {e : Event} (attempt : e.attempt? = some (.owner i (key, holder))) :
    e.Parts i key holder := by
  obtain ⟨⟨k, h⟩, tried, eq⟩ := Option.map_eq_some_iff.mp attempt
  cases eq
  refine ⟨rfl, .handle, ?_⟩
  unfold Happening.attempt? at tried
  split at tried <;> cases tried
  · next eq => exact .inl eq
  · next eq => exact .inr eq

/-- What handles alone do ends no hold but by an attempt. -/
theorem spares_of_alone {e : Event}
    (alone : e.store = i → e.what.intrudes key holder = false)
    (unattempted : e.attempt? ≠ some (.owner i (key, holder))) : e.Spares i key holder := by
  rintro rfl
  have alone := alone rfl
  obtain ⟨store, time, what⟩ := e
  cases what with
  | cleared => cases alone
  | released claimant k h =>
    refine decide_eq_false (fun ⟨same_key, same_holder⟩ => ?_)
    subst same_key same_holder
    cases claimant with
    | handle => exact unattempted rfl
    | caller | run => simp [Happening.intrudes] at alone
  | _ => rfl

/-- And nobody is granted the key but by a lock step. -/
theorem ungranted_of_alone {e : Event}
    (alone : e.store = i → e.what.intrudes key holder = false)
    (untaken : e.taking? ≠ some (.owner i (key, holder))) : ¬ e.Grants i key holder := by
  rintro ⟨here, claimant, waited, eq⟩
  have alone := alone here
  obtain ⟨store, time, what⟩ := e
  cases here
  cases eq
  cases claimant with
  | handle => exact untaken rfl
  | caller | run => simp [Happening.intrudes] at alone

/-- **What else goes on keeps the two together.** -/
theorem Tenancy.step (tenancy : Tenancy i key holder s last) (step : s.Step s')
    (alone : ∀ e ∈ s.since s', e.store = i → e.what.intrudes key holder = false)
    (untaken : ∀ e ∈ s.since s', e.taking? ≠ some (.owner i (key, holder))) :
    Tenancy i key holder s' last := by
  have balanced := tenancy.balanced.step step
  have ungranted : ∀ e ∈ s.since s', ¬ e.Grants i key holder :=
    fun e mem => ungranted_of_alone (alone e mem) (untaken e mem)
  have counts : s.world.slots.owned.count (.owner i (key, holder))
      = s'.world.slots.owned.count (.owner i (key, holder))
        + ((s.since s').filterMap Event.attempt?).count (.owner i (key, holder)) := by
    have none_taken : ((s.since s').filterMap Event.taking?).count (.owner i (key, holder)) = 0 :=
      List.count_eq_zero.mpr (fun mem =>
        have ⟨e, e_mem, eq⟩ := List.mem_filterMap.mp mem
        untaken e e_mem eq)
    have before := tenancy.balanced.balance.count_eq (.owner i (key, holder))
    have after := balanced.balance.count_eq (.owner i (key, holder))
    rw [World.takings_eq_since step.events, World.attempts_eq_since step.events] at after
    simp only [List.count_append, List.count_reverse] at before after
    change List.count _ (List.filterMap Event.taking? (s.since s')) + _ = _ at after
    change _ = List.count _ (List.filterMap Event.attempt? (s.since s')) + _ + _ at after
    omega
  have single := tenancy.single
  by_cases tried : .owner i (key, holder) ∈ (s.since s').filterMap Event.attempt?
  · -- the handle has given the lock back, and nobody is granted it
    have some_tried := List.count_pos_iff.mpr tried
    have gone : .owner i (key, holder) ∉ s'.world.slots.owned :=
      List.count_eq_zero.mp (by omega)
    refine ⟨balanced, by omega, fun h live own => ?_, fun mem => absurd mem gone⟩
    obtain ⟨e, mem, attempt⟩ := List.mem_filterMap.mp tried
    have parted := step.evolves.parted ⟨e, mem, parts_of_attempt attempt⟩ ungranted
      (Locks.live?_earlier step.now_le live)
    exact absurd own parted
  · have none_tried := List.count_eq_zero.mpr tried
    have spared : ∀ e ∈ s.since s', e.Spares i key holder := fun e mem =>
      spares_of_alone (alone e mem)
        (fun attempt => tried (List.mem_filterMap.mpr ⟨e, mem, attempt⟩))
    have owned_iff : .owner i (key, holder) ∈ s'.world.slots.owned
        ↔ .owner i (key, holder) ∈ s.world.slots.owned := by
      rw [← List.count_pos_iff, ← List.count_pos_iff]
      omega
    refine ⟨balanced, by omega, fun h live own => ?_, fun mem => ?_⟩
    · rw [owned_iff]
      have live := Locks.live?_earlier step.now_le live
      exact tenancy.owned h ((step.evolves.live?_iff own spared ungranted).mp live) own
    · obtain ⟨deadline, last_eq, held⟩ := tenancy.held (owned_iff.mp mem)
      refine ⟨deadline, last_eq, fun lasting => ?_⟩
      obtain ⟨h, live, own⟩ := held (fun d eq => Int.le_trans step.now_le (lasting d eq))
      have deadline_eq := (tenancy.owned h live own).2
      rw [last_eq] at deadline_eq
      obtain rfl := Option.some.inj deadline_eq
      have live := (step.evolves.live?_iff own spared ungranted).mpr live
      exact ⟨h, Locks.live?_of_lasting live lasting, own⟩

/-- **A handle that is put into a slot** changes nothing about a hold that the
handle in the slot does not own. -/
theorem live?_place_iff {u : World} {now : Instant} {slot : Bytes} {g : Handle} {h : Hold}
    (seated : u.Seated) (own : h.holder = holder)
    (alone : ∀ e ∈ u.since (u.place now slot g), e.store = i →
      e.what.intrudes key holder = false)
    (unowned : .owner i (key, holder) ∉ u.slots.owning slot) :
    ((u.place now slot g).store i).locks.live? now key = some h
      ↔ (u.store i).locks.live? now key = some h := by
  have gives := World.gives_place seated now slot g
  have placing := u.evolves_place now slot g
  have takings := gives.takings
  have attempts := gives.attempts
  rw [World.takings_eq_since placing.events.1] at takings
  rw [World.attempts_eq_since placing.events.1] at attempts
  have none_taken := List.append_left_eq_self.mp takings
  have tried := List.append_cancel_right attempts
  refine placing.live?_iff own (fun e mem => ?_) (fun e mem => ?_)
  · refine spares_of_alone (alone e mem) (fun attempt => unowned ?_)
    rw [← tried]
    exact List.mem_reverse.mpr (List.mem_filterMap.mpr ⟨e, mem, attempt⟩)
  · refine ungranted_of_alone (alone e mem) (fun taking => ?_)
    have taken := List.mem_reverse.mpr (List.mem_filterMap.mpr ⟨e, mem, taking⟩)
    rw [none_taken] at taken
    cases taken

/-- **A lock step that takes a free lock** leaves its hold as it is granted,
whatever the handle that was in the slot lets go of. -/
theorem exists_lease {now : Instant} {w : World} {request : LockRequest} {waited : Bool}
    {slot : Bytes} {g : Handle} (seated : w.Seated) (there : i < w.stores.length)
    (takes : w.Takes g (w.on now i (·.attempt now request waited)).1)
    (free : (w.store i).locks.live? now request.key = none)
    (alone : ∀ e ∈ w.since ((w.on now i (·.attempt now request waited)).1.place now slot g),
      e.store = i → e.what.intrudes request.key request.holder = false)
    (unowned : .owner i (request.key, request.holder) ∉ w.slots.owned) :
    ∃ lease : Hold, lease.holder = request.holder
      ∧ lease.deadline = request.hold.bind now.after?
      ∧ ∀ h, h.holder = request.holder →
        ((((w.on now i (·.attempt now request waited)).1.place now slot g).store i).locks.live? now
            request.key = some h
          ↔ h = lease ∧ lease.expired now = false) := by
  obtain ⟨lease, stored, own, deadline_eq⟩ :=
    (w.store i).locks.stored?_attempt_of_free waited free
  have taking := (w.evolves_attempt now i request waited).events.1
  have placing := (w.on now i (·.attempt now request waited)).1.evolves_place now slot g
  have stored : ((w.on now i (·.attempt now request waited)).1.store i).locks.stored? request.key
      = some lease := by
    show ((w.putBack now i _ _).store i).locks.stored? request.key = some lease
    rw [World.store_putBack there, if_pos rfl]
    exact stored
  generalize (w.on now i (·.attempt now request waited)).1 = u at *
  rw [World.since_trans taking placing.events.1] at alone
  have apart : .owner i (request.key, request.holder) ∉ u.slots.owning slot := by
    rw [takes.slots]
    exact fun mem => unowned (w.slots.mem_owned_of_mem_owning mem)
  refine ⟨lease, own, deadline_eq, fun h own => ?_⟩
  rw [live?_place_iff (seated.of_takes takes) own
    (fun e mem => alone e (List.mem_append_right _ mem)) apart, Locks.live?_eq_some_iff, stored]
  constructor
  · rintro ⟨eq, unexpired⟩
    obtain rfl := Option.some.inj eq
    exact ⟨rfl, unexpired⟩
  · rintro ⟨rfl, unexpired⟩
    exact ⟨rfl, unexpired⟩

/-- **A lock step that comes to its end** has got the lock anew: nobody held
the key under that name, or a handle would have owned the lock. -/
theorem Tenancy.lock {now : Instant} {w w' : World} {before after : List Thread} {t : Thread}
    {request : LockRequest} {slot : Bytes} {stack : List Frame}
    (tenancy : Tenancy i key holder ⟨now, w, before ++ t :: after⟩ last)
    (point : t.point? = some (.lock i request (.handle slot)))
    (turn : t.Turn now w w' (some (.going ⟨.answer (.handle (.owner i (key, holder))), stack⟩)))
    (alone : ∀ e ∈ w.since w', e.store = i → e.what.intrudes key holder = false)
    (unowned : .owner i (key, holder) ∉ w.slots.owned) :
    Tenancy i key holder
      ⟨now, w', before ++ [.going ⟨.answer (.handle (.owner i (key, holder))), stack⟩] ++ after⟩
      (some (request.hold.bind now.after?)) := by
  have seated := tenancy.balanced.seated
  have fits := tenancy.balanced.fits t (List.mem_append_right _ List.mem_cons_self)
  have balanced := tenancy.balanced.step (.turn turn before after)
  have taken : t.taken? (some (.going ⟨.answer (.handle (.owner i (key, holder))), stack⟩))
      = some (.owner i (key, holder)) := by
    unfold Thread.taken?
    rw [point]
  obtain ⟨_, _, _, waited, point', granted, same, rfl⟩ :=
    (Thread.deal_of_turn seated fits turn).of_taken taken
  rw [point] at point'
  cases point'
  obtain ⟨-, rfl, rfl, -⟩ := Handle.mk.inj same
  obtain ⟨there, claimed⟩ := fits _ point
  have admitted : ∀ h, (w.store i).locks.live? now request.key = some h →
      h.holder = request.holder := (Locks.of_granted granted).1
  have free : (w.store i).locks.live? now request.key = none := by
    refine Option.eq_none_iff_forall_ne_some.mpr (fun h live => unowned ?_)
    exact (tenancy.owned h live (admitted h live)).1
  have takes := World.takes_attempt there claimed granted
  obtain ⟨lease, own, deadline_eq, live_iff⟩ := exists_lease seated there takes free alone unowned
  have single : ((w.on now i (·.attempt now request waited)).1.place now slot
      (.owner i (request.key, request.holder))).slots.owned.count
        (.owner i (request.key, request.holder)) = 1 := by
    rw [World.slots_place, takes.slots]
    exact w.slots.count_owned_insert rfl unowned
  refine ⟨balanced, Nat.le_of_eq single, fun h live own => ?_, fun _ => ⟨_, rfl, fun lasting => ?_⟩⟩
  · obtain ⟨rfl, -⟩ := (live_iff h own).mp live
    rw [deadline_eq]
    exact ⟨List.count_pos_iff.mp (Nat.lt_of_lt_of_eq Nat.zero_lt_one single.symm), rfl⟩
  · rw [← deadline_eq] at lasting
    exact ⟨lease, (live_iff lease own).mpr ⟨rfl, Hold.expired_eq_false_iff.mpr lasting⟩, own⟩

/-- **Every scene of such a session is one of a tenancy.** -/
theorem Tenure.tenancy (tenure : Tenure i key holder s last) :
    Tenancy i key holder s last := by
  induction tenure with
  | start hash settings environment now =>
    refine ⟨balanced_start .., Nat.zero_le 1, fun h live => ?_, fun mem => nomatch mem⟩
    have free : ((World.new hash settings environment).store i).locks.live? now key = none := by
      cases i with
      | zero => exact Store.live?_new ..
      | succ i => exact World.live?_of_length_le (Nat.le_add_left 1 i)
    change ((World.new hash settings environment).store i).locks.live? now key = some h at live
    rw [free] at live
    cases live
  | step _ step alone untaken ih => exact ih.step step alone untaken
  | lock _ point turn alone unowned ih => exact ih.lock point turn alone unowned

/-- **Such a session may go on as it likes**, as long as nobody else gets or
loses the lock and no lock step takes it while a handle owns it. -/
theorem Tenure.next (tenure : Tenure i key holder s last) (step : s.Step s')
    (alone : ∀ e ∈ s.since s', e.store = i → e.what.intrudes key holder = false)
    (unowned : (∃ e ∈ s.since s', e.taking? = some (.owner i (key, holder))) →
      .owner i (key, holder) ∉ s.world.slots.owned) :
    ∃ last', Tenure i key holder s' last' := by
  by_cases taken : ∃ e ∈ s.since s', e.taking? = some (.owner i (key, holder))
  · have not_owned := unowned taken
    have balanced := tenure.tenancy.balanced
    have mem_takings := List.mem_filterMap.mpr taken
    have added := World.takings_eq_since step.events
    cases step with
    | begin | tick =>
      change _ ∈ (s.since s).filterMap _ at mem_takings
      rw [since_self] at mem_takings
      cases mem_takings
    | @turn now w w' t t' turn before after =>
      have fits := balanced.fits t (List.mem_append_right _ List.mem_cons_self)
      have deal := Thread.deal_of_turn balanced.seated fits turn
      rw [(deal.balanced balanced.seated fits balanced.balance).2.2.1] at added
      have toList_eq := List.append_cancel_right added
      have mem := List.mem_reverse.mpr mem_takings
      change _ ∈ (List.filterMap Event.taking? (w.since w')).reverse at mem
      rw [← toList_eq] at mem
      have taken := Option.mem_toList.mp mem
      obtain ⟨j, request, slot, -, point, -, same, -⟩ := deal.of_taken taken
      obtain ⟨rfl, -⟩ := Handle.mk.inj same
      unfold Thread.taken? at taken
      split at taken
      · obtain rfl := Option.some.inj taken
        exact ⟨_, .lock tenure point turn alone not_owned⟩
      · cases taken
  · exact ⟨last, .step tenure step alone (fun e mem eq => taken ⟨e, mem, eq⟩)⟩

/-- **An owning handle means the lock is held**, wherever the handle has been
moved to and whoever else waits for the key or has had it in between.

A look at the key's lock shows the holder exactly if there is a handle in
some slot that owns the lock, and the deadline that its lock step obtained is
absent or has not passed. What the look shows is up to that very deadline.
And this holds of every way to go on: a step leads to such a scene again,
unless by it somebody else gets or loses the lock or a lock step takes it
while a handle owns it. -/
theorem Tenure.holds_iff (tenure : Tenure i key holder s last) :
    ((∃ h, ((s.world.store i).look s.now key).answer = some h ∧ h.holder = holder)
        ↔ (∃ slot, s.world.slots.get? slot = some (.owner i (key, holder)))
          ∧ ∃ deadline, last = some deadline ∧ ∀ d, deadline = some d → s.now ≤ d)
      ∧ (∀ h, ((s.world.store i).look s.now key).answer = some h → h.holder = holder →
        last = some h.deadline)
      ∧ ∀ s', s.Step s' →
        (∀ e ∈ s.since s', e.store = i → e.what.intrudes key holder = false) →
        ((∃ e ∈ s.since s', e.taking? = some (.owner i (key, holder))) →
          ¬ ∃ slot, s.world.slots.get? slot = some (.owner i (key, holder))) →
        ∃ last', Tenure i key holder s' last' := by
  have tenancy := tenure.tenancy
  have owned_iff : .owner i (key, holder) ∈ s.world.slots.owned
      ↔ ∃ slot, s.world.slots.get? slot = some (.owner i (key, holder)) :=
    KeyMap.mem_owned_iff rfl
  rw [Store.answer_look, ← owned_iff]
  refine ⟨⟨?_, ?_⟩, fun h live own => (tenancy.owned h live own).2,
    fun s' step alone unowned => tenure.next step alone unowned⟩
  · rintro ⟨h, live, own⟩
    obtain ⟨owned, last_eq⟩ := tenancy.owned h live own
    have unexpired := (Locks.live?_eq_some_iff.mp live).2
    exact ⟨owned, h.deadline, last_eq, Hold.expired_eq_false_iff.mp unexpired⟩
  · rintro ⟨owned, deadline, last_eq, lasting⟩
    obtain ⟨deadline', last_eq', held⟩ := tenancy.held owned
    rw [last_eq] at last_eq'
    obtain rfl := Option.some.inj last_eq'
    exact held lasting

/-- A lock step that asks for five nanoseconds. -/
def asking : Thread :=
  .going ⟨.arrive (.lock 0 ⟨[5], [10], some 5, none, .handle⟩ (.handle [1])), []⟩

/-- It is about to be granted its lock. -/
def leasing : Scene := ⟨0, .new (fun _ => 0) {} (fun _ => none), [] ++ asking :: []⟩

/-- The handle has been moved to another slot, somebody waits for the lock,
and it is the last instant of the hold. -/
def leased : Scene :=
  let s := (leasing.act 0).act 0
  let s := { s with threads := [.going ⟨.perform (.operation (.handleMove [1] [2])), []⟩] }
  let s := (s.act 0).act 0
  let s := { s with threads := [.going ⟨.perform (.lock [3] [5] [20] none), []⟩] }
  { (s.act 0).act 0 with now := 5 }

theorem holds_iff_of_leased :
    (∃ h, ((leased.world.store 0).look 5 [5]).answer = some h ∧ h.holder = [10])
      ∧ leased.world.slots.get? [2] = some (.owner 0 ([5], [10]))
      ∧ ¬ ∃ h, ((leased.world.store 0).look 6 [5]).answer = some h ∧ h.holder = [10] := by
  have asks : (Thread.going ⟨.perform (.lock [1] [5] [10] (some 5)), []⟩).Turn 0
      leasing.world leasing.world (some asking) := .move rfl
  have asked : Tenure 0 [5] [10] leasing none := by
    refine .step (.step (.start (fun _ => 0) {} (fun _ => none) 0) (.begin _ _) ?_ ?_)
      (.turn asks [] []) ?_ ?_
    all_goals decide +kernel
  have locked : Tenure 0 [5] [10] (leasing.act 0) (some (some 5)) :=
    .lock asked rfl (Thread.turn_iff_act.mpr rfl) (by decide +kernel) (by decide +kernel)
  have lasts : Tenure 0 [5] [10] leased (some (some 5)) := by
    refine .step (.step (.step (.step (.step (.step (.step (.step locked
      (step_act (n := 0) ?_) ?_ ?_) (.begin _ _) ?_ ?_)
      (step_act (n := 0) ?_) ?_ ?_) (step_act (n := 0) ?_) ?_ ?_) (.begin _ _) ?_ ?_)
      (step_act (n := 0) ?_) ?_ ?_) (step_act (n := 0) ?_) ?_ ?_) (.tick _ ?_) ?_ ?_
    all_goals decide +kernel
  have lapsed : Tenure 0 [5] [10] { leased with now := 6 } (some (some 5)) := by
    refine .step lasts (.tick _ ?_) ?_ ?_
    all_goals decide +kernel
  have moved : leased.world.slots.get? [2] = some (.owner 0 ([5], [10])) := by decide +kernel
  refine ⟨lasts.holds_iff.1.mpr ⟨⟨[2], moved⟩, some 5, rfl, ?_⟩, moved, fun held => ?_⟩
  · rintro d ⟨⟩
    exact Int.le_refl 5
  · obtain ⟨-, _, eq, lasting⟩ := lapsed.holds_iff.1.mp held
    cases eq
    exact absurd (lasting 5 rfl) (by decide)

end Scene

end AdvisoryStore
