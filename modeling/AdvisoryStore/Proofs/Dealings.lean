import Mathlib.Data.List.Nodup
import AdvisoryStore.Proofs.Exclusion

/-!
# What is dealt to handles and by them

A lock that is taken for a handle is the handle's until it is given back,
once, whatever becomes of the handle in between. Three lists tell how that
goes: the locks that were taken for handles (`World.takings`), the attempts
of handles to give a lock back (`World.attempts`), and the handles that own
a lock (`KeyMap.owned`). The first two are read off what happened in the
stores, the last off the slots.

Most of what is done deals with no handle at all (`World.Undealt`). The four
operations on slots leave the takings alone, and each of them makes attempts
for exactly the handles that lose what they own by it (`World.Gives`):
`World.gives_place`, `World.yields_move`, `World.yields_handleRelease` and
`World.yields_handleDestroy` say which these are, and the last three that all
other owners are still there.
-/

namespace AdvisoryStore

/-! ## What happened on behalf of handles -/

namespace Happening

/-- The lock that was taken for a handle, by key and holder. -/
def taking? : Happening → Option (Bytes × Bytes)
  | acquired .handle key holder _ => some (key, holder)
  | reentered .handle key holder => some (key, holder)
  | _ => none

/-- The lock that a handle tried to give back, whether it still had it or
not. -/
def attempt? : Happening → Option (Bytes × Bytes)
  | released .handle key holder => some (key, holder)
  | refused .handle key holder => some (key, holder)
  | _ => none

/-- **Something that no handle has to do with.** -/
structure Unhandled (what : Happening) : Prop where
  taking : what.taking? = none
  attempt : what.attempt? = none

end Happening

/-- A handle that owns a lock. -/
def Handle.owner (store : Nat) (lock : Bytes × Bytes) : Handle := ⟨store, lock.1, lock.2, true⟩

/-- A handle that owns a lock is known by its store, key and holder. -/
theorem Handle.eq_owner {h : Handle} (owns : h.owns = true) :
    h = .owner h.store (h.key, h.holder) := by
  rw [owner, ← owns]

/-- The handle that an event tells to have got its lock. -/
def Event.taking? (e : Event) : Option Handle := e.what.taking?.map (Handle.owner e.store)

/-- The handle that an event tells to have tried to give its lock back. -/
def Event.attempt? (e : Event) : Option Handle := e.what.attempt?.map (Handle.owner e.store)

/-! ## Slots -/

namespace KeyMap

variable {α : Type}

/-- An entry, and the rest. -/
theorem entries_perm_erase {m : KeyMap α} {key : Bytes} {value : α}
    (found : m.get? key = some value) :
    m.entries.Perm ((key, value) :: (m.erase key).entries) := by
  have mem := get?_eq_some_iff.mp found
  have absent : (key, value) ∉ (m.erase key).entries :=
    fun mem => m.not_mem_keys_erase key (List.mem_map.mpr ⟨_, mem, rfl⟩)
  refine (List.perm_ext_iff_of_nodup m.nodup.of_map
    (List.nodup_cons.mpr ⟨absent, (m.erase key).nodup.of_map⟩)).mpr (fun e => ?_)
  rw [List.mem_cons, erase, filter, List.mem_filter, decide_eq_true_eq]
  constructor
  · intro e_mem
    by_cases same : e.1 = key
    · -- a key occurs once
      subst same
      rw [get?_eq_some_iff.mpr e_mem] at found
      exact .inl (Prod.ext rfl (Option.some.inj found))
    · exact .inr ⟨e_mem, same⟩
  · rintro (rfl | ⟨e_mem, -⟩)
    · exact mem
    · exact e_mem

/-- **The handles in slots that own a lock.** -/
def owned (slots : KeyMap Handle) : List Handle :=
  (slots.entries.map Prod.snd).filter Handle.owns

/-- The handle in a slot, if it owns a lock. -/
def owning (slots : KeyMap Handle) (slot : Bytes) : List Handle :=
  (slots.get? slot).toList.filter Handle.owns

variable {slots : KeyMap Handle} {slot : Bytes}

/-- What is owned in a slot is what the handle in it owns. -/
theorem owning_of_get? {h : Handle} (found : slots.get? slot = some h) :
    slots.owning slot = [h].filter Handle.owns := by
  rw [owning, found, Option.toList_some]

theorem owning_of_get?_eq_none (absent : slots.get? slot = none) : slots.owning slot = [] := by
  rw [owning, absent]
  rfl

/-- Nothing is owned in a slot, or there is a handle that owns a lock. -/
theorem bare_or_owns (slots : KeyMap Handle) (slot : Bytes) :
    slots.owning slot = [] ∨ ∃ h, slots.get? slot = some h ∧ h.owns = true := by
  cases found : slots.get? slot with
  | none => exact .inl (owning_of_get?_eq_none found)
  | some h =>
    cases owns : h.owns with
    | false =>
      refine .inl ?_
      rw [owning_of_get? found, List.filter_singleton, owns]
      rfl
    | true => exact .inr ⟨h, rfl, owns⟩

/-- **Emptying a slot takes away what was in it.** -/
theorem owned_perm_erase (slots : KeyMap Handle) (slot : Bytes) :
    slots.owned.Perm (slots.owning slot ++ (slots.erase slot).owned) := by
  cases found : slots.get? slot with
  | none =>
    rw [owning_of_get?_eq_none found, erase_of_get?_eq_none found, List.nil_append]
  | some h =>
    have all := ((entries_perm_erase found).map Prod.snd).filter Handle.owns
    rwa [List.map_cons, ← List.singleton_append, List.filter_append, ← owning_of_get? found] at all

/-- A handle that owns a lock is owned when it is put into a slot, and what was in the
slot is not. -/
theorem owned_insert (slots : KeyMap Handle) (slot : Bytes) (h : Handle) :
    (slots.insert slot h).owned = [h].filter Handle.owns ++ (slots.erase slot).owned :=
  List.filter_append [h] _

/-- **Filling a slot takes away what was in it.** -/
theorem owned_perm_insert (slots : KeyMap Handle) (slot : Bytes) (h : Handle) :
    (slots.owning slot ++ (slots.insert slot h).owned).Perm
      ([h].filter Handle.owns ++ slots.owned) := by
  rw [owned_insert]
  refine List.perm_append_comm_assoc .. |>.trans ?_
  exact (slots.owned_perm_erase slot).symm.append_left _

/-- **What is moved is owned as before.** -/
theorem owned_perm_move {source target : Bytes} {h left : Handle}
    (found : slots.get? source = some h) (apart : source ≠ target) (bare : left.owns = false) :
    (slots.owning target ++ ((slots.insert target h).insert source left).owned).Perm
      slots.owned := by
  have kept : (slots.erase target).get? source = some h := by
    rw [get?_erase, if_neg apart, found]
  have rest : ((slots.insert target h).erase source).owned
      = [h].filter Handle.owns ++ ((slots.erase target).erase source).owned := by
    have stays : ((target, h) :: (slots.erase target).entries).filter
        (fun e => decide (e.1 ≠ source))
        = (target, h) :: (slots.erase target).entries.filter (fun e => decide (e.1 ≠ source)) :=
      List.filter_cons_of_pos (decide_eq_true (Ne.symm apart))
    show ((List.filter (fun e => decide (e.1 ≠ source))
      ((target, h) :: (slots.erase target).entries)).map Prod.snd).filter Handle.owns = _
    rw [stays, List.map_cons]
    exact List.filter_append [h] _
  have all := (slots.erase target).owned_perm_erase source
  rw [owned_insert, List.filter_singleton, bare, rest, ← owning_of_get? kept]
  exact ((slots.owned_perm_erase target).trans (all.append_left _)).symm

end KeyMap

/-! ## The world -/

namespace World

variable {w w' w'' : World} {now : Instant} {i : Nat}

/-- **The locks that were taken for handles**, newest first. -/
def takings (w : World) : List Handle := w.events.filterMap Event.taking?

/-- **The locks that handles tried to give back**, newest first. -/
def attempts (w : World) : List Handle := w.events.filterMap Event.attempt?

/-- The stores that are turned to are there. -/
structure Turned (w : World) : Prop where
  current : w.current < w.stores.length
  shared : ∀ i, w.shared = some i → i < w.stores.length

/-- **No handle was dealt with.** -/
structure Undealt (w w' : World) : Prop where
  slots : w'.slots = w.slots
  takings : w'.takings = w.takings
  attempts : w'.attempts = w.attempts
  length : w.stores.length ≤ w'.stores.length
  turned : w.Turned → w'.Turned

/-- **Locks were given back**, or it was tried, and none was taken. -/
structure Gives (given : List Handle) (w w' : World) : Prop where
  takings : w'.takings = w.takings
  attempts : w'.attempts = given ++ w.attempts
  length : w'.stores.length = w.stores.length
  current : w'.current = w.current
  shared : w'.shared = w.shared

/-- **A lock was taken for a handle** that is in no slot yet. -/
structure Takes (h : Handle) (w w' : World) : Prop where
  takings : w'.takings = h :: w.takings
  attempts : w'.attempts = w.attempts
  slots : w'.slots = w.slots
  length : w'.stores.length = w.stores.length
  current : w'.current = w.current
  shared : w'.shared = w.shared

theorem Undealt.refl (w : World) : w.Undealt w := ⟨rfl, rfl, rfl, Nat.le_refl _, id⟩

/-- What deals with no handle at every step deals with none. -/
theorem Undealt.trans (h : w.Undealt w') (more : w'.Undealt w'') : w.Undealt w'' where
  slots := more.slots.trans h.slots
  takings := more.takings.trans h.takings
  attempts := more.attempts.trans h.attempts
  length := Nat.le_trans h.length more.length
  turned turned := more.turned (h.turned turned)

/-- Giving a lock back turns to no other store. -/
theorem Gives.turned {given : List Handle} (gives : w.Gives given w') (turned : w.Turned) :
    w'.Turned := by
  refine ⟨?_, fun i shared => ?_⟩
  · rw [gives.current, gives.length]
    exact turned.current
  · rw [gives.shared] at shared
    rw [gives.length]
    exact turned.shared i shared

/-! ## One operation of a store -/

section

variable {α : Type} {f : Store → Outcome Store α}

/-- What an operation of a store adds to what is read off the events. -/
theorem filterMap_events_on {β : Type} (there : i < w.stores.length) (read : Event → Option β) :
    (w.on now i f).1.events.filterMap read
      = ((f (w.store i)).happened.filterMap (fun what => read ⟨i, now, what⟩)).reverse
        ++ w.events.filterMap read := by
  show (w.putBack now i (f (w.store i)).after _).events.filterMap read = _
  rw [events_putBack there, List.filterMap_append, List.filterMap_reverse, List.filterMap_map]
  rfl

/-- An operation of a store takes for handles what it tells of. -/
theorem takings_on (there : i < w.stores.length) :
    (w.on now i f).1.takings
      = (((f (w.store i)).happened.filterMap Happening.taking?).map (Handle.owner i)).reverse
        ++ w.takings := by
  rw [takings, filterMap_events_on there, List.map_filterMap]
  rfl

/-- It tries to give back for handles what it tells of. -/
theorem attempts_on (there : i < w.stores.length) :
    (w.on now i f).1.attempts
      = (((f (w.store i)).happened.filterMap Happening.attempt?).map (Handle.owner i)).reverse
        ++ w.attempts := by
  rw [attempts, filterMap_events_on there, List.map_filterMap]
  rfl

/-- All that an operation of a store changes are the stores and the events. -/
theorem on_eq (w : World) (now : Instant) (i : Nat) (f : Store → Outcome Store α) :
    (w.on now i f).1
      = { w with stores := (w.on now i f).1.stores, events := (w.on now i f).1.events } := by
  show w.putBack now i _ _ = _
  unfold on putBack
  split <;> rfl

/-- No operation of a store gets at the slots. -/
theorem slots_on : (w.on now i f).1.slots = w.slots := by rw [on_eq]

/-- An operation of a store that takes nothing for handles gives back what it tries
to. -/
theorem gives_on {given : List Handle} (takings : (w.on now i f).1.takings = w.takings)
    (attempts : (w.on now i f).1.attempts = given ++ w.attempts) :
    w.Gives given (w.on now i f).1 where
  takings := takings
  attempts := attempts
  length := length_putBack ..
  current := by rw [on_eq]
  shared := by rw [on_eq]

/-- **What no handle has to do with deals with none.** -/
theorem undealt_on (unhandled : ∀ what ∈ (f (w.store i)).happened, what.Unhandled) :
    w.Undealt (w.on now i f).1 := by
  have gives : w.Gives [] (w.on now i f).1 := by
    by_cases there : i < w.stores.length
    · have no_taking := List.filterMap_eq_nil_iff.mpr (fun what mem => (unhandled what mem).taking)
      have no_attempt :=
        List.filterMap_eq_nil_iff.mpr (fun what mem => (unhandled what mem).attempt)
      refine gives_on ?_ ?_
      · rw [takings_on there, no_taking]
        rfl
      · rw [attempts_on there, no_attempt]
        rfl
    · have same : (w.on now i f).1 = w := putBack_of_not_lt there now _ _
      exact gives_on (by rw [same]) (by rw [same]; rfl)
  exact ⟨slots_on, gives.takings, gives.attempts, Nat.le_of_eq gives.length.symm, gives.turned⟩

end

end World

/-! ## What no handle has to do with -/

/-- Whether an operation is one on slots. -/
def Operation.isOnSlots : Operation → Bool
  | handleRelease _ | handleDestroy _ | handleMove .. => true
  | _ => false

namespace Locks

variable (l : Locks) (now : Instant)

/-- **Looking at a key has nothing to do with handles**, nor has anything that is done
on behalf of others. -/
theorem unhandled_consult (key : Bytes) :
    ∀ what ∈ (l.consult now key).happened, what.Unhandled := by
  intro what mem
  obtain ⟨heldBy, rfl⟩ := of_mem_consult mem
  exact ⟨rfl, rfl⟩

/-- A lock that is not tried for on behalf of a handle is not taken for one. -/
theorem unhandled_attempt {r : LockRequest} (other : r.claimant ≠ .handle) (waited : Bool) :
    ∀ what ∈ (l.attempt now r waited).happened, what.Unhandled := by
  intro what mem
  obtain ⟨key, holder, hold, giveUp, claimant⟩ := r
  obtain ⟨heldBy, rfl⟩ | rfl | rfl | ⟨heldBy, rfl⟩ := of_mem_attempt mem
  · exact ⟨rfl, rfl⟩
  · cases claimant with
    | handle => exact absurd rfl other
    | caller | run => exact ⟨rfl, rfl⟩
  · cases claimant with
    | handle => exact absurd rfl other
    | caller | run => exact ⟨rfl, rfl⟩
  · exact ⟨rfl, rfl⟩

theorem unhandled_awaitEnd (key : Bytes) (generation : Nat) (giveUp : Option Instant) :
    ∀ what ∈ (l.awaitEnd now key generation giveUp).happened, what.Unhandled := by
  intro what mem
  obtain ⟨heldBy, rfl⟩ | rfl := of_mem_awaitEnd mem <;> exact ⟨rfl, rfl⟩

theorem unhandled_sweep : ∀ what ∈ (l.sweep now).happened, what.Unhandled := by
  intro what mem
  obtain ⟨key, heldBy, rfl⟩ := of_mem_sweep mem
  exact ⟨rfl, rfl⟩

end Locks

namespace Store

variable (s : Store) (now : Instant)

/-- What one who is no handle gives back is no handle's. -/
theorem unhandled_of_given {claimant : Claimant} (other : claimant ≠ .handle) {key holder : Bytes}
    {what : Happening} (given : (∃ heldBy, what = .expired key heldBy)
      ∨ what = .released claimant key holder ∨ what = .refused claimant key holder
      ∨ what = .lost key holder) : what.Unhandled := by
  obtain ⟨heldBy, rfl⟩ | rfl | rfl | rfl := given
  · exact ⟨rfl, rfl⟩
  · cases claimant with
    | handle => exact absurd rfl other
    | caller | run => exact ⟨rfl, rfl⟩
  · cases claimant with
    | handle => exact absurd rfl other
    | caller | run => exact ⟨rfl, rfl⟩
  · exact ⟨rfl, rfl⟩

/-- A release that no handle makes is no attempt of one. -/
theorem unhandled_release {claimant : Claimant} (other : claimant ≠ .handle) (key holder : Bytes) :
    ∀ what ∈ (s.release now claimant key holder).happened, what.Unhandled :=
  fun _ mem => unhandled_of_given other
    ((Locks.of_mem_release mem).imp_right (Or.imp_right .inl))

/-- A run that lets go of its lock has no handle. -/
theorem unhandled_relinquish {claimant : Claimant} (other : claimant ≠ .handle)
    (key holder : Bytes) :
    ∀ what ∈ (s.relinquish now claimant key holder).happened, what.Unhandled :=
  fun _ mem => unhandled_of_given other (of_mem_relinquish mem)

theorem unhandled_read (key : Bytes) : ∀ what ∈ (s.read key).happened, what.Unhandled := by
  intro what mem
  obtain rfl | rfl := of_mem_read mem <;> exact ⟨rfl, rfl⟩

/-- A write takes no lock, and gives none back. -/
theorem unhandled_write (claimant : Claimant) (key : Bytes) (content : Content)
    (holder : Bytes) :
    ∀ what ∈ (s.write now claimant key content holder).happened, what.Unhandled := by
  intro what mem
  obtain ⟨heldBy, rfl⟩ | rfl | rfl := of_mem_write mem <;> exact ⟨rfl, rfl⟩

/-- No request is made on behalf of a handle. -/
theorem unhandled_serve (r : Request) : ∀ what ∈ (s.serve now r).happened, what.Unhandled := by
  intro what mem
  obtain ⟨topic, rfl⟩ | ⟨key, heldBy, rfl⟩ := of_mem_serve mem <;> exact ⟨rfl, rfl⟩

theorem unhandled_inspectLock (key : Bytes) (version : Nat) (keepAlive : Bool) :
    ∀ what ∈ (s.inspectLock now key version keepAlive).happened, what.Unhandled := by
  intro what mem
  obtain ⟨heldBy, rfl⟩ := of_mem_inspectLock mem
  exact ⟨rfl, rfl⟩

end Store

namespace World

variable (w : World) (now : Instant)

/-- A remark that is not about handles deals with none. -/
theorem undealt_note (i : Nat) {what : Happening} (unhandled : what.Unhandled) :
    w.Undealt (w.note now i what) :=
  undealt_on (List.forall_mem_singleton.mpr unhandled)

theorem undealt_look (i : Nat) (key : Bytes) : w.Undealt (w.on now i (·.look now key)).1 :=
  undealt_on ((w.store i).locks.unhandled_consult now key)

theorem undealt_permits (i : Nat) (key holder : Bytes) :
    w.Undealt (w.on now i (·.permits now key holder)).1 :=
  undealt_on ((w.store i).locks.unhandled_consult now key)

theorem undealt_beginWait (i : Nat) (key : Bytes) :
    w.Undealt (w.on now i (·.beginWait now key)).1 :=
  undealt_on (List.forall_mem_cons.mpr ⟨⟨rfl, rfl⟩, (w.store i).locks.unhandled_consult now key⟩)

theorem undealt_awaitEnd (i : Nat) (key : Bytes) (generation : Nat) (giveUp : Option Instant) :
    w.Undealt (w.on now i (·.awaitEnd now key generation giveUp)).1 :=
  undealt_on ((w.store i).locks.unhandled_awaitEnd now key generation giveUp)

/-- Who tries for a lock for itself deals with no handle. -/
theorem undealt_attempt (i : Nat) {request : LockRequest} (other : request.claimant ≠ .handle)
    (waited : Bool) : w.Undealt (w.on now i (·.attempt now request waited)).1 :=
  undealt_on ((w.store i).locks.unhandled_attempt now other waited)

/-- Who gives up on a lock deals with no handle, whoever it is. -/
theorem undealt_of_gaveUp {w : World} {now : Instant} {i : Nat} {request : LockRequest}
    {waited : Bool} (gaveUp : (w.on now i (·.attempt now request waited)).2 = .gaveUp) :
    w.Undealt (w.on now i (·.attempt now request waited)).1 := by
  obtain ⟨heldBy, eq⟩ := Locks.attempt_of_gaveUp (l := (w.store i).locks) gaveUp
  refine undealt_on ?_
  show ∀ what ∈ ((w.store i).locks.attempt now request waited).happened, what.Unhandled
  rw [eq]
  exact List.forall_mem_singleton.mpr ⟨rfl, rfl⟩

/-- Who lets go of a lock of its own deals with no handle. -/
theorem undealt_relinquish (i : Nat) {claimant : Claimant} (other : claimant ≠ .handle)
    (key holder : Bytes) : w.Undealt (w.relinquish now i claimant key holder) :=
  undealt_on ((w.store i).unhandled_relinquish now other key holder)

theorem undealt_read (i : Nat) (key : Bytes) : w.Undealt (w.on now i (·.read key)).1 :=
  undealt_on ((w.store i).unhandled_read key)

/-- A write deals with no handle, be it refused or not. -/
theorem undealt_write (i : Nat) (claimant : Claimant) (key : Bytes) (content : Content)
    (holder : Bytes) : w.Undealt (w.on now i (·.write now claimant key content holder)).1 :=
  undealt_on ((w.store i).unhandled_write now claimant key content holder)

/-- A further store is one more that may be turned to. -/
theorem Turned.more {w w' : World} (turned : w.Turned) (length : w.stores.length ≤ w'.stores.length)
    (current : w'.current < w'.stores.length)
    (shared : ∀ i, w'.shared = some i → w.shared = some i ∨ i < w'.stores.length) :
    w'.Turned :=
  ⟨current, fun i eq => (shared i eq).elim
    (fun eq => Nat.lt_of_lt_of_le (turned.shared i eq) length) id⟩

/-- A store that is added has no handles. -/
theorem undealt_addStore (settings : StoreSettings) : w.Undealt (w.addStore settings) where
  slots := rfl
  takings := rfl
  attempts := rfl
  length := by simp [addStore]
  turned turned := turned.more (by simp [addStore]) (by simp [addStore]) (fun _ eq => .inl eq)

/-- Turning to the shared store leaves all handles, and the store turned to
is there. -/
theorem undealt_turnToShared : w.Undealt (w.turnToShared now).1 := by
  unfold turnToShared
  split
  · next i shared =>
    exact ⟨rfl, rfl, rfl, Nat.le_refl _,
      fun turned => ⟨turned.shared i shared, turned.shared⟩⟩
  · split
    · exact .refl w
    · next settings _ =>
      have shares : (w.addStore settings).Undealt
          { w.addStore settings with shared := some w.stores.length } := by
        refine ⟨rfl, rfl, rfl, Nat.le_refl _, fun turned => ⟨turned.current, ?_⟩⟩
        rintro i ⟨⟩
        exact turned.current
      have told : (Happening.created settings.shards).Unhandled := ⟨rfl, rfl⟩
      exact ((w.undealt_addStore settings).trans shares).trans
        (undealt_note _ now w.stores.length told)

/-- A change under a lock is made without a handle. -/
theorem undealt_tryChange (key holder : Bytes) (fault : Option Fault) :
    w.Undealt (w.tryChange now key holder fault).1 := by
  have asked := w.undealt_permits now w.current key holder
  unfold tryChange
  split
  · next eq => rwa [eq] at asked
  · next u eq =>
    rw [eq] at asked
    have counted : u.Undealt { u with changes := u.changes + 1 } :=
      ⟨rfl, rfl, rfl, Nat.le_refl _, fun turned => ⟨turned.current, turned.shared⟩⟩
    cases fault <;> exact asked.trans counted

/-- **Whatever else is done at once deals with no handle.** -/
theorem undealt_perform {o : Operation} (apart : o.isOnSlots = false) :
    w.Undealt (w.perform now o).1 := by
  cases o with
  | handleRelease | handleDestroy | handleMove => cases apart
  | release key holder =>
    have released : w.Undealt (w.on now w.current (·.release now .caller key holder)).1 :=
      undealt_on ((w.store w.current).unhandled_release now (by decide) key holder)
    rw [perform]
    split <;> next eq => rwa [eq] at released
  | isHeld key => exact w.undealt_look now w.current key
  | isHeldBy key holder => exact w.undealt_look now w.current key
  | look key =>
    have looked := w.undealt_look now w.current key
    rw [perform]
    split <;> next eq => rwa [eq] at looked
  | handleInfo slot =>
    rw [perform]
    split <;> exact .refl w
  | tryChange key holder fault => exact w.undealt_tryChange now key holder fault
  | sweep =>
    have swept : w.Undealt (w.on now w.current (·.sweep now)).1 :=
      undealt_on ((w.store w.current).locks.unhandled_sweep now)
    exact swept
  | clear =>
    have cleared : w.Undealt (w.on now w.current (·.clearLocks)).1 :=
      undealt_on (List.forall_mem_singleton.mpr ⟨rfl, rfl⟩)
    exact cleared
  | read key =>
    have read := w.undealt_read now w.current key
    rw [perform]
    split <;> next eq => rwa [eq] at read
  | write key content holder =>
    have wrote := w.undealt_write now w.current .caller key content holder
    rw [perform]
    split <;> next eq => rwa [eq] at wrote
  | serve request =>
    have served : w.Undealt (w.on now w.current (·.serve now request)).1 :=
      undealt_on ((w.store w.current).unhandled_serve now request)
    exact served
  | inspect key version keepAlive =>
    have asked : w.Undealt (w.on now w.current (·.inspectLock now key version keepAlive)).1 :=
      undealt_on ((w.store w.current).unhandled_inspectLock now key version keepAlive)
    exact asked
  | newStore settings => exact w.undealt_addStore settings
  | shared => exact w.undealt_turnToShared now
  | setEnvironment env =>
    exact ⟨rfl, rfl, rfl, Nat.le_refl _, fun turned => ⟨turned.current, turned.shared⟩⟩
  | forgetShared =>
    refine ⟨rfl, rfl, rfl, Nat.le_refl _, fun turned => ⟨turned.current, fun i eq => ?_⟩⟩
    cases eq
  | use i =>
    rw [perform]
    split
    · next there =>
      exact ⟨rfl, rfl, rfl, Nat.le_refl _, fun turned => ⟨there, turned.shared⟩⟩
    · exact .refl w
  | heldCount | counters | contains | recordTotal | settings | metrics | highlights =>
    exact .refl w

end World

/-! ## What handles do -/

namespace Store

variable (s : Store) (now : Instant) (key holder : Bytes)

/-- **A handle's release is one attempt**, whether it is refused or not. -/
theorem attempts_release :
    (s.release now .handle key holder).happened.filterMap Happening.attempt? = [(key, holder)]
      ∧ (s.release now .handle key holder).happened.filterMap Happening.taking? = [] := by
  have no_taking : ∀ what ∈ (s.release now .handle key holder).happened, what.taking? = none := by
    intro what mem
    obtain ⟨heldBy, rfl⟩ | rfl | rfl := Locks.of_mem_release mem <;> rfl
  refine ⟨?_, List.filterMap_eq_nil_iff.mpr no_taking⟩
  show (s.locks.release now .handle key holder).happened.filterMap Happening.attempt? = _
  by_cases own : ∃ h, s.locks.live? now key = some h ∧ h.holder = holder
  · obtain ⟨h, live, own⟩ := own
    rw [Locks.release_of_own live own]
    rfl
  · have other : ∀ h, s.locks.live? now key = some h → h.holder ≠ holder :=
      fun h live eq => own ⟨h, live, eq⟩
    have looked : (s.locks.consult now key).happened.filterMap Happening.attempt? = [] :=
      List.filterMap_eq_nil_iff.mpr
        (fun what mem => (s.locks.unhandled_consult now key what mem).attempt)
    rw [Locks.release_of_not_own other, List.filterMap_append, looked]
    rfl

/-- Letting go for a handle is one attempt as well. -/
theorem attempts_relinquish :
    (s.relinquish now .handle key holder).happened.filterMap Happening.attempt? = [(key, holder)]
      ∧ (s.relinquish now .handle key holder).happened.filterMap Happening.taking? = [] := by
  have released := s.attempts_release now key holder
  unfold relinquish
  generalize s.release now .handle key holder = outcome at released
  obtain ⟨after, happened, answer⟩ := outcome
  cases answer with
  | ok => exact released
  | error =>
    rw [List.filterMap_append, List.filterMap_append, released.1, released.2]
    exact ⟨rfl, rfl⟩

/-- **A lock that is granted to a handle is one that was taken for it.** -/
theorem takings_attempt {r : LockRequest} (claimed : r.claimant = .handle) {waited : Bool}
    (granted : (s.attempt now r waited).answer = .granted) :
    (s.attempt now r waited).happened.filterMap Happening.taking? = [(r.key, r.holder)]
      ∧ (s.attempt now r waited).happened.filterMap Happening.attempt? = [] := by
  have no_attempt : ∀ what ∈ (s.attempt now r waited).happened, what.attempt? = none := by
    intro what mem
    obtain ⟨heldBy, rfl⟩ | rfl | rfl | ⟨heldBy, rfl⟩ := Locks.of_mem_attempt mem <;> rfl
  refine ⟨?_, List.filterMap_eq_nil_iff.mpr no_attempt⟩
  show (s.locks.attempt now r waited).happened.filterMap Happening.taking? = _
  have granted : (s.locks.attempt now r waited).answer = .granted := granted
  cases live : s.locks.live? now r.key with
  | none =>
    have looked : (s.locks.consult now r.key).happened.filterMap Happening.taking? = [] :=
      List.filterMap_eq_nil_iff.mpr
        (fun what mem => (s.locks.unhandled_consult now r.key what mem).taking)
    rw [Locks.attempt_of_live?_eq_none live, List.filterMap_append, looked, claimed]
    rfl
  | some h =>
    have own := (Locks.of_granted granted).1 h live
    rw [Locks.attempt_of_own live own, claimed]
    rfl

end Store

namespace World

variable {w : World} {now : Instant}

section

variable {i : Nat} (there : i < w.stores.length) (now : Instant) (key holder : Bytes)
include there

/-- **A handle's release is one attempt.** -/
theorem gives_release :
    w.Gives [.owner i (key, holder)] (w.on now i (·.release now .handle key holder)).1 := by
  obtain ⟨attempt, taking⟩ := (w.store i).attempts_release now key holder
  refine gives_on ?_ ?_
  · rw [takings_on there, taking]
    rfl
  · rw [attempts_on there, attempt]
    rfl

/-- A handle that lets go gives back the lock it owns, or tries to. -/
theorem gives_relinquish :
    w.Gives [.owner i (key, holder)] (w.relinquish now i .handle key holder) := by
  obtain ⟨attempt, taking⟩ := (w.store i).attempts_relinquish now key holder
  refine gives_on ?_ ?_
  · rw [takings_on there, taking]
    rfl
  · rw [attempts_on there, attempt]
    rfl

end

/-- **A lock that a handle is granted is taken for it.** -/
theorem takes_attempt {i : Nat} {request : LockRequest} {waited : Bool}
    (there : i < w.stores.length) (claimed : request.claimant = .handle)
    (granted : (w.on now i (·.attempt now request waited)).2 = .granted) :
    w.Takes (.owner i (request.key, request.holder))
      (w.on now i (·.attempt now request waited)).1 := by
  obtain ⟨taking, attempt⟩ := (w.store i).takings_attempt now claimed granted
  refine ⟨?_, ?_, slots_on, length_putBack .., by rw [on_eq], by rw [on_eq]⟩
  · rw [takings_on there, taking]
    rfl
  · rw [attempts_on there, attempt]
    rfl

/-- **A handle that lets go makes one attempt**, if it owns its lock. -/
theorem gives_letGo {h : Handle} (there : h.store < w.stores.length) (now : Instant) :
    w.Gives ([h].filter Handle.owns) (w.letGo now h) := by
  obtain ⟨store, key, holder, owns⟩ := h
  cases owns with
  | false => exact ⟨rfl, rfl, rfl, rfl, rfl⟩
  | true => exact gives_relinquish there now key holder

section

variable (w : World) (now : Instant)

/-- Letting go leaves the slots to whoever asked for it. -/
theorem slots_letGo (h : Handle) : (w.letGo now h).slots = w.slots := by
  unfold letGo
  split
  · exact slots_on
  · rfl

/-- A slot that is vacated still has its handle, which has let go. -/
theorem slots_vacate (slot : Bytes) : (w.vacate now slot).slots = w.slots := by
  unfold vacate
  split
  · rfl
  · exact w.slots_letGo now _

/-- A handle that is put into a slot is what is in the slot. -/
theorem slots_place (slot : Bytes) (h : Handle) :
    (w.place now slot h).slots = w.slots.insert slot h :=
  congrArg (·.insert slot h) (w.slots_vacate now slot)

/-- **What is moved is in its new slot**, and what stays behind owns nothing. -/
theorem slots_move {w : World} {source target : Bytes} {h : Handle}
    (found : w.slots.get? source = some h) (apart : source ≠ target) (now : Instant) :
    (w.move now source target).1.slots
      = (w.slots.insert target h).insert source { h with owns := false } := by
  rw [move, found]
  dsimp only
  rw [if_neg apart]
  show (w.place now target h).slots.insert source _ = _
  rw [slots_place]

/-- A move from a slot to itself is none. -/
theorem move_self (slot : Bytes) : (w.move now slot slot).1 = w := by
  rw [move]
  split
  · rfl
  · rw [if_pos rfl]

end

/-- The handles that are kept are for locks of stores that are there. -/
structure Seated (w : World) : Prop extends w.Turned where
  slots : ∀ slot h, w.slots.get? slot = some h → h.store < w.stores.length

/-- Giving locks back leaves every handle that is kept with a store. -/
theorem Seated.of_gives {w' : World} {given : List Handle} (seated : w.Seated)
    (gives : w.Gives given w')
    (slots : ∀ slot h, w'.slots.get? slot = some h → h.store < w.stores.length) : w'.Seated where
  toTurned := gives.turned seated.toTurned
  slots slot h found := by
    rw [gives.length]
    exact slots slot h found

/-- So does taking a lock for a handle. -/
theorem Seated.of_takes {w' : World} {h : Handle} (seated : w.Seated) (takes : w.Takes h w') :
    w'.Seated where
  current := by
    rw [takes.current, takes.length]
    exact seated.current
  shared i eq := by
    rw [takes.shared] at eq
    rw [takes.length]
    exact seated.shared i eq
  slots slot g found := by
    rw [takes.slots] at found
    rw [takes.length]
    exact seated.slots slot g found

/-- So does what deals with no handle. -/
theorem Seated.of_undealt {w' : World} (seated : w.Seated) (undealt : w.Undealt w') :
    w'.Seated where
  toTurned := undealt.turned seated.toTurned
  slots slot h found := by
    rw [undealt.slots] at found
    exact Nat.lt_of_lt_of_le (seated.slots slot h found) undealt.length

/-- **Who vacates a slot makes the handle in it let go.** -/
theorem gives_vacate (seated : w.Seated) (now : Instant) (slot : Bytes) :
    w.Gives (w.slots.owning slot) (w.vacate now slot) := by
  unfold vacate
  split
  · next absent =>
    rw [KeyMap.owning_of_get?_eq_none absent]
    exact ⟨rfl, rfl, rfl, rfl, rfl⟩
  · next old found =>
    rw [KeyMap.owning_of_get? found]
    exact gives_letGo (seated.slots slot old found) now

/-- What is read off the stores and the events is the same with other slots. -/
theorem Gives.withSlots {w' : World} {given : List Handle} (gives : w.Gives given w')
    (slots : KeyMap Handle) : w.Gives given { w' with slots } :=
  ⟨gives.takings, gives.attempts, gives.length, gives.current, gives.shared⟩

/-- **A handle that is put into a slot** makes the one that was there let go,
and no other. -/
theorem gives_place (seated : w.Seated) (now : Instant) (slot : Bytes) (h : Handle) :
    w.Gives (w.slots.owning slot) (w.place now slot h) :=
  (gives_vacate seated now slot).withSlots _

/-- A handle for a store that is there may be put into any slot. -/
theorem Seated.place (seated : w.Seated) {h : Handle} (there : h.store < w.stores.length)
    (now : Instant) (slot : Bytes) : (w.place now slot h).Seated := by
  refine seated.of_gives (gives_place seated now slot h) (fun other g found => ?_)
  rw [slots_place, KeyMap.get?_insert] at found
  split at found
  · cases found
    exact there
  · exact seated.slots other g found

/-- **A lock step** takes a lock and puts the handle into its slot, and the
handle that was there lets go. -/
structure TakesInto (h : Handle) (slot : Bytes) (w w' : World) : Prop where
  takings : w'.takings = h :: w.takings
  attempts : w'.attempts = w.slots.owning slot ++ w.attempts
  slots : w'.slots = w.slots.insert slot h
  length : w'.stores.length = w.stores.length
  seated : w'.Seated

/-- A lock that was taken for a handle, and the handle put into its slot, are a lock
step. -/
theorem Takes.place {w' : World} {h : Handle} (takes : w.Takes h w') (seated : w.Seated)
    (there : h.store < w.stores.length) (now : Instant) (slot : Bytes) :
    w.TakesInto h slot (w'.place now slot h) := by
  have seated' := seated.of_takes takes
  have gives := gives_place seated' now slot h
  refine ⟨?_, ?_, ?_, gives.length.trans takes.length, seated'.place ?_ now slot⟩
  · rw [gives.takings, takes.takings]
  · rw [gives.attempts, takes.attempts, takes.slots]
  · rw [slots_place, takes.slots]
  · rwa [takes.length]

/-- **Handles were dealt with, and none came to own more.** Whoever owned a
lock before owns it still, or made an attempt to give it back. -/
structure Yields (given : List Handle) (w w' : World) : Prop extends Gives given w w' where
  owned : (given ++ w'.slots.owned).Perm w.slots.owned
  seated : w'.Seated

/-- Where nothing was done, nothing was given and all is owned as before. -/
theorem Yields.refl (seated : w.Seated) : w.Yields [] w :=
  ⟨⟨rfl, rfl, rfl, rfl, rfl⟩, .refl _, seated⟩

/-- The handle that loses what it owns when another is moved into its slot. -/
def ousted (w : World) (source target : Bytes) : List Handle :=
  if (w.slots.get? source).isSome ∧ source ≠ target then w.slots.owning target else []

/-- **A move makes the handle let go in whose slot another is put.** What is
moved stays owned. -/
theorem yields_move (seated : w.Seated) (now : Instant) (source target : Bytes) :
    w.Yields (w.ousted source target) (w.move now source target).1 := by
  by_cases moved : (w.slots.get? source).isSome ∧ source ≠ target
  · obtain ⟨h, found⟩ := Option.isSome_iff_exists.mp moved.1
    have slots_eq := slots_move found moved.2 now
    have gives : w.Gives (w.slots.owning target) (w.move now source target).1 := by
      have placed := gives_place seated now target h
      rw [move, found]
      dsimp only
      rw [if_neg moved.2]
      exact placed.withSlots _
    rw [ousted, if_pos moved]
    refine ⟨gives, ?_, seated.of_gives gives (fun slot g get => ?_)⟩
    · rw [slots_eq]
      exact KeyMap.owned_perm_move found moved.2 rfl
    · rw [slots_eq, KeyMap.get?_insert, KeyMap.get?_insert] at get
      split at get
      · cases get
        exact seated.slots source h found
      · split at get
        · cases get
          exact seated.slots source h found
        · exact seated.slots slot g get
  · have still : (w.move now source target).1 = w := by
      rw [move]
      split
      · rfl
      · next h found =>
        have same : source = target :=
          Classical.byContradiction (fun apart => moved ⟨by rw [found]; rfl, apart⟩)
        rw [if_pos same]
    rw [ousted, if_neg moved, still]
    exact .refl seated

/-- Releasing a handle that owns nothing does nothing. -/
theorem handleRelease_of_bare {slot : Bytes} (bare : w.slots.owning slot = []) :
    (w.handleRelease now slot).1 = w := by
  rw [handleRelease]
  cases found : w.slots.get? slot with
  | none => rfl
  | some h =>
    have unowned : h.owns = false := by
      rw [KeyMap.owning_of_get? found, List.filter_singleton] at bare
      cases owns : h.owns with
      | false => rfl
      | true =>
        rw [owns] at bare
        cases bare
    dsimp only
    rw [unowned]
    rfl

/-- Releasing a handle that owns a lock asks the lock's store, after the slot
has been marked. -/
theorem handleRelease_of_owns {slot : Bytes} {h : Handle} (found : w.slots.get? slot = some h)
    (owns : h.owns = true) :
    (w.handleRelease now slot).1
      = (World.on { w with slots := w.slots.insert slot { h with owns := false } } now h.store
        (·.release now .handle h.key h.holder)).1 := by
  rw [handleRelease, found]
  dsimp only
  rw [if_pos owns]
  split <;> next eq => rw [eq]

/-- **A handle that is released makes one attempt**, if it owns its lock, and
owns nothing from then on. -/
theorem yields_handleRelease (seated : w.Seated) (now : Instant) (slot : Bytes) :
    w.Yields (w.slots.owning slot) (w.handleRelease now slot).1
      ∧ (w.handleRelease now slot).1.slots.owning slot = [] := by
  obtain bare | ⟨h, found, owns⟩ := w.slots.bare_or_owns slot
  · rw [handleRelease_of_bare bare, bare]
    exact ⟨.refl seated, rfl⟩
  · have there := seated.slots slot h found
    let left := { h with owns := false }
    have owning_eq : w.slots.owning slot = [h] := by
      rw [KeyMap.owning_of_get? found, List.filter_singleton, owns]
      rfl
    rw [handleRelease_of_owns found owns, owning_eq]
    generalize eq : World.on _ now h.store (·.release now .handle h.key h.holder) = released
    have gives : w.Gives [h] released.1 := by
      have one := gives_release (w := { w with slots := w.slots.insert slot left }) there now
        h.key h.holder
      rw [← Handle.eq_owner owns, eq] at one
      exact ⟨one.takings, one.attempts, one.length, one.current, one.shared⟩
    have slots_eq : released.1.slots = w.slots.insert slot left := by
      rw [← eq]
      exact slots_on
    refine ⟨⟨gives, ?_, seated.of_gives gives (fun other g get => ?_)⟩, ?_⟩
    · rw [slots_eq, ← owning_eq]
      exact w.slots.owned_perm_insert slot left
    · rw [slots_eq, KeyMap.get?_insert] at get
      split at get
      · cases get
        exact there
      · exact seated.slots other g get
    · rw [slots_eq, KeyMap.owning, KeyMap.get?_insert, if_pos rfl]
      rfl

/-- **A handle that is destroyed makes one attempt**, if it owns its lock. -/
theorem yields_handleDestroy (seated : w.Seated) (now : Instant) (slot : Bytes) :
    w.Yields (w.slots.owning slot) (w.handleDestroy now slot).1
      ∧ (w.handleDestroy now slot).1.slots = w.slots.erase slot := by
  rw [handleDestroy]
  cases found : w.slots.get? slot with
  | none =>
    rw [KeyMap.owning_of_get?_eq_none found]
    exact ⟨.refl seated, (KeyMap.erase_of_get?_eq_none found).symm⟩
  | some h =>
    rw [KeyMap.owning_of_get? found]
    have there := seated.slots slot h found
    have one := gives_letGo (w := { w with slots := w.slots.erase slot }) there now
    have slots_eq := slots_letGo { w with slots := w.slots.erase slot } now h
    have gives : w.Gives ([h].filter Handle.owns)
        (World.letGo { w with slots := w.slots.erase slot } now h) :=
      ⟨one.takings, one.attempts, one.length, one.current, one.shared⟩
    refine ⟨⟨gives, ?_, seated.of_gives gives (fun other g get => ?_)⟩, slots_eq⟩
    · rw [slots_eq, ← KeyMap.owning_of_get? found]
      exact (w.slots.owned_perm_erase slot).symm
    · rw [slots_eq, KeyMap.get?_erase] at get
      split at get
      · cases get
      · exact seated.slots other g get

end World

end AdvisoryStore
