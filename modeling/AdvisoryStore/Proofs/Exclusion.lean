import AdvisoryStore.Proofs.Scenes

/-!
# Mutual exclusion

A key that is held is its holder's until the hold is over. Said of a
single operation this is what the locks were written for; here it is said
of whole runs, through which calls make their moves in any order and the
clock moves on (`Scene.Leads.keeps`): unless its holder gives it back or
all locks are cleared away, a hold stays to its last instant exactly as it
was granted, and until then nobody else is granted the lock or writes under
the key.

The statement is carried from one change of the locks
(`Locks.Occurs.keeps`) to an evolution of the world, from there to a step,
and from there along every sequence of steps. No property of reachable
states is needed: it holds from any scene on.
-/

namespace AdvisoryStore

/-- **The holder that a key was open to**: to take its lock, to be let in
again, or to write under it. -/
def Happening.admitted? (key : Bytes) : Happening → Option Bytes
  | acquired _ k holder _ => if k = key then some holder else none
  | reentered _ k holder => if k = key then some holder else none
  | wrote _ k holder _ => if k = key then some holder else none
  | _ => none

/-- By this event no hold of the key by the holder ends. -/
def Event.Spares (i : Nat) (key holder : Bytes) (e : Event) : Prop :=
  e.store = i → e.what.frees key holder = false

/-- By this event the key is open to nobody but the holder. -/
def Event.Favours (i : Nat) (key holder : Bytes) (e : Event) : Prop :=
  e.store = i → ∀ other, e.what.admitted? key = some other → other = holder

/-! ## One change of the locks -/

namespace Locks

variable {l m : Locks} {now : Instant} {key : Bytes} {h : Hold} {happened : List Happening}

/-- **Who is granted a lock has it**, and nobody else had it. -/
theorem of_granted {r : LockRequest} {waited : Bool}
    (granted : (l.attempt now r waited).answer = .granted) :
    (∀ h, l.live? now r.key = some h → h.holder = r.holder)
      ∧ ∃ h, (l.attempt now r waited).after.stored? r.key = some h ∧ h.holder = r.holder := by
  cases live : l.live? now r.key with
  | none =>
    refine ⟨fun h => nofun, ?_⟩
    rw [attempt_of_live?_eq_none live, stored?_grant, if_pos rfl]
    exact ⟨_, rfl, rfl⟩
  | some g =>
    have own : g.holder = r.holder := by
      refine Classical.byContradiction (fun other => ?_)
      rw [attempt_of_other live other] at granted
      split at granted <;> cases granted
    refine ⟨fun h eq => ?_, g, ?_, own⟩
    · rwa [← Option.some.inj eq]
    · rw [attempt_of_own live own]
      exact (live?_eq_some_iff.mp live).1

/-- **A lock that is held is granted to its holder only**, and always. -/
theorem granted_iff_of_live {r : LockRequest} {waited : Bool} (live : l.live? now r.key = some h) :
    (l.attempt now r waited).answer = .granted ↔ r.holder = h.holder := by
  constructor
  · intro granted
    exact ((of_granted granted).1 h live).symm
  · intro own
    rw [attempt_of_own live own.symm]

/-- A live hold stays live until its deadline has passed. -/
theorem live?_of_lasting {later : Instant} (live : l.live? now key = some h)
    (lasting : ∀ d, h.deadline = some d → later ≤ d) : l.live? later key = some h := by
  exact live?_eq_some_iff.mpr
    ⟨(live?_eq_some_iff.mp live).1, Hold.expired_eq_false_iff.mpr lasting⟩

/-- **A live hold that nobody ends stays as it is, and nobody else is let
in.** -/
theorem Occurs.keeps (occurs : l.Occurs now happened m) (live : l.live? now key = some h)
    (unfreed : ∀ what ∈ happened, what.frees key h.holder = false) :
    m.live? now key = some h
      ∧ ∀ what ∈ happened, ∀ other, what.admitted? key = some other → other = h.holder := by
  obtain ⟨stored, unexpired⟩ := live?_eq_some_iff.mp live
  cases occurs with
  | @expire k g found past =>
    refine ⟨?_, List.forall_mem_singleton.mpr (fun other admitted => by cases admitted)⟩
    rw [live?_drop]
    split
    · next same =>
      -- the hold that is stored is the live one, which is not over
      subst same
      rw [stored] at found
      obtain rfl := Option.some.inj found
      rw [past] at unexpired
      cases unexpired
    · exact live
  | @grant k absent claimant holder waited hold =>
    -- a lock is granted only where nothing is stored
    have apart : key ≠ k := by
      intro same
      rw [← same, stored] at absent
      cases absent
    refine ⟨?_, List.forall_mem_singleton.mpr (fun other admitted => ?_)⟩
    · rw [live?, stored?_grant, if_neg apart]
      exact live
    · rw [Happening.admitted?, if_neg (Ne.symm apart)] at admitted
      cases admitted
  | @release k g theirs claimant =>
    refine ⟨?_, List.forall_mem_singleton.mpr (fun other admitted => by cases admitted)⟩
    rw [live?_ring, live?_drop]
    split
    · next same =>
      subst same
      rw [live] at theirs
      obtain rfl := Option.some.inj theirs
      have freed := unfreed _ (List.mem_singleton_self _)
      simp [Happening.frees] at freed
    · exact live
  | sweep =>
    refine ⟨?_, fun what mem other admitted => ?_⟩
    · exact live?_eq_some_iff.mpr ⟨(l.stored?_sweep now key).trans live, unexpired⟩
    · obtain ⟨k, heldBy, rfl⟩ := of_mem_sweep mem
      cases admitted
  | clear =>
    have freed := unfreed _ (List.mem_singleton_self _)
    cases freed
  | @remark what told =>
    refine ⟨live, List.forall_mem_singleton.mpr (fun other admitted => ?_)⟩
    cases what with
    | reentered claimant k holder =>
      rw [Happening.admitted?] at admitted
      split at admitted
      · next same =>
        subst same
        obtain ⟨g, found, own⟩ := told
        rw [live] at found
        obtain rfl := Option.some.inj found
        obtain rfl := Option.some.inj admitted
        exact own.symm
      · cases admitted
    | acquired | wrote => exact told.elim
    | _ => cases admitted

end Locks

/-- Nothing that happens in a store disturbs a live hold that nobody ends. -/
theorem Store.Occurs.keeps {s t : Store} {now : Instant} {key : Bytes} {h : Hold}
    {happened : List Happening} (occurs : s.Occurs now happened t)
    (live : s.locks.live? now key = some h)
    (unfreed : ∀ what ∈ happened, what.frees key h.holder = false) :
    t.locks.live? now key = some h
      ∧ ∀ what ∈ happened, ∀ other, what.admitted? key = some other → other = h.holder := by
  cases occurs with
  | locks occurs => exact occurs.keeps live unfreed
  | @write k holder permitted claimant content =>
    refine ⟨live, List.forall_mem_singleton.mpr (fun other admitted => ?_)⟩
    rw [Happening.admitted?] at admitted
    split at admitted
    · next same =>
      subst same
      obtain rfl := Option.some.inj admitted
      exact (permitted h live).symm
    · cases admitted
  | @remark what told =>
    refine ⟨live, List.forall_mem_singleton.mpr (fun other admitted => ?_)⟩
    cases what with
    | acquired | reentered | wrote => exact told.elim
    | _ => cases admitted

/-- In a new store no key is held. -/
theorem Store.live?_new (hash : Bytes → Nat) (settings : StoreSettings) (now : Instant)
    (key : Bytes) : (Store.new hash settings).locks.live? now key = none := by
  show Option.filter _ ((Locks.new _ _).stored? key) = none
  rw [Locks.stored?_new, Option.filter_none]

@[simp] theorem Store.answer_look (s : Store) (now : Instant) (key : Bytes) :
    (s.look now key).answer = s.locks.live? now key :=
  s.locks.answer_consult now key

/-! ## The world -/

namespace World

variable {P : Event → Prop} {now : Instant} {w w' : World} {i : Nat} {key : Bytes} {h : Hold}

/-- In a store that is not there no key is held. -/
theorem live?_of_length_le (absent : w.stores.length ≤ i) :
    (w.store i).locks.live? now key = none := by
  rw [store_of_length_le absent]
  exact Store.live?_new ..

/-- A change that spares a hold keeps it and grants its key to nobody else. -/
theorem Change.keeps (change : Change P now w w')
    (live : (w.store i).locks.live? now key = some h)
    (spared : ∀ e ∈ w.since w', e.Spares i key h.holder) :
    (w'.store i).locks.live? now key = some h
      ∧ ∀ e ∈ w.since w', e.Favours i key h.holder := by
  obtain ⟨happened, occurs, since_eq⟩ | ⟨same, apart⟩ | ⟨absent, -⟩ := change.store_cases i
  · rw [since_eq, List.forall_mem_map] at spared ⊢
    have kept := occurs.keeps live (fun what mem => spared what mem rfl)
    exact ⟨kept.1, fun what mem _ => kept.2 what mem⟩
  · rw [same]
    exact ⟨live, fun e mem here => absurd here (apart e mem)⟩
  · rw [live?_of_length_le absent] at live
    cases live

/-- So do changes in a row. -/
theorem Evolves.keeps (evolves : Evolves P now w w')
    (live : (w.store i).locks.live? now key = some h)
    (spared : ∀ e ∈ w.since w', e.Spares i key h.holder) :
    (w'.store i).locks.live? now key = some h
      ∧ ∀ e ∈ w.since w', e.Favours i key h.holder := by
  induction evolves with
  | refl => exact ⟨live, fun e mem => by rw [since_self] at mem; cases mem⟩
  | tail before change ih =>
    rw [since_trans (Evolves.events before).1 change.events.1] at spared ⊢
    obtain ⟨spared, spared_last⟩ := List.forall_mem_append.mp spared
    obtain ⟨live, favours⟩ := ih spared
    obtain ⟨live, favours_last⟩ := change.keeps live spared_last
    exact ⟨live, List.forall_mem_append.mpr ⟨favours, favours_last⟩⟩

end World

/-! ## Whole runs -/

namespace Scene

variable {s s' : Scene} {i : Nat} {key : Bytes} {h : Hold}

/-- So does a step, while the hold lasts. -/
theorem Step.keeps (step : s.Step s') (live : (s.world.store i).locks.live? s.now key = some h)
    (spared : ∀ e ∈ s.since s', e.Spares i key h.holder)
    (lasting : ∀ d, h.deadline = some d → s'.now ≤ d) :
    (s'.world.store i).locks.live? s'.now key = some h
      ∧ ∀ e ∈ s.since s', e.Favours i key h.holder := by
  obtain ⟨live, favours⟩ := step.evolves.keeps live spared
  exact ⟨Locks.live?_of_lasting live lasting, favours⟩

/-- **A live hold stays through every run** that does not end it, up to its
last instant, and until then the key is open to nobody else. -/
theorem Leads.keeps (leads : s.Leads s')
    (live : (s.world.store i).locks.live? s.now key = some h)
    (spared : ∀ e ∈ s.since s', e.Spares i key h.holder)
    (lasting : ∀ d, h.deadline = some d → s'.now ≤ d) :
    (s'.world.store i).locks.live? s'.now key = some h
      ∧ ∀ e ∈ s.since s', e.Favours i key h.holder := by
  induction leads with
  | refl =>
    rw [since_self]
    exact ⟨live, fun e mem => nomatch mem⟩
  | @tail t u leads step ih =>
    rw [since_tail leads step] at spared ⊢
    obtain ⟨spared, spared_last⟩ := List.forall_mem_append.mp spared
    obtain ⟨live, favours⟩ := ih spared
      (fun d eq => Int.le_trans step.now_le (lasting d eq))
    obtain ⟨live, favours_last⟩ := step.keeps live spared_last lasting
    exact ⟨live, List.forall_mem_append.mpr ⟨favours, favours_last⟩⟩

/-- **Mutual exclusion.** What a look at a key's lock shows, it shows in
every later scene of every run in which the holder does not give the lock
back and no locks are cleared away, until the deadline has passed. Whoever
asks for the lock then is granted it only as that holder, whatever times
come with the request; and in between nobody else was granted the lock or
wrote under the key. -/
theorem held_of_leads (leads : s.Leads s')
    (held : ((s.world.store i).look s.now key).answer = some h)
    (spared : ∀ e ∈ s.since s', e.store = i → e.what.frees key h.holder = false)
    (lasting : ∀ d, h.deadline = some d → s'.now ≤ d) :
    ((s'.world.store i).look s'.now key).answer = some h
      ∧ (∀ request waited, request.key = key →
        (((s'.world.store i).attempt s'.now request waited).answer = .granted
          ↔ request.holder = h.holder))
      ∧ ∀ e ∈ s.since s', e.store = i →
        ∀ other, e.what.admitted? key = some other → other = h.holder := by
  rw [Store.answer_look] at held ⊢
  obtain ⟨live, favours⟩ := Leads.keeps leads held spared lasting
  refine ⟨live, fun request waited same => ?_, favours⟩
  subst same
  exact Locks.granted_iff_of_live live

end Scene

/-- A session in which a key is held up to instant 100. -/
def Session.held : Session :=
  ((Session.start (fun _ => 0) {} (fun _ => none) 0).carryOutAll
    [.call (.acquire [1] [10] (some 100) none)]).1

/-- The same session after a run has come to wait for the key, its holder
has been let in again, and a third has given up. -/
def Session.contended : Session :=
  (Session.held.carryOutAll
    [.call (.run [1] [20] none [] (.ok ⟨[], [7]⟩)), .call (.acquire [1] [10] (some 3) none),
      .call (.acquire [1] [30] none (some 5)), .call (.operation (.write [1] ⟨[], []⟩ [30])),
      .advance 50]).1

theorem Scene.held_of_contended :
    ((Session.contended.scene.world.store 0).look Session.contended.scene.now [1]).answer
        = some ⟨[10], 0, some 100, 0⟩
      ∧ (∀ request waited, request.key = [1] →
        (((Session.contended.scene.world.store 0).attempt
            Session.contended.scene.now request waited).answer = .granted
          ↔ request.holder = [10]))
      ∧ ∀ e ∈ Session.held.scene.since Session.contended.scene, e.store = 0 →
        ∀ other, e.what.admitted? [1] = some other → other = [10] := by
  have held : ((Session.held.scene.world.store 0).look Session.held.scene.now [1]).answer
      = some ⟨[10], 0, some 100, 0⟩ := by decide +kernel
  have leads : Session.held.scene.Leads Session.contended.scene := Session.leads_carryOutAll ..
  refine Scene.held_of_leads leads held ?_ ?_
  · decide +kernel
  · intro d eq
    cases eq
    decide +kernel

end AdvisoryStore
