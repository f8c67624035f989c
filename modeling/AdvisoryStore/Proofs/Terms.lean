import AdvisoryStore.Proofs.Acquiring
import AdvisoryStore.Proofs.Careers
import AdvisoryStore.Proofs.Founding
import AdvisoryStore.Proofs.Tasks

/-!
# What calls go by

A caller says how long it wants to hold a lock, and how long it is ready to wait.
These **terms** are turned into instants in two places. When a call sets out, the
time to give up is counted from that instant, and a hold that was not asked for is
the default of the store (`Stride.Sets`). When a call gets its lock, which may be
much later, the deadline is counted from that other instant (`Stride.Grants`).

Nothing else makes an instant. Whoever is at a point was set there by a move of its
own (`Scene.Path.set_out`), and whatever is stored was granted by a move that got
past such a point (`Scene.Path.granted`).
-/

namespace AdvisoryStore

/-- **The instant that a span leads to**, if there is one and the clock can show it. -/
def Instant.exactly (now : Instant) (span : Option Duration) : Option Instant :=
  span.bind fun d => if now + d ≤ Instant.last then some (now + d) else none

/-- **Adding to the clock is exact.** -/
theorem Instant.bind_after?_eq {now : Instant} (shown : now ≤ Instant.last)
    (span : Option Duration) : span.bind now.after? = now.exactly span := by
  cases span with
  | none => rfl
  | some d =>
    have beyond : (0 < d ∧ Instant.last - now < d) ↔ ¬now + d ≤ Instant.last := by
      simp only [Instant, Duration] at *
      omega
    rw [exactly, Option.bind_some, Option.bind_some, after?, if_congr beyond rfl rfl, ite_not]

/-! ## Setting out -/

/-- **What a call goes by**: how long it wants to hold, and how long it is ready to
wait. -/
structure Terms where
  hold : Option Duration
  patience : Option Duration

/-- The terms of an action. -/
def Action.terms : Action → Terms
  | operation _ => ⟨none, none⟩
  | acquire _ _ hold patience => ⟨hold, patience⟩
  | lock _ _ _ hold => ⟨hold, none⟩
  | wait _ patience => ⟨none, patience⟩
  | sleep d => ⟨none, some d⟩
  | run _ _ hold _ _ => ⟨hold, none⟩
  | demo .. => ⟨some Demo.hold, none⟩

/-- **The terms of a call** that is about to make a move. The demo workload comes
back to its own for every key. -/
def Thread.terms : Thread → Terms
  | going ⟨.perform a, _⟩ => a.terms
  | going ⟨.answer _, .demo .. :: _⟩ => ⟨some Demo.hold, none⟩
  | _ => ⟨none, none⟩

/-- **The move sets a call out for a point**, as its terms have it. -/
structure Stride.Sets (x : Stride) (p : Point) : Prop where
  arrives : x.next.bind Thread.point? = some p
  limit : p.limit? = x.now.exactly x.thread.terms.patience
  hold : ∀ i r purpose, p = .lock i r purpose →
    r.hold = (x.thread.terms.hold <|> (x.world.store i).settings.defaultHold)

namespace Thread

variable {now : Instant} {w w' : World} {t t' : Thread} {p : Point}

/-- The demo workload sets out for its next key. -/
theorem point?_demo {u : World} {store : Nat} {worker : UInt32} {keys left : Nat}
    {stack : List Frame}
    (point : (going (Control.demo now u store worker keys left stack)).point? = some p) :
    p.limit? = none ∧ ∀ i r purpose, p = .lock i r purpose → r.hold = some Demo.hold := by
  cases left with
  | zero => cases point
  | succ left =>
    cases point
    refine ⟨rfl, ?_⟩
    rintro _ _ _ ⟨⟩
    rfl

/-- **Setting out on an action** a call is at a point as the action has it. -/
theorem point?_begin (shown : now ≤ Instant.last) {a : Action} {stack : List Frame}
    (point : (going (Control.begin now w a stack).2).point? = some p) :
    p.limit? = now.exactly a.terms.patience
      ∧ ∀ i r purpose, p = .lock i r purpose →
        r.hold = (a.terms.hold <|> (w.store i).settings.defaultHold) := by
  have counted := Instant.bind_after?_eq shown
  cases a with
  | operation o =>
    have nowhere : (going (Control.begin now w (.operation o) stack).2).point? = none := rfl
    rw [nowhere] at point
    cases point
  | acquire key holder hold patience =>
    cases point
    refine ⟨counted patience, ?_⟩
    rintro _ _ _ ⟨⟩
    rfl
  | lock | run =>
    cases point
    refine ⟨rfl, ?_⟩
    rintro _ _ _ ⟨⟩
    rfl
  | wait key patience =>
    rw [Control.begin] at point
    split at point <;> cases point
    refine ⟨counted _, ?_⟩
    rintro _ _ _ ⟨⟩
  | sleep d =>
    rw [Control.begin] at point
    split at point <;> cases point
    refine ⟨counted (some d), ?_⟩
    rintro _ _ _ ⟨⟩
  | demo worker keys =>
    obtain ⟨limit, hold⟩ := point?_demo point
    exact ⟨limit, hold⟩

/-- **Who is at a point after a move** was there before it, or is set out for it. -/
theorem Turn.point_cases (shown : now ≤ Instant.last) (turn : t.Turn now w w' (some t'))
    (point : t'.point? = some p) :
    t.point? = some p ∨ Stride.Sets ⟨now, w, t, w', some t', turn⟩ p := by
  cases turn with
  | move step =>
    cases Control.goesOn_of_step step with
    | begins a stack =>
      obtain ⟨limit, hold⟩ := point?_begin shown point
      exact .inr ⟨point, limit, hold⟩
    | passes pass =>
      rw [point?_of_pass pass] at point
      cases point
    | resumes reply frame rest =>
      cases frame with
      | script r answers script =>
        have nowhere :
            (going (Control.resume now w reply (.script r answers script) rest).2).point? = none :=
          point?_proceed ..
        rw [nowhere] at point
        cases point
      | demo store worker keys left =>
        obtain ⟨limit, hold⟩ := point?_demo point
        exact .inr ⟨point, limit, hold⟩
  | suspend step =>
    obtain ⟨rfl, -⟩ := Control.eq_arrive_of_waits step
    exact .inl point
  | resume pass =>
    rw [point?_of_pass pass] at point
    cases point

end Thread

namespace Scene

variable {s t : Scene} {strides : List Stride}

/-- **Whoever is at a point was set out for it** by a move of its own. -/
theorem Path.set_out (path : s.Path strides t) (idle : s.threads = [])
    (shown : t.now ≤ Instant.last) :
    ∀ c ∈ t.threads, ∀ p, c.point? = some p → ∃ x ∈ strides, x.Sets p := by
  induction path with
  | nil =>
    rw [idle]
    exact fun _ mem => nomatch mem
  | begin path a ih =>
    refine List.forall_mem_append.mpr ⟨ih shown, List.forall_mem_singleton.mpr ?_⟩
    exact fun _ nowhere => nomatch nowhere
  | tick path le ih => exact ih (Int.le_trans le shown)
  | @turn strides x before after path ih =>
    obtain ⟨first, rest⟩ := List.forall_mem_append.mp (ih shown)
    obtain ⟨own, rest⟩ := List.forall_mem_cons.mp rest
    have earlier {p : Point} : (∃ y ∈ strides, y.Sets p) → ∃ y ∈ strides ++ [x], y.Sets p := by
      rintro ⟨y, mem, sets⟩
      exact ⟨y, List.mem_append_left _ mem, sets⟩
    refine List.forall_mem_append.mpr ⟨List.forall_mem_append.mpr ⟨?_, ?_⟩, ?_⟩
    · exact fun c mem p point => earlier (first c mem p point)
    · intro c mem p point
      have next := Option.mem_toList.mp mem
      obtain ⟨now, world, thread, w', next?, turn⟩ := x
      obtain rfl : next? = some c := next
      obtain still | sets := turn.point_cases shown point
      · exact earlier (own p still)
      · exact ⟨_, List.mem_append_right _ (List.mem_singleton_self _), sets⟩
    · exact fun c mem p point => earlier (rest c mem p point)

/-- **Whoever makes a move from a point was set out for it** on the way. -/
theorem Path.set_out_of_mem (path : s.Path strides t) (idle : s.threads = [])
    (shown : t.now ≤ Instant.last) {x : Stride} (mem : x ∈ strides) {p : Point}
    (point : x.thread.point? = some p) : ∃ y ∈ strides, y.Sets p := by
  obtain ⟨early, late, rfl⟩ := List.append_of_mem mem
  obtain ⟨before, after, first, rest⟩ := path.split
  obtain ⟨y, mem, sets⟩ := first.set_out idle (Int.le_trans rest.leads.now_le shown) x.thread
    (List.mem_append_right _ List.mem_cons_self) p point
  exact ⟨y, List.mem_append_left _ mem, sets⟩

end Scene

/-! ## Getting a lock -/

/-- **A hold is what a wish comes to** when it is granted. -/
structure LockRequest.Yields (r : LockRequest) (now : Instant) (key : Bytes) (h : Hold) :
    Prop where
  key : r.key = key
  holder : r.holder = h.holder
  since : now = h.since
  deadline : h.deadline = now.exactly r.hold

/-- A task that is no attempt at a lock. -/
def Task.Unlocking (task : Task) : Prop := ∀ waited, task ≠ .lock waited

namespace World

variable {P : Event → Prop} {now : Instant} {w u : World} {done : List Deed} {i : Nat}
  {key : Bytes} {h : Hold}

/-- What is on record of an evolution is what was done. -/
theorem Does.mem_of_since (does : w.Does done u) (later : w.events <:+ u.events) {e : Event}
    (mem : e ∈ w.since u) {d : Deed} (deed : e.deed? = some d) : d ∈ done := by
  obtain ⟨added, eq⟩ := later
  rw [since, ← eq, addedTo_append, List.mem_reverse] at mem
  unfold Does deeds at does
  rw [← eq, List.filterMap_append, List.append_cancel_right_eq] at does
  rw [← List.mem_reverse, ← does]
  exact List.mem_filterMap.mpr ⟨e, mem, deed⟩

/-- **Where no lock is tried for, nothing comes to be stored.** -/
theorem stored_of_does (evolves : Evolves P now w u) (does : w.Does done u)
    (unlocking : ∀ d ∈ done, d.task.Unlocking)
    (stored : (u.store i).locks.stored? key = some h) :
    (w.store i).locks.stored? key = some h := by
  refine (evolves.stored_cases stored).resolve_right fun arises => ?_
  obtain ⟨e, mem, ⟨-, claimant, waited, what⟩, -⟩ := arises.event
  have deed : e.deed? = some ⟨e.store, .lock waited⟩ := by
    rw [Event.deed?, what]
    rfl
  exact unlocking _ (does.mem_of_since evolves.events.1 mem deed) waited rfl

/-- Letting go is no attempt at a lock. -/
theorem unlocking_lettingGo (handles : List Handle) :
    ∀ d ∈ lettingGo handles, d.task.Unlocking := by
  intro d mem
  obtain ⟨_, -, rfl⟩ := List.mem_map.mp mem
  exact nofun

/-- What is done at once is no attempt at a lock. -/
theorem unlocking_operation (w : World) (o : Operation) : ∀ d ∈ o.deeds w, d.task.Unlocking := by
  cases o with
  | handleRelease | handleDestroy | handleMove => exact unlocking_lettingGo _
  | release | read | write | serve => exact List.forall_mem_singleton.mpr nofun
  | _ => exact fun _ mem => nomatch mem

/-- The end of a run is no attempt at a lock. -/
theorem unlocking_closing (r : Run) : ∀ d ∈ r.closing, d.task.Unlocking := by
  intro d mem waited
  unfold Run.closing at mem
  split at mem <;> simp only [List.mem_cons, List.not_mem_nil, or_false] at mem
  · obtain rfl | rfl := mem <;> exact nofun
  · subst mem
    exact nofun

/-- What a lock is taken for is no attempt at another. -/
theorem unlocking_purpose (w : World) (i : Nat) (request : LockRequest) (purpose : Purpose) :
    ∀ d ∈ purpose.deeds w i request, d.task.Unlocking := by
  cases purpose with
  | answer => exact fun _ mem => nomatch mem
  | handle slot => exact unlocking_lettingGo _
  | run script outcome =>
    refine List.forall_mem_cons.mpr ⟨nofun, ?_⟩
    split
    · exact List.forall_mem_singleton.mpr nofun
    · exact unlocking_closing _
    · exact fun _ mem => nomatch mem

/-- **Doing what a lock was taken for stores nothing.** -/
theorem stored_of_fulfil (seated : w.Seated) {j : Nat} (there : j < w.stores.length)
    (request : LockRequest) (purpose : Purpose) (stack : List Frame)
    (stored : ((w.fulfil now j request purpose stack).1.store i).locks.stored? key = some h) :
    (w.store i).locks.stored? key = some h := by
  have evolves : Evolves (fun _ => True) now w (w.fulfil now j request purpose stack).1 := by
    cases purpose with
    | answer => exact .refl
    | handle slot => exact (w.evolves_place now slot _).mono fun _ _ => trivial
    | run script outcome => exact (w.evolves_enterRun now _ script stack).mono fun _ _ => trivial
  exact stored_of_does evolves (does_fulfil seated there request purpose stack)
    (unlocking_purpose w j request purpose) stored

end World

/-- **What is stored after a point is passed** was stored before, or the point was a
lock that was granted. -/
theorem Point.stored_of_pass {p : Point} {now : Instant} {w w' : World} {waited : Bool}
    {stack : List Frame} {c : Control} {i : Nat} {key : Bytes} {h : Hold}
    (shown : now ≤ Instant.last) (seated : w.Seated) (present : p.Present w)
    (pass : p.pass now w waited stack = .passed w' c)
    (stored : (w'.store i).locks.stored? key = some h) :
    (w.store i).locks.stored? key = some h
      ∨ ∃ r purpose, p = .lock i r purpose ∧ r.Yields now key h := by
  cases passes_of_pass pass with
  | @gaveUp j r purpose u tried =>
    have trial := World.trial_attempt (show j < w.stores.length from present) now r waited
    rw [tried] at trial
    cases trial with
    | gaveUp _ _ _ same =>
      rw [same] at stored
      exact .inl stored
  | @granted j r purpose u tried =>
    have there : j < w.stores.length := present
    have trial := World.trial_attempt there now r waited
    have seated' := seated.on now j (·.attempt now r waited)
    rw [tried] at trial seated'
    have taken := World.stored_of_fulfil seated' ((w.steady_of_on now tried).there there) r purpose
      stack stored
    cases trial with
    | taken free granted aside =>
      by_cases here : i = j ∧ key = r.key
      · obtain ⟨rfl, rfl⟩ := here
        cases granted.symm.trans taken
        exact .inr ⟨r, purpose, rfl, rfl, rfl, rfl, Instant.bind_after?_eq shown r.hold⟩
      · rw [aside i key (not_and_or.mp here)] at taken
        exact .inl taken
    | kept _ _ same =>
      rw [same] at taken
      exact .inl taken
  | @waitOver j awaited generation giveUp u ended looked =>
    have evolves := (w.evolves_awaitEnd now j awaited generation giveUp)
    rw [looked] at evolves
    refine .inl (World.stored_of_does evolves (Point.does_of_pass seated present pass) ?_ stored)
    unfold Point.deeds
    cases ended
    · exact List.forall_mem_singleton.mpr nofun
    · exact fun _ mem => nomatch mem
  | slept => exact .inl stored

/-- **What is stored after a move** was stored before, or the call got past a lock that
it was granted. -/
theorem Thread.Turn.stored_cases {now : Instant} {w w' : World} {t : Thread}
    {t' : Option Thread} {i : Nat} {key : Bytes} {h : Hold} (shown : now ≤ Instant.last)
    (seated : w.Seated) (present : t.Present w) (turn : t.Turn now w w' t')
    (stored : (w'.store i).locks.stored? key = some h) :
    (w.store i).locks.stored? key = some h
      ∨ ∃ r purpose, t.point? = some (.lock i r purpose) ∧ r.Yields now key h := by
  have evolves := turn.evolves
  have does := turn.does seated present
  have passed {p : Point} {waited : Bool} {stack : List Frame} {c : Control}
      (point : t.point? = some p) (pass : p.pass now w waited stack = .passed w' c) :
      (w.store i).locks.stored? key = some h
        ∨ ∃ r purpose, t.point? = some (.lock i r purpose) ∧ r.Yields now key h := by
    refine (Point.stored_of_pass shown seated (present.point p point) pass stored).imp_right ?_
    rintro ⟨r, purpose, rfl, yields⟩
    exact ⟨r, purpose, point, yields⟩
  cases turn with
  | move step =>
    cases Control.goesOn_of_step step with
    | begins a stack =>
      refine .inl (World.stored_of_does evolves does ?_ stored)
      cases a with
      | operation o => exact World.unlocking_operation w o
      | wait => exact List.forall_mem_singleton.mpr nofun
      | acquire | lock | sleep | run | demo => exact fun _ mem => nomatch mem
    | passes pass => exact passed rfl pass
    | resumes reply frame rest =>
      refine .inl (World.stored_of_does evolves does ?_ stored)
      cases frame with
      | script r answers script =>
        cases script with
        | nil => exact World.unlocking_closing r
        | cons => exact fun _ mem => nomatch mem
      | demo => exact fun _ mem => nomatch mem
  | suspend | finish => exact .inl stored
  | resume pass => exact passed rfl pass

namespace Scene

variable {hash : Bytes → Nat} {settings : StoreSettings} {environment : Environment}
  {start : Instant} {s : Scene} {strides : List Stride}

/-- **Whatever is stored was granted** by a move that got past a lock, for which the
same call was set out by a move before. -/
theorem Path.granted
    (path : (Session.start hash settings environment start).scene.Path strides s)
    (shown : s.now ≤ Instant.last) {i : Nat} {key : Bytes} {h : Hold}
    (stored : (s.world.store i).locks.stored? key = some h) :
    ∃ x ∈ strides, ∃ r purpose, x.thread.point? = some (.lock i r purpose)
      ∧ r.Yields x.now key h ∧ ∃ y ∈ strides, y.Sets (.lock i r purpose) := by
  induction path with
  | nil =>
    obtain ⟨e, mem, -⟩ := (Leads.arises .refl stored).event
    rw [World.since_self] at mem
    cases mem
  | begin path a ih => exact ih shown stored
  | tick path le ih => exact ih (Int.le_trans le shown) stored
  | @turn strides x before after path ih =>
    have seated := path.leads.balanced.seated
    have among : x.thread ∈ before ++ x.thread :: after :=
      List.mem_append_right _ List.mem_cons_self
    have present := path.leads.present x.thread among
    obtain there | ⟨r, purpose, point, yields⟩ := x.turn.stored_cases shown seated present stored
    · obtain ⟨y, mem, r, purpose, point, yields, z, mem', sets⟩ := ih shown there
      exact ⟨y, List.mem_append_left _ mem, r, purpose, point, yields, z,
        List.mem_append_left _ mem', sets⟩
    · obtain ⟨y, mem, sets⟩ := path.set_out rfl shown x.thread among _ point
      exact ⟨x, List.mem_append_right _ (List.mem_singleton_self x), r, purpose, point, yields, y,
        List.mem_append_left _ mem, sets⟩

end Scene

end AdvisoryStore
