import AdvisoryStore.Proofs.Ledger
import AdvisoryStore.Proofs.Origins
import AdvisoryStore.Proofs.Presence
import AdvisoryStore.Proofs.Stages

/-!
# Asking for a lock, to the instant

Who asks for a lock gets it at once, or is refused at once, or waits; and who
waits looks again at instants that are known beforehand. Said to the nanosecond
this is a matter of boundaries: a hold lasts through its deadline, one who waits
gives up at its limit and not after it, and the clock stops at the deadline of a
hold for nothing and once more right after it.

Whatever is tried, and whenever, comes to one of four things
(`World.trial_attempt`). What asking comes to at once is read off them
(`Scene.asks`), and so is how a call that waits gets past the lock
(`Session.Departs.pastLock`). That another's hold keeps it waiting, and until
when, follows from the order in which a session goes through its stages
(`Session.InOrder.detains`).
-/

namespace AdvisoryStore

namespace World

variable {now : Instant} {w : World} {i : Nat} {r : LockRequest}

/-- **What comes of trying for a lock**, by who has it. -/
inductive Trial (now : Instant) (w : World) (i : Nat) (r : LockRequest) : World → Attempt → Prop
  /-- Nobody holds the key, and from now on the asker does. -/
  | taken {u : World} {generation : Nat} (free : (w.store i).locks.live? now r.key = none)
      (stored : (u.store i).locks.stored? r.key
        = some ⟨r.holder, now, r.hold.bind now.after?, generation⟩)
      (aside : ∀ j other, j ≠ i ∨ other ≠ r.key →
        (u.store j).locks.stored? other = (w.store j).locks.stored? other) :
      Trial now w i r u .granted
  /-- The asker holds the key already, and goes on to as before. -/
  | kept {u : World} {h : Hold} (live : (w.store i).locks.live? now r.key = some h)
      (own : h.holder = r.holder) (same : ∀ j, (u.store j).locks = (w.store j).locks) :
      Trial now w i r u .granted
  /-- Another holds the key, and the time to give up has come. -/
  | gaveUp {u : World} {h : Hold} (live : (w.store i).locks.live? now r.key = some h)
      (other : h.holder ≠ r.holder) (due : reached now r.giveUp = true)
      (same : ∀ j, (u.store j).locks = (w.store j).locks) : Trial now w i r u .gaveUp
  /-- Another holds the key, and there is time to wait. -/
  | blocked {h : Hold} (live : (w.store i).locks.live? now r.key = some h)
      (other : h.holder ≠ r.holder) (patient : reached now r.giveUp = false) :
      Trial now w i r w (.blockedBy h)

/-- **An attempt at a lock is one of the four**, by what is live of the key. -/
theorem trial_attempt (there : i < w.stores.length) (now : Instant) (r : LockRequest)
    (waited : Bool) :
    Trial now w i r (w.on now i (·.attempt now r waited)).1
      (w.on now i (·.attempt now r waited)).2 := by
  have same (unmoved : ((w.store i).locks.attempt now r waited).after = (w.store i).locks)
      (j : Nat) : ((w.on now i (·.attempt now r waited)).1.store j).locks = (w.store j).locks :=
    locks_on unmoved j
  cases live : (w.store i).locks.live? now r.key with
  | none =>
    have tried := Locks.attempt_of_live?_eq_none live waited
    have answered : (w.on now i (·.attempt now r waited)).2 = .granted := by
      show ((w.store i).locks.attempt now r waited).answer = _
      rw [tried]
    have after (j : Nat) (other : Bytes) :
        ((w.on now i (·.attempt now r waited)).1.store j).locks.stored? other
          = if j = i then ((w.store i).locks.attempt now r waited).after.stored? other
            else (w.store j).locks.stored? other := by
      show ((w.putBack now i _ _).store j).locks.stored? other = _
      rw [store_putBack there]
      split <;> rfl
    have stored : ∃ generation,
        ((w.on now i (·.attempt now r waited)).1.store i).locks.stored? r.key
          = some ⟨r.holder, now, r.hold.bind now.after?, generation⟩ := by
      rw [after, if_pos rfl, tried, Locks.stored?_grant, if_pos rfl]
      exact ⟨_, rfl⟩
    obtain ⟨generation, stored⟩ := stored
    rw [answered]
    refine .taken live stored (fun j other apart => ?_)
    rw [after]
    split
    · next here =>
      have other_key := apart.resolve_left (fun ne => ne here)
      rw [tried, Locks.stored?_grant, if_neg other_key, Locks.stored?_consult,
        if_neg other_key, here]
    · rfl
  | some h =>
    by_cases own : h.holder = r.holder
    · have tried := Locks.attempt_of_own live own waited
      have answered : (w.on now i (·.attempt now r waited)).2 = .granted := by
        show ((w.store i).locks.attempt now r waited).answer = _
        rw [tried]
      rw [answered]
      exact .kept live own (same (by rw [tried]))
    · have tried := Locks.attempt_of_other live own waited
      by_cases due : reached now r.giveUp = true
      · rw [if_pos due] at tried
        have answered : (w.on now i (·.attempt now r waited)).2 = .gaveUp := by
          show ((w.store i).locks.attempt now r waited).answer = _
          rw [tried]
        rw [answered]
        exact .gaveUp live own due (same (by rw [tried]))
      · rw [if_neg due] at tried
        have answered : (w.on now i (·.attempt now r waited)).2 = .blockedBy h := by
          show ((w.store i).locks.attempt now r waited).answer = _
          rw [tried]
        rw [on_attempt_of_blockedBy answered]
        exact .blocked live own (Bool.eq_false_iff.mpr due)

end World

/-! ## At once -/

/-- A moment that may never come is what a duration leads to, if the clock can
show it. -/
theorem Instant.bind_after?_eq_some_iff {now limit : Instant} (le_last : now ≤ Instant.last)
    (patience : Option Duration) :
    patience.bind now.after? = some limit
      ↔ limit ≤ Instant.last ∧ patience = some (limit - now) := by
  cases patience with
  | none => exact iff_of_false nofun (fun eq => nomatch eq.2)
  | some d =>
    rw [Option.bind_some, Instant.after?_eq_some_iff le_last, Option.some.injEq]
    simp only [Instant, Duration] at *
    omega

/-- Who has patience has time, and who has none has not. -/
theorem Instant.reached_bind_after? (now : Instant) (patience : Option Duration) :
    reached now (patience.bind now.after?) = true ↔ ∃ d, patience = some d ∧ d ≤ 0 := by
  cases patience with
  | none => exact iff_of_false nofun (fun ⟨_, eq, _⟩ => nomatch eq)
  | some d =>
    rw [Option.bind_some, Instant.after?]
    split
    · next beyond =>
      refine iff_of_false nofun ?_
      rintro ⟨_, ⟨⟩, le⟩
      exact Int.not_lt.mpr le beyond.1
    · rw [reached, decide_eq_true_iff]
      constructor
      · intro le
        refine ⟨d, rfl, ?_⟩
        simp only [Instant, Duration] at *
        omega
      · rintro ⟨_, ⟨⟩, le⟩
        simp only [Instant, Duration] at *
        omega

namespace Scene

/-- **What asking for a lock comes to at once**, in the middle of something or
not: the call goes on with its answer, or waits. -/
structure Asks (s : Scene) (key holder : Bytes) (hold patience : Option Duration)
    (stack : List Frame) : Prop where
  /-- Who holds the lock is let in again, and nothing changes about any lock. -/
  own : ∀ h, s.world.currentStore.locks.live? s.now key = some h → h.holder = holder →
    ∃ w, (∀ j, (w.store j).locks = (s.world.store j).locks)
      ∧ Control.run s.now s.world ⟨.perform (.acquire key holder hold patience), stack⟩
        = Control.run s.now w ⟨.answer (.flag true), stack⟩
  /-- A lock that nobody holds is granted, whatever the patience. -/
  free : s.world.currentStore.locks.live? s.now key = none →
    ∃ w generation, (w.store s.world.current).locks.stored? key
        = some ⟨holder, s.now,
            (hold <|> s.world.currentStore.settings.defaultHold).bind s.now.after?, generation⟩
      ∧ (∀ j other, j ≠ s.world.current ∨ other ≠ key →
        (w.store j).locks.stored? other = (s.world.store j).locks.stored? other)
      ∧ Control.run s.now s.world ⟨.perform (.acquire key holder hold patience), stack⟩
        = Control.run s.now w ⟨.answer (.flag true), stack⟩
  /-- One without patience is refused a lock that another holds. -/
  refused : ∀ h, s.world.currentStore.locks.live? s.now key = some h → h.holder ≠ holder →
    ∀ d, patience = some d → d ≤ 0 →
    ∃ w, (∀ j, (w.store j).locks = (s.world.store j).locks)
      ∧ Control.run s.now s.world ⟨.perform (.acquire key holder hold patience), stack⟩
        = Control.run s.now w ⟨.answer (.flag false), stack⟩
  /-- Anyone else waits, up to the instant that the patience leads to. -/
  waits : ∀ h, s.world.currentStore.locks.live? s.now key = some h → h.holder ≠ holder →
    (∀ d, patience = some d → 0 < d) →
    ∃ giveUp : Option Instant,
      (∀ limit, giveUp = some limit ↔ limit ≤ Instant.last ∧ patience = some (limit - s.now))
      ∧ Control.run s.now s.world ⟨.perform (.acquire key holder hold patience), stack⟩
        = (s.world, .waiting
            (.lock s.world.current
              ⟨key, holder, hold <|> s.world.currentStore.settings.defaultHold, giveUp, .caller⟩
              .answer)
            stack (sooner giveUp h.deadline))

/-- **Whoever asks for a lock** gets it or gives up at once, or waits from then on. -/
theorem asks {s : Scene} (there : s.world.current < s.world.stores.length)
    (le_last : s.now ≤ Instant.last) (key holder : Bytes) (hold patience : Option Duration)
    (stack : List Frame) : s.Asks key holder hold patience stack := by
  let request := s.world.currentStore.request s.now .caller key holder hold patience
  have trial := World.trial_attempt there s.now request false
  have asked : Control.run s.now s.world ⟨.perform (.acquire key holder hold patience), stack⟩
      = Control.run s.now s.world ⟨.arrive (.lock s.world.current request .answer), stack⟩ :=
    Control.run_of_moved rfl
  have limited (limit : Instant) : patience.bind s.now.after? = some limit ↔ _ :=
    Instant.bind_after?_eq_some_iff le_last patience
  have hopeless : reached s.now request.giveUp = true ↔ ∃ d, patience = some d ∧ d ≤ 0 :=
    Instant.reached_bind_after? s.now patience
  generalize tried : s.world.on s.now s.world.current (·.attempt s.now request false) = outcome
    at trial
  obtain ⟨w, attempt⟩ := outcome
  have goes (reply : Reply)
      (pass : Point.pass (.lock s.world.current request .answer) s.now s.world false stack
        = .passed w ⟨.answer reply, stack⟩) :
      Control.run s.now s.world ⟨.perform (.acquire key holder hold patience), stack⟩
        = Control.run s.now w ⟨.answer reply, stack⟩ := by
    rw [asked]
    refine Control.run_of_moved ?_
    simp only [Control.step, pass]
  cases trial with
  | @taken _ generation free stored aside =>
    have went := goes (.flag true) (by simp only [Point.pass, tried, World.fulfil])
    refine ⟨?_, fun _ => ⟨w, generation, stored, aside, went⟩, ?_, ?_⟩ <;>
      intro h live <;> cases free.symm.trans live
  | @kept _ g live own same =>
    have went := goes (.flag true) (by simp only [Point.pass, tried, World.fulfil])
    refine ⟨fun _ _ _ => ⟨w, same, went⟩, fun free => ?_, fun h held other => ?_,
      fun h held other => ?_⟩
    · cases free.symm.trans live
    · obtain rfl := Option.some.inj (held.symm.trans live)
      exact absurd own other
    · obtain rfl := Option.some.inj (held.symm.trans live)
      exact absurd own other
  | @gaveUp _ g live other due same =>
    have went := goes (.flag false) (by simp only [Point.pass, tried])
    refine ⟨fun h held own => ?_, fun free => ?_, fun _ _ _ _ _ _ => ⟨w, same, went⟩,
      fun _ _ _ patient => ?_⟩
    · obtain rfl := Option.some.inj (held.symm.trans live)
      exact absurd own other
    · cases free.symm.trans live
    · obtain ⟨d, eq, le⟩ := hopeless.mp due
      exact absurd (patient d eq) (Int.not_lt.mpr le)
  | @blocked g live other patient =>
    refine ⟨fun h held own => ?_, fun free => ?_, fun _ _ _ d eq le => ?_, fun h held _ _ => ?_⟩
    · obtain rfl := Option.some.inj (held.symm.trans live)
      exact absurd own other
    · cases free.symm.trans live
    · rw [hopeless.mpr ⟨d, eq, le⟩] at patient
      cases patient
    · obtain rfl := Option.some.inj (held.symm.trans live)
      refine ⟨request.giveUp, limited, asked.trans (Control.run_of_waits ?_)⟩
      simp only [Control.step, Point.pass, tried]
      rfl

end Scene

/-! ## After a wait -/

/-- A hold is gone once its deadline has passed. -/
theorem Locks.live?_of_past {l : Locks} {now later : Instant} {key : Bytes} {h : Hold}
    (live : l.live? now key = some h) {d : Instant} (deadline : h.deadline = some d)
    (past : d < later) : l.live? later key = none := by
  have gone : h.expired later = true := by
    rw [Hold.expired, deadline]
    exact decide_eq_true past
  rw [live?, (live?_eq_some_iff.mp live).1, Option.filter_some, gone]
  rfl

namespace Session

variable {s t u v : Session} {id i : Nat} {request : LockRequest} {purpose : Purpose}
  {stack : List Frame} {w : World} {goal : Control} {h : Hold}

/-- **How a call gets past the lock that it waits for.** -/
inductive PastLock (s : Session) (i : Nat) (request : LockRequest) (purpose : Purpose)
    (stack : List Frame) : World → Control → Prop
  /-- It gives up, at its very limit, on a lock that another holds. -/
  | gaveUp {w : World} {h : Hold} (due : request.giveUp = some s.now)
      (live : (s.world.store i).locks.live? s.now request.key = some h)
      (other : h.holder ≠ request.holder)
      (same : ∀ j, (w.store j).locks = (s.world.store j).locks) :
      PastLock s i request purpose stack w ⟨.answer (.flag false), stack⟩
  /-- It is granted the lock, before its limit or at it, and goes on to what it
  wanted the lock for. -/
  | granted {w : World} (in_time : ∀ limit, request.giveUp = some limit → s.now ≤ limit)
      (trial : World.Trial s.now s.world i request w .granted) :
      PastLock s i request purpose stack (w.fulfil s.now i request purpose stack).1
        (w.fulfil s.now i request purpose stack).2

/-- Who waits for a lock has not missed its limit. -/
theorem InOrder.in_time (order : s.InOrder)
    (waits : s.Suspends id (.lock i request purpose) stack) {limit : Instant}
    (limited : request.giveUp = some limit) : s.now ≤ limit := by
  obtain ⟨c, mem, -, point, -⟩ := waits
  refine order.timely c mem limit ?_
  rw [point]
  exact limited

/-- Who departs from a lock has got it, or given up at its limit. -/
theorem Departs.pastLock (order : s.InOrder) (there : i < s.world.stores.length)
    (departs : s.Departs id (.lock i request purpose) stack w goal t) :
    s.PastLock i request purpose stack w goal := by
  have in_time {limit : Instant} (limited : request.giveUp = some limit) : s.now ≤ limit :=
    order.in_time departs.suspends limited
  have trial := World.trial_attempt there s.now request true
  cases Point.passes_of_pass departs.pass with
  | gaveUp tried =>
    rw [tried] at trial
    cases trial with
    | gaveUp live other due same =>
      cases limited : request.giveUp with
      | none =>
        rw [limited] at due
        cases due
      | some limit =>
        rw [limited] at due
        have come : limit ≤ s.now := of_decide_eq_true due
        obtain rfl : s.now = limit := Int.le_antisymm (in_time limited) come
        exact .gaveUp limited live other same
  | granted tried =>
    rw [tried] at trial
    exact .granted (fun limit limited => in_time limited) trial

/-- **While another holds the key, the only way past is to give up.** -/
theorem PastLock.gaveUp_of_live (past : s.PastLock i request purpose stack w goal)
    (live : (s.world.store i).locks.live? s.now request.key = some h)
    (other : h.holder ≠ request.holder) :
    request.giveUp = some s.now ∧ goal = ⟨.answer (.flag false), stack⟩ := by
  cases past with
  | gaveUp due => exact ⟨due, rfl⟩
  | granted _ trial =>
    cases trial with
    | taken free => exact absurd (free.symm.trans live) nofun
    | kept held own =>
      obtain rfl := Option.some.inj (held.symm.trans live)
      exact absurd own other

/-- **How a call fares that waits for a lock**, from a session on. -/
structure AwaitsLock (s : Session) (id i : Nat) (request : LockRequest) (purpose : Purpose)
    (stack : List Frame) : Prop where
  /-- It waits up to its limit at the latest, and not on when the session has come
  to rest there. -/
  in_time : ∀ limit, request.giveUp = some limit → s.now ≤ limit ∧ (s.AtRest → s.now < limit)
  /-- It waits on until it is the next to look again and gets past the lock. -/
  fate : ∀ {t}, s.Stages t → Stays id (.lock i request purpose) stack s t
    ∨ ∃ u w goal v, Stays id (.lock i request purpose) stack s u
      ∧ u.Departs id (.lock i request purpose) stack w goal v ∧ v.Stages t
  /-- It gets past the lock by giving up at its very limit while another holds the
  key, or it is granted the lock. -/
  past : ∀ {t w goal u}, s.Stages t → t.Departs id (.lock i request purpose) stack w goal u →
    t.PastLock i request purpose stack w goal

/-- **How another's hold keeps a call waiting** for a lock, as long as nobody gives
the hold back or clears it away. -/
structure Detains (s : Session) (h : Hold) (id i : Nat) (request : LockRequest)
    (purpose : Purpose) (stack : List Frame) : Prop where
  /-- Up to the deadline the call gets past the lock by giving up only, and so at
  its limit only. -/
  meanwhile : ∀ {t w goal u}, s.Stages t →
    (∀ e ∈ s.scene.since t.scene, e.Spares i request.key h.holder) →
    (∀ d, h.deadline = some d → t.now ≤ d) →
    t.Departs id (.lock i request purpose) stack w goal u →
    request.giveUp = some t.now ∧ goal = ⟨.answer (.flag false), stack⟩
  /-- A call whose limit comes no later than the deadline gives up at its limit. -/
  gives_up : ∀ {t limit}, s.Stages t →
    (∀ e ∈ s.scene.since t.scene, e.Spares i request.key h.holder) →
    request.giveUp = some limit → (∀ d, h.deadline = some d → limit ≤ d) →
    t.AtRest → limit ≤ t.now →
    ∃ u w v, s.Stages u ∧ u.now = limit
      ∧ u.Departs id (.lock i request purpose) stack w ⟨.answer (.flag false), stack⟩ v
      ∧ v.Stages t
  /-- A call whose limit comes after the deadline looks again one nanosecond after
  the deadline, when only calls with smaller numbers have looked again at that
  instant, and takes the lock unless one of those was granted it. -/
  rechecks : ∀ {t u d}, s.Stages t →
    (∀ e ∈ s.scene.since t.scene, e.Spares i request.key h.holder) →
    h.deadline = some d → (∀ limit, request.giveUp = some limit → d < limit) →
    t.now ≤ d → t.Stage u → d < u.now →
    u.now = d + 1 ∧ ∃ v before c after, u.Earlier id v ∧ v.Next before c after
      ∧ c.id = id ∧ c.point = .lock i request purpose ∧ c.stack = stack
      ∧ u.drain = (v.resumed before c after).drain
      ∧ ((∀ e ∈ u.scene.since v.scene, ∀ holder, ¬ e.Grants i request.key holder) →
        ∃ (w : World) (generation : Nat), (w.store i).locks.stored? request.key
            = some ⟨request.holder, d + 1, request.hold.bind (d + 1).after?, generation⟩
          ∧ v.Departs id (.lock i request purpose) stack
            (w.fulfil (d + 1) i request purpose stack).1
            (w.fulfil (d + 1) i request purpose stack).2 (v.resumed before c after))

/-- The store of a lock that is waited for is there. -/
theorem Reachable.present (reachable : s.Reachable) {c : Call} (mem : c ∈ s.calls) :
    c.point.Present s.world := by
  obtain ⟨hash, settings, environment, now, -, reached⟩ := reachable
  exact (Scene.Leads.present reached.leads c.thread (List.mem_map_of_mem mem)).point _ rfl

/-- **Who waits for a lock awaits it** in every respect. -/
theorem Reachable.awaitsLock (reachable : s.Reachable)
    (waits : s.Suspends id (.lock i request purpose) stack) :
    s.AwaitsLock id i request purpose stack where
  in_time limit limited := by
    refine ⟨reachable.inOrder.in_time waits limited, fun rest => ?_⟩
    obtain ⟨c, mem, -, point, -⟩ := waits
    refine rest.lt_limit mem ?_
    rw [point]
    exact limited
  fate stages := stages.stays_or_departs ..
  past stages departs := by
    have further := reachable.stages stages
    obtain ⟨c, mem, -, point, -⟩ := departs.suspends
    have present := further.present mem
    rw [point] at present
    exact departs.pastLock further.inOrder present

/-- What spares a hold on the way to a session spares it on the way to an earlier
one. -/
theorem spared_before {key holder : Bytes} (first : s.Stages u) (rest : u.Stages t)
    (spared : ∀ e ∈ s.scene.since t.scene, e.Spares i key holder) :
    ∀ e ∈ s.scene.since u.scene, e.Spares i key holder := by
  intro e mem
  refine spared e ?_
  rw [Scene.since, World.since_trans first.leads.events rest.leads.events]
  exact List.mem_append_left _ mem

/-- **A hold that nobody ends keeps a call waiting** through its deadline, unless
the limit comes before. -/
theorem AwaitsLock.still (fares : s.AwaitsLock id i request purpose stack)
    (waits : s.Suspends id (.lock i request purpose) stack)
    (live : (s.world.store i).locks.live? s.now request.key = some h)
    (other : h.holder ≠ request.holder) (stages : s.Stages t)
    (spared : ∀ e ∈ s.scene.since t.scene, e.Spares i request.key h.holder)
    (lasting : ∀ d, h.deadline = some d → t.now ≤ d)
    (patient : ∀ limit, request.giveUp = some limit → t.now < limit) :
    t.Suspends id (.lock i request purpose) stack := by
  refine ((fares.fate stages).resolve_right ?_).suspends waits
  rintro ⟨u, w, goal, v, stays, departs, more⟩
  have first := stays.stages
  have le : u.now ≤ t.now := Stages.now_le (.head departs.stage more)
  have held := (Scene.Leads.keeps first.leads live
    (spared_before first (.head departs.stage more) spared)
    (fun d eq => Int.le_trans le (lasting d eq))).1
  obtain ⟨due, -⟩ := (fares.past first departs).gaveUp_of_live held other
  exact absurd (patient u.now due) (Int.not_lt.mpr le)

/-- **Once a key is free, who waits for it is next to take it**, after calls with
smaller numbers. -/
theorem Reachable.takes (reachable : s.Reachable)
    (waits : s.Suspends id (.lock i request purpose) stack)
    (free : (s.world.store i).locks.live? s.now request.key = none) :
    ∃ v before c after, s.Earlier id v ∧ v.Next before c after
      ∧ c.id = id ∧ c.point = .lock i request purpose ∧ c.stack = stack
      ∧ s.drain = (v.resumed before c after).drain
      ∧ ((∀ e ∈ s.scene.since v.scene, ∀ holder, ¬ e.Grants i request.key holder) →
        ∃ (w : World) (generation : Nat), (w.store i).locks.stored? request.key
            = some ⟨request.holder, s.now, request.hold.bind s.now.after?, generation⟩
          ∧ v.Departs id (.lock i request purpose) stack
            (w.fulfil s.now i request purpose stack).1
            (w.fulfil s.now i request purpose stack).2 (v.resumed before c after)) := by
  obtain ⟨c, mem, rfl, point, rfl⟩ := waits
  have order := reachable.inOrder
  have bell : c.point.bell? = some (i, request.key) := by rw [point, Point.bell?]
  have ready : c.ready s.now s.world = true := by
    refine (order.vigilant c mem).watches.resolve_right ?_
    rintro ⟨moment, blocked, -⟩
    obtain ⟨h, live, -⟩ := blocked.held bell
    exact absurd (free.symm.trans live) nofun
  obtain ⟨v, before, after, earlier, next, drain_eq⟩ := order.turn_of_ready mem ready
  refine ⟨v, before, c, after, earlier, next, rfl, point, rfl, drain_eq, fun ungranted => ?_⟩
  have still_free : (v.world.store i).locks.live? v.now request.key = none := by
    rw [earlier.now_eq, Option.eq_none_iff_forall_ne_some]
    intro h live
    obtain before | ⟨e, mem, grants⟩ := earlier.evolves.gained live
    · exact absurd (free.symm.trans before) nofun
    · exact ungranted e mem h.holder grants
  have present := (reachable.stages earlier.stages).present next.mem
  rw [point] at present
  have trial := World.trial_attempt present v.now request true
  generalize tried : v.world.on v.now i (·.attempt v.now request true) = outcome at trial
  obtain ⟨w, attempt⟩ := outcome
  cases trial with
  | @taken _ generation _ stored =>
    rw [earlier.now_eq] at stored tried
    have pass : c.point.pass v.now v.world true c.stack
        = .passed (w.fulfil s.now i request purpose c.stack).1
          (w.fulfil s.now i request purpose c.stack).2 := by
      rw [point, Point.pass, earlier.now_eq, tried]
    have departs := Departs.intro next pass
    rw [point] at departs
    exact ⟨w, generation, stored, departs⟩
  | kept live | gaveUp live | blocked live => exact absurd (still_free.symm.trans live) nofun

/-- **Whoever has the key keeps those waiting** who want it, up to its deadline. -/
theorem Reachable.detains (reachable : s.Reachable)
    (waits : s.Suspends id (.lock i request purpose) stack)
    (live : (s.world.store i).locks.live? s.now request.key = some h)
    (other : h.holder ≠ request.holder) : s.Detains h id i request purpose stack := by
  have fares := reachable.awaitsLock waits
  have meanwhile {t : Session} {w : World} {goal : Control} {u : Session} (stages : s.Stages t)
      (spared : ∀ e ∈ s.scene.since t.scene, e.Spares i request.key h.holder)
      (lasting : ∀ d, h.deadline = some d → t.now ≤ d)
      (departs : t.Departs id (.lock i request purpose) stack w goal u) :
      request.giveUp = some t.now ∧ goal = ⟨.answer (.flag false), stack⟩ :=
    (fares.past stages departs).gaveUp_of_live
      (Scene.Leads.keeps stages.leads live spared lasting).1 other
  refine ⟨meanwhile, fun {t limit} stages spared limited lasting rest le => ?_,
    fun {t u d} stages spared deadline patient before stage after => ?_⟩
  · obtain stays | ⟨u, w, goal, v, stays, departs, more⟩ := fares.fate stages
    · have still := stays.suspends waits
      have early := ((reachable.stages stages).awaitsLock still).in_time limit limited
      exact absurd (early.2 rest) (Int.not_lt.mpr le)
    · have first := stays.stages
      have in_time := ((reachable.stages first).awaitsLock departs.suspends).in_time limit limited
      obtain ⟨due, rfl⟩ := meanwhile first
        (spared_before first (.head departs.stage more) spared)
        (fun d eq => Int.le_trans in_time.1 (lasting d eq)) departs
      rw [limited] at due
      obtain rfl := Option.some.inj due
      exact ⟨u, w, v, first, rfl, departs, more⟩
  · have lasting : ∀ x, h.deadline = some x → t.now ≤ x := by
      intro x eq
      rwa [Option.some.inj (eq.symm.trans deadline)]
    have still := fares.still waits live other stages spared lasting
      (fun limit limited => Int.lt_of_le_of_lt before (patient limit limited))
    have held := (Scene.Leads.keeps stages.leads live spared lasting).1
    -- the clock stops right after the deadline, and the hold is over
    obtain ⟨idle, le_last, early, same⟩ := stage.of_now_lt (Int.lt_of_le_of_lt before after)
    obtain ⟨c, mem, rfl, point, rfl⟩ := still
    have rest : t.AtRest := ⟨(reachable.stages stages).inOrder.vigilant, idle⟩
    have le := rest.le_deadline le_last early mem (by rw [point, Point.bell?]) held deadline
    obtain now_eq : u.now = d + 1 := by
      simp only [Instant] at *
      omega
    have free : (u.world.store i).locks.live? u.now request.key = none := by
      rw [same]
      exact Locks.live?_of_past held deadline after
    have suspended : u.Suspends c.id (.lock i request purpose) c.stack := by
      rw [same]
      exact ⟨c, mem, rfl, point, rfl⟩
    rw [← now_eq]
    exact ⟨rfl, (reachable.stages (stages.tail stage)).takes suspended free⟩

/-- **Locks are acquired to the instant.** Whenever a lock is asked for, in a call or
in the middle of one, its holder is let in again at once, a free lock is granted
at once, one without patience is refused at once, and anyone else waits, with the
limit that the patience leads to (`Scene.Asks`). A call that has to wait is
suspended. From then on it gets past the lock by giving up, at exactly its limit
and on another's live hold, or by being granted it, no later than the limit
(`Session.AwaitsLock`). A hold that nobody ends keeps it waiting up to its limit,
or through the deadline; and right after the deadline it takes the lock, unless
that was granted to a call with a smaller number (`Session.Detains`). Every hold
there is began at the clock of its grant, and has its deadline from there. -/
theorem acquires_exactly {s : Session} (reachable : s.Reachable) :
    (∀ m, s.scene.Leads m → m.now ≤ Instant.last → ∀ key holder hold patience stack,
        m.Asks key holder hold patience stack)
      ∧ (∀ a w p stack wake,
        Control.run s.now s.world ⟨.perform a, []⟩ = (w, .waiting p stack wake) →
        (s.call a).1.Suspends s.nextId p stack ∧ (s.call a).1.world = w)
      ∧ (∀ before c after w p stack wake, c.retry s.now s.world = (w, .waiting p stack wake) →
        (s.resumed before c after).Suspends c.id p stack ∧ (s.resumed before c after).world = w)
      ∧ (∀ id i request purpose stack, s.Suspends id (.lock i request purpose) stack →
        s.AwaitsLock id i request purpose stack
          ∧ ∀ h, (s.world.store i).locks.live? s.now request.key = some h →
            h.holder ≠ request.holder → s.Detains h id i request purpose stack)
      ∧ ∀ m, s.scene.Leads m → ∀ i key h, (m.world.store i).locks.stored? key = some h →
        (∃ e ∈ m.world.events, e.Grants i key h.holder ∧ e.time = h.since)
          ∧ ∃ hold : Option Duration, h.deadline = hold.bind h.since.after? := by
  refine ⟨fun m leads le_last key holder hold patience stack => ?_,
    fun a w p stack wake waits => suspends_call waits,
    fun before c after w p stack wake waits => suspends_resumed waits,
    fun id i request purpose stack waits => ⟨reachable.awaitsLock waits,
      fun h live other => reachable.detains waits live other⟩,
    fun m leads i key h stored => ?_⟩
  · obtain ⟨hash, settings, environment, now, -, reached⟩ := reachable
    have turned := (Scene.Leads.balanced (reached.leads.trans leads)).seated.toTurned
    exact Scene.asks turned.current le_last key holder hold patience stack
  · obtain ⟨hash, settings, environment, now, -, reached⟩ := reachable
    have leads := reached.leads.trans leads
    obtain ⟨⟨e, mem, grants, time⟩, deadline, -⟩ := Scene.Leads.arises leads stored
    refine ⟨⟨e, ?_, grants, time⟩, deadline⟩
    rw [World.events_eq_since (Scene.Leads.events leads)]
    exact List.mem_append_left _ (List.mem_reverse.mpr mem)

/-- A session in which a key is held up to instant 100, and another has asked for it
who waits up to instant 50. -/
def asked : Session := (held.call (.acquire [1] [30] none (some 50))).1

theorem acquires_exactly_of_held :
    held.Reachable
      ∧ ∃ hold u w v, held.Stages u ∧ u.now = 50
        ∧ u.Departs 1 (.lock 0 ⟨[1], [30], hold, some 50, .caller⟩ .answer) [] w
          ⟨.answer (.flag false), []⟩ v := by
  have rest₀ : (start (fun _ => 0) {} (fun _ => none) 0).AtRest := (Quiescent.start ..).atRest
  have reachable : held.Reachable :=
    (reachable_start _ _ _ (by decide)).carryOutAll rest₀ _
  have rest : held.AtRest := rest₀.carryOut (.call (.acquire [1] [10] (some 100) none))
  obtain ⟨asks, filed, -⟩ := acquires_exactly reachable
  have live : held.scene.world.currentStore.locks.live? held.scene.now [1]
      = some ⟨[10], 0, some 100, 0⟩ := by decide +kernel
  obtain ⟨giveUp, limited, ran⟩ := (asks held.scene .refl (by decide +kernel) [1] [30] none
    (some 50) []).waits _ live (by decide) (by rintro _ ⟨⟩; decide)
  obtain rfl : giveUp = some 50 := (limited 50).mpr (by decide +kernel)
  have stage : held.Stage asked := .call rest.idle _
  obtain ⟨waits, -⟩ := filed _ _ _ _ _ ran
  rw [show held.scene.world.current = 0 by decide +kernel, show held.nextId = 1 by decide +kernel]
    at waits
  -- nobody ends the hold while the clock moves on to instant 60
  have settled : asked.drain.AtRest := (rest.vigilant.call _).atRest_drain
  have stages : asked.Stages (asked.drain.carryOutAll [.advance 60]).1 :=
    asked.stages_drain.trans (settled.stages_carryOutAll _)
  obtain ⟨-, detains⟩ := (acquires_exactly (reachable.stages (.single stage))).2.2.2.1 1 0 _ _ _
    waits
  obtain ⟨u, w, v, first, now_eq, departs, -⟩ :=
    (detains ⟨[10], 0, some 100, 0⟩ (by decide +kernel) (by decide)).gives_up stages
      (by unfold Event.Spares; decide +kernel) rfl (by rintro _ ⟨⟩; decide)
      (settled.carryOut (.advance 60)) (by decide +kernel)
  exact ⟨reachable, _, u, w, v, .head stage first, now_eq, departs⟩

end Session

end AdvisoryStore
