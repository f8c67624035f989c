import AdvisoryStore.Proofs.Acquiring
import AdvisoryStore.Proofs.Agreement

/-!
# Waiting for the end of a hold

Who waits for the end of a hold waits for the end of that one. Until it looks again
the key may have been given up and taken any number of times, by others or by the
very same holder, with the same instants; what tells its hold from all of them is
the generation, which is of one hold only (`Scene.Leads.eq_of_generation`).

So the call is told that the hold has ended exactly if the hold has
(`World.look_awaitEnd`); and it is told at the clock at which the hold ended,
since from then on it has cause to look again, and the clock stands still while
anyone has (`Session.Reachable.ended`). If its limit comes first it is told that
the hold goes on. Either way nothing changes about what is held.
-/

namespace AdvisoryStore

/-! ## Looking whether a hold has ended -/

/-- **The same keys are held**, in the same way, from now on. -/
def World.SameLive (now : Instant) (w w' : World) : Prop :=
  ∀ i key later, now ≤ later →
    (w'.store i).locks.live? later key = (w.store i).locks.live? later key

/-- Looking whether a hold has ended is looking. -/
theorem Locks.after_awaitEnd (l : Locks) (now : Instant) (key : Bytes) (generation : Nat)
    (giveUp : Option Instant) :
    (l.awaitEnd now key generation giveUp).after = (l.consult now key).after := by
  unfold awaitEnd
  generalize l.consult now key = looked
  obtain ⟨after, happened, held⟩ := looked
  cases held with
  | none => rfl
  | some h => simp only; split <;> [rfl; split <;> rfl]

namespace World

variable {now : Instant} {w : World} {i : Nat} {key : Bytes} {generation : Nat}
  {giveUp : Option Instant}

theorem SameLive.trans {u w' : World} (first : w.SameLive now u) (rest : u.SameLive now w') :
    w.SameLive now w' :=
  fun i key later le => (rest i key later le).trans (first i key later le)

/-- What only looks at a key changes nothing of what is live. -/
theorem sameLive_on {α : Type} {f : Store → Outcome Store α}
    (looks : (f (w.store i)).after.locks = ((w.store i).locks.consult now key).after) :
    w.SameLive now (w.on now i f).1 := by
  intro j other later le
  show ((w.putBack now i (f (w.store i)).after _).store j).locks.live? later other = _
  by_cases there : i < w.stores.length
  · rw [store_putBack there]
    split
    · next here =>
      rw [looks, Locks.live?_consult _ le, here]
    · rfl
  · rw [putBack_of_not_lt there]

/-- **What comes of looking whether a hold has ended.** -/
inductive Look (now : Instant) (w : World) (i : Nat) (key : Bytes) (generation : Nat)
    (giveUp : Option Instant) : World → Wait → Prop
  /-- The key is free, or a later hold is live. -/
  | ended {u : World}
      (gone : ∀ h, (w.store i).locks.live? now key = some h → h.generation ≠ generation)
      (same : w.SameLive now u) : Look now w i key generation giveUp u .ended
  /-- The hold is live, and the time to give up has come. -/
  | gaveUp {u : World} {h : Hold} (live : (w.store i).locks.live? now key = some h)
      (own : h.generation = generation) (due : reached now giveUp = true)
      (same : w.SameLive now u) : Look now w i key generation giveUp u .gaveUp
  /-- The hold is live, and there is time to wait. -/
  | held {h : Hold} (live : (w.store i).locks.live? now key = some h)
      (own : h.generation = generation) (patient : reached now giveUp = false) :
      Look now w i key generation giveUp w (.heldBy h)

theorem look_awaitEnd (now : Instant) (w : World) (i : Nat) (key : Bytes) (generation : Nat)
    (giveUp : Option Instant) :
    Look now w i key generation giveUp (w.on now i (·.awaitEnd now key generation giveUp)).1
      (w.on now i (·.awaitEnd now key generation giveUp)).2 := by
  have same : w.SameLive now (w.on now i (·.awaitEnd now key generation giveUp)).1 :=
    sameLive_on (Locks.after_awaitEnd ..)
  have idle {h : Hold}
      (waiting : (w.on now i (·.awaitEnd now key generation giveUp)).2 = .heldBy h) :=
    on_awaitEnd_of_heldBy waiting
  have answer : (w.on now i (·.awaitEnd now key generation giveUp)).2
      = ((w.store i).locks.awaitEnd now key generation giveUp).answer := rfl
  have looked := (w.store i).locks.answer_consult now key
  unfold Locks.awaitEnd at answer
  generalize (w.store i).locks.consult now key = consulted at answer looked
  obtain ⟨after, happened, found⟩ := consulted
  obtain rfl : found = (w.store i).locks.live? now key := looked
  cases live : (w.store i).locks.live? now key with
  | none =>
    rw [live] at answer
    rw [answer]
    exact .ended (fun h eq => nomatch live.symm.trans eq) same
  | some h =>
    rw [live] at answer
    by_cases other : h.generation ≠ generation
    · simp only [if_pos other] at answer
      rw [answer]
      refine .ended (fun g eq => ?_) same
      rwa [← Option.some.inj (live.symm.trans eq)]
    · simp only [if_neg other] at answer
      have own := Decidable.not_not.mp other
      by_cases due : reached now giveUp = true
      · simp only [if_pos due] at answer
        rw [answer]
        exact .gaveUp live own due same
      · simp only [if_neg due] at answer
        rw [idle answer]
        exact .held live own (Bool.eq_false_iff.mpr due)

end World

/-! ## At once -/

namespace Scene

/-- **What asking for the end of a hold comes to at once**, in the middle of
something or not: the call goes on with its answer, or waits. -/
structure AsksEnd (s : Scene) (key : Bytes) (patience : Option Duration) (stack : List Frame) :
    Prop where
  /-- There is nothing to wait for when nobody holds the key. -/
  free : s.world.currentStore.locks.live? s.now key = none →
    ∃ w, s.world.SameLive s.now w
      ∧ Control.run s.now s.world ⟨.perform (.wait key patience), stack⟩
        = Control.run s.now w ⟨.answer (.flag true), stack⟩
  /-- One without patience is told that the hold goes on. -/
  refused : ∀ h, s.world.currentStore.locks.live? s.now key = some h →
    ∀ d, patience = some d → d ≤ 0 →
    ∃ w, s.world.SameLive s.now w
      ∧ Control.run s.now s.world ⟨.perform (.wait key patience), stack⟩
        = Control.run s.now w ⟨.answer (.flag false), stack⟩
  /-- Anyone else waits for the end of this very hold, up to the instant that the
  patience leads to. -/
  waits : ∀ h, s.world.currentStore.locks.live? s.now key = some h →
    (∀ d, patience = some d → 0 < d) →
    ∃ (w : World) (giveUp : Option Instant), s.world.SameLive s.now w
      ∧ (∀ limit, giveUp = some limit ↔ limit ≤ Instant.last ∧ patience = some (limit - s.now))
      ∧ Control.run s.now s.world ⟨.perform (.wait key patience), stack⟩
        = (w, .waiting (.release s.world.current key h.generation giveUp) stack
            (sooner giveUp h.deadline))

theorem asksEnd {s : Scene} (le_last : s.now ≤ Instant.last) (key : Bytes)
    (patience : Option Duration) (stack : List Frame) : s.AsksEnd key patience stack := by
  have began : s.world.SameLive s.now
      (s.world.on s.now s.world.current (·.beginWait s.now key)).1 := World.sameLive_on rfl
  have looked : (s.world.on s.now s.world.current (·.beginWait s.now key)).2
      = s.world.currentStore.locks.live? s.now key := Locks.answer_consult ..
  have still := s.world.current_on s.now s.world.current (·.beginWait s.now key)
  have limited (limit : Instant) : patience.bind s.now.after? = some limit ↔ _ :=
    Instant.bind_after?_eq_some_iff le_last patience
  have hopeless := Instant.reached_bind_after? s.now patience
  generalize tried : s.world.on s.now s.world.current (·.beginWait s.now key) = outcome
    at began looked still
  obtain ⟨u, held⟩ := outcome
  obtain rfl : held = _ := looked
  cases live : s.world.currentStore.locks.live? s.now key with
  | none =>
    rw [live] at tried
    refine ⟨fun _ => ⟨u, began, Control.run_of_moved ?_⟩, fun h eq => ?_, fun h eq => ?_⟩
    · simp only [Control.step, Control.begin, tried]
    · cases live.symm.trans eq
    · cases live.symm.trans eq
  | some h =>
    rw [live] at tried
    have asked : Control.run s.now s.world ⟨.perform (.wait key patience), stack⟩
        = Control.run s.now u ⟨.arrive (.release u.current key h.generation
          (patience.bind s.now.after?)), stack⟩ := by
      refine Control.run_of_moved ?_
      simp only [Control.step, Control.begin, tried]
    have there : (u.store s.world.current).locks.live? s.now key = some h :=
      (began s.world.current key s.now (Int.le_refl _)).trans live
    have look := World.look_awaitEnd s.now u s.world.current key h.generation
      (patience.bind s.now.after?)
    rw [show u.current = s.world.current from still] at asked
    generalize waited : u.on s.now s.world.current (·.awaitEnd s.now key h.generation
      (patience.bind s.now.after?)) = outcome at look
    obtain ⟨w, answer⟩ := outcome
    refine ⟨fun eq => ?_, fun g eq d given le => ?_, fun g eq patient => ?_⟩
    · cases live.symm.trans eq
    · obtain rfl := Option.some.inj (eq.symm.trans live)
      have due := hopeless.mpr ⟨d, given, le⟩
      cases look with
      | ended gone => exact absurd rfl (gone g there)
      | gaveUp _ _ _ same =>
        refine ⟨w, began.trans same, asked.trans (Control.run_of_moved ?_)⟩
        simp only [Control.step, Point.pass, waited]
      | held _ _ early => cases due.symm.trans early
    · obtain rfl := Option.some.inj (eq.symm.trans live)
      cases look with
      | ended gone => exact absurd rfl (gone g there)
      | gaveUp _ _ due =>
        obtain ⟨d, given, le⟩ := hopeless.mp due
        exact absurd (patient d given) (Int.not_lt.mpr le)
      | @held k found =>
        obtain rfl := Option.some.inj (found.symm.trans there)
        refine ⟨w, _, began, limited, asked.trans (Control.run_of_waits ?_)⟩
        simp only [Control.step, Point.pass, waited]

end Scene

/-! ## Until the hold has ended -/

namespace Session

variable {s t u v : Session} {id i : Nat} {key : Bytes} {generation : Nat}
  {giveUp : Option Instant} {stack : List Frame} {w : World} {goal : Control} {h : Hold}

/-- **A hold ends by a stage**: somebody gives it back or clears it away, or the
first instant after its deadline has come. -/
structure Ends (s : Session) (h : Hold) (i : Nat) (key : Bytes) (t : Session) : Prop where
  stage : s.Stage t
  live : (s.world.store i).locks.live? s.now key = some h
  gone : (t.world.store i).locks.live? t.now key ≠ some h
  cause : (t.now = s.now
      ∧ ∃ e ∈ s.scene.since t.scene, e.store = i ∧ e.what.frees key h.holder = true)
    ∨ ∃ d, h.deadline = some d ∧ t.now = d + 1

/-- **A hold that a call faces ends in one of the ways there are.** -/
theorem InOrder.ends (order : s.InOrder) (waits : s.Suspends id (.release i key generation giveUp)
    stack) (stage : s.Stage t) (live : (s.world.store i).locks.live? s.now key = some h)
    (gone : (t.world.store i).locks.live? t.now key ≠ some h) : s.Ends h i key t := by
  refine ⟨stage, live, gone, ?_⟩
  obtain lt | same_now := Int.lt_or_eq_of_le stage.leads.now_le
  · -- the clock has moved on, and nothing else has changed
    obtain ⟨idle, le_last, early, same⟩ := stage.of_now_lt lt
    have stored := (Locks.live?_eq_some_iff.mp live).1
    have gone : h.expired t.now = true := by
      refine Bool.of_not_eq_false (fun lasting => gone ?_)
      rw [same]
      exact Locks.live?_eq_some_iff.mpr ⟨stored, lasting⟩
    unfold Hold.expired at gone
    cases deadline : h.deadline with
    | none =>
      rw [deadline] at gone
      cases gone
    | some d =>
      rw [deadline] at gone
      have past : d < t.now := of_decide_eq_true gone
      obtain ⟨c, mem, -, point, -⟩ := waits
      have rest : s.AtRest := ⟨order.vigilant, idle⟩
      have le := rest.le_deadline le_last early mem (by rw [point, Point.bell?]) live deadline
      refine .inr ⟨d, rfl, ?_⟩
      simp only [Instant] at *
      omega
  · refine .inl ⟨same_now.symm, ?_⟩
    refine Classical.byContradiction (fun none_frees => gone ?_)
    refine (Scene.Leads.keeps stage.leads live (fun e mem here => ?_) (fun d deadline => ?_)).1
    · exact Bool.eq_false_iff.mpr (fun frees => none_frees ⟨e, mem, here, frees⟩)
    · have lasting := (Locks.live?_eq_some_iff.mp live).2
      exact Int.le_trans (Int.le_of_eq same_now.symm)
        (Hold.expired_eq_false_iff.mp lasting d deadline)

/-- **What is live with the generation of a hold is that hold.** -/
theorem Reachable.eq_of_generation (reachable : s.Reachable)
    (live : (s.world.store i).locks.live? s.now key = some h) (stages : s.Stages t) {g : Hold}
    (later : (t.world.store i).locks.live? t.now key = some g)
    (same : g.generation = h.generation) : g = h := by
  obtain ⟨hash, settings, environment, now, -, reached⟩ := reachable
  exact Scene.Leads.eq_of_generation stages.leads (Scene.Leads.numbered reached.leads i)
    (Locks.live?_eq_some_iff.mp live).1 (Locks.live?_eq_some_iff.mp later).1 same

/-- A hold that is gone does not come back. -/
theorem Reachable.not_live_of_gone (reachable : s.Reachable)
    (live : (s.world.store i).locks.live? s.now key = some h) (stages : s.Stages t)
    (gone : (t.world.store i).locks.live? t.now key ≠ some h) (further : t.Stages u) :
    (u.world.store i).locks.live? u.now key ≠ some h := by
  obtain ⟨hash, settings, environment, now, -, reached⟩ := reachable
  have numbered := Scene.Leads.numbered reached.leads i
  have stored := (Locks.live?_eq_some_iff.mp live).1
  -- on its own, since it is slow to find the scenes in the goal by unification
  have still_gone := Scene.Leads.gone stages.leads numbered stored further.leads gone
  exact still_gone

/-- **Who waits for the end of a hold that has ended has cause to look again.** -/
theorem Reachable.ready_of_gone (reachable : s.Reachable)
    (live : (s.world.store i).locks.live? s.now key = some h) (stages : s.Stages t) {c : Call}
    (mem : c ∈ t.calls) (point : c.point = .release i key h.generation giveUp)
    (gone : (t.world.store i).locks.live? t.now key ≠ some h) :
    c.ready t.now t.world = true := by
  refine (((reachable.stages stages).inOrder.vigilant c mem).watches).resolve_right ?_
  rintro ⟨moment, blocked, -⟩
  rw [point] at blocked
  obtain ⟨g, held, same, -⟩ := blocked
  obtain rfl := reachable.eq_of_generation live stages held same
  exact gone held

/-- **A hold that has ended while a call waits for that ended at this clock**, by a
stage in which the call did not look. -/
theorem Reachable.ended (reachable : s.Reachable)
    (waits : s.Suspends id (.release i key h.generation giveUp) stack)
    (live : (s.world.store i).locks.live? s.now key = some h)
    (stays : Stays id (.release i key h.generation giveUp) stack s t)
    (gone : (t.world.store i).locks.live? t.now key ≠ some h) :
    ∃ u v, Stays id (.release i key h.generation giveUp) stack s u ∧ u.Ends h i key v
      ∧ Stays id (.release i key h.generation giveUp) stack v t ∧ v.now = t.now := by
  induction stays with
  | refl => exact absurd live gone
  | @tail t t' stays stage ih =>
    have stages := Stays.stages stays
    have waits_on := Stays.suspends stays waits
    by_cases still : (t.world.store i).locks.live? t.now key = some h
    · have order := (reachable.stages stages).inOrder
      exact ⟨t, t', stays, order.ends waits_on stage.1 still gone, .refl, rfl⟩
    · obtain ⟨u, v, first, ends, rest, now_eq⟩ := ih still
      refine ⟨u, v, first, ends, rest.tail stage, now_eq.trans ?_⟩
      -- the clock stands still, since the call has cause to look again
      obtain ⟨c, mem, -, point, -⟩ := waits_on
      have ready := reachable.ready_of_gone live stages mem point still
      obtain lt | same := Int.lt_or_eq_of_le stage.1.leads.now_le
      · have idle := (stage.1.of_now_lt lt).1 c mem
        rw [isIdle, ready] at idle
        cases idle
      · exact same

/-- **How a call fares that waits for the end of a hold**, from a session on in which
the hold is live. -/
structure WatchesHold (s : Session) (h : Hold) (id i : Nat) (key : Bytes)
    (giveUp : Option Instant) (stack : List Frame) : Prop where
  /-- It waits up to its limit at the latest, and not on when the session has come
  to rest there. -/
  in_time : ∀ {t}, Stays id (.release i key h.generation giveUp) stack s t →
    ∀ limit, giveUp = some limit → t.now ≤ limit ∧ (t.AtRest → t.now < limit)
  /-- It waits on until it is the next to look again and is answered. -/
  fate : ∀ {t}, s.Stages t → Stays id (.release i key h.generation giveUp) stack s t
    ∨ ∃ u w goal v, Stays id (.release i key h.generation giveUp) stack s u
      ∧ u.Departs id (.release i key h.generation giveUp) stack w goal v ∧ v.Stages t
  /-- It is told that the hold goes on, at its very limit and if that is so; or that
  the hold has ended, at the very clock at which it has. Nothing changes about what
  is held. -/
  past : ∀ {t w goal u}, Stays id (.release i key h.generation giveUp) stack s t →
    t.Departs id (.release i key h.generation giveUp) stack w goal u →
    t.world.SameLive t.now w
      ∧ (goal = ⟨.answer (.flag false), stack⟩ ∧ giveUp = some t.now
          ∧ (t.world.store i).locks.live? t.now key = some h
        ∨ goal = ⟨.answer (.flag true), stack⟩
          ∧ ∃ x y, Stays id (.release i key h.generation giveUp) stack s x ∧ x.Ends h i key y
            ∧ Stays id (.release i key h.generation giveUp) stack y t ∧ y.now = t.now)
  /-- Once the hold has ended the call is told so before the clock moves on, whoever
  has the key by then. -/
  told : ∀ {t}, Stays id (.release i key h.generation giveUp) stack s t →
    (t.world.store i).locks.live? t.now key ≠ some h →
    ∃ v before c after w, t.Earlier id v ∧ t.drain = (v.resumed before c after).drain
      ∧ v.Departs id (.release i key h.generation giveUp) stack w ⟨.answer (.flag true), stack⟩
        (v.resumed before c after)
  /-- While it waits in a session at rest, the hold goes on. -/
  at_rest : ∀ {t}, Stays id (.release i key h.generation giveUp) stack s t → t.AtRest →
    (t.world.store i).locks.live? t.now key = some h

theorem Reachable.watchesHold (reachable : s.Reachable)
    (waits : s.Suspends id (.release i key h.generation giveUp) stack)
    (live : (s.world.store i).locks.live? s.now key = some h) :
    s.WatchesHold h id i key giveUp stack where
  in_time {t} stays limit limited := by
    obtain ⟨c, mem, -, point, -⟩ := stays.suspends waits
    have own : c.point.limit? = some limit := by
      rw [point]
      exact limited
    exact ⟨(reachable.stages stays.stages).inOrder.timely c mem limit own,
      fun rest => rest.lt_limit mem own⟩
  fate stages := stages.stays_or_departs ..
  past {t w goal u} stays departs := by
    have look := World.look_awaitEnd t.now t.world i key h.generation giveUp
    have passes := Point.passes_of_pass departs.pass
    cases passes with
    | waitOver ended looked =>
      rw [looked] at look
      cases ended with
      | true =>
        cases look with
        | ended gone same =>
          exact ⟨same, .inr ⟨rfl, reachable.ended waits live stays (fun held => gone h held rfl)⟩⟩
      | false =>
        cases look with
        | @gaveUp _ g held own due same =>
          obtain rfl := reachable.eq_of_generation live stays.stages held own
          refine ⟨same, .inl ⟨rfl, ?_, held⟩⟩
          obtain ⟨c, mem, -, point, -⟩ := departs.suspends
          cases giveUp with
          | none => cases due
          | some limit =>
            have order := (reachable.stages stays.stages).inOrder
            have in_time := order.timely c mem limit (by rw [point]; rfl)
            exact congrArg some (Int.le_antisymm (of_decide_eq_true due) in_time)
  told {t} stays gone := by
    obtain ⟨c, mem, rfl, point, rfl⟩ := stays.suspends waits
    have ready := reachable.ready_of_gone live stays.stages mem point gone
    obtain ⟨v, before, after, earlier, next, drain_eq⟩ :=
      (reachable.stages stays.stages).inOrder.turn_of_ready mem ready
    have look := World.look_awaitEnd v.now v.world i key h.generation giveUp
    generalize looked : v.world.on v.now i (·.awaitEnd v.now key h.generation giveUp) = outcome
      at look
    obtain ⟨w, answer⟩ := outcome
    -- what is live by now is another hold
    have another : ∀ g, (v.world.store i).locks.live? v.now key = some g →
        g.generation ≠ h.generation := by
      intro g held own
      obtain rfl := reachable.eq_of_generation live (stays.stages.trans earlier.stages) held own
      exact reachable.not_live_of_gone live stays.stages gone earlier.stages held
    cases look with
    | ended =>
      have pass : c.point.pass v.now v.world true c.stack
          = .passed w ⟨.answer (.flag true), c.stack⟩ := by
        rw [point, Point.pass, looked]
      have departs := Departs.intro next pass
      rw [point] at departs
      exact ⟨v, before, c, after, w, earlier, drain_eq, departs⟩
    | gaveUp held own => exact absurd own (another _ held)
    | held held own => exact absurd own (another _ held)
  at_rest {t} stays rest := by
    refine Classical.byContradiction (fun gone => ?_)
    obtain ⟨c, mem, -, point, -⟩ := stays.suspends waits
    have idle := rest.idle c mem
    rw [isIdle, reachable.ready_of_gone live stays.stages mem point gone] at idle
    cases idle

/-- **The end of a hold is observed to the instant.** Whenever the end of a key's hold
is waited for, in a call or in the middle of one, the call is told at once that the
key is free, or without patience that the hold goes on, and waits otherwise, for the
end of the very hold that is live (`Scene.AsksEnd`). From then on it is told that the
hold has ended at the clock at which it has, by whatever stage, whoever has taken the
key again; and that the hold goes on at its limit, if it does
(`Session.WatchesHold`). The holder of a key that asks for it again changes nothing
about any lock, and so neither ends a wait nor prolongs it. -/
theorem ends_observed_exactly {s : Session} (reachable : s.Reachable) :
    (∀ m, s.scene.Leads m → m.now ≤ Instant.last → ∀ key patience stack,
        m.AsksEnd key patience stack)
      ∧ (∀ a w p stack wake,
        Control.run s.now s.world ⟨.perform a, []⟩ = (w, .waiting p stack wake) →
        (s.call a).1.Suspends s.nextId p stack ∧ (s.call a).1.world = w)
      ∧ (∀ before c after w p stack wake, c.retry s.now s.world = (w, .waiting p stack wake) →
        (s.resumed before c after).Suspends c.id p stack ∧ (s.resumed before c after).world = w)
      ∧ (∀ id i key giveUp stack h, s.Suspends id (.release i key h.generation giveUp) stack →
        (s.world.store i).locks.live? s.now key = some h →
        s.WatchesHold h id i key giveUp stack)
      ∧ ∀ m, s.scene.Leads m → ∀ i request waited h,
        (m.world.store i).locks.live? m.now request.key = some h → h.holder = request.holder →
        ∀ j, ((m.world.on m.now i (·.attempt m.now request waited)).1.store j).locks
          = (m.world.store j).locks := by
  refine ⟨fun m _ le_last key patience stack => Scene.asksEnd le_last key patience stack,
    fun a w p stack wake waits => suspends_call waits,
    fun before c after w p stack wake waits => suspends_resumed waits,
    fun id i key giveUp stack h waits live => reachable.watchesHold waits live,
    fun m _ i request waited h live own j => World.locks_on ?_ j⟩
  show ((m.world.store i).locks.attempt m.now request waited).after = _
  rw [Locks.attempt_of_own live own]

/-- A session in which a key is held up to instant 100, and another waits to take
it. -/
def coveted : Session := (held.carryOut (.call (.acquire [1] [20] none none))).1

/-- Who waits up to instant 101 for the end of that hold is told of it there, after the
other has taken the key. -/
theorem ends_observed_exactly_of_coveted :
    coveted.Reachable
      ∧ ∃ u w v, coveted.Stages u ∧ u.now = 101
        ∧ u.Departs 2 (.release 0 [1] 0 (some 101)) [] w ⟨.answer (.flag true), []⟩ v := by
  have rest₀ : (start (fun _ => 0) {} (fun _ => none) 0).AtRest := (Quiescent.start ..).atRest
  have rest : coveted.AtRest :=
    (rest₀.carryOut (.call (.acquire [1] [10] (some 100) none))).carryOut _
  have reachable : coveted.Reachable :=
    (reachable_start _ _ _ (by decide)).carryOutAll rest₀
      [.call (.acquire [1] [10] (some 100) none), .call (.acquire [1] [20] none none)]
  let h : Hold := ⟨[10], 0, some 100, 0⟩
  obtain ⟨asks, filed, -⟩ := ends_observed_exactly reachable
  have live : coveted.scene.world.currentStore.locks.live? coveted.scene.now [1] = some h := by
    decide +kernel
  obtain ⟨w, giveUp, same, limited, ran⟩ := (asks coveted.scene .refl (by decide +kernel) [1]
    (some 101) []).waits _ live (by rintro _ ⟨⟩; decide)
  obtain rfl : giveUp = some 101 := (limited 101).mpr (by decide +kernel)
  obtain ⟨waits, -⟩ := filed _ _ _ _ _ ran
  rw [show coveted.scene.world.current = 0 by decide +kernel,
    show coveted.nextId = 2 by decide +kernel] at waits
  have stage : coveted.Stage (coveted.call (.wait [1] (some 101))).1 := .call rest.idle _
  -- when the clock has come to instant 150 the call has been answered
  have settled : (coveted.call (.wait [1] (some 101))).1.drain.AtRest :=
    (rest.vigilant.call _).atRest_drain
  have stages := (stages_drain _).trans (settled.stages_carryOut (.advance 150))
  obtain ⟨-, -, -, watches, -⟩ := ends_observed_exactly (reachable.stages (.single stage))
  have fares := watches 2 0 [1] (some 101) [] h waits (by decide +kernel)
  obtain stays | ⟨u, w, goal, v, stays, departs, more⟩ := fares.fate stages
  · have early := (fares.in_time stays 101 rfl).2 (settled.carryOut (.advance 150))
    exact absurd early (by decide +kernel)
  obtain ⟨-, ⟨-, due, held⟩ | ⟨rfl, x, y, first, ends, rest, now_eq⟩⟩ := fares.past stays departs
  · have lasting := Hold.expired_eq_false_iff.mp (Locks.live?_eq_some_iff.mp held).2 100 rfl
    rw [← Option.some.inj due] at lasting
    exact absurd lasting (by decide)
  · refine ⟨reachable, u, w, v, .head stage stays.stages, ?_, departs⟩
    rw [← now_eq]
    obtain ⟨-, e, mem, here, frees⟩ | ⟨d, deadline, ended⟩ := ends.cause
    · have begun := first.stages.tail ends.stage
      have further := rest.stages.trans (.head departs.stage more)
      have unfreed : ∀ e ∈ (coveted.call (.wait [1] (some 101))).1.scene.since
          ((coveted.call (.wait [1] (some 101))).1.drain.carryOut (.advance 150)).1.scene,
          e.Spares 0 [1] [10] := by
        unfold Event.Spares
        decide +kernel
      have spared := spared_before begun further unfreed e
      rw [Scene.since, World.since_trans first.stages.leads.events ends.stage.leads.events]
        at spared
      rw [spared (List.mem_append_right _ mem) here] at frees
      cases frees
    · cases deadline
      exact ended

end Session

end AdvisoryStore
