import AdvisoryStore.Proofs.InspectionBody
import AdvisoryStore.Proofs.Placement

/-!
# Whoever is asked says the same

Whether a key is held can be learnt in many ways: by looking at its lock,
by asking whether it is held and by whom, by a request, by waiting for the
end of its hold or for its lock without any patience, by writing or
releasing under some holder's name, and, for all keys at once, by counting
those that are held. Each way comes down to the live hold of the key, so
they agree with one another, whatever is still stored of holds that are
over (`Scene.consulting_agrees`).

They are asked as a caller asks: by a call that is made at a scene, of
which `Scene.told` is the answer. Asking changes the scene, so that each of
them is asked there first.
-/

namespace AdvisoryStore

/-- What is asked before a write is whether the live hold is the writer's. -/
theorem Locks.answer_permits_eq (l : Locks) (now : Instant) (key holder : Bytes) :
    (l.permits now key holder).answer = (l.live? now key).all (fun h => h.holder = holder) := by
  rw [← answer_consult]
  rfl

namespace World

/-- An operation of a store does not turn to another. -/
theorem current_on {α : Type} (w : World) (now : Instant) (i : Nat)
    (f : Store → Outcome Store α) : (w.on now i f).1.current = w.current := by
  show (w.putBack now i (f (w.store i)).after (f (w.store i)).happened).current = _
  unfold putBack
  split <;> rfl

/-- Beginning to wait changes nothing of what is live. -/
theorem live?_after_beginWait (w : World) (now : Instant) (i : Nat) (key : Bytes) :
    ((w.on now i (·.beginWait now key)).1.store i).locks.live? now key
      = (w.store i).locks.live? now key := by
  show ((w.putBack now i ((w.store i).beginWait now key).after _).store i).locks.live? _ _ = _
  by_cases there : i < w.stores.length
  · rw [store_putBack there, if_pos rfl]
    exact (w.store i).locks.live?_consult (Int.le_refl now) key key
  · rw [putBack_of_not_lt there]

end World

/-- **What a caller is told** who asks for an action, unless the call has to
wait for its answer. -/
def Scene.told (s : Scene) (a : Action) : Option Reply :=
  (Control.run s.now s.world ⟨.perform a, []⟩).2.reply?

namespace Scene

variable {s : Scene} {key holder : Bytes} {g : Hold}

/-- The hold of a key in the current store. -/
def live? (s : Scene) (key : Bytes) : Option Hold := s.world.currentStore.locks.live? s.now key

/-- An operation is answered in one move. -/
theorem told_operation (s : Scene) (o : Operation) :
    s.told (.operation o) = some (s.world.perform s.now o).2 := by
  rw [told, Control.run_operation, Standing.reply?]

/-! ## Asking about the lock -/

/-- The ways of looking at a key's lock come to the live hold. -/
theorem answer_look (s : Scene) (key : Bytes) :
    (s.world.on s.now s.world.current (·.look s.now key)).2 = s.live? key :=
  Locks.answer_consult ..

/-- A look is answered with the live hold, if there is one. -/
theorem told_look (s : Scene) (key : Bytes) :
    s.told (.operation (.look key)) = some ((s.live? key).elim .absent .hold) := by
  rw [told_operation, World.perform, ← answer_look]
  split <;> next eq => rw [eq]; rfl

theorem told_isHeld (s : Scene) (key : Bytes) :
    s.told (.operation (.isHeld key)) = some (.flag (s.live? key).isSome) := by
  rw [told_operation, World.perform, ← answer_look]

theorem told_isHeldBy (s : Scene) (key holder : Bytes) :
    s.told (.operation (.isHeldBy key holder))
      = some (.flag ((s.live? key).any (fun h => h.holder = holder))) := by
  rw [told_operation, World.perform, ← answer_look]

/-- The count of held keys is the number of live holds. -/
theorem told_heldCount (s : Scene) :
    s.told (.operation .heldCount)
      = some (.count (s.world.currentStore.locks.liveCount s.now)) := told_operation ..

/-- A request for a key's lock is answered from the live hold. -/
theorem told_inspect (s : Scene) (key : Bytes) (version : Nat) (keepAlive : Bool) :
    s.told (.operation (.inspect key version keepAlive))
      = some (.response ((s.live? key).elim (.notFound version keepAlive) (fun h =>
          { Response.text version keepAlive 200 Response.json (h.toJson s.now key) with
            cacheControl := some (utf8 "no-cache") }))) := by
  rw [told_operation, World.perform]
  show some (Reply.response (s.world.currentStore.inspectLock s.now key version keepAlive).answer)
    = _
  rw [Store.answer_inspectLock, live?]
  cases s.world.currentStore.locks.live? s.now key <;> rfl

/-! ## Asking for the lock, or for its end -/

/-- A time to give up that is now has come. -/
theorem reached_after?_zero (now : Instant) : reached now (now.after? 0) = true := by
  simp [Instant.after?, reached]

/-- **One without patience gets the lock, or is told that another has it.** -/
theorem told_acquire (s : Scene) (key holder : Bytes) (hold : Option Duration) :
    s.told (.acquire key holder hold (some 0))
      = some (.flag ((s.live? key).all (fun h => h.holder = holder))) := by
  let request := s.world.currentStore.request s.now .caller key holder hold (some 0)
  have late : reached s.now request.giveUp = true := reached_after?_zero s.now
  have sought : Control.step s.now s.world ⟨.perform (.acquire key holder hold (some 0)), []⟩
      = .moved s.world ⟨.arrive (.lock s.world.current request .answer), []⟩ := rfl
  have attempted : (s.world.on s.now s.world.current (·.attempt s.now request false)).2
      = if (s.live? key).all (fun h => h.holder = holder) then .granted else .gaveUp := by
    show (s.world.currentStore.locks.attempt s.now request false).answer = _
    cases live : s.live? key with
    | none => rw [Locks.attempt_of_live?_eq_none (r := request) live]; rfl
    | some g =>
      by_cases own : g.holder = holder
      · rw [Locks.attempt_of_own (r := request) live own]
        simp [own]
      · rw [Locks.attempt_of_other (r := request) live own, if_pos late]
        simp [own]
  rw [told, Control.run_of_moved sought]
  generalize tried : s.world.on s.now s.world.current (·.attempt s.now request false) = outcome
    at attempted
  obtain ⟨w, answer⟩ := outcome
  obtain rfl : answer = _ := attempted
  have answered : Control.step s.now s.world ⟨.arrive (.lock s.world.current request .answer), []⟩
      = .moved w ⟨.answer (.flag ((s.live? key).all (fun h => h.holder = holder))), []⟩ := by
    simp only [Control.step, Point.pass, tried]
    cases (s.live? key).all (fun h => h.holder = holder) <;> rfl
  rw [Control.run_of_moved answered, Control.run_answer, Standing.reply?]

/-- **One without patience is told at once whether a hold has ended.** -/
theorem told_wait (s : Scene) (key : Bytes) :
    s.told (.wait key (some 0)) = some (.flag (s.live? key).isNone) := by
  have looked : (s.world.on s.now s.world.current (·.beginWait s.now key)).2 = s.live? key :=
    Locks.answer_consult ..
  have begun := s.world.live?_after_beginWait s.now s.world.current key
  have current := s.world.current_on s.now s.world.current (·.beginWait s.now key)
  generalize began : s.world.on s.now s.world.current (·.beginWait s.now key) = outcome
    at looked begun current
  obtain ⟨w, held⟩ := outcome
  obtain rfl : held = s.live? key := looked
  cases live : s.live? key with
  | none =>
    rw [live] at began
    have answered : Control.step s.now s.world ⟨.perform (.wait key (some 0)), []⟩
        = .moved w ⟨.answer (.flag true), []⟩ := by
      simp only [Control.step, Control.begin, began]
    rw [told, Control.run_of_moved answered, Control.run_answer]
    rfl
  | some g =>
    rw [live] at began
    let point : Point := .release w.current key g.generation (s.now.after? 0)
    have arrived : Control.step s.now s.world ⟨.perform (.wait key (some 0)), []⟩
        = .moved w ⟨.arrive point, []⟩ := by
      simp only [Control.step, Control.begin, began]
      rfl
    have live : (w.store w.current).locks.live? s.now key = some g := by
      rw [current, begun]
      exact live
    have given_up : (w.on s.now w.current
        (·.awaitEnd s.now key g.generation (s.now.after? 0))).2 = .gaveUp := by
      show ((w.store w.current).locks.awaitEnd ..).answer = .gaveUp
      simp [Locks.awaitEnd, Locks.consult_of_live? live, reached_after?_zero]
    generalize tried : w.on s.now w.current
      (·.awaitEnd s.now key g.generation (s.now.after? 0)) = outcome at given_up
    obtain ⟨u, wait⟩ := outcome
    obtain rfl : wait = .gaveUp := given_up
    have answered : Control.step s.now w ⟨.arrive point, []⟩
        = .moved u ⟨.answer (.flag false), []⟩ := by
      simp only [Control.step, point, Point.pass, tried]
    rw [told, Control.run_of_moved arrived, Control.run_of_moved answered, Control.run_answer]
    rfl

/-! ## Writing and releasing -/

/-- **A write goes through unless another holds the key.** -/
theorem told_write (s : Scene) (key holder : Bytes) (content : Content) :
    s.told (.operation (.write key content holder))
      = some (if (s.live? key).all (fun h => h.holder = holder) then .done
        else .failed (.conflict key holder)) := by
  have asked : (s.world.currentStore.permits s.now key holder).answer
      = (s.live? key).all (fun h => h.holder = holder) := Locks.answer_permits_eq ..
  have written : (s.world.on s.now s.world.current
      (·.write s.now .caller key content holder)).2
      = if (s.live? key).all (fun h => h.holder = holder) then .ok ()
        else .error (.conflict key holder) := by
    show (s.world.currentStore.write s.now .caller key content holder).answer = _
    rw [← asked]
    unfold Store.write
    generalize s.world.currentStore.permits s.now key holder = outcome
    obtain ⟨after, happened, permitted⟩ := outcome
    cases permitted <;> rfl
  rw [told_operation, World.perform]
  generalize s.world.on s.now s.world.current _ = outcome at written
  obtain ⟨w, answer⟩ := outcome
  obtain rfl : answer = _ := written
  cases (s.live? key).all (fun h => h.holder = holder) <;> rfl

/-- **A release goes through for who holds the key.** -/
theorem told_release (s : Scene) (key holder : Bytes) :
    s.told (.operation (.release key holder))
      = some (if (s.live? key).any (fun h => h.holder = holder) then .done
        else .failed (.notHolder key holder)) := by
  have released : (s.world.on s.now s.world.current (·.release s.now .caller key holder)).2
      = if (s.live? key).any (fun h => h.holder = holder) then .ok ()
        else .error (.notHolder key holder) := by
    show (s.world.currentStore.locks.release s.now .caller key holder).answer = _
    have looked : (s.world.currentStore.locks.consult s.now key).answer = s.live? key :=
      Locks.answer_consult ..
    unfold Locks.release
    generalize s.world.currentStore.locks.consult s.now key = outcome at looked
    obtain ⟨after, happened, held⟩ := outcome
    obtain rfl : held = s.live? key := looked
    dsimp only
    cases (s.live? key).any (fun h => h.holder = holder) <;> rfl
  rw [told_operation, World.perform]
  generalize s.world.on s.now s.world.current _ = outcome at released
  obtain ⟨w, answer⟩ := outcome
  obtain rfl : answer = _ := released
  cases (s.live? key).any (fun h => h.holder = holder) <;> rfl

/-! ## All of them together -/

/-- **A key is held, by every account**: looking shows its hold, and
everything that depends on the hold goes by it. -/
structure TellsHeld (s : Scene) (key : Bytes) (g : Hold) : Prop where
  look : s.told (.operation (.look key)) = some (.hold g)
  isHeld : s.told (.operation (.isHeld key)) = some (.flag true)
  isHeldBy : s.told (.operation (.isHeldBy key g.holder)) = some (.flag true)
  isNotHeldBy : ∀ other, other ≠ g.holder →
    s.told (.operation (.isHeldBy key other)) = some (.flag false)
  /-- A request for the lock is answered with a text that is read as an object: the key,
  the holder, and the time that remains. -/
  inspect : ∀ version keepAlive, ∃ r left,
    s.told (.operation (.inspect key version keepAlive)) = some (.response r) ∧ r.status = 200
      ∧ r.body = Json.object
        [Json.member "key" (Json.quoted key), Json.member "holder" (Json.quoted g.holder), left]
      ∧ Json.read? r.body = some (.object
        [(utf8 "key", .string key), (utf8 "holder", .string g.holder),
          (utf8 "expires_in_ms", g.remaining s.now)])
  wait : s.told (.wait key (some 0)) = some (.flag false)
  acquire : ∀ other hold, other ≠ g.holder →
    s.told (.acquire key other hold (some 0)) = some (.flag false)
  write : ∀ content, s.told (.operation (.write key content g.holder)) = some .done
  writeRefused : ∀ other content, other ≠ g.holder →
    s.told (.operation (.write key content other)) = some (.failed (.conflict key other))
  release : s.told (.operation (.release key g.holder)) = some .done
  releaseRefused : ∀ other, other ≠ g.holder →
    s.told (.operation (.release key other)) = some (.failed (.notHolder key other))

/-- **A key is free, by every account.** -/
structure TellsFree (s : Scene) (key : Bytes) : Prop where
  look : s.told (.operation (.look key)) = some .absent
  isHeld : s.told (.operation (.isHeld key)) = some (.flag false)
  isNotHeldBy : ∀ holder, s.told (.operation (.isHeldBy key holder)) = some (.flag false)
  inspect : ∀ version keepAlive, ∃ r,
    s.told (.operation (.inspect key version keepAlive)) = some (.response r) ∧ r.status = 404
  wait : s.told (.wait key (some 0)) = some (.flag true)
  acquire : ∀ holder hold, s.told (.acquire key holder hold (some 0)) = some (.flag true)
  write : ∀ holder content, s.told (.operation (.write key content holder)) = some .done
  releaseRefused : ∀ holder,
    s.told (.operation (.release key holder)) = some (.failed (.notHolder key holder))

/-- **Every answer about a held key tells of its hold.** -/
theorem tellsHeld_of_live? (live : s.live? key = some g) : s.TellsHeld key g where
  look := by rw [told_look, live]; rfl
  isHeld := by rw [told_isHeld, live]; rfl
  isHeldBy := by rw [told_isHeldBy, live]; simp
  isNotHeldBy other ne := by rw [told_isHeldBy, live]; simp [Ne.symm ne]
  inspect version keepAlive := by
    have lasting : g.expired s.now = false := (Locks.live?_eq_some_iff.mp live).2
    rw [told_inspect, live]
    exact ⟨_, _, rfl, rfl, rfl, g.read?_toJson lasting key⟩
  wait := by rw [told_wait, live]; rfl
  acquire other hold ne := by rw [told_acquire, live]; simp [Ne.symm ne]
  write content := by rw [told_write, live]; simp
  writeRefused other content ne := by rw [told_write, live]; simp [Ne.symm ne]
  release := by rw [told_release, live]; simp
  releaseRefused other ne := by rw [told_release, live]; simp [Ne.symm ne]

/-- **Every answer about a free key tells that it is free.** -/
theorem tellsFree_of_live? (free : s.live? key = none) : s.TellsFree key where
  look := by rw [told_look, free]; rfl
  isHeld := by rw [told_isHeld, free]; rfl
  isNotHeldBy holder := by rw [told_isHeldBy, free]; rfl
  inspect version keepAlive := by
    rw [told_inspect, free]
    exact ⟨_, rfl, rfl⟩
  wait := by rw [told_wait, free]; rfl
  acquire holder hold := by rw [told_acquire, free]; rfl
  write holder content := by rw [told_write, free]; rfl
  releaseRefused holder := by rw [told_release, free]; rfl

/-- **Whoever is asked says the same.** In every scene that a session may
come to, a key is held by every account or free by every account, and as
many keys are counted as are said to be held. -/
theorem consulting_agrees {hash : Bytes → Nat} {settings : StoreSettings}
    {environment : Environment} {start : Instant}
    (reached : (Session.start hash settings environment start).scene.Leads s) :
    (∀ key, (∃ g, s.TellsHeld key g) ∨ s.TellsFree key)
      ∧ ∃ keys : List Bytes, keys.Nodup
        ∧ (∀ key, key ∈ keys ↔ s.told (.operation (.isHeld key)) = some (.flag true))
        ∧ s.told (.operation .heldCount) = some (.count keys.length) := by
  constructor
  · intro key
    cases live : s.live? key with
    | none => exact .inr (tellsFree_of_live? live)
    | some g => exact .inl ⟨g, tellsHeld_of_live? live⟩
  · have placed : s.world.currentStore.locks.Placed := Leads.placed reached s.world.current
    obtain ⟨keys, nodup, mem_iff, length_eq⟩ := Locks.exists_liveKeys placed s.now
    refine ⟨keys, nodup, fun key => ?_, ?_⟩
    · rw [told_isHeld, mem_iff key]
      simp [live?]
    · rw [told_heldCount, length_eq]

end Scene

/-- A session in which a key is held at its deadline, and the hold of
another is over and still stored. -/
def Session.lapsing : Session :=
  ((Session.start (fun _ => 0) {} (fun _ => none) 0).carryOutAll
    [.call (.acquire [1] [10] (some 7) none), .call (.acquire [2] [20] (some 6) none),
      .advance 7]).1

theorem Scene.consulting_agrees_of_lapsing :
    ((Session.lapsing.world.store 0).locks.storedCount = 2
      ∧ (∃ g, Session.lapsing.scene.TellsHeld [1] g) ∧ Session.lapsing.scene.TellsFree [2])
      ∧ ∃ keys : List Bytes, keys.Nodup
        ∧ (∀ key, key ∈ keys
          ↔ Session.lapsing.scene.told (.operation (.isHeld key)) = some (.flag true))
        ∧ Session.lapsing.scene.told (.operation .heldCount) = some (.count keys.length) := by
  have reached : (Session.start (fun _ => 0) {} (fun _ => none) 0).scene.Leads
      Session.lapsing.scene := Session.leads_carryOutAll ..
  obtain ⟨either, counted⟩ := Scene.consulting_agrees reached
  have held : (Session.lapsing.scene.live? [1]).isSome = true := by decide +kernel
  have free : Session.lapsing.scene.live? [2] = none := by decide +kernel
  refine ⟨⟨by decide +kernel, (either [1]).resolve_right (fun freed => ?_),
    (either [2]).resolve_left (fun held => ?_)⟩, counted⟩
  · have said := freed.isHeld
    rw [told_isHeld, held] at said
    cases said
  · obtain ⟨g, held⟩ := held
    have said := held.isHeld
    rw [told_isHeld, free] at said
    cases said

end AdvisoryStore
