import AdvisoryStore.Proofs.Isolation
import AdvisoryStore.Proofs.Likeness.World
import AdvisoryStore.Proofs.Steering

/-!
# What a store shows at a moment

For what is said of a workload on a store it does not matter which cells
its keys fall into, which holds are over and still stored, or who has asked
for the counters. A **view** of a store keeps the rest: what is live of each
key, the records, and what has happened there that was not fleeting
(`World.view`).

What an operation does to a view depends on the view alone. Here this is
said of the operations that runs are made of, one equation for each; and
then of a run that begins and of one that ends, in a store in which nobody
is in its way (`World.view_enterRun_of_record`, `World.enterRun_of_none`,
`World.view_conclude`).
-/

namespace AdvisoryStore

/-- **A view of a store.** -/
structure View where
  /-- What is live of each key. -/
  live : Bytes → Option Hold
  records : Records
  /-- What has happened that was not fleeting, oldest first. -/
  told : List Happening

namespace View

/-- Something more has happened. -/
def tell (v : View) (happened : List Happening) : View := { v with told := v.told ++ happened }

/-- A key is held. -/
def grant (v : View) (key : Bytes) (h : Hold) : View :=
  { v with live := fun other => if other = key then some h else v.live other }

/-- A key is free. -/
def drop (v : View) (key : Bytes) : View :=
  { v with live := fun other => if other = key then none else v.live other }

/-- A record is stored. -/
def put (v : View) (key : Bytes) (content : Content) : View :=
  { v with records := v.records.put key content }

variable {v : View} {key : Bytes}

@[simp] theorem tell_nil (v : View) : v.tell [] = v := by
  rw [tell, List.append_nil]

@[simp] theorem tell_tell (v : View) (first rest : List Happening) :
    (v.tell first).tell rest = v.tell (first ++ rest) := by
  rw [tell, tell, tell, List.append_assoc]

@[simp] theorem drop_tell (v : View) (key : Bytes) (happened : List Happening) :
    (v.tell happened).drop key = (v.drop key).tell happened := rfl

@[simp] theorem put_tell (v : View) (key : Bytes) (content : Content) (happened : List Happening) :
    (v.tell happened).put key content = (v.put key content).tell happened := rfl

/-- Whoever takes a free key and lets go of it leaves it as it was. -/
theorem drop_grant (free : v.live key = none) (h : Hold) : (v.grant key h).drop key = v := by
  obtain ⟨live, records, told⟩ := v
  unfold drop grant
  congr
  funext other
  dsimp only
  split
  · next same => rw [same, ← free]
  · next apart => rfl

end View

namespace World

/-- **What a store of the world shows** at a moment. -/
def view (w : World) (now : Instant) (i : Nat) : View where
  live := (w.store i).locks.live? now
  records := (w.store i).records
  told := Happening.lasting (w.history i)

variable {w u : World} {now : Instant} {i : Nat}

/-- What a store said last stands at the end of its history. -/
theorem history_putBack (there : i < w.stores.length) (now : Instant) (s : Store)
    (happened : List Happening) :
    (w.putBack now i s happened).history i = w.history i ++ happened := by
  have here : (happened.map (Event.mk i now)).filter (·.store = i)
      = happened.map (Event.mk i now) :=
    List.filter_eq_self.mpr (fun e mem => by
      obtain ⟨what, -, rfl⟩ := List.mem_map.mp mem
      exact decide_eq_true rfl)
  unfold history
  rw [events_putBack there, List.reverse_append, List.reverse_reverse, List.filter_append, here,
    List.map_append, List.map_map]
  exact congrArg (_ ++ ·) (List.map_id happened)

/-- **What an operation shows** is what its store shows after it, and what it
has added. -/
theorem view_on {α : Type} (there : i < w.stores.length) (f : Store → Outcome Store α) :
    (w.on now i f).1.view now i
      = { live := (f (w.store i)).after.locks.live? now
          records := (f (w.store i)).after.records
          told := (w.view now i).told ++ Happening.lasting (f (w.store i)).happened } := by
  have store : (w.on now i f).1.store i = (f (w.store i)).after :=
    (store_putBack there now _ _ i).trans (if_pos rfl)
  have history : (w.on now i f).1.history i = w.history i ++ (f (w.store i)).happened :=
    history_putBack there ..
  unfold view
  rw [store, history, Happening.lasting_append]

/-- A world in which what is looked at is left alone shows what it did. -/
theorem view_of_unmoved (unmoved : w.Unmoved .all now u) (i : Nat) :
    u.view now i = w.view now i := by
  have live : (u.store i).locks.live? now = (w.store i).locks.live? now :=
    funext fun key => ((unmoved.stores i).locks key trivial).live
  unfold view
  rw [live, (unmoved.stores i).whole rfl, lasting_history, lasting_history,
    (unmoved.whole rfl).lasting]

/-- A remark is told, if it lasts, and changes nothing else that is seen. -/
theorem view_note (there : i < w.stores.length) (now : Instant) (what : Happening) :
    (w.note now i what).view now i = (w.view now i).tell (Happening.lasting [what]) :=
  view_on there (·.noting [what] ())

/-! ## The operations that runs are made of -/

/-- **Whoever asks for a free lock has it.** -/
theorem view_attempt_of_free (there : i < w.stores.length) {r : LockRequest}
    (free : (w.view now i).live r.key = none)
    (lasts : ∀ d, r.hold.bind now.after? = some d → now ≤ d) (waited : Bool) :
    (w.on now i (·.attempt now r waited)).2 = .granted
      ∧ ∃ h : Hold, h.holder = r.holder ∧ h.deadline = r.hold.bind now.after?
        ∧ (w.on now i (·.attempt now r waited)).1.view now i
          = ((w.view now i).grant r.key h).tell [.acquired r.claimant r.key r.holder waited] := by
  have attempt := Locks.attempt_of_live?_eq_none free waited
  -- a hold that is over may still be stored, so the lock is granted on what is left after a look
  let looked := ((w.store i).locks.consult now r.key).after
  let h : Hold := ⟨r.holder, now, r.hold.bind now.after?, (looked.cells.get r.key).grants⟩
  have current : h.expired now = false := Hold.expired_eq_false_iff.mpr lasts
  refine ⟨congrArg Outcome.answer attempt, h, rfl, rfl, ?_⟩
  have live : ((w.store i).locks.attempt now r waited).after.live? now
      = fun other => if other = r.key then some h else (w.store i).locks.live? now other := by
    rw [attempt]
    funext other
    rw [Locks.live?, Locks.stored?_grant]
    split
    · next same => rw [Option.filter_some, current]; rfl
    · exact Locks.live?_consult _ (Int.le_refl now) ..
  have told : Happening.lasting ((w.store i).locks.attempt now r waited).happened
      = [.acquired r.claimant r.key r.holder waited] := by
    rw [attempt, Happening.lasting_append, Locks.lasting_consult]
    rfl
  rw [view_on there]
  show View.mk (((w.store i).locks.attempt now r waited).after.live? now) (w.store i).records
    (_ ++ Happening.lasting ((w.store i).locks.attempt now r waited).happened) = _
  rw [live, told]
  rfl

/-- **Whoever reads changes nothing**, and is given the record. -/
theorem view_read (there : i < w.stores.length) (now : Instant) (key : Bytes) :
    (w.on now i (·.read key)).2 = (w.view now i).records.get? key
      ∧ (w.on now i (·.read key)).1.view now i
        = (w.view now i).tell
          [if ((w.view now i).records.get? key).isSome then .hit key else .missed key] := by
  refine ⟨Store.answer_read .., ?_⟩
  rw [view_on there]
  show _ = View.tell _ [if ((w.store i).records.get? key).isSome then .hit key else .missed key]
  unfold Store.read
  cases (w.store i).records.get? key <;> rfl

/-- **Whoever lets go of what is its own frees the key.** -/
theorem view_relinquish_of_own (there : i < w.stores.length) {key holder : Bytes} {h : Hold}
    (live : (w.view now i).live key = some h) (own : h.holder = holder) (claimant : Claimant) :
    (w.relinquish now i claimant key holder).view now i
      = ((w.view now i).drop key).tell [.released claimant key holder] := by
  have freed : (((w.store i).locks.drop key).ring key).live? now
      = fun other => if other = key then none else (w.store i).locks.live? now other := by
    funext other
    rw [Locks.live?_ring, Locks.live?_drop]
  have outcome : (w.store i).relinquish now claimant key holder
      = ⟨{ w.store i with locks := ((w.store i).locks.drop key).ring key }.note
          [.released claimant key holder], [.released claimant key holder], ()⟩ := by
    simp only [Store.relinquish, Store.release, Store.onLocks, Locks.release_of_own live own]
    rfl
  unfold relinquish
  rw [view_on there, outcome]
  show View.mk ((((w.store i).locks.drop key).ring key).live? now) _ _ = _
  rw [freed]
  rfl

/-- **Whoever holds a key may store its record.** -/
theorem view_write_of_own (there : i < w.stores.length) {key holder : Bytes} {h : Hold}
    (live : (w.view now i).live key = some h) (own : h.holder = holder) (claimant : Claimant)
    (content : Content) :
    (w.on now i (·.write now claimant key content holder)).2 = .ok ()
      ∧ (w.on now i (·.write now claimant key content holder)).1.view now i
        = ((w.view now i).put key content).tell [.wrote claimant key holder content] := by
  have held : (w.store i).locks.live? now key = some h := live
  have permitted : ∀ g, (w.store i).locks.live? now key = some g → g.holder = holder := by
    intro g found
    rwa [Option.some.inj (found.symm.trans held)]
  have asked : (w.store i).permits now key holder = ⟨w.store i, [], true⟩ := by
    refine Store.onLocks_eq_self ?_
    simp [Locks.permits, Locks.consult_of_live? held, own]
  have wrote := Store.write_of_permitted permitted claimant content
  rw [asked] at wrote
  refine ⟨congrArg Outcome.answer wrote, ?_⟩
  rw [view_on there, wrote]
  rfl

/-! ## Runs -/

variable {r : Run} {h : Hold} {content : Content}

/-- **A run that finds a record** is given it, and lets go of its lock. -/
theorem view_enterRun_of_record (there : r.store < w.stores.length)
    (record : (w.view now r.store).records.get? r.key = some content)
    (live : (w.view now r.store).live r.key = some h) (own : h.holder = r.holder)
    (script : List Action) (stack : List Frame) :
    (w.enterRun now r script stack).2 = ⟨.answer (.ran content true []), stack⟩
      ∧ (w.enterRun now r script stack).1.view now r.store
        = ((w.view now r.store).drop r.key).tell
          [.hit r.key, .cached r.key r.holder content, .released .run r.key r.holder] := by
  obtain ⟨answer, read⟩ := w.view_read there now r.key
  have there := (w.steady_on now r.store (·.read r.key)).there there
  unfold enterRun
  -- from here on only what is shown of each world in between matters
  generalize w.on now r.store (·.read r.key) = looked at answer read there ⊢
  obtain ⟨u, found⟩ := looked
  obtain rfl : found = some content := answer.trans record
  rw [record] at read
  have noted := view_note there now (.cached r.key r.holder content)
  have there := (u.steady_note now r.store (.cached r.key r.holder content)).there there
  dsimp only at read ⊢
  refine ⟨rfl, ?_⟩
  rw [view_relinquish_of_own there (h := h) ?_ own, noted, read]
  · simp [Happening.lasting, Happening.lasting?]
  · rw [noted, read]
    exact live

/-- **A run that finds none** begins to do its script. -/
theorem enterRun_of_none (there : r.store < w.stores.length)
    (absent : (w.view now r.store).records.get? r.key = none) (a : Action) (script : List Action)
    (stack : List Frame) :
    (w.enterRun now r (a :: script) stack).2 = ⟨.perform a, .script r [] script :: stack⟩
      ∧ (w.enterRun now r (a :: script) stack).1.view now r.store
        = (w.view now r.store).tell [.missed r.key, .computing r.key r.holder]
      ∧ ⟨r.store, now, .computing r.key r.holder⟩
        ∈ (w.enterRun now r (a :: script) stack).1.events := by
  obtain ⟨answer, read⟩ := w.view_read there now r.key
  have there := (w.steady_on now r.store (·.read r.key)).there there
  unfold enterRun
  generalize w.on now r.store (·.read r.key) = looked at answer read there ⊢
  obtain ⟨u, found⟩ := looked
  obtain rfl : found = none := answer.trans absent
  rw [absent] at read
  have noted := view_note there now (.computing r.key r.holder)
  refine ⟨rfl, ?_, ?_⟩
  · show (u.note now r.store (.computing r.key r.holder)).view now r.store = _
    rw [noted, read]
    simp [Happening.lasting, Happening.lasting?]
  · show _ ∈ (u.note now r.store (.computing r.key r.holder)).events
    rw [note, on, events_putBack there]
    exact List.mem_cons_self

/-- **A run that has its result stores it**, and lets go of its lock. -/
theorem view_conclude (there : r.store < w.stores.length) (outcome : r.outcome = .ok content)
    (live : (w.view now r.store).live r.key = some h) (own : h.holder = r.holder)
    (answers : List Reply) :
    (w.conclude now r answers).2 = .ran content false answers
      ∧ (w.conclude now r answers).1.view now r.store
        = (((w.view now r.store).put r.key content).drop r.key).tell
          [.computed r.key r.holder, .wrote .run r.key r.holder content,
            .released .run r.key r.holder, .committed r.key r.holder content] := by
  have noted := view_note there now (.computed r.key r.holder)
  have there := (w.steady_note now r.store (.computed r.key r.holder)).there there
  unfold conclude
  generalize w.note now r.store (.computed r.key r.holder) = computed at noted there ⊢
  have live : (computed.view now r.store).live r.key = some h := by
    rw [noted]
    exact live
  obtain ⟨answer, wrote⟩ := computed.view_write_of_own there live own .run content
  have there :=
    (computed.steady_on now r.store (·.write now .run r.key content r.holder)).there there
  rw [outcome]
  dsimp only
  generalize computed.on now r.store (·.write now .run r.key content r.holder) = written
    at answer wrote there ⊢
  obtain ⟨u, verdict⟩ := written
  obtain rfl : verdict = .ok () := answer
  dsimp only at wrote there ⊢
  have live : (u.view now r.store).live r.key = some h := by
    rw [wrote]
    exact live
  have released := view_relinquish_of_own there live own .run
  have there := (u.steady_relinquish now r.store .run r.key r.holder).there there
  refine ⟨rfl, ?_⟩
  rw [view_note there, released, wrote, noted]
  simp [Happening.lasting, Happening.lasting?]

end World

end AdvisoryStore
