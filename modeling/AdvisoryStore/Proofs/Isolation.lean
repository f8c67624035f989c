import AdvisoryStore.Proofs.Presence

/-!
# Whose record it is

The check before a write and the table of locks are separate things, and a
record could well come apart from the lock that is to guard it. It does
not. A record changes only by a write, one record at a time, by someone in
whose way no live lock was and who is told that it is done
(`Scene.Step.unwritten_or_writes`); whoever is told so has written
(`Thread.Turn.writes_of_confirms`). And a record is at any time the content
of the last write under its key, whoever has held which lock in between
(`Evolves.record?`).
-/

namespace AdvisoryStore

/-- The content that was written under a key. -/
def Happening.written? (key : Bytes) : Happening → Option Content
  | wrote _ k _ content => if k = key then some content else none
  | _ => none

/-- The content that was written under a key of a store. -/
def Event.written? (i : Nat) (key : Bytes) (e : Event) : Option Content :=
  if e.store = i then e.what.written? key else none

/-- **The last content to be written**, where the newest events come first. -/
def lastWritten (i : Nat) (key : Bytes) (events : List Event) : Option Content :=
  events.findSome? (Event.written? i key)

/-- The record of a key in a store by number. -/
def World.record? (w : World) (i : Nat) (key : Bytes) : Option Content :=
  (w.store i).records.get? key

theorem Happening.written?_of_not_isWrite {what : Happening} (unwritten : what.isWrite = false)
    (key : Bytes) : what.written? key = none := by
  cases what with
  | wrote => cases unwritten
  | _ => rfl

/-- An event that writes nothing leaves nothing under any key. -/
theorem Event.Unwritten.written? {e : Event} (unwritten : e.Unwritten) (i : Nat) (key : Bytes) :
    e.written? i key = none := by
  unfold Event.written?
  split
  · exact Happening.written?_of_not_isWrite unwritten key
  · rfl

@[simp] theorem lastWritten_nil (i : Nat) (key : Bytes) : lastWritten i key [] = none := rfl

/-- The last record written is among the newer events, if any of them writes one. -/
theorem lastWritten_append (i : Nat) (key : Bytes) (newer older : List Event) :
    lastWritten i key (newer ++ older)
      = (lastWritten i key newer).or (lastWritten i key older) :=
  List.findSome?_append

theorem lastWritten_of_unwritten {i : Nat} {key : Bytes} {events : List Event}
    (unwritten : ∀ e ∈ events, e.Unwritten) : lastWritten i key events = none :=
  List.findSome?_eq_none_iff.mpr (fun e mem => (unwritten e mem).written? i key)

@[simp] theorem Store.answer_read (s : Store) (key : Bytes) :
    (s.read key).answer = s.records.get? key := by
  unfold read
  split <;> next eq => exact eq.symm

/-! ## The record and the last write -/

/-- Nothing that happens to the locks is a write. -/
theorem Locks.Occurs.unwritten {l m : Locks} {now : Instant} {happened : List Happening}
    (occurs : l.Occurs now happened m) : ∀ what ∈ happened, what.isWrite = false := by
  cases occurs with
  | sweep => exact fun what mem => (l.quiet_sweep now what mem).2
  | @remark what told =>
    refine List.forall_mem_singleton.mpr ?_
    cases what with
    | wrote => exact told.elim
    | _ => rfl
  | _ => exact List.forall_mem_singleton.mpr rfl

namespace World

variable {P : Event → Prop} {now : Instant} {w w' : World}

/-- In a store that is not there no key has a record. -/
theorem record?_of_length_le {i : Nat} (absent : w.stores.length ≤ i) (key : Bytes) :
    w.record? i key = none := by
  rw [record?, store_of_length_le absent]
  exact Records.get?_new ..

/-- Who has a record somewhere has it in a store that is there. -/
theorem lt_length_of_record?_eq_some {i : Nat} {key : Bytes} {content : Content}
    (recorded : w.record? i key = some content) : i < w.stores.length := by
  refine Nat.lt_of_not_le (fun absent => ?_)
  rw [record?_of_length_le absent] at recorded
  cases recorded

/-- **A record is the last that was written**, and the one before if none was. -/
theorem Change.record? (change : Change P now w w') (i : Nat) (key : Bytes) :
    w'.record? i key = (lastWritten i key (w.since w').reverse).or (w.record? i key) := by
  obtain ⟨happened, occurs, since_eq⟩ | ⟨same, apart⟩ | ⟨absent, since_eq, settings, fresh⟩ :=
    change.store_cases i
  · have unwritten (all : ∀ what ∈ happened, what.isWrite = false) :
        lastWritten i key (w.since w').reverse = none := by
      rw [since_eq]
      refine lastWritten_of_unwritten (fun e mem => ?_)
      obtain ⟨what, what_mem, rfl⟩ := List.mem_map.mp (List.mem_reverse.mp mem)
      exact all what what_mem
    -- of what can happen in a store only a write is about records
    rw [World.record?, World.record?]
    generalize w'.store i = t at occurs
    cases occurs with
    | locks occurs => rw [unwritten occurs.unwritten, Option.none_or, Store.note]
    | @write k holder permitted claimant content =>
      have last : lastWritten i key (w.since w').reverse
          = if k = key then some content else none := by
        rw [since_eq]
        simp [lastWritten, Event.written?, Happening.written?]
      rw [last, Store.note, Records.get?_put]
      by_cases same : key = k
      · rw [if_pos same, if_pos same.symm, Option.some_or]
      · rw [if_neg same, if_neg (Ne.symm same), Option.none_or]
    | @remark what told =>
      have silent : what.isWrite = false := by
        cases what with
        | wrote => exact told.elim
        | _ => rfl
      rw [unwritten (List.forall_mem_singleton.mpr silent), Option.none_or, Store.note]
  · have unwritten : lastWritten i key (w.since w').reverse = none := by
      refine List.findSome?_eq_none_iff.mpr (fun e mem => if_neg ?_)
      exact apart e (List.mem_reverse.mp mem)
    rw [unwritten, Option.none_or, World.record?, same, World.record?]
  · rw [since_eq, List.reverse_nil, lastWritten_nil, Option.none_or,
      record?_of_length_le absent, World.record?, fresh]
    exact Records.get?_new ..

/-- **What an evolution leaves as a record** is what it wrote last, and what
was there before if it wrote nothing. -/
theorem Evolves.record? (evolves : Evolves P now w w') (i : Nat) (key : Bytes) :
    w'.record? i key = (lastWritten i key (w.since w').reverse).or (w.record? i key) := by
  induction evolves with
  | refl => rw [since_self, List.reverse_nil, lastWritten_nil, Option.none_or]
  | @tail u w' before change ih =>
    rw [since_trans (Evolves.events before).1 change.events.1, List.reverse_append,
      lastWritten_append, Option.or_assoc, ← ih]
    exact change.record? i key

/-- What writes nothing leaves every record. -/
theorem Evolves.record?_of_unwritten (evolves : Evolves Event.Unwritten now w w') (i : Nat)
    (key : Bytes) : w'.record? i key = w.record? i key := by
  have unwritten := (Evolves.events evolves).2
  rw [Evolves.record? evolves, lastWritten_of_unwritten, Option.none_or]
  intro e mem
  exact unwritten e (List.mem_reverse.mp mem)

/-! ## One write -/

variable {i : Nat} {claimant : Claimant} {key holder : Bytes} {content : Content}

/-- **A write is that of one record.** -/
theorem Writes.record? (h : Writes now w i claimant key holder content w') (j : Nat)
    (other : Bytes) :
    w'.record? j other
      = if j = i ∧ other = key then some content else w.record? j other := by
  obtain ⟨u, before, there, permitted, after⟩ := h
  have unwritten : Evolves Event.Unwritten now w u := before.mono (fun _ still => still.1)
  rw [Evolves.record?_of_unwritten after, ← Evolves.record?_of_unwritten unwritten j other]
  unfold World.record? withRecord
  rw [store_putBack there]
  by_cases here : j = i
  · subst here
    rw [if_pos rfl, Store.withRecord, Store.note, Records.get?_put]
    by_cases same : other = key
    · rw [if_pos same, if_pos ⟨rfl, same⟩]
    · rw [if_neg same, if_neg (fun both => same both.2)]
  · rw [if_neg here, if_neg (fun both => here both.1)]

/-- A write is on record. -/
theorem Writes.mem_since (h : Writes now w i claimant key holder content w') :
    ⟨i, now, .wrote claimant key holder content⟩ ∈ w.since w' := by
  obtain ⟨u, before, there, permitted, after⟩ := h
  have change : Change (fun _ => True) now u (u.withRecord now i claimant key holder content) :=
    change_withRecord there permitted trivial
  rw [since_trans (Evolves.events before).1 (change.events.1.trans (Evolves.events after).1),
    since_trans change.events.1 (Evolves.events after).1]
  refine List.mem_append_right _ (List.mem_append_left _ ?_)
  rw [since, withRecord, events_putBack there, addedTo_append, List.reverse_reverse]
  exact List.mem_singleton_self _

/-- **Nobody's live lock is in the way of a write**: not where it is made,
and not before the move that makes it. -/
theorem Writes.permitted (h : Writes now w i claimant key holder content w') :
    ∀ g, (w.store i).locks.live? now key = some g → g.holder = holder := by
  obtain ⟨u, before, -, permitted, -⟩ := h
  intro g live
  refine permitted g (Evolves.keeps before live (fun e mem _ => ?_)).1
  exact ((Evolves.events before).2 e mem).2 key g.holder

end World

namespace Thread

/-- **An answer confirms a write.** A caller is told that the write it asked for is
done, or a run returns what it has computed: so the call was, and so it is. -/
inductive Confirms (w : World) : Thread → Thread → Nat → Claimant → Bytes → Bytes → Content → Prop
  | write (key holder : Bytes) (content : Content) (stack : List Frame) :
      Confirms w (.going ⟨.perform (.operation (.write key content holder)), stack⟩)
        (.going ⟨.answer .done, stack⟩) w.current .caller key holder content
  | run {t : Thread} {r : Run} (due : t.due? = some r) (content : Content) (answers : List Reply)
      (stack : List Frame) :
      Confirms w t (.going ⟨.answer (.ran content false answers), stack⟩) r.store .run r.key
        r.holder content

variable {t : Thread} {now : Instant} {w w' : World}

/-- Only callers and runs are told that they have written. -/
theorem Confirms.claimant {u : Thread} {i : Nat} {claimant : Claimant} {key holder : Bytes}
    {content : Content} (confirms : t.Confirms w u i claimant key holder content) :
    claimant = .caller ∨ claimant = .run := by
  cases confirms with
  | write => exact .inl rfl
  | run => exact .inr rfl

/-- The store that an answer is about is there. -/
theorem Confirms.there {u : Thread} {i : Nat} {claimant : Claimant} {key holder : Bytes}
    {content : Content} (confirms : t.Confirms w u i claimant key holder content)
    (turned : w.Turned) (present : t.Present w) : i < w.stores.length := by
  cases confirms with
  | write => exact turned.current
  | run due => exact present.due due

/-- **A move writes one record or none**, and if it writes one the answer says so. -/
theorem Turn.unwritten_or_writes {t' : Option Thread} (turn : t.Turn now w w' t') :
    World.Evolves Event.Unwritten now w w'
      ∨ ∃ u i claimant key holder content, t' = some u
        ∧ t.Confirms w u i claimant key holder content
        ∧ World.Writes now w i claimant key holder content w' := by
  cases course_of_turn turn with
  | quiet evolves => exact .inl (evolves.mono (fun _ quiet => quiet.unwritten))
  | @writes key holder content stack eq =>
    obtain unwritten | ⟨wrote, ok⟩ :=
      w.unwritten_or_writes now w.current .caller key holder content
    · exact .inl unwritten
    · have done : (w.perform now (.write key content holder)).2 = .done := by
        rw [World.perform_write]
        exact World.verdict_eq_done_iff.mpr ok
      rw [eq, done]
      exact .inr ⟨_, _, _, _, _, _, rfl, .write .., wrote⟩
  | @enters u store request script outcome waited point granted =>
    have tried := w.evolves_attempt now store request waited
    rw [granted] at tried
    obtain unwritten | ⟨content, answers, wrote, ran⟩ := u.unwritten_or_writes_enterRun now
      ⟨store, request.key, request.holder, outcome⟩ script t.stack
    · exact .inl ((tried.mono (fun _ calm => calm.1.2)).trans unwritten)
    · have due : t.due? = some ⟨store, request.key, request.holder, outcome⟩ :=
        due?_of_point point
      rw [ran]
      exact .inr ⟨_, _, _, _, _, _, rfl, .run due content answers _,
        wrote.head (tried.mono (fun _ calm => calm.still))⟩
  | @ends r reply answers stack eq =>
    obtain unwritten | ⟨content, wrote, ran⟩ := w.unwritten_or_writes_conclude now r _
    · exact .inl unwritten
    · have due : t.due? = some r := by rw [eq, due?]
      rw [ran]
      exact .inr ⟨_, _, _, _, _, _, rfl, .run due content _ stack, wrote⟩

/-- **What an answer confirms has been written.** -/
theorem Turn.writes_of_confirms {u : Thread} {i : Nat} {claimant : Claimant} {key holder : Bytes}
    {content : Content} (turn : t.Turn now w w' (some u)) (there : i < w.stores.length)
    (confirms : t.Confirms w u i claimant key holder content) :
    World.Writes now w i claimant key holder content w' := by
  cases confirms with
  | write _ _ _ stack =>
    have acts : some ((w.perform now (.write key content holder)).1,
        some (Thread.going ⟨.answer (w.perform now (.write key content holder)).2, stack⟩))
          = some (w', some (.going ⟨.answer .done, stack⟩)) := turn_iff_act.mp turn
    simp only [Option.some.injEq, Prod.mk.injEq, going.injEq, Control.mk.injEq,
      Focus.answer.injEq, and_true] at acts
    obtain ⟨rfl, done⟩ := acts
    exact World.writes_of_done there done
  | @run _ r due _ answers stack =>
    cases returns_of_turn due turn with
    | ends done ended =>
      have wrote := World.writes_of_ran there (congrArg Prod.snd ended)
      rwa [ended] at wrote
    | @enters u request waited script frames rest granted entered =>
      have tried := w.evolves_attempt now r.store request waited
      rw [granted] at tried
      have there_tried := Nat.lt_of_lt_of_le there (World.Evolves.length_le tried)
      have wrote := World.writes_of_ran_enterRun there_tried
        (congrArg (fun entered => entered.2.focus) entered)
      rw [entered] at wrote
      exact wrote.head (tried.mono (fun _ calm => calm.still))

end Thread

/-! ## Whole runs -/

namespace Scene

variable {s s' : Scene}

/-- A step writes one record or none, and if it writes one the answer of the call
that made the move says so. -/
theorem Step.unwritten_or_writes (step : s.Step s') :
    World.Evolves Event.Unwritten s.now s.world s'.world
      ∨ ∃ t ∈ s.threads, ∃ u ∈ s'.threads, ∃ i claimant key holder content,
        t.Confirms s.world u i claimant key holder content
          ∧ World.Writes s.now s.world i claimant key holder content s'.world := by
  cases step with
  | begin => exact .inl .refl
  | tick => exact .inl .refl
  | @turn now w w' t t' turn before after =>
    obtain unwritten | ⟨u, i, claimant, key, holder, content, rfl, confirms, wrote⟩ :=
      turn.unwritten_or_writes
    · exact .inl unwritten
    · exact .inr ⟨t, List.mem_append_right _ List.mem_cons_self, u, by simp, i, claimant, key,
        holder, content, confirms, wrote⟩

/-- **What is recorded of a key changes only by a write** that nobody's
live lock is in the way of, and the write changes nothing else. Whoever
made it is told so. -/
theorem Step.write_of_record?_ne (step : s.Step s') {i : Nat} {key : Bytes}
    (changed : s'.world.record? i key ≠ s.world.record? i key) :
    ∃ claimant holder content, (claimant = .caller ∨ claimant = .run)
      ∧ ⟨i, s.now, .wrote claimant key holder content⟩ ∈ s.since s'
      ∧ (∀ h, (s.world.store i).locks.live? s.now key = some h → h.holder = holder)
      ∧ s'.world.record? i key = some content
      ∧ (∀ j other, ¬ (j = i ∧ other = key) →
        s'.world.record? j other = s.world.record? j other)
      ∧ ∃ t ∈ s.threads, ∃ u ∈ s'.threads,
        t.Confirms s.world u i claimant key holder content := by
  obtain unwritten | ⟨t, t_mem, u, u_mem, k, claimant, name, holder, content, confirms, wrote⟩ :=
    step.unwritten_or_writes
  · exact absurd (World.Evolves.record?_of_unwritten unwritten i key) changed
  · have here : i = k ∧ key = name := by
      refine Classical.byContradiction (fun apart => ?_)
      rw [wrote.record?, if_neg apart] at changed
      exact changed rfl
    obtain ⟨rfl, rfl⟩ := here
    refine ⟨claimant, holder, content, confirms.claimant, wrote.mem_since, wrote.permitted, ?_, ?_,
      t, t_mem, u, u_mem, confirms⟩
    · rw [wrote.record?, if_pos ⟨rfl, rfl⟩]
    · intro j other apart
      rw [wrote.record?, if_neg apart]

/-- **What a run leaves as a record** is what it wrote last, and what was
there before if it wrote nothing. -/
theorem Leads.record? (leads : s.Leads s') (i : Nat) (key : Bytes) :
    s'.world.record? i key
      = (lastWritten i key (s.since s').reverse).or (s.world.record? i key) := by
  induction leads with
  | refl => rw [since_self, List.reverse_nil, lastWritten_nil, Option.none_or]
  | tail leads step ih =>
    rw [since_tail leads step, List.reverse_append, lastWritten_append, Option.or_assoc, ← ih]
    exact World.Evolves.record? step.evolves i key

/-- A record once there is not lost. -/
theorem Leads.isSome_record? (leads : s.Leads s') {i : Nat} {key : Bytes}
    (there : (s.world.record? i key).isSome) : (s'.world.record? i key).isSome := by
  rw [leads.record?, Option.isSome_or, there, Bool.or_true]

/-- While a hold is live nobody but its holder writes under the key. -/
theorem Leads.writer_of_held (leads : s.Leads s') {i : Nat} {key : Bytes} {h : Hold}
    (live : (s.world.store i).locks.live? s.now key = some h)
    (spared : ∀ e ∈ s.since s', e.Spares i key h.holder)
    (lasting : ∀ d, h.deadline = some d → s'.now ≤ d) {time : Instant} {claimant : Claimant}
    {holder : Bytes} {content : Content}
    (mem : ⟨i, time, .wrote claimant key holder content⟩ ∈ s.since s') : holder = h.holder := by
  have favours := (leads.keeps live spared lasting).2 _ mem rfl
  exact favours holder (if_pos rfl)

/-- **Records are isolated by locks**, in every scene that a session may
come to.

Reading a key answers with what was last written under it. A step by which
a record changes is a write by someone in whose way no live lock is, who is
told that it is done; the record is then what was written, and all others
are as they were. The other way round, whoever is told that its write is
done has written this record, and so has whoever is given the result of a
run that computed. And from that scene on, a record that is there is not
lost, and while a hold is live that its holder does not give back, nobody
else writes under its key. -/
theorem records_isolated {hash : Bytes → Nat} {settings : StoreSettings}
    {environment : Environment} {now : Instant}
    (reached : (Session.start hash settings environment now).scene.Leads s) (i : Nat)
    (key : Bytes) :
    ((s.world.store i).read key).answer = lastWritten i key s.world.events
      ∧ (∀ s', s.Step s' → s'.world.record? i key ≠ s.world.record? i key →
        ∃ claimant holder content, (claimant = .caller ∨ claimant = .run)
          ∧ ⟨i, s.now, .wrote claimant key holder content⟩ ∈ s.since s'
          ∧ (∀ h, ((s.world.store i).look s.now key).answer = some h → h.holder = holder)
          ∧ s'.world.record? i key = some content
          ∧ (∀ j other, ¬ (j = i ∧ other = key) →
            s'.world.record? j other = s.world.record? j other)
          ∧ ∃ t ∈ s.threads, ∃ u ∈ s'.threads,
            t.Confirms s.world u i claimant key holder content)
      ∧ (∀ t ∈ s.threads, ∀ w' u, t.Turn s.now s.world w' (some u) →
        ∀ claimant holder content, t.Confirms s.world u i claimant key holder content →
          ⟨i, s.now, .wrote claimant key holder content⟩ ∈ s.world.since w'
            ∧ w'.record? i key = some content)
      ∧ ∀ s', s.Leads s' →
        ((s.world.record? i key).isSome → (s'.world.record? i key).isSome)
        ∧ ∀ h, ((s.world.store i).look s.now key).answer = some h →
          (∀ e ∈ s.since s', e.store = i → e.what.frees key h.holder = false) →
          (∀ d, h.deadline = some d → s'.now ≤ d) →
          ∀ time claimant holder content,
            ⟨i, time, .wrote claimant key holder content⟩ ∈ s.since s' → holder = h.holder := by
  refine ⟨?_, fun s' step changed => ?_, fun t mem w' u turn claimant holder content confirms => ?_,
    fun s' leads => ⟨leads.isSome_record?, ?_⟩⟩
  · have none_before : (Session.start hash settings environment now).scene.world.record? i key
        = none := by
      cases i with
      | zero => exact Records.get?_new ..
      | succ i => exact World.record?_of_length_le (Nat.le_add_left 1 i) key
    have all_since : ((Session.start hash settings environment now).scene.since s).reverse
        = s.world.events := by
      have added := addedTo_append [] s.world.events
      rw [List.append_nil] at added
      exact (congrArg List.reverse added).trans (List.reverse_reverse _)
    rw [Store.answer_read]
    show s.world.record? i key = _
    rw [reached.record?, none_before, Option.or_none, all_since]
  · simp only [Store.answer_look]
    exact step.write_of_record?_ne changed
  · have there := confirms.there (Leads.balanced reached).seated.toTurned
      (Leads.present reached t mem)
    have wrote := turn.writes_of_confirms there confirms
    exact ⟨wrote.mem_since, by rw [wrote.record?, if_pos ⟨rfl, rfl⟩]⟩
  · intro h held spared lasting time claimant holder content mem
    rw [Store.answer_look] at held
    exact leads.writer_of_held held spared lasting mem

end Scene

/-- A session in which a record was written and its key taken by another. -/
def Session.guarded : Session :=
  ((Session.start (fun _ => 0) {} (fun _ => none) 0).carryOutAll
    [.call (.operation (.write [1] ⟨[], [7]⟩ [10])), .call (.acquire [1] [20] (some 100) none)]).1

/-- The same session after the first writer was refused and the second was
not. -/
def Session.rewritten : Session :=
  (Session.guarded.carryOutAll
    [.call (.operation (.write [1] ⟨[], [8]⟩ [10])), .advance 50,
      .call (.operation (.write [1] ⟨[], [9]⟩ [20]))]).1

/-- The guarded scene as the holder of the lock is about to write. -/
def Scene.rewriting : Scene :=
  { Session.guarded.scene with
    threads := Session.guarded.scene.threads
      ++ [.going ⟨.perform (.operation (.write [1] ⟨[], [9]⟩ [20])), []⟩] }

theorem Scene.records_isolated_of_guarded :
    let written := (rewriting.world.perform rewriting.now (.write [1] ⟨[], [9]⟩ [20])).1
    ((Session.guarded.scene.world.store 0).read [1]).answer
        = lastWritten 0 [1] Session.guarded.scene.world.events
      ∧ (⟨0, rewriting.now, .wrote .caller [1] [20] ⟨[], [9]⟩⟩ ∈ rewriting.world.since written
        ∧ written.record? 0 [1] = some ⟨[], [9]⟩)
      ∧ (Session.rewritten.scene.world.record? 0 [1]).isSome
      ∧ ∀ time claimant holder content,
        ⟨0, time, .wrote claimant [1] holder content⟩
          ∈ Session.guarded.scene.since Session.rewritten.scene → holder = [20] := by
  intro written
  have reached : (Session.start (fun _ => 0) {} (fun _ => none) 0).scene.Leads
      Session.guarded.scene := Session.leads_carryOutAll ..
  have begun : (Session.start (fun _ => 0) {} (fun _ => none) 0).scene.Leads rewriting :=
    reached.tail (.begin _ _)
  have leads : Session.guarded.scene.Leads Session.rewritten.scene := Session.leads_carryOutAll ..
  have held : ((Session.guarded.scene.world.store 0).look Session.guarded.scene.now [1]).answer
      = some ⟨[20], 0, some 100, 0⟩ := by decide +kernel
  have current : rewriting.world.current = 0 := by decide +kernel
  -- the one lock that is live is the writer's, so the write is done
  have permitted : ∀ h, (rewriting.world.store rewriting.world.current).locks.live?
      rewriting.now [1] = some h → h.holder = [20] := by
    intro h live
    rw [current, ← Store.answer_look] at live
    exact congrArg Hold.holder (Option.some.inj (live.symm.trans held))
  have done : (rewriting.world.perform rewriting.now (.write [1] ⟨[], [9]⟩ [20])).2 = .done :=
    World.verdict_eq_done_iff.mpr
      (congrArg Outcome.answer (Store.write_of_permitted permitted .caller ⟨[], [9]⟩))
  have turn : Thread.Turn rewriting.now rewriting.world
      (.going ⟨.perform (.operation (.write [1] ⟨[], [9]⟩ [20])), []⟩) written
      (some (.going ⟨.answer .done, []⟩)) := by
    rw [← done]
    exact .move rfl
  have confirms : Thread.Confirms rewriting.world
      (.going ⟨.perform (.operation (.write [1] ⟨[], [9]⟩ [20])), []⟩)
      (.going ⟨.answer .done, []⟩) 0 .caller [1] [20] ⟨[], [9]⟩ := current ▸ .write ..
  obtain ⟨read, -, -, later⟩ := records_isolated reached 0 [1]
  obtain ⟨-, -, confirmed, -⟩ := records_isolated begun 0 [1]
  obtain ⟨kept, owned⟩ := later _ leads
  refine ⟨read, confirmed _ (List.mem_append_right _ List.mem_cons_self)
    written _ turn _ _ _ confirms, kept (by decide +kernel),
    owned _ held (by decide +kernel) ?_⟩
  intro d eq
  cases eq
  decide +kernel

end AdvisoryStore
