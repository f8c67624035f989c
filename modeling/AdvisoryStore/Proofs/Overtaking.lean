import AdvisoryStore.Proofs.SingleComputation

/-!
# What becomes of a record that a run has stored

A run may lose its lock while it computes: its hold comes to its deadline,
another run takes the lock, stores its own result and is gone. The check
before a write asks who holds the key at that moment, and nobody does, so
that the run that was overtaken writes as well, and its late result takes the
place of the one that was stored and maybe returned (`Session.stored_result_replaced`).

This is the only way in which it happens, and `Scene.stored_until_overtaken`
says how far it goes. Once a result is stored no run begins to compute any
more, and the result stays unless a run that computed at that very moment,
and did not have the lock, comes to its end. Each of these can write once.

Nobody but runs writes under the key here, so that every step is an episode
(`Scene.Step.episode`), and what becomes of a record is put together from
what becomes of it in each (`Aftermath`).
-/

namespace AdvisoryStore

/-- The result that was stored, by this news. -/
def News.stored? : News → Option Content
  | stored content => some content
  | _ => none

/-- **What the record is after these news**, if it was this one before. -/
def News.latest (content : Content) (news : List News) : Content :=
  (news.filterMap News.stored?).getLastD content

theorem News.latest_append (content : Content) (first rest : List News) :
    latest content (first ++ rest) = latest (latest content first) rest := by
  rw [latest, latest, latest, List.filterMap_append, List.getLastD_eq_getLast?,
    List.getLastD_eq_getLast?, List.getLastD_eq_getLast?, List.getLast?_append, Option.getD_or]

theorem News.latest_of_unstored {news : List News} (unstored : news.filterMap stored? = [])
    (content : Content) : latest content news = content := by
  rw [latest, unstored]
  rfl

/-- **What becomes of a record** by these news, while the one runs compute
before them and the others after them. -/
structure Aftermath (content : Content) (before after : List Run) (news : List News) : Prop where
  /-- Who computes no more has ended, once, and has stored its own result if it
  has stored one. -/
  ended : ∃ ended : List Run, before.Perm (ended ++ after)
    ∧ news.count .finished = ended.length
    ∧ ((news.filterMap News.stored?).map Except.ok).Sublist (ended.map Run.outcome)
  /-- What is found is the record. -/
  found : ∀ earlier other later, news = earlier ++ .found other :: later →
    other = News.latest content earlier
  unbegun : .begun ∉ news

namespace Aftermath

variable {content : Content} {before between after : List Run} {first rest : List News}

theorem nil (content : Content) (before : List Run) : Aftermath content before before [] where
  ended := ⟨[], .refl _, rfl, .slnil⟩
  found earlier other later split := absurd split (by simp)
  unbegun := List.not_mem_nil

/-- One run ends, and nothing is found. -/
theorem of_ended {r : Run} {news : List News} (gone : before.Perm (r :: after))
    (count : news.count .finished = 1)
    (results : ((news.filterMap News.stored?).map Except.ok).Sublist [r.outcome])
    (unfound : ∀ other, .found other ∉ news) (unbegun : .begun ∉ news) :
    Aftermath content before after news where
  ended := ⟨[r], gone, count, results⟩
  found earlier other later split := by
    have mem : .found other ∈ news := by
      rw [split]
      exact List.mem_append_right _ List.mem_cons_self
    exact absurd mem (unfound other)
  unbegun

/-- **One thing after the other.** -/
theorem append (h : Aftermath content before between first)
    (more : Aftermath (News.latest content first) between after rest) :
    Aftermath content before after (first ++ rest) where
  ended := by
    obtain ⟨ended, perm, count, results⟩ := h.ended
    obtain ⟨ended', perm', count', results'⟩ := more.ended
    refine ⟨ended ++ ended', ?_, ?_, ?_⟩
    · rw [List.append_assoc]
      exact perm.trans (perm'.append_left ended)
    · rw [List.count_append, List.length_append, count, count']
    · rw [List.filterMap_append, List.map_append, List.map_append]
      exact results.append results'
  found earlier other later split := by
    obtain ⟨middle, rfl, rest_eq⟩ | ⟨middle, first_eq, rest_eq⟩ :=
      List.append_eq_append_iff.mp split
    · rw [News.latest_append]
      exact more.found middle other later rest_eq
    · cases middle with
      | nil =>
        rw [List.append_nil] at first_eq
        subst first_eq
        exact more.found [] other later rest_eq.symm
      | cons n middle =>
        cases rest_eq
        exact h.found earlier other middle first_eq
  unbegun mem := (List.mem_append.mp mem).elim h.unbegun more.unbegun

/-- **Where nobody computes, the record stays**, and is found. -/
theorem of_idle {news : List News} (h : Aftermath content [] after news) :
    News.latest content news = content ∧ ∀ n ∈ news, n = .found content := by
  obtain ⟨ended, perm, count, results⟩ := h.ended
  obtain ⟨rfl, rfl⟩ := List.append_eq_nil_iff.mp perm.nil_eq.symm
  have unfinished : .finished ∉ news := List.count_eq_zero.mp count
  have unstored : news.filterMap News.stored? = [] :=
    List.map_eq_nil_iff.mp (List.sublist_nil.mp results)
  refine ⟨News.latest_of_unstored unstored content, fun n mem => ?_⟩
  obtain ⟨earlier, later, rfl⟩ := List.append_of_mem mem
  cases n with
  | begun => exact absurd mem h.unbegun
  | finished => exact absurd mem unfinished
  | stored other =>
    have none_stored := List.filterMap_eq_nil_iff.mp unstored _ mem
    cases none_stored
  | found other =>
    rw [List.filterMap_append, List.append_eq_nil_iff] at unstored
    rw [h.found earlier other later rfl, News.latest_of_unstored unstored.1]

end Aftermath

namespace Scene

variable {i : Nat} {key : Bytes} {s s' : Scene}

/-! ## What becomes of a record -/

/-- **By one step** a record that is there stays, or is replaced by the result
of a run that computed. -/
theorem Episode.aftermath (episode : Episode i key s s') {content : Content}
    (recorded : s.world.record? i key = some content) :
    Aftermath content (s.computing i key) (s'.computing i key) (s.world.news s'.world i key)
      ∧ s'.world.record? i key
        = some (News.latest content (s.world.news s'.world i key)) := by
  have unclosed {r : Run} {opening : List News} (closes : Closes i key s s' r opening) :
      opening = [] ∧ (s.computing i key).Perm (r :: s'.computing i key) := by
    cases closes with
    | computing gone => exact ⟨rfl, gone⟩
    | wanting _ _ absent =>
      rw [recorded] at absent
      cases absent
  cases episode with
  | apart _ told record same =>
    rw [told, same]
    exact ⟨.nil .., record.trans recorded⟩
  | @found other told before after same =>
    rw [recorded] at before
    cases before
    rw [told, same]
    refine ⟨⟨⟨[], .refl _, rfl, .slnil⟩, fun earlier other later split => ?_, by simp⟩, after⟩
    cases earlier with
    | nil =>
      cases split
      rfl
    | cons n earlier => simp at split
  | begun _ _ _ _ absent =>
    rw [recorded] at absent
    cases absent
  | failed closes told record =>
    obtain ⟨rfl, gone⟩ := unclosed closes
    rw [told]
    exact ⟨.of_ended gone rfl (List.nil_sublist _) (by simp) (by simp), record.trans recorded⟩
  | stored closes outcome _ told record =>
    obtain ⟨rfl, gone⟩ := unclosed closes
    rw [told]
    refine ⟨.of_ended gone rfl ?_ (by simp) (by simp), record⟩
    rw [outcome]
    exact .refl _

/-- **And so it is by any number of them.** -/
theorem Leads.aftermath (leads : s.Leads s') {content : Content}
    (recorded : s.world.record? i key = some content)
    (unwritten : ∀ e ∈ s.since s', e.store = i → e.what.writesFromOutside key = false) :
    Aftermath content (s.computing i key) (s'.computing i key) (s.world.news s'.world i key)
      ∧ s'.world.record? i key
        = some (News.latest content (s.world.news s'.world i key)) := by
  induction leads with
  | refl =>
    rw [World.news_self]
    exact ⟨.nil .., recorded⟩
  | @tail u s' leads step ih =>
    rw [since_tail leads step] at unwritten
    obtain ⟨unwritten, unwritten_last⟩ := List.forall_mem_append.mp unwritten
    obtain ⟨aftermath, recorded⟩ := ih unwritten
    have there := World.lt_length_of_record?_eq_some recorded
    obtain ⟨aftermath_last, record_last⟩ := (step.episode there unwritten_last).aftermath recorded
    rw [World.news_trans (Leads.events leads) step.events, News.latest_append]
    exact ⟨aftermath.append aftermath_last, record_last⟩

/-- **Who still computes when a result is stored does not have the lock.** -/
theorem Closes.lost {r : Run} {opening : List News} (closes : Closes i key s s' r opening)
    (distinct : ((s.wanting i key ++ s.computing i key).map Run.holder).Nodup)
    (permitted : ∀ h, (s.world.store i).locks.live? s.now key = some h → h.holder = r.holder) :
    ∀ other ∈ s'.computing i key, ∀ h, (s.world.store i).locks.live? s.now key = some h →
      h.holder ≠ other.holder := by
  rw [List.map_append, List.nodup_append] at distinct
  obtain ⟨-, distinct, apart⟩ := distinct
  intro other mem h live own
  have own : other.holder = r.holder := own.symm.trans (permitted h live)
  cases closes with
  | computing gone =>
    have distinct := (gone.map Run.holder).nodup_iff.mp distinct
    refine (List.nodup_cons.mp distinct).1 ?_
    rw [← own]
    exact List.mem_map_of_mem mem
  | wanting wants _ _ same =>
    rw [same] at mem
    exact apart _ (List.mem_map_of_mem wants) _ (List.mem_map_of_mem mem) own.symm

/-- By a step that stores a result the result becomes the record, and whoever
still computes does not have the lock. -/
theorem Episode.of_stored (episode : Episode i key s s') {content : Content}
    (stored : .stored content ∈ s.world.news s'.world i key)
    (distinct : ((s.wanting i key ++ s.computing i key).map Run.holder).Nodup) :
    s'.world.record? i key = some content
      ∧ ∀ r ∈ s'.computing i key, ∀ h, (s.world.store i).locks.live? s.now key = some h →
        h.holder ≠ r.holder := by
  have unstored {r : Run} {opening : List News} (closes : Closes i key s s' r opening) :
      .stored content ∉ opening := by
    cases closes <;> simp
  cases episode with
  | apart _ told | found told | begun _ _ _ told => simp [told] at stored
  | failed closes told => simp [told, unstored closes] at stored
  | stored closes outcome permitted told record =>
    obtain rfl : content = _ := by simpa [told, unstored closes] using stored
    exact ⟨record, closes.lost distinct permitted⟩

/-- **A stored result stays until a run is done that it has overtaken.**

Let a step be made by which a run stores its result, while the runs in
progress on the key go by different names, and let any steps follow in which
nobody but runs writes under the key.

The result is the record then. A run that still computes does not have the
lock when it is stored. From then on no run begins to compute. Those that
still computed end one by one, and each of them stores its own result at
most once; what is found in between is what was stored last, and so is what
is read in the end. What a run returns is found or stored in this sense.

Hence, if everyone who still computes has the lock, which is to say if nobody
does, then the result is all that is ever found and read. -/
theorem stored_until_overtaken {s₀ : Scene} {content : Content}
    (there : i < s₀.world.stores.length)
    (distinct : ((s₀.wanting i key ++ s₀.computing i key).map Run.holder).Nodup)
    (step : s₀.Step s) (stored : .stored content ∈ s₀.world.news s.world i key)
    (leads : s.Leads s')
    (unwritten : ∀ e ∈ s₀.since s', e.store = i → e.what.writesFromOutside key = false) :
    ((s.world.store i).read key).answer = some content
      ∧ (∀ r ∈ s.computing i key, ∀ h,
        ((s₀.world.store i).look s₀.now key).answer = some h → h.holder ≠ r.holder)
      ∧ Aftermath content (s.computing i key) (s'.computing i key)
        (s.world.news s'.world i key)
      ∧ ((s'.world.store i).read key).answer
        = some (News.latest content (s.world.news s'.world i key))
      ∧ (∀ t ∈ s'.threads, ∀ r, t.due? = some r → r.on i key →
        ∀ w' result fromCache answers stack,
          t.Turn s'.now s'.world w'
            (some (.going ⟨.answer (.ran result fromCache answers), stack⟩)) →
          .result fromCache result ∈ s'.world.news w' i key)
      ∧ ((∀ r ∈ s.computing i key, ∃ h,
          ((s₀.world.store i).look s₀.now key).answer = some h ∧ h.holder = r.holder) →
        ((s'.world.store i).read key).answer = some content
          ∧ ∀ n ∈ s.world.news s'.world i key, n = .found content) := by
  simp only [Store.answer_look, Store.answer_read]
  have since_eq : s₀.since s' = s₀.since s ++ s.since s' :=
    World.since_trans step.events leads.events
  rw [since_eq] at unwritten
  obtain ⟨unwritten_step, unwritten⟩ := List.forall_mem_append.mp unwritten
  obtain ⟨recorded, lost⟩ := (step.episode there unwritten_step).of_stored stored distinct
  obtain ⟨aftermath, read⟩ := leads.aftermath recorded unwritten
  refine ⟨recorded, lost, aftermath, read, ?_, fun held => ?_⟩
  · intro t _ r due here w' result fromCache answers stack turn
    obtain ⟨rfl, rfl⟩ : r.store = i ∧ r.key = key := of_decide_eq_true here
    exact Thread.result_told due (World.lt_length_of_record?_eq_some read) turn
  · have idle : s.computing i key = [] := by
      refine List.eq_nil_iff_forall_not_mem.mpr (fun r mem => ?_)
      obtain ⟨h, live, own⟩ := held r mem
      exact lost r mem h live own
    rw [idle] at aftermath
    obtain ⟨stays, found⟩ := aftermath.of_idle
    rw [stays] at read
    exact ⟨read, found⟩

/-- A run computes, its hold is over, and another run is about to be granted
the lock. -/
def overtaking : Scene :=
  let s : Scene := ⟨0, .new (fun _ => 0) {} (fun _ => none),
    [.going ⟨.perform (.run [1] [10] (some 10) [.sleep 100] (.ok ⟨[], [7]⟩)), []⟩]⟩
  let s := (((s.act 0).act 0).act 0).act 0
  Scene.act ⟨20, s.world, s.threads
    ++ [.going ⟨.perform (.run [1] [20] none [] (.ok ⟨[], [8]⟩)), []⟩]⟩ 1

/-- The other run has stored its result, and the first has come to its end. -/
def overtaken : Scene := (Scene.act { overtaking.act 1 with now := 100 } 0).act 0

theorem stored_until_overtaken_of_overtaking :
    (((overtaking.act 1).world.store 0).read [1]).answer = some ⟨[], [8]⟩
      ∧ (∀ r ∈ (overtaking.act 1).computing 0 [1], ∀ h,
        ((overtaking.world.store 0).look overtaking.now [1]).answer = some h →
          h.holder ≠ r.holder)
      ∧ ((overtaken.world.store 0).read [1]).answer = some ⟨[], [7]⟩ := by
  have step : overtaking.Step (overtaking.act 1) := step_act (by decide +kernel)
  have leads : (overtaking.act 1).Leads overtaken := by
    refine .head (.tick _ ?_) (.head (step_act (n := 0) ?_) (.single (step_act (n := 0) ?_)))
    all_goals decide +kernel
  have stored : .stored ⟨[], [8]⟩ ∈ overtaking.world.news (overtaking.act 1).world 0 [1] := by
    decide +kernel
  obtain ⟨recorded, lost, -, read, -⟩ := stored_until_overtaken (by decide +kernel)
    (by decide +kernel) step stored leads (by decide +kernel)
  have latest : News.latest ⟨[], [8]⟩ ((overtaking.act 1).world.news overtaken.world 0 [1])
      = ⟨[], [7]⟩ := by decide +kernel
  rw [latest] at read
  exact ⟨recorded, lost, read⟩

end Scene

/-- A session in which the hold of a run is over while it computes, and
another run stores its result meanwhile. -/
def Session.superseded : Session :=
  ((Session.start (fun _ => 0) {} (fun _ => none) 0).carryOutAll
    [.call (.run [1] [10] (some 10) [.sleep 100] (.ok ⟨[], [7]⟩)), .advance 20,
      .call (.run [1] [20] none [] (.ok ⟨[], [8]⟩))]).1

/-- **A stored result may be replaced** by one that comes late, though the runs
go by different names and nobody but runs writes under the key. -/
theorem Session.stored_result_replaced :
    ((Session.superseded.world.store 0).read [1]).answer = some ⟨[], [8]⟩
      ∧ (∀ e ∈ (Session.superseded.carryOut (.advance 100)).1.world.events,
        e.what.writesFromOutside [1] = false)
      ∧ (((Session.superseded.carryOut (.advance 100)).1.world.store 0).read [1]).answer
        = some ⟨[], [7]⟩ := by
  decide +kernel

end AdvisoryStore
