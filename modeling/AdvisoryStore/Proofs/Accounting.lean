import AdvisoryStore.Proofs.Conservation
import AdvisoryStore.Proofs.Tasks

/-!
# Every call is counted once

The counters of a store say how often its operations were used and with what
result. Here they are held against the calls themselves: on every path from
the beginning of a session, what the counters of a store show for a kind of
task, all results taken together, is how many tasks of that kind the moves
of calls have carried out in it (`Scene.Path.calls_accounted`). Nothing is
counted twice and nothing is missed, whether a call was answered at once or
after it had to wait, and whether it came from outside, from the script of a
run, or from the demo workload.

The argument is in three steps. A move leaves on record exactly the tasks it
carries out (`Thread.Turn.does`), so the record of a path is the tasks of
its moves. The counters are a function of the record (`World.Booked`). And
each happening that tells of a task is counted under one of the results that
a task of its kind can have (`Happening.total_tally`).
-/

namespace AdvisoryStore

open Happening (tally tasks)

/-- Whether a task is an attempt at a lock. -/
def Task.isLock : Task → Bool
  | lock _ => true
  | _ => false

/-- **The tasks that a move carries out.** -/
def Stride.deeds (x : Stride) : List Deed := x.thread.deeds x.now x.world x.next

/-- **How many tasks of some kind** moves have carried out in a store. -/
def carriedOut (strides : List Stride) (i : Nat) (kind : Task → Bool) : Nat :=
  (strides.flatMap Stride.deeds).countP (fun d => d.store = i && kind d.task)

/-- What a counter shows. -/
def Counters.shown (cs : Counters) (c : Counter) : Nat := (cs.get c).toNat

/-! ## The record and the counters -/

/-- **A heading of the accounts**: the results that tasks of some kind can have,
each with a counter of its own. -/
structure Heading where
  results : List Counter
  kind : Task → Bool

/-- **The headings.** Some tasks are under two of them, one for the tasks and one
for their results. -/
def headings : List Heading :=
  [⟨[.reads], (· = .read)⟩, ⟨[.hits, .misses], (· = .read)⟩,
    ⟨[.writes, .conflicts], (· = .write)⟩,
    ⟨[.acquiredAtOnce, .reentered, .acquiredAfterWait, .acquireTimeouts], Task.isLock⟩,
    ⟨[.acquiredAfterWait], (· = .lock true)⟩,
    ⟨[.releases, .releasesRefused], (· = .release)⟩,
    ⟨[.waits], (· = .wait)⟩, ⟨[.waitTimeouts], (· = .waitTimeout)⟩,
    ⟨[.requests], (· = .request)⟩,
    ⟨[.healthRequests, .metricsRequests, .lockRequests, .otherRequests], (· = .request)⟩]

/-- **What happens counts once** under every heading that the task it tells of
is under, and not at all under the others. -/
theorem Happening.total_counted (what : Happening) {h : Heading} (mem : h ∈ headings) :
    (h.results.map (fun c => what.counted.count c)).sum
      = if what.task?.any h.kind then 1 else 0 := by
  revert h
  unfold headings
  cases what with
  | acquired _ _ _ waited => cases waited <;> simp [counted, task?, Task.isLock]
  | served topic => cases topic <;> simp [counted, task?, Task.isLock]
  | _ => simp [counted, task?, Task.isLock]

/-- So it is for all that happens together. -/
theorem Happening.total_tally {h : Heading} (mem : h ∈ headings) (happened : List Happening) :
    (h.results.map (fun c => tally c happened)).sum = (tasks happened).countP h.kind := by
  induction happened with
  | nil => exact List.sum_eq_zero (List.forall_mem_map.mpr (fun _ _ => rfl))
  | cons what rest ih =>
    simp only [tally_cons]
    rw [List.sum_map_add, ih, what.total_counted mem]
    show _ = ((what :: rest).filterMap task?).countP h.kind
    rw [List.filterMap_cons]
    cases what.task? with
    | none => exact Nat.zero_add _
    | some task =>
      rw [List.countP_cons, Option.any_some, Nat.add_comm]
      rfl

/-- What is on record of a store, counted. -/
theorem World.countP_tasks_history (w : World) (i : Nat) (kind : Task → Bool) :
    (tasks (w.history i)).countP kind
      = w.deeds.countP (fun d => d.store = i && kind d.task) := by
  unfold tasks history deeds
  rw [List.countP_filterMap, List.countP_filterMap, List.countP_map, List.countP_filter,
    List.countP_reverse]
  refine List.countP_congr (fun e _ => ?_)
  obtain ⟨store, time, what⟩ := e
  cases h : what.task? <;> simp [Event.deed?, h, and_comm]

namespace Scene

variable {hash : Bytes → Nat} {settings : StoreSettings} {environment : Environment}
  {now : Instant} {s : Scene} {strides : List Stride}

/-- **What is on record of a path is what its moves carry out.** -/
theorem Path.deeds (path : (Session.start hash settings environment now).scene.Path strides s) :
    s.world.deeds = (strides.flatMap Stride.deeds).reverse := by
  induction path with
  | nil => rfl
  | begin _ _ ih => exact ih
  | tick _ _ ih => exact ih
  | turn x before after path ih =>
    have seated := path.leads.balanced.seated
    have present := path.leads.present x.thread (List.mem_append_right _ List.mem_cons_self)
    -- the log has the newest first, a path the oldest
    have done : x.after.deeds = x.deeds.reverse ++ x.world.deeds := x.turn.does seated present
    simp only at ih ⊢
    rw [done, ih, List.flatMap_append, List.reverse_append, List.flatMap_singleton]

/-- **What the counters show is what was carried out**, heading by heading. -/
theorem Path.total_shown
    (path : (Session.start hash settings environment now).scene.Path strides s) {i : Nat}
    (bounded : ∀ c, tally c (s.world.history i) < UInt64.size) {h : Heading} (mem : h ∈ headings) :
    (h.results.map (s.world.store i).counters.shown).sum = carriedOut strides i h.kind := by
  have booked : s.world.Booked := path.leads.booked (World.booked_new hash settings environment)
  have shows : (s.world.store i).counters.shown = fun c => tally c (s.world.history i) := by
    funext c
    rw [Counters.shown, booked.counters i c, UInt64.toNat_ofNat_of_lt' (bounded c)]
  rw [shows, Happening.total_tally mem, World.countP_tasks_history, path.deeds,
    List.countP_reverse, carriedOut]

end Scene

/-! ## The accounts of a store -/

/-- **A request for the counters is counted before it is answered.** -/
theorem Store.serve_metrics (s : Store) (now : Instant) {r : Request} (get : r.method = utf8 "GET")
    (target : Target.ofBytes r.target = .metrics) :
    s.serve now r = ⟨s.note [.served .metrics], [.served .metrics],
      .text r.version r.keepAlive 200 Response.expositionText
        (Exposition.render (s.note [.served .metrics]).counters)⟩ := by
  unfold serve
  rw [if_pos get, target]
  rfl

/-- **The counters of a store account for what moves carried out in it.** -/
structure Counters.Account (cs : Counters) (strides : List Stride) (i : Nat) : Prop where
  reads : cs.shown .reads = carriedOut strides i (· = .read)
  /-- A record that was asked for was there or not. -/
  found : cs.shown .hits + cs.shown .misses = carriedOut strides i (· = .read)
  /-- A write was made or refused. -/
  writes : cs.shown .writes + cs.shown .conflicts = carriedOut strides i (· = .write)
  /-- An attempt at a lock that has come to its end took it, or was made by
  its holder, or was given up. -/
  locks : cs.shown .acquiredAtOnce + cs.shown .reentered + cs.shown .acquiredAfterWait
    + cs.shown .acquireTimeouts = carriedOut strides i Task.isLock
  /-- What was taken after waiting was newly taken by one who had waited. -/
  afterWait : cs.shown .acquiredAfterWait = carriedOut strides i (· = .lock true)
  /-- A release was made or refused. -/
  releases : cs.shown .releases + cs.shown .releasesRefused = carriedOut strides i (· = .release)
  waits : cs.shown .waits = carriedOut strides i (· = .wait)
  waitTimeouts : cs.shown .waitTimeouts = carriedOut strides i (· = .waitTimeout)
  requests : cs.shown .requests = carriedOut strides i (· = .request)
  /-- A request has one topic. -/
  topics : cs.shown .healthRequests + cs.shown .metricsRequests + cs.shown .lockRequests
    + cs.shown .otherRequests = carriedOut strides i (· = .request)

namespace Scene

variable {hash : Bytes → Nat} {settings : StoreSettings} {environment : Environment}
  {now : Instant} {s : Scene} {strides : List Stride}

/-- **Every call is counted once.** As long as no counter of a store has gone
beyond its range, they account for all that was carried out in it. And
whoever asks for the counters of the current store by request is shown them
as they are then, with the request among what they count. -/
theorem Path.calls_accounted
    (path : (Session.start hash settings environment now).scene.Path strides s) (i : Nat)
    (bounded : ∀ c, tally c (s.world.history i) < UInt64.size) :
    (s.world.store i).counters.Account strides i
      ∧ ∀ r : Request, r.method = utf8 "GET" → Target.ofBytes r.target = .metrics →
        ∃ response, (s.world.perform s.now (.serve r)).2 = .response response
          ∧ response.body = Exposition.render (s.performed (.serve r)).world.currentStore.counters
          ∧ (s.performed (.serve r)).world.currentStore.counters
            = s.world.currentStore.counters.bumpAll [.requests, .metricsRequests] := by
  have under : ∀ h ∈ headings,
      (h.results.map (s.world.store i).counters.shown).sum = carriedOut strides i h.kind :=
    fun h mem => path.total_shown bounded mem
  simp only [headings, List.forall_mem_cons, List.map_cons, List.map_nil, List.sum_cons,
    List.sum_nil, Nat.add_zero, ← Nat.add_assoc] at under
  obtain ⟨reads, found, writes, locks, afterWait, releases, waits, waitTimeouts, requests,
    topics, -⟩ := under
  refine ⟨⟨reads, found, writes, locks, afterWait, releases, waits, waitTimeouts, requests,
    topics⟩, fun r get target => ?_⟩
  have there := path.leads.balanced.seated.current
  have after : (s.performed (.serve r)).world.currentStore
      = s.world.currentStore.note [.served .metrics] := by
    show (s.world.on s.now s.world.current (·.serve s.now r)).1.store
      (s.world.on s.now s.world.current (·.serve s.now r)).1.current = _
    rw [(s.world.steady_on s.now s.world.current (·.serve s.now r)).current]
    show (s.world.putBack s.now s.world.current _ _).store s.world.current = _
    rw [World.store_putBack there, if_pos rfl]
    exact congrArg Outcome.after (s.world.currentStore.serve_metrics s.now get target)
  refine ⟨_, rfl, ?_, by rw [after]; rfl⟩
  rw [after]
  exact congrArg (·.answer.body) (s.world.currentStore.serve_metrics s.now get target)

end Scene

/-- A request for the counters. -/
def Request.forCounters : Request := ⟨utf8 "GET", utf8 "/metrics", 11, true⟩

/-- A session in which a run waits for another, whose result it is given; a
handle takes a lock, and lets go of it; a lock is asked for in vain; someone
gives up waiting for its end; and the counters are asked for. -/
def Session.dayOfUse : Session :=
  ((Session.start (fun _ => 0) {} (fun _ => none) 0).carryOutAll
    [.call (.run [1] [10] none [.sleep 5] (.ok ⟨[], [7]⟩)),
      .call (.run [1] [20] none [] (.error (.failure []))),
      .advance 10, .call (.lock [3] [2] [10] none),
      .call (.acquire [2] [20] none (some 4)), .call (.wait [2] (some 4)), .advance 10,
      .call (.operation (.handleDestroy [3])), .call (.operation (.write [2] ⟨[], []⟩ [])),
      .call (.operation (.serve .forCounters))]).1

theorem Scene.Path.calls_accounted_of_dayOfUse :
    ∃ strides,
      (Session.start (fun _ => 0) {} (fun _ => none) 0).scene.Path strides Session.dayOfUse.scene
        ∧ carriedOut strides 0 (· = .read) = 2 ∧ carriedOut strides 0 (· = .write) = 2
        ∧ carriedOut strides 0 Task.isLock = 4 ∧ carriedOut strides 0 (· = .lock true) = 1
        ∧ carriedOut strides 0 (· = .release) = 3 ∧ carriedOut strides 0 (· = .wait) = 1
        ∧ carriedOut strides 0 (· = .waitTimeout) = 1 ∧ carriedOut strides 0 (· = .request) = 1
        ∧ ∃ response,
          (Session.dayOfUse.world.perform Session.dayOfUse.now (.serve .forCounters)).2
            = .response response
          ∧ response.body = Exposition.render
            (Session.dayOfUse.world.currentStore.counters.bumpAll
              [.requests, .metricsRequests]) := by
  have reached : (Session.start (fun _ => 0) {} (fun _ => none) 0).scene.Leads
      Session.dayOfUse.scene := Session.leads_carryOutAll ..
  obtain ⟨strides, path⟩ := reached.path
  have bounded (c : Counter) : tally c (Session.dayOfUse.world.history 0) < UInt64.size := by
    cases c <;> decide +kernel
  obtain ⟨account, asked⟩ := Scene.Path.calls_accounted path 0 bounded
  obtain ⟨response, answered, body, counted⟩ := asked .forCounters rfl rfl
  refine ⟨strides, path, account.reads.symm.trans ?_, account.writes.symm.trans ?_,
    account.locks.symm.trans ?_, account.afterWait.symm.trans ?_, account.releases.symm.trans ?_,
    account.waits.symm.trans ?_, account.waitTimeouts.symm.trans ?_,
    account.requests.symm.trans ?_, response, answered, body.trans (congrArg _ counted)⟩
  all_goals decide +kernel

end AdvisoryStore
