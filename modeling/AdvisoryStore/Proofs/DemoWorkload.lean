import Mathlib.Algebra.Order.BigOperators.Group.List
import Mathlib.Algebra.Order.Ring.Nat
import Mathlib.Data.List.MinMax
import Mathlib.Data.List.Perm.Subperm
import AdvisoryStore.Proofs.Attendance
import AdvisoryStore.Proofs.JsonReading
import AdvisoryStore.Proofs.Workload

/-!
# What the demo workload comes to

Workers of the demo workload with different numbers come in one after the
other, at any time, while others may look and ask for reports; then the
session settles. All workers come to their ends, without an error, and the
store shows no more than what they were given to do: every key that some
worker was given has one record, from one worker, and all other runs for it
have found that record (`Session.demo_workload_completes`,
`Demo.Completed`). Whoever reads that record is told which worker it was
(`Demo.Authored`).

Of what goes on in such a session the clock and what the store shows is
enough (`Scene.Works`), and what is done there keeps the workload's progress
(`Scene.Prompt.works`). At the end nobody is left: whoever waits for a lock
waits for a worker who computes, and who computes sleeps until a moment that
the clock has come to (`Session.AtRest.crew_eq_nil`).
-/

namespace AdvisoryStore

open Happening (tally granted)

/-! ## Sessions of the workload -/

/-- **The operations that leave every store as it is**, without so much as
looking at a lock. -/
def Operation.leavesStores : Operation → Bool
  | counters | handleInfo _ | contains _ | recordTotal | settings | metrics | highlights => true
  | setEnvironment _ | forgetShared => true
  | _ => false

/-- **What may be done beside the workload**: workers come in, and others look,
ask for reports, or do what is no business of the store. -/
def Action.besideWorkload : Action → Bool
  | demo .. => true
  | operation o => o.glances || o.leavesStores
  | _ => false

/-- The number and the keys of a worker that comes in. -/
def Action.hand? : Action → Option (UInt32 × UInt32)
  | demo worker keys => some (worker, keys)
  | _ => none

/-- What is done at once beside the workload leaves what a store shows. -/
theorem World.view_of_besideWorkload {o : Operation}
    (beside : (Action.operation o).besideWorkload = true) (w : World) (now : Instant) (i : Nat) :
    (w.perform now o).1.current = w.current
      ∧ (w.perform now o).1.stores.length = w.stores.length
      ∧ (w.perform now o).1.view now i = w.view now i := by
  obtain glances | leaves := (Bool.or_eq_true ..).mp beside
  · have unmoved : w.Unmoved .all now (w.perform now o).1 := w.unmoved_glance glances
    exact ⟨unmoved.current, unmoved.length, World.view_of_unmoved unmoved i⟩
  · cases o with
    | handleInfo slot =>
      rw [perform]
      split <;> exact ⟨rfl, rfl, rfl⟩
    | counters | contains | recordTotal | settings | metrics | highlights => exact ⟨rfl, rfl, rfl⟩
    | setEnvironment | forgetShared => exact ⟨rfl, rfl, rfl⟩
    | _ => cases leaves

/-- A run begins to compute. -/
def Happening.begins : Happening → Bool
  | computing .. => true
  | _ => false

/-- **Every computation of the workload has its time**: the clock can show when
it will be over. -/
def World.InTime (w : World) : Prop :=
  ∀ e ∈ w.events, e.what.begins = true → e.time + Demo.moment ≤ Instant.last

instance (w : World) : Decidable w.InTime :=
  inferInstanceAs (Decidable (∀ e ∈ w.events,
    e.what.begins = true → e.time + Demo.moment ≤ Instant.last))

/-- A new table has no records. -/
theorem Records.size_new (hash : Bytes → Nat) (shards : Nat) : (new hash shards).size = 0 := by
  refine List.sum_eq_zero (List.forall_mem_map.mpr (fun cell mem => ?_))
  have fresh : cell = KeyMap.empty :=
    (List.mem_replicate.mp (by simpa [new, Sharded.replicate, Sharded.toList] using mem)).2
  rw [fresh]
  exact KeyMap.size_empty

/-- What has its time has had it before. -/
theorem World.InTime.earlier {w w' : World} (in_time : w'.InTime) (later : w.events <:+ w'.events) :
    w.InTime :=
  fun e mem => in_time e (later.subset mem)

namespace Scene

/-- **A scene of the workload**: its calls are workers, and they have come some
way. -/
structure Works (hands : List (UInt32 × UInt32)) (s : Scene) : Prop where
  current : s.world.current = 0
  single : s.world.stores.length = 1
  progress : ∃ crew stored, s.threads = crew.map Demo.Worker.thread
    ∧ Demo.Progress hands s.now (s.world.view s.now 0) crew stored

variable {hash : Bytes → Nat} {settings : StoreSettings} {environment : Environment}
  {now : Instant} {s : Scene} {actions : List Action}

/-- The workload has not begun where no worker has come in. -/
theorem works_start : (Session.start hash settings environment now).scene.Works [] where
  current := rfl
  single := rfl
  progress := by
    refine ⟨[], 0, rfl, .refl _, nofun, nofun, fun key h live => ?_,
      ⟨nofun, fun k _ => ⟨?_, rfl⟩, ?_⟩, ⟨rfl, rfl, rfl, rfl, rfl⟩, nofun⟩
    · cases (Store.live?_new ..).symm.trans live
    · exact Records.get?_new ..
    · exact Records.size_new ..

/-- **A move of a call of the workload is one of a worker**, and is progress. -/
theorem Works.move {hands : List (UInt32 × UInt32)} {t u : Scene} (works : t.Works hands)
    (distinct : (hands.map Prod.fst).Nodup) (in_time : u.world.InTime) (move : t.Move u) :
    u.Works hands := by
  obtain ⟨current, single, crew, stored, threads, progress⟩ := works
  obtain @⟨now, w, w', thread, next, turn, before, after⟩ := move
  obtain ⟨earlier, rest, rfl, rfl, eq⟩ := List.map_eq_append_iff.mp threads.symm
  obtain ⟨m, later, rfl, rfl, rfl⟩ := List.map_eq_cons_iff.mp eq
  have there : 0 < w.stores.length := by
    show 0 < w.stores.length
    rw [single]
    exact Nat.one_pos
  have steady := turn.steady (fun o operation => by
    rw [m.operation?_thread] at operation
    cases operation)
  obtain ⟨next, rfl, moved⟩ := Demo.Worker.move_of_turn there current
    (fun asked stage h live => progress.apart distinct stage live)
    (fun finish phase stage => progress.holds stage)
    (fun finish stage => progress.timely stage) turn
  obtain ⟨stored', onwards⟩ := progress.move distinct moved
    (fun key holder mem => in_time _ mem rfl)
  refine ⟨steady.current.trans current, steady.length.trans single, _, stored', ?_, onwards⟩
  cases next <;> simp

/-- **Sessions of the workload stay so.** -/
theorem Prompt.works (prompt : (Session.start hash settings environment now).scene.Prompt actions s)
    (allowed : ∀ a ∈ actions, a.besideWorkload = true)
    (distinct : ((actions.filterMap Action.hand?).map Prod.fst).Nodup)
    (in_time : s.world.InTime) : s.Works (actions.filterMap Action.hand?) := by
  -- what is given of the whole session is given of every part of it that comes first
  induction prompt with
  | nil => exact works_start
  | @perform actions t prompt o ih =>
    obtain ⟨before, beside⟩ := List.forall_mem_append.mp allowed
    have same : (actions ++ [Action.operation o]).filterMap Action.hand?
        = actions.filterMap Action.hand? := by
      rw [List.filterMap_append]
      exact List.append_nil _
    rw [same] at distinct ⊢
    have earlier := in_time.earlier (Leads.events (t.leads_perform o))
    obtain ⟨current, single, crew, stored, threads, progress⟩ := ih before distinct earlier
    obtain ⟨turned, length, shows⟩ :=
      t.world.view_of_besideWorkload (beside _ List.mem_cons_self) t.now 0
    refine ⟨turned.trans current, length.trans single, crew, stored, threads, ?_⟩
    rw [shows]
    exact progress
  | @begin actions t prompt a slow ih =>
    obtain ⟨before, beside⟩ := List.forall_mem_append.mp allowed
    cases a with
    | demo number keys =>
      have more : (actions ++ [Action.demo number keys]).filterMap Action.hand?
          = actions.filterMap Action.hand? ++ [(number, keys)] := List.filterMap_append
      rw [more] at distinct ⊢
      rw [List.map_append] at distinct
      obtain ⟨current, single, crew, stored, threads, progress⟩ :=
        ih before distinct.of_append_left in_time
      refine ⟨current, single, crew ++ [⟨number, keys, 0, .setting⟩], stored, ?_,
        progress.enlist number keys⟩
      rw [List.map_append, threads]
      rfl
    | operation o => exact absurd rfl (slow o)
    | _ => cases beside _ List.mem_cons_self
  | @move actions t u prompt move ih =>
    have earlier := in_time.earlier (Moves.leads (.single move)).events
    exact (ih allowed distinct earlier).move distinct in_time move
  | @tick actions t prompt later le patient ih =>
    obtain ⟨current, single, crew, stored, threads, progress⟩ := ih allowed distinct in_time
    refine ⟨current, single, crew, stored, threads, progress.tick le (fun m mem => ?_)⟩
    refine patient m.thread ?_
    rw [threads]
    exact List.mem_map_of_mem mem

end Scene

/-! ## The log -/

/-- Every event is of a store that is there. -/
def World.Homed (w : World) : Prop := ∀ e ∈ w.events, e.store < w.stores.length

/-- A change writes to the log of stores that are there. -/
theorem World.Change.homed {P : Event → Prop} {now : Instant} {w w' : World}
    (change : Change P now w w') (homed : w.Homed) : w'.Homed := by
  cases change with
  | occur there occurs all =>
    intro e mem
    rw [events_putBack there, List.mem_append, List.mem_reverse, List.mem_map] at mem
    rw [length_putBack]
    obtain ⟨what, -, rfl⟩ | old := mem
    · exact there
    · exact homed e old
  | aside stores events =>
    intro e mem
    rw [stores]
    exact homed e (events ▸ mem)
  | newStore settings =>
    intro e mem
    have more : (w.addStore settings).stores.length = w.stores.length + 1 := List.length_append
    rw [more]
    exact Nat.lt_succ_of_lt (homed e mem)

theorem World.Evolves.homed {P : Event → Prop} {now : Instant} {w w' : World}
    (evolves : Evolves P now w w') (homed : w.Homed) : w'.Homed := by
  induction evolves with
  | refl => exact homed
  | tail _ change ih => exact change.homed ih

theorem Scene.Leads.homed {s t : Scene} (leads : s.Leads t) (homed : s.world.Homed) :
    t.world.Homed := by
  induction leads with
  | refl => exact homed
  | tail _ step ih => exact World.Evolves.homed step.evolves ih

/-- Something says nothing about an error. -/
def Happening.Mild (what : Happening) : Prop :=
  ∀ verbose line, what.line? verbose = some line → line.stream = .out

/-- What a run of the workload does is no error, nor is what is fleeting. -/
theorem Happening.mild_of_usual {what : Happening}
    (usual : ∀ kept, what.lasting? = some kept → kept.usual = true) : what.Mild := by
  have traced {detail : Option Bytes} {verbose : Bool} {line : Line}
      (eq : (if verbose then detail.map (Line.mk .out) else none) = some line) :
      line.stream = .out := by
    split at eq
    · obtain ⟨text, -, rfl⟩ := Option.map_eq_some_iff.mp eq
      rfl
    · cases eq
  intro verbose line told
  cases what with
  | lost | demoFailed => cases usual _ rfl
  | committed | created =>
    cases told
    rfl
  | _ => exact traced told

namespace Session

/-- Where nothing is said about an error, no report shows one. -/
theorem err_eq_nil_of_mild (s : Session) {commands : List Command}
    (mild : ∀ e ∈ (s.carryOutAll commands).1.world.events, e.what.Mild) :
    ∀ report ∈ (s.carryOutAll commands).2, report.err = [] := by
  induction commands generalizing s with
  | nil => nofun
  | cons c rest ih =>
    refine List.forall_mem_cons.mpr ⟨?_, ih (s.carryOut c).1 mild⟩
    have later := ((s.carryOut c).1.leads_carryOutAll rest).events
    refine List.flatMap_eq_nil_iff.mpr (fun line mem => ?_)
    obtain ⟨e, added, told⟩ := List.mem_filterMap.mp mem
    have here : e ∈ (s.carryOut c).1.world.events :=
      List.mem_of_mem_take (List.mem_reverse.mp added)
    rw [mild e (later.subset here) _ line told]
    rfl

theorem carryOutAll_concat (s : Session) (commands : List Command) (c : Command) :
    (s.carryOutAll (commands ++ [c])).1 = ((s.carryOutAll commands).1.carryOut c).1 := by
  induction commands generalizing s with
  | nil => rfl
  | cons first rest ih => exact ih (s.carryOut first).1

end Session

/-! ## When all workers are done -/

namespace Demo

variable {hands : List (UInt32 × UInt32)} {now : Instant} {v : View} {stored : Nat}

/-- The most keys that a worker was given. -/
def most (hands : List (UInt32 × UInt32)) : Nat := (hands.map (·.2.toNat)).foldr max 0

theorem le_most {hand : UInt32 × UInt32} (mem : hand ∈ hands) : hand.2.toNat ≤ most hands :=
  List.le_max_of_le' 0 (List.mem_map_of_mem mem) (Nat.le_refl _)

/-- A bound of what each worker was given bounds the most. -/
theorem most_le (all : ∀ hand ∈ hands, hand.2.toNat ≤ stored) : most hands ≤ stored :=
  List.max_le_of_forall_le _ _ (List.forall_mem_map.mpr all)

/-- All workers together were given no more keys than can be counted. -/
theorem total_lt (distinct : (hands.map Prod.fst).Nodup) : total hands < UInt64.size := by
  have few : hands.length ≤ UInt32.size := by
    have numbers : ((hands.map Prod.fst).map UInt32.toNat).Nodup :=
      distinct.map (fun _ _ => UInt32.toNat_inj.mp)
    have small : (hands.map Prod.fst).map UInt32.toNat ⊆ List.range UInt32.size :=
      fun n mem => by
        obtain ⟨number, -, rfl⟩ := List.mem_map.mp mem
        exact List.mem_range.mpr number.toNat_lt
    simpa using (numbers.subperm small).length_le
  have each : ∀ hand ∈ hands, hand.2.toNat ≤ UInt32.size - 1 :=
    fun hand _ => Nat.le_pred_of_lt hand.2.toNat_lt
  have sum := List.sum_le_card_nsmul (hands.map (·.2.toNat)) _ (List.forall_mem_map.mpr each)
  rw [List.length_map] at sum
  calc total hands
    _ ≤ hands.length * (UInt32.size - 1) := sum
    _ ≤ UInt32.size * (UInt32.size - 1) := Nat.mul_le_mul_right _ few
    _ < UInt64.size := by decide

/-- **In the end the keys that were stored are as many as the most that a worker
was given.** -/
theorem Progress.stored_eq_most (progress : Progress hands now v [] stored) :
    stored = most hands := by
  refine Nat.le_antisymm ?_ (most_le (fun hand mem => ?_))
  · cases stored with
    | zero => exact Nat.zero_le _
    | succ k =>
      obtain ⟨hand, mem, lt, -⟩ := progress.archive.recorded k (Nat.lt_succ_self k)
      exact Nat.le_trans lt (le_most mem)
  · exact (progress.reached hand mem).resolve_right nofun

end Demo

/-- **What the workload never does**: it is not let in again, it waits for as long
as it takes, and nothing that it does is refused. -/
def Demo.never : List Counter :=
  [.reentered, .releasesRefused, .conflicts, .acquireTimeouts, .waitTimeouts]

/-- What the workload never does is never counted. -/
theorem Happening.tally_eq_zero_of_usual {happened : List Happening}
    (usual : ∀ what ∈ happened, what.usual = true) {c : Counter} (mem : c ∈ Demo.never) :
    tally c happened = 0 := by
  refine List.count_eq_zero.mpr (fun counted => ?_)
  obtain ⟨what, there, counted⟩ := List.mem_flatMap.mp counted
  have named := usual what there
  unfold Demo.never at mem
  cases what with
  | acquired claimant key holder waited => cases waited <;> simp_all [Happening.counted]
  | hit | missed | wrote | released =>
    simp only [Happening.counted, List.mem_cons, List.not_mem_nil, or_false] at counted mem
    grind
  | cached | computing | computed | committed | reused => cases counted
  | _ => cases named

/-- What is kept of what happened are the same results. -/
theorem Happening.filter_commits_lasting (happened : List Happening) (key : Bytes) :
    (lasting happened).filter (·.commits key) = happened.filter (·.commits key) := by
  induction happened with
  | nil => rfl
  | cons what rest ih =>
    have kept {kept : Happening} (lasts : what.lasting? = some kept) :
        lasting (what :: rest) = kept :: lasting rest := List.filterMap_cons_some lasts
    have gone (fleeting : what.lasting? = none) :
        lasting (what :: rest) = lasting rest := List.filterMap_cons_none fleeting
    cases what with
    | committed =>
      rw [kept rfl, List.filter_cons, List.filter_cons, ih]
    | expired | swept | served =>
      rw [gone rfl, List.filter_cons_of_neg Bool.false_ne_true, ih]
    | _ =>
      rw [kept rfl, List.filter_cons_of_neg Bool.false_ne_true,
        List.filter_cons_of_neg Bool.false_ne_true, ih]

/-- No lock is held when none is live. -/
theorem Locks.liveCount_eq_zero {l : Locks} (placed : l.Placed) {now : Instant}
    (free : ∀ key, l.live? now key = none) : l.liveCount now = 0 := by
  obtain ⟨keys, -, mem_iff, length_eq⟩ := exists_liveKeys placed now
  have empty : keys = [] := List.eq_nil_iff_forall_not_mem.mpr (fun key mem => by
    have live := (mem_iff key).mp mem
    rw [free key] at live
    cases live)
  rw [← length_eq, empty]
  rfl

namespace Session

/-- When a session has settled, nobody is to look again at a moment that the
clock can show. -/
theorem AtRest.unreached_settle {s : Session} (rest : s.AtRest) :
    ∀ c ∈ (s.carryOut .settle).1.calls, reached Instant.last c.wake = false := by
  have issued : { s with nextId := s.nextId + 1 }.AtRest := ⟨rest.vigilant, rest.idle⟩
  exact (issued.runUntil (Int.le_max_right ..)).2

/-- **When a session of the workload has settled, all workers are done**: who
waits for a lock waits for one who sleeps, and nobody sleeps any more. -/
theorem AtRest.crew_eq_nil {s : Session} (rest : s.AtRest)
    (settled : ∀ c ∈ s.calls, reached Instant.last c.wake = false)
    {hands : List (UInt32 × UInt32)} {crew : List Demo.Worker} {stored : Nat}
    (threads : s.scene.threads = crew.map Demo.Worker.thread)
    (progress : Demo.Progress hands s.now (s.world.view s.now 0) crew stored) : crew = [] := by
  have waiting : ∀ m ∈ crew, ∃ c ∈ s.calls, c.thread = m.thread := by
    intro m mem
    have there : m.thread ∈ s.calls.map Call.thread := by
      show m.thread ∈ s.scene.threads
      rw [threads]
      exact List.mem_map_of_mem mem
    exact List.mem_map.mp there
  have nobody_computes : ∀ m ∈ crew, m.computes = false := by
    intro m mem
    refine Bool.eq_false_iff.mpr (fun computes => ?_)
    obtain ⟨finish, phase, stage, -, computing, -⟩ := (progress.fits m mem).computing computes
    obtain ⟨c, there, same⟩ := waiting m mem
    rw [Demo.Worker.thread, stage] at same
    cases phase with
    | sleeping =>
      -- it would be woken at a moment that the clock has passed
      obtain ⟨sleeps, -⟩ := Thread.waiting.inj same
      have wake := (rest.wake_of_sleep there sleeps).2
      have unreached := settled c there
      rw [wake] at unreached
      exact of_decide_eq_false unreached computing.shown
    | _ => cases same
  refine List.eq_nil_iff_forall_not_mem.mpr (fun m mem => ?_)
  obtain ⟨c, there, same⟩ := waiting m mem
  have idle := nobody_computes m mem
  cases stage : m.stage with
  | queueing asked =>
    rw [Demo.Worker.thread, stage] at same
    cases asked with
    | true =>
      -- whoever is in its way computes, and nobody does
      obtain ⟨seeks, -⟩ := Thread.waiting.inj same
      obtain ⟨moment, blocked, -⟩ := rest.blocked there
      rw [seeks] at blocked
      obtain ⟨h, live, -⟩ := blocked
      obtain ⟨other, other_mem, computes, -⟩ := progress.held m.key h live
      rw [nobody_computes other other_mem] at computes
      cases computes
    | false => cases same
  | computing finish phase =>
    rw [Demo.Worker.computes, stage] at idle
    cases idle
  | setting | served | done =>
    rw [Demo.Worker.thread, stage] at same
    cases same

end Session

/-! ## What a record tells -/

namespace Demo

/-- A key of the workload needs no escape. -/
theorem escape_key (i : Nat) : Json.escape (key i) = key i := by
  rw [key, Json.escape, List.flatMap_append, ← Json.escape, ← Json.escape, Json.escape_decimal]
  exact congrArg (· ++ decimal i) (by decide)

/-- Nor does the name of a worker. -/
theorem escape_holder (worker : UInt32) : Json.escape (holder worker) = holder worker := by
  rw [holder, Json.escape, List.flatMap_append, ← Json.escape, ← Json.escape, Json.escape_decimal]
  exact congrArg (· ++ decimal worker.toNat) (by decide)

/-- The members of what a worker computes: their names, what is written of them, and
what that is read as. -/
def members (i : Nat) (worker : UInt32) : List (String × Bytes × Json.Value) :=
  [("key", Json.quoted (key i), .string (key i)),
    ("computed_by", Json.quoted (holder worker), .string (holder worker))]

/-- **What a worker computes is an object.** It is not written as one: there is nothing
in the names that would have to be escaped. -/
theorem payload_content (i : Nat) (worker : UInt32) :
    (content (key i) (holder worker)).payload
      = Json.object ((members i worker).map (fun m => Json.member m.1 m.2.1)) := by
  have opening : utf8 "\x7b\"key\":\""
      = utf8 "\x7b" ++ Json.quoted (utf8 "key") ++ utf8 ":" ++ utf8 "\"" := by decide
  have between : utf8 "\",\"computed_by\":\""
      = utf8 "\"" ++ utf8 "," ++ Json.quoted (utf8 "computed_by") ++ utf8 ":" ++ utf8 "\"" := by
    decide
  have closing : utf8 "\"\x7d" = utf8 "\"" ++ utf8 "\x7d" := by decide
  rw [content, opening, between, closing]
  simp only [members, List.map_cons, List.map_nil, Json.object, Json.member,
    List.intersperse_cons_cons, List.intersperse_singleton, List.flatten_cons, List.flatten_nil,
    List.append_nil, List.append_assoc]
  simp only [Json.quoted, escape_key, escape_holder, List.append_assoc]

/-- What a worker computes is read as the key and the worker. -/
theorem read?_payload (i : Nat) (worker : UInt32) :
    Json.read? (content (key i) (holder worker)).payload
      = some (.object
        [(utf8 "key", .string (key i)), (utf8 "computed_by", .string (holder worker))]) := by
  have each : ∀ m ∈ members i worker, Json.IsRead 1 m.2.1 m.2.2 := by
    simp only [members, List.forall_mem_cons]
    exact ⟨Json.isRead_quoted _, Json.isRead_quoted _, nofun⟩
  rw [payload_content]
  exact (Json.isRead_object each).read? (Json.two_le_length_object _)

/-- **A payload names a worker**: it is read as an object, and what some member of that
object says is what the worker is called. -/
def Names (payload : Bytes) (worker : UInt32) : Prop :=
  ∃ members name, Json.read? payload = some (.object members)
    ∧ (name, .string (utf8 "demo-worker-" ++ decimal worker.toNat)) ∈ members

/-- **What a worker computes names the worker and nobody else.** -/
theorem names_payload_iff (i : Nat) (worker other : UInt32) :
    Names (content (key i) (holder worker)).payload other ↔ other = worker := by
  constructor
  · rintro ⟨members, name, read, mem⟩
    rw [read?_payload, Option.some.injEq, Json.Value.object.injEq] at read
    subst read
    rw [List.mem_pair, Prod.mk.injEq, Prod.mk.injEq, Json.Value.string.injEq,
      Json.Value.string.injEq] at mem
    obtain ⟨-, same⟩ | ⟨-, same⟩ := mem
    · exact absurd same.symm (key_ne_holder i other)
    · exact holder_inj.mp same
  · rintro rfl
    exact ⟨_, _, read?_payload i other, List.mem_cons_of_mem _ List.mem_cons_self⟩

/-- **A key has its record from one worker**, with this content. The record was
committed by that worker and by nobody else; it is a JSON text of two members, the
key and the worker, and names no other worker. -/
structure Authored (s : Session) (k : Nat) (worker : UInt32) (content : Content) : Prop where
  stored : s.world.currentStore.records.get? (utf8 "demo-txn-" ++ decimal k) = some content
  committed : (s.world.history s.world.current).filter
      (·.commits (utf8 "demo-txn-" ++ decimal k))
    = [.committed (utf8 "demo-txn-" ++ decimal k)
      (utf8 "demo-worker-" ++ decimal worker.toNat) content]
  metadata : content.metadata = utf8 "application/json"
  payload : content.payload = utf8 "\x7b\"key\":\"demo-txn-" ++ decimal k
    ++ utf8 "\",\"computed_by\":\"demo-worker-" ++ decimal worker.toNat ++ utf8 "\"\x7d"
  read : Json.read? content.payload = some (.object
    [(utf8 "key", .string (utf8 "demo-txn-" ++ decimal k)),
      (utf8 "computed_by", .string (utf8 "demo-worker-" ++ decimal worker.toNat))])
  names : ∀ other, Names content.payload other ↔ other = worker

/-- **What a worker computes tells whose it is**, once it is stored and committed. -/
theorem authored_content {s : Session} {k : Nat} {worker : UInt32}
    (stored : s.world.currentStore.records.get? (key k)
      = some (content (key k) (holder worker)))
    (committed : (s.world.history s.world.current).filter (·.commits (key k))
      = [.committed (key k) (holder worker) (content (key k) (holder worker))]) :
    Authored s k worker (content (key k) (holder worker)) where
  stored
  committed
  metadata := rfl
  payload := by
    have opening : utf8 "\x7b\"key\":\"demo-txn-" = utf8 "\x7b\"key\":\"" ++ utf8 "demo-txn-" := by
      decide
    have between : utf8 "\",\"computed_by\":\"demo-worker-"
        = utf8 "\",\"computed_by\":\"" ++ utf8 "demo-worker-" := by decide
    rw [opening, between]
    simp only [content, key, holder, List.append_assoc]
  read := read?_payload k worker
  names := names_payload_iff k worker

end Demo

/-! ## The end -/

/-- **What a workload comes to**, when these were the workers. -/
structure Demo.Completed (hands : List (UInt32 × UInt32)) (s : Session) : Prop where
  /-- Nobody is left waiting. -/
  ended : s.pending = []
  records : s.world.currentStore.recordTotal = most hands
  /-- **Every key has its record from one worker**, one that was given it, and the
  record names that worker alone. -/
  authored : ∀ k < most hands, ∃ hand ∈ hands, k < hand.2.toNat
    ∧ ∃ content, Authored s k hand.1 content
  writes : (s.world.currentStore.counters.get .writes).toNat = most hands
  misses : (s.world.currentStore.counters.get .misses).toNat = most hands
  hits : (s.world.currentStore.counters.get .hits).toNat = total hands - most hands
  acquired : (s.world.currentStore.counters.get .acquiredAtOnce).toNat
    + (s.world.currentStore.counters.get .acquiredAfterWait).toNat = total hands
  releases : (s.world.currentStore.counters.get .releases).toNat = total hands
  unneeded : ∀ c ∈ never, s.world.currentStore.counters.get c = 0
  free : s.world.currentStore.heldCount s.now = 0

/-- In a completed workload, a record that was computed under a worker's name is that
worker's. -/
theorem Demo.Completed.authored_of_stored {hands : List (UInt32 × UInt32)} {s : Session}
    (completed : Completed hands s) {k : Nat} (lt : k < most hands) {worker : UInt32}
    (stored : s.world.currentStore.records.get? (key k)
      = some (content (key k) (holder worker))) :
    Authored s k worker (content (key k) (holder worker)) := by
  obtain ⟨hand, -, -, found, authored⟩ := completed.authored k lt
  obtain rfl := Option.some.inj (authored.stored.symm.trans stored)
  obtain rfl := (authored.names worker).mp ((names_payload_iff ..).mpr rfl)
  exact authored

namespace Session

variable {s : Session} {hands : List (UInt32 × UInt32)}

/-- **Where nobody is left, the workload is completed.** -/
theorem completed_of_progress (distinct : (hands.map Prod.fst).Nodup) (booked : s.world.Booked)
    (placed : s.world.currentStore.locks.Placed) (current : s.world.current = 0)
    (calls : s.calls = []) {stored : Nat}
    (progress : Demo.Progress hands s.now (s.world.view s.now 0) [] stored) :
    Demo.Completed hands s := by
  have most := progress.stored_eq_most
  have store : s.world.currentStore = s.world.store 0 := congrArg s.world.store current
  obtain ⟨served, granted, missed, found, written⟩ := progress.accounts
  -- nothing is owed any more, and nobody computes
  rw [List.map_nil, List.sum_nil, Nat.add_zero] at served
  rw [List.countP_nil, Nat.add_zero] at granted missed
  have total : tally .releases (s.world.view s.now 0).told = Demo.total hands := served
  have countable := Demo.total_lt distinct
  have counted (c : Counter) (lasts : c.fleeting = false)
      (le : tally c (s.world.view s.now 0).told ≤ Demo.total hands) :
      (s.world.currentStore.counters.get c).toNat = tally c (s.world.view s.now 0).told := by
    rw [store, booked.counters, ← Happening.tally_lasting _ lasts]
    exact UInt64.toNat_ofNat_of_lt' (Nat.lt_of_le_of_lt le countable)
  have both : tally .acquiredAtOnce (s.world.view s.now 0).told
      + tally .acquiredAfterWait (s.world.view s.now 0).told = Demo.total hands :=
    granted.trans total
  exact {
    ended := by rw [pending, calls, List.map_nil]
    records := by rw [store]; exact progress.archive.size.trans most
    authored := fun k lt => by
      obtain ⟨hand, mem, few, record, committed⟩ := progress.archive.recorded k (most ▸ lt)
      refine ⟨hand, mem, few, _, Demo.authored_content ?_ ?_⟩
      · rw [store]
        exact record
      · rw [current]
        exact (Happening.filter_commits_lasting ..).symm.trans committed
    writes := by rw [counted _ rfl (by omega)]; omega
    misses := by rw [counted _ rfl (by omega)]; omega
    hits := by rw [counted _ rfl (by omega)]; omega
    acquired := by rw [counted _ rfl (by omega), counted _ rfl (by omega)]; exact both
    releases := by rw [counted _ rfl (by omega)]; exact total
    unneeded := fun c mem => by
      have lasts : c.fleeting = false := by
        unfold Demo.never at mem
        cases c <;> first | rfl | simp at mem
      have zero := Happening.tally_eq_zero_of_usual progress.usual mem
      rw [store, booked.counters, ← Happening.tally_lasting _ lasts]
      exact congrArg UInt64.ofNat zero
    free := by
      refine Locks.liveCount_eq_zero placed (fun key => Option.eq_none_iff_forall_ne_some.mpr
        (fun h live => ?_))
      rw [store] at live
      obtain ⟨m, mem, -⟩ := progress.held key h live
      cases mem }

/-- A world of the workload says nothing about an error: whatever happened there,
happened in its one store. -/
theorem mild_of_progress {w : World} (homed : w.Homed) (single : w.stores.length = 1)
    {now : Instant} {crew : List Demo.Worker} {stored : Nat}
    (progress : Demo.Progress hands now (w.view now 0) crew stored) :
    ∀ e ∈ w.events, e.what.Mild := by
  refine fun e mem => Happening.mild_of_usual (fun kept lasts => progress.usual kept ?_)
  have here : e.store = 0 := by
    have there := homed e mem
    omega
  refine List.mem_filterMap.mpr ⟨e.what, ?_, lasts⟩
  exact List.mem_map_of_mem (List.mem_filter.mpr
    ⟨List.mem_reverse.mpr mem, decide_eq_true here⟩)

section Settled

variable {hash : Bytes → Nat} {settings : StoreSettings} {environment : Environment}
  {now : Instant} {commands : List Command}

/-- Where no call is left, whoever came in as a worker has been told that it is
done. -/
theorem returned_of_calls_eq_nil {n : Nat} {worker keys : UInt32}
    (asked : commands[n]? = some (.call (.demo worker keys)))
    (calls : ((start hash settings environment now).carryOutAll commands).1.calls = []) :
    ∃ time, ⟨n, time, .done⟩
      ∈ ((start hash settings environment now).carryOutAll commands).1.returned := by
  have attends := (start hash settings environment now).attends_carryOutAll asked
  rw [show (start hash settings environment now).nextId + n = n from Nat.zero_add n] at attends
  obtain ⟨c, mem, -⟩ | told := attends
  · rw [calls] at mem
    cases mem
  · exact told

/-- **In a settled session of the workload no worker is left.** -/
theorem works_settled
    (allowed : ∀ a ∈ commands.filterMap Command.action?, a.besideWorkload = true)
    (distinct : (((commands.filterMap Command.action?).filterMap Action.hand?).map
      Prod.fst).Nodup)
    (in_time : ((start hash settings environment now).carryOutAll
      (commands ++ [.settle])).1.world.InTime) :
    let s := ((start hash settings environment now).carryOutAll (commands ++ [.settle])).1
    s.calls = [] ∧ s.world.current = 0 ∧ s.world.stores.length = 1
      ∧ ∃ stored, Demo.Progress ((commands.filterMap Command.action?).filterMap Action.hand?)
        s.now (s.world.view s.now 0) [] stored := by
  intro s
  have quiescent : (start hash settings environment now).Quiescent := .start ..
  have prompt := quiescent.atRest.prompt_carryOutAll (commands ++ [.settle]) .nil
  have actions : [] ++ (commands ++ [Command.settle]).filterMap Command.action?
      = commands.filterMap Command.action? := by
    rw [List.nil_append, List.filterMap_append]
    exact List.append_nil _
  rw [actions] at prompt
  obtain ⟨current, single, crew, stored, threads, progress⟩ :=
    prompt.works allowed distinct in_time
  have unreached : ∀ c ∈ s.calls, reached Instant.last c.wake = false := by
    have eq : s = _ := carryOutAll_concat _ commands .settle
    rw [eq]
    exact (quiescent.carryOutAll commands).atRest.unreached_settle
  obtain rfl := (quiescent.carryOutAll (commands ++ [.settle])).atRest.crew_eq_nil unreached
    threads progress
  exact ⟨List.map_eq_nil_iff.mp threads, current, single, stored, progress⟩

end Settled

/-- **The demo workload completes.** Workers with different numbers come in at
any time, and others may look and ask for reports. When the session has
settled, every worker has been told that it is done, nothing was written to the
log of errors, and the store shows what the workers were given to do. -/
theorem demo_workload_completes (hash : Bytes → Nat) (settings : StoreSettings)
    (environment : Environment) (now : Instant) (commands : List Command)
    (allowed : ∀ a ∈ commands.filterMap Command.action?, a.besideWorkload = true)
    (distinct : (((commands.filterMap Command.action?).filterMap Action.hand?).map
      Prod.fst).Nodup)
    (in_time : ((start hash settings environment now).carryOutAll
      (commands ++ [.settle])).1.world.InTime) :
    let settled := (start hash settings environment now).carryOutAll (commands ++ [.settle])
    Demo.Completed ((commands.filterMap Command.action?).filterMap Action.hand?) settled.1
      ∧ (∀ (n : Nat) (worker keys : UInt32),
        commands[n]? = some (.call (.demo worker keys)) →
          ∃ time, ⟨n, time, .done⟩ ∈ settled.1.returned)
      ∧ ∀ report ∈ settled.2, report.err = [] := by
  intro settled
  obtain ⟨calls, current, single, stored, progress⟩ := works_settled allowed distinct in_time
  have leads : (start hash settings environment now).scene.Leads settled.1.scene :=
    leads_carryOutAll ..
  have placed := Scene.Leads.placed leads settled.1.world.current
  have homed : settled.1.world.Homed := leads.homed (fun _ none => nomatch none)
  refine ⟨completed_of_progress distinct (leads.booked (World.booked_new ..)) placed current calls
    progress, fun n worker keys asked => ?_, err_eq_nil_of_mild _ (mild_of_progress homed single
    progress)⟩
  have still_asked : (commands ++ [.settle])[n]? = some (.call (.demo worker keys)) := by
    obtain ⟨lt, -⟩ := List.getElem?_eq_some_iff.mp asked
    rw [List.getElem?_append_left lt, asked]
  exact returned_of_calls_eq_nil still_asked calls

/-- Three workers: the second comes in while the first computes, the third when
all that it was given is there. -/
def threeWorkers : List Command :=
  [.call (.demo 7 1), .call (.demo 3 2), .advance (Duration.milliseconds 30),
    .call (.operation .sweep), .call (.demo 8 1)]

/-- The two keys have their records from the workers seven and three. -/
theorem threeWorkers_complete :
    let settled := (start (fun _ => 0) {} (fun _ => none) 0).carryOutAll
      (threeWorkers ++ [.settle])
    Demo.Completed [(7, 1), (3, 2), (8, 1)] settled.1
      ∧ (∀ (n : Nat) (worker keys : UInt32),
        threeWorkers[n]? = some (.call (.demo worker keys)) →
          ∃ time, ⟨n, time, .done⟩ ∈ settled.1.returned)
      ∧ (∀ report ∈ settled.2, report.err = [])
      ∧ Demo.Authored settled.1 0 7 {
        metadata := utf8 "application/json"
        payload := utf8 "\x7b\"key\":\"demo-txn-0\",\"computed_by\":\"demo-worker-7\"\x7d" }
      ∧ Demo.Authored settled.1 1 3 {
        metadata := utf8 "application/json"
        payload := utf8 "\x7b\"key\":\"demo-txn-1\",\"computed_by\":\"demo-worker-3\"\x7d" } := by
  intro settled
  have allowed : ∀ a ∈ threeWorkers.filterMap Command.action?, a.besideWorkload = true := by
    decide
  obtain ⟨completed, answered, silent⟩ :=
    demo_workload_completes (fun _ => 0) {} (fun _ => none) 0 threeWorkers allowed
      (by decide) (by decide +kernel)
  exact ⟨completed, answered, silent,
    completed.authored_of_stored (k := 0) (by decide) (by decide +kernel),
    completed.authored_of_stored (k := 1) (by decide) (by decide +kernel)⟩

end Session

end AdvisoryStore
