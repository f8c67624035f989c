import AdvisoryStore.Proofs.Workers

/-!
# The progress of the demo workload

All workers take up the keys in the same order, and a key is stored once. So
the keys that have their records are the first of them, up to some number
(`Demo.Archive`); nobody is further than that; and whoever computes does so
for the next key, of which it has the lock. Since the lock is one, so is the
worker that computes.

`Demo.Progress` says this of a store and of the workers at it, together with
what has been counted so far: of each worker the runs that have ended and
the keys it still has to go add up to the keys that it was given. It is kept
by every move of a worker (`Demo.Progress.move`), by a further worker that
comes in, and by the clock, as long as nobody oversleeps. When all workers
are done, the numbers of the workload can be read off it.
-/

namespace AdvisoryStore

open Happening (tally granted)

/-- Whether something is what a run of the workload does. -/
def Happening.usual : Happening → Bool
  | acquired .. | hit _ | missed _ | cached .. | computing .. | computed .. | wrote ..
  | released .. | committed .. | reused .. => true
  | _ => false

/-- Whether something is that a run stored the result for a key. -/
def Happening.commits (key : Bytes) : Happening → Bool
  | committed k _ _ => k = key
  | _ => false

/-- Where no result is stored, none is. -/
theorem Happening.filter_commits_eq_nil {happened : List Happening}
    (others : ∀ what ∈ happened, ∀ key, what.commits key = false) (key : Bytes) :
    happened.filter (·.commits key) = [] :=
  List.filter_eq_nil_iff.mpr (fun what mem => by rw [others what mem key]; nofun)

namespace Demo

/-! ## Workers and what they have to do -/

namespace Worker

/-- How many keys the worker has yet to be served. -/
def owing (m : Worker) : Nat :=
  match m.stage with
  | .setting => m.keys.toNat
  | .queueing _ | .computing .. => m.left + 1
  | .served .. => m.left
  | .done => 0

/-- Whether the worker computes. -/
def computes (m : Worker) : Bool :=
  match m.stage with
  | .computing .. => true
  | _ => false

/-- **A worker computes the next key**, has its lock for long enough, and is not
late. -/
structure Computing (m : Worker) (now : Instant) (v : View) (stored : Nat) (finish : Instant) :
    Prop where
  index : m.index = stored
  early : now ≤ finish
  shown : finish ≤ Instant.last
  held : ∃ h, v.live m.key = some h ∧ h.holder = m.holder
    ∧ ∀ d, h.deadline = some d → finish ≤ d

/-- **A worker fits** a store in which so many keys have their records. -/
def Fits (m : Worker) (now : Instant) (v : View) (stored : Nat) : Prop :=
  match m.stage with
  | .setting => True
  | .queueing _ => m.left < m.keys.toNat ∧ m.index ≤ stored
  | .computing finish phase => m.left < m.keys.toNat ∧ m.Computing now v stored finish
    ∧ (phase = .starting → finish = now + moment)
  | .served .. => m.left < m.keys.toNat ∧ m.index < stored
  | .done => m.keys.toNat ≤ stored

variable {m : Worker} {now later : Instant} {v v' : View} {stored stored' : Nat}

@[simp] theorem hand_next (m : Worker) (left : Nat) : (m.next left).hand = m.hand := by
  cases left <;> rfl

@[simp] theorem owing_next (m : Worker) (left : Nat) : (m.next left).owing = left := by
  cases left <;> rfl

@[simp] theorem computes_next (m : Worker) (left : Nat) : (m.next left).computes = false := by
  cases left <;> rfl

/-- Whoever does not compute fits wherever at least as many records are. -/
theorem Fits.of_idle (fits : m.Fits now v stored) (idle : m.computes = false)
    (le : stored ≤ stored') : m.Fits later v' stored' := by
  unfold Fits at fits ⊢
  unfold computes at idle
  split at fits
  · trivial
  · exact ⟨fits.1, Nat.le_trans fits.2 le⟩
  · next stage =>
    rw [stage] at idle
    cases idle
  · exact ⟨fits.1, Nat.lt_of_lt_of_le fits.2 le⟩
  · exact Nat.le_trans fits le

/-- Whoever computes does so for the next key. -/
theorem Fits.computing (fits : m.Fits now v stored) (computes : m.computes = true) :
    ∃ finish phase, m.stage = .computing finish phase ∧ m.left < m.keys.toNat
      ∧ m.Computing now v stored finish ∧ (phase = .starting → finish = now + moment) := by
  unfold Worker.computes at computes
  unfold Fits at fits
  split at computes
  · next finish phase stage =>
    rw [stage] at fits
    exact ⟨finish, phase, stage, fits⟩
  · cases computes

/-- Of what a store shows only what is live matters. -/
theorem Fits.of_live (fits : m.Fits now v stored) (same : v'.live = v.live) :
    m.Fits now v' stored := by
  unfold Fits at fits ⊢
  split at fits
  · trivial
  · exact fits
  · obtain ⟨lt, computing, starts⟩ := fits
    have held := computing.held
    rw [← same] at held
    exact ⟨lt, ⟨computing.index, computing.early, computing.shown, held⟩, starts⟩
  · exact fits
  · exact fits

/-- Whoever takes up the next key fits when the keys before it have their
records. -/
theorem fits_next {left : Nat} (le : left ≤ m.keys.toNat) (reached : m.keys.toNat - left ≤ stored) :
    (m.next left).Fits now v stored := by
  cases left with
  | zero => exact reached
  | succ left => exact ⟨le, reached⟩

end Worker

/-! ## Records and accounts -/

/-- **The keys that have their records** are the first ones, and each record
names the one worker that stored it. -/
structure Archive (hands : List (UInt32 × UInt32)) (v : View) (stored : Nat) : Prop where
  recorded : ∀ k < stored, ∃ hand ∈ hands, k < hand.2.toNat
    ∧ v.records.get? (key k) = some (content (key k) (holder hand.1))
    ∧ v.told.filter (·.commits (key k))
      = [.committed (key k) (holder hand.1) (content (key k) (holder hand.1))]
  unrecorded : ∀ k, stored ≤ k →
    v.records.get? (key k) = none ∧ v.told.filter (·.commits (key k)) = []
  size : v.records.size = stored

/-- **What has been counted**, when workers have so many keys in all, so many of
them to go, and so many workers compute. -/
structure Accounts (told : List Happening) (total owed busy stored : Nat) : Prop where
  served : tally .releases told + owed = total
  granted : granted told = tally .releases told + busy
  missed : tally .misses told = stored + busy
  found : tally .hits told + stored = tally .releases told
  written : tally .writes told = stored

/-- **The accounts go on**, by what happens and by what becomes of the workers. -/
theorem Accounts.add {told happened : List Happening}
    {total owed owed' busy busy' stored stored' : Nat}
    (accounts : Accounts told total owed busy stored)
    (served : tally .releases happened + owed' = owed)
    (granted : Happening.granted happened + busy = tally .releases happened + busy')
    (missed : tally .misses happened + stored + busy = stored' + busy')
    (found : tally .hits happened + stored' = stored + tally .releases happened)
    (written : tally .writes happened + stored = stored') :
    Accounts (told ++ happened) total owed' busy' stored' := by
  obtain ⟨served₀, granted₀, missed₀, found₀, written₀⟩ := accounts
  constructor <;> simp only [Happening.tally_append, Happening.granted_append] <;> omega

variable {hands : List (UInt32 × UInt32)} {now : Instant} {v v' : View} {stored : Nat}

/-- What stores nothing leaves the archive. -/
theorem Archive.tell (archive : Archive hands v stored) {happened : List Happening}
    (records : v'.records = v.records) (told : v'.told = v.told ++ happened)
    (others : ∀ what ∈ happened, ∀ k, what.commits k = false) : Archive hands v' stored := by
  have same (k : Bytes) : v'.told.filter (·.commits k) = v.told.filter (·.commits k) := by
    rw [told, List.filter_append, Happening.filter_commits_eq_nil others, List.append_nil]
  refine ⟨?_, ?_, ?_⟩
  · simp only [records, same]
    exact archive.recorded
  · simp only [records, same]
    exact archive.unrecorded
  · rw [records]
    exact archive.size

/-- **The next key is stored**, by a worker that has it to go. -/
theorem Archive.store (archive : Archive hands v stored) {hand : UInt32 × UInt32}
    (mem : hand ∈ hands) (lt : stored < hand.2.toNat)
    (records : v'.records = v.records.put (key stored) (content (key stored) (holder hand.1)))
    (happened : List Happening) (others : ∀ what ∈ happened, ∀ k, what.commits k = false)
    (told : v'.told = v.told ++ (happened
      ++ [.committed (key stored) (holder hand.1) (content (key stored) (holder hand.1))])) :
    Archive hands v' (stored + 1) := by
  have said (k : Nat) : v'.told.filter (·.commits (key k)) = v.told.filter (·.commits (key k))
      ++ if k = stored then
          [.committed (key stored) (holder hand.1) (content (key stored) (holder hand.1))]
        else [] := by
    have last : Happening.commits (key k)
        (.committed (key stored) (holder hand.1) (content (key stored) (holder hand.1)))
          = decide (k = stored) := decide_eq_decide.mpr (key_inj.trans eq_comm)
    rw [told, List.filter_append, List.filter_append, Happening.filter_commits_eq_nil others,
      List.nil_append, List.filter_singleton, last]
    by_cases same : k = stored <;> simp [same]
  have found (k : Nat) : v'.records.get? (key k)
      = if k = stored then some (content (key stored) (holder hand.1))
        else v.records.get? (key k) := by
    rw [records, Records.get?_put]
    simp only [key_inj]
  obtain ⟨absent, unsaid⟩ := archive.unrecorded stored (Nat.le_refl _)
  refine ⟨fun k lt_succ => ?_, fun k le => ?_, ?_⟩
  · rw [found, said]
    by_cases same : k = stored
    · subst same
      rw [if_pos rfl, if_pos rfl, unsaid]
      exact ⟨hand, mem, lt, rfl, rfl⟩
    · rw [if_neg same, if_neg same, List.append_nil]
      exact archive.recorded k (by omega)
  · have apart : k ≠ stored := by omega
    rw [found, said, if_neg apart, if_neg apart, List.append_nil]
    exact archive.unrecorded k (by omega)
  · rw [records, Records.size_put_of_get?_eq_none absent, archive.size]

/-! ## Progress -/

/-- The keys that all workers were given. -/
def total (hands : List (UInt32 × UInt32)) : Nat := (hands.map (·.2.toNat)).sum

/-- **How far the workload has come**: of the workers that came in, `crew` are
still at it, and the keys before `stored` have their records. -/
structure Progress (hands : List (UInt32 × UInt32)) (now : Instant) (v : View)
    (crew : List Worker) (stored : Nat) : Prop where
  enlisted : (crew.map Worker.hand).Sublist hands
  /-- Whoever is done has been served all of its keys. -/
  reached : ∀ hand ∈ hands, hand.2.toNat ≤ stored ∨ hand ∈ crew.map Worker.hand
  fits : ∀ m ∈ crew, m.Fits now v stored
  /-- Only those who compute hold anything. -/
  held : ∀ key h, v.live key = some h → ∃ m ∈ crew, m.computes = true ∧ m.key = key
  archive : Archive hands v stored
  accounts : Accounts v.told (total hands) ((crew.map Worker.owing).sum)
    (crew.countP Worker.computes) stored
  usual : ∀ what ∈ v.told, what.usual = true

namespace Progress

/-- A crew is one worker and those besides it. -/
theorem mem_crew_iff {before after : List Worker} {m other : Worker} :
    other ∈ before ++ m :: after ↔ other = m ∨ other ∈ before ++ after := by
  rw [List.mem_append, List.mem_append, List.mem_cons, or_left_comm]

/-- Whoever is there besides a worker is there. -/
theorem mem_crew {before after : List Worker} {m other : Worker} (mem : other ∈ before ++ after) :
    other ∈ before ++ m :: after := mem_crew_iff.mpr (.inr mem)

variable {hands : List (UInt32 × UInt32)} {now : Instant} {v v' : View} {before after : List Worker}
  {m : Worker} {stored : Nat}

/-- No two workers have the same number. -/
theorem number_ne (progress : Progress hands now v (before ++ m :: after) stored)
    (distinct : (hands.map Prod.fst).Nodup) {other : Worker} (mem : other ∈ before ++ after) :
    other.number ≠ m.number := by
  have numbers : ((before ++ m :: after).map Worker.number).Nodup := by
    have enlisted := progress.enlisted.map Prod.fst
    rw [List.map_map] at enlisted
    exact distinct.sublist enlisted
  rw [List.map_append, List.map_cons, List.nodup_append, List.nodup_cons] at numbers
  obtain ⟨-, ⟨apart_after, -⟩, apart⟩ := numbers
  intro same
  obtain earlier | later := List.mem_append.mp mem
  · exact apart _ (List.mem_map_of_mem earlier) _ List.mem_cons_self same
  · rw [← same] at apart_after
    exact apart_after (List.mem_map_of_mem later)

/-- **Whoever computes is alone in that.** -/
theorem alone (progress : Progress hands now v (before ++ m :: after) stored)
    (distinct : (hands.map Prod.fst).Nodup) {h : Hold} (live : v.live (key stored) = some h)
    (own : h.holder = m.holder) {other : Worker} (mem : other ∈ before ++ after) :
    other.computes = false := by
  refine Bool.eq_false_iff.mpr (fun computes => progress.number_ne distinct mem ?_)
  obtain ⟨_, _, -, -, computing, -⟩ := (progress.fits other (mem_crew mem)).computing computes
  obtain ⟨h', live', own', -⟩ := computing.held
  rw [Worker.key, computing.index, live] at live'
  cases live'
  exact holder_inj.mp (own'.symm.trans own)

/-- **What becomes of the workload** when something becomes of one worker. -/
theorem step (progress : Progress hands now v (before ++ m :: after) stored)
    {next : Option Worker} {happened : List Happening} {stored' : Nat}
    (le : stored ≤ stored') (hand : ∀ m' ∈ next, m'.hand = m.hand)
    (finished : next = none → m.keys.toNat ≤ stored')
    (fits : ∀ m' ∈ next.toList ++ (before ++ after), m'.Fits now v' stored')
    (held : ∀ key h, v'.live key = some h →
      ∃ m' ∈ next.toList ++ (before ++ after), m'.computes = true ∧ m'.key = key)
    (archive : Archive hands v' stored') (told : v'.told = v.told ++ happened)
    (usual : ∀ what ∈ happened, what.usual = true)
    (accounts : ∀ total owed busy, Accounts v.told total (m.owing + owed)
        ([m].countP Worker.computes + busy) stored →
      Accounts v'.told total ((next.toList.map Worker.owing).sum + owed)
        (next.toList.countP Worker.computes + busy) stored') :
    Progress hands now v' (before ++ next.toList ++ after) stored' := by
  have mem_iff (m' : Worker) :
      m' ∈ before ++ next.toList ++ after ↔ m' ∈ next.toList ++ (before ++ after) := by
    simp only [List.mem_append]
    tauto
  refine ⟨?_, fun hand' mem => ?_, fun m' mem => fits m' ((mem_iff m').mp mem),
    fun key h live => ?_, archive, ?_, ?_⟩
  · refine .trans ?_ progress.enlisted
    cases next with
    | none => simp
    | some m' => simp [hand m' rfl]
  · obtain done | present := progress.reached hand' mem
    · exact .inl (Nat.le_trans done le)
    · rw [List.map_append, List.map_cons, List.mem_append, List.mem_cons] at present
      cases next with
      | none =>
        rw [Option.toList_none, List.append_nil, List.map_append, List.mem_append]
        obtain earlier | rfl | later := present
        · exact .inr (.inl earlier)
        · exact .inl (finished rfl)
        · exact .inr (.inr later)
      | some m' =>
        refine .inr ?_
        rw [List.map_append, List.map_append, Option.toList_some, List.map_singleton, hand m' rfl,
          List.mem_append, List.mem_append, List.mem_singleton, or_assoc]
        exact present
  · obtain ⟨m', mem, computes⟩ := held key h live
    exact ⟨m', (mem_iff m').mpr mem, computes⟩
  · have before_ := progress.accounts
    simp only [List.map_append, List.map_cons, List.sum_append, List.sum_cons,
      List.countP_append] at before_ ⊢
    have later := accounts (total hands)
      ((before.map Worker.owing).sum + (after.map Worker.owing).sum)
      (before.countP Worker.computes + after.countP Worker.computes) ?_
    · refine cast ?_ later
      congr 1 <;> omega
    · refine cast ?_ before_
      rw [List.countP_cons, List.countP_singleton]
      congr 1 <;> omega
  · rw [told]
    exact List.forall_mem_append.mpr ⟨progress.usual, usual⟩

/-- The others of a crew fit where they did, if nothing is live otherwise. -/
theorem others_fit (progress : Progress hands now v (before ++ m :: after) stored)
    (live : v'.live = v.live) : ∀ other ∈ before ++ after, other.Fits now v' stored := by
  intro other mem
  exact (progress.fits other (mem_crew mem)).of_live live

/-- Whoever holds something is at it besides one who does not compute. -/
theorem held_by_others (progress : Progress hands now v (before ++ m :: after) stored)
    (idle : m.computes = false) {key : Bytes} {h : Hold} (live : v.live key = some h) :
    ∃ other ∈ before ++ after, other.computes = true ∧ other.key = key := by
  obtain ⟨other, mem, computes, same⟩ := progress.held key h live
  obtain rfl | mem := mem_crew_iff.mp mem
  · rw [idle] at computes
    cases computes
  · exact ⟨other, mem, computes, same⟩

/-- **A worker goes on**, and nothing becomes of the store but a remark. -/
theorem turn (progress : Progress hands now v (before ++ m :: after) stored) {m' : Worker}
    {remark : List Happening} (remarks : ∀ what ∈ remark, ∃ key holder, what = .reused key holder)
    (hand : m'.hand = m.hand) (fits : m'.Fits now v stored) (owing : m'.owing = m.owing)
    (busy : m'.computes = m.computes) (keeps : m.computes = true → m'.key = m.key) :
    Progress hands now (v.tell remark) (before ++ (some m').toList ++ after) stored := by
  refine progress.step (Nat.le_refl _) (by rintro _ ⟨⟩; exact hand) nofun ?_ ?_
    (progress.archive.tell rfl rfl ?_) rfl ?_ ?_
  · exact List.forall_mem_cons.mpr ⟨fits.of_live rfl, progress.others_fit rfl⟩
  · intro key h live
    obtain ⟨other, mem, computes, rfl⟩ := progress.held key h live
    obtain rfl | mem := mem_crew_iff.mp mem
    · exact ⟨m', List.mem_cons_self, busy.trans computes, keeps computes⟩
    · exact ⟨other, List.mem_cons_of_mem _ mem, computes, rfl⟩
  · intro what mem k
    obtain ⟨key, holder, rfl⟩ := remarks what mem
    rfl
  · intro what mem
    obtain ⟨key, holder, rfl⟩ := remarks what mem
    rfl
  · intro total owed busy' accounts
    have silent (c : Counter) : tally c remark = 0 := by
      refine List.count_eq_zero.mpr (fun mem => ?_)
      obtain ⟨what, mem, counted⟩ := List.mem_flatMap.mp mem
      obtain ⟨key, holder, rfl⟩ := remarks what mem
      cases counted
    refine accounts.add ?_ ?_ ?_ ?_ ?_ <;> simp [granted, silent, owing, busy]

/-- **A worker that is done leaves.** -/
theorem leave (progress : Progress hands now v (before ++ m :: after) stored)
    (stage : m.stage = .done) : Progress hands now v (before ++ after) stored := by
  have fits := progress.fits m (List.mem_append_right _ List.mem_cons_self)
  rw [Worker.Fits, stage] at fits
  have owing : m.owing = 0 := by rw [Worker.owing, stage]
  have idle : m.computes = false := by rw [Worker.computes, stage]
  have told : v.told = v.told ++ [] := (List.append_nil _).symm
  have left : Progress hands now v (before ++ (none : Option Worker).toList ++ after) stored := by
    refine progress.step (Nat.le_refl _) nofun (fun _ => fits) (progress.others_fit rfl)
      (fun key h live => progress.held_by_others idle live) progress.archive told nofun
      (fun total owed busy accounts => ?_)
    rw [owing, List.countP_singleton, idle] at accounts
    exact accounts
  rwa [Option.toList_none, List.append_nil] at left

/-- **A worker is given a record.** -/
theorem reuse (progress : Progress hands now v (before ++ m :: after) stored) {asked : Bool}
    (stage : m.stage = .queueing asked) {content : Content}
    (record : v.records.get? m.key = some content) :
    Progress hands now
      (v.tell [.acquired .run m.key m.holder asked, .hit m.key, .cached m.key m.holder content,
        .released .run m.key m.holder])
      (before ++ (some (m.atStage (.served content true []))).toList ++ after) stored := by
  have fits := progress.fits m (List.mem_append_right _ List.mem_cons_self)
  rw [Worker.Fits, stage] at fits
  have idle : m.computes = false := by rw [Worker.computes, stage]
  have earlier : m.index < stored := by
    refine Nat.lt_of_not_le (fun le => ?_)
    cases record.symm.trans (progress.archive.unrecorded m.index le).1
  refine progress.step (Nat.le_refl _) (by rintro _ ⟨⟩; rfl) nofun ?_ ?_
    (progress.archive.tell rfl rfl ?_) rfl ?_ ?_
  · exact List.forall_mem_cons.mpr ⟨⟨fits.1, earlier⟩, progress.others_fit rfl⟩
  · intro key h live
    obtain ⟨other, mem, computes⟩ := progress.held_by_others idle live
    exact ⟨other, List.mem_cons_of_mem _ mem, computes⟩
  · simp [Happening.commits]
  · simp [Happening.usual]
  · -- one more is served, and it was found
    intro total owed busy accounts
    have owing : m.owing = m.left + 1 := by rw [Worker.owing, stage]
    have owing' : (m.atStage (.served content true [])).owing = m.left := rfl
    have idle' : (m.atStage (.served content true [])).computes = false := rfl
    refine accounts.add ?_ ?_ ?_ ?_ ?_ <;> cases asked <;>
      simp [granted, Happening.counted, owing, owing', idle, idle'] <;> omega

/-- Nobody computes while the next key is free. -/
theorem idle_of_free {crew : List Worker} (progress : Progress hands now v crew stored)
    (free : v.live (key stored) = none) : ∀ m ∈ crew, m.computes = false := by
  refine fun m mem => Bool.eq_false_iff.mpr (fun computes => ?_)
  obtain ⟨_, _, -, -, computing, -⟩ := (progress.fits m mem).computing computes
  obtain ⟨h, live, -⟩ := computing.held
  rw [Worker.key, computing.index, free] at live
  cases live

/-- **A worker begins to compute** the next key. -/
theorem compute (progress : Progress hands now v (before ++ m :: after) stored) {asked : Bool}
    (stage : m.stage = .queueing asked) (free : v.live m.key = none)
    (absent : v.records.get? m.key = none) {h : Hold} (own : h.holder = m.holder)
    (deadline : h.deadline = now.after? hold) (shown : now + moment ≤ Instant.last) :
    Progress hands now
      ((v.grant m.key h).tell [.acquired .run m.key m.holder asked, .missed m.key,
        .computing m.key m.holder])
      (before ++ (some (m.atStage (.computing (now + moment) .starting))).toList ++ after)
      stored := by
  have fits := progress.fits m (List.mem_append_right _ List.mem_cons_self)
  rw [Worker.Fits, stage] at fits
  have idle : m.computes = false := by rw [Worker.computes, stage]
  -- the keys before the next one have their records, and the worker is no further than that
  have next : m.index = stored := by
    refine Nat.le_antisymm fits.2 (Nat.le_of_not_lt (fun lt => ?_))
    obtain ⟨_, _, _, record, _⟩ := progress.archive.recorded m.index lt
    cases record.symm.trans absent
  have key_eq : m.key = key stored := congrArg key next
  have nobody := progress.idle_of_free (by rw [← key_eq]; exact free)
  refine progress.step (Nat.le_refl _) (by rintro _ ⟨⟩; rfl) nofun ?_ ?_
    (progress.archive.tell rfl rfl ?_) rfl ?_ ?_
  · refine List.forall_mem_cons.mpr ⟨⟨fits.1, ⟨next, ?_, shown, h, ?_, own, ?_⟩, fun _ => rfl⟩,
      fun other (mem : other ∈ before ++ after) => ?_⟩
    · have pos : 0 < moment := by decide
      simp only [Instant, Duration] at *
      omega
    · exact if_pos rfl
    · intro d eq
      rw [deadline] at eq
      exact Worker.le_after?_hold eq
    · have idle := nobody other (mem_crew mem)
      exact (progress.fits other (mem_crew mem)).of_idle idle (Nat.le_refl _)
  · intro k g live
    by_cases same : k = m.key
    · exact ⟨_, List.mem_cons_self, rfl, same.symm⟩
    · have before_ : v.live k = some g := (if_neg same).symm.trans live
      obtain ⟨other, mem, computes⟩ := progress.held_by_others idle before_
      exact ⟨other, List.mem_cons_of_mem _ mem, computes⟩
  · simp [Happening.commits]
  · simp [Happening.usual]
  · -- one more has missed its record, and nobody is served yet
    intro total owed busy accounts
    have owing : m.owing = m.left + 1 := by rw [Worker.owing, stage]
    have owing' : (m.atStage (.computing (now + moment) .starting)).owing = m.left + 1 := rfl
    have busy' : (m.atStage (.computing (now + moment) .starting)).computes = true := rfl
    refine accounts.add ?_ ?_ ?_ ?_ ?_ <;> cases asked <;>
      simp [granted, Happening.counted, owing, owing', idle, busy'] <;> omega

/-- **A worker stores what it has computed.** -/
theorem store (progress : Progress hands now v (before ++ m :: after) stored)
    (distinct : (hands.map Prod.fst).Nodup) {finish : Instant} {phase : Phase}
    (stage : m.stage = .computing finish phase) :
    Progress hands now
      (((v.put m.key m.content).drop m.key).tell [.computed m.key m.holder,
        .wrote .run m.key m.holder m.content, .released .run m.key m.holder,
        .committed m.key m.holder m.content])
      (before ++ (some (m.atStage (.served m.content false [.done]))).toList ++ after)
      (stored + 1) := by
  have present : m ∈ before ++ m :: after := List.mem_append_right _ List.mem_cons_self
  have fits := progress.fits m present
  rw [Worker.Fits, stage] at fits
  obtain ⟨lt, computing, -⟩ := fits
  obtain ⟨h, live, own, -⟩ := computing.held
  have key_eq : m.key = key stored := congrArg key computing.index
  have busy : m.computes = true := by rw [Worker.computes, stage]
  have others : ∀ other ∈ before ++ after, other.computes = false := fun _ mem =>
    progress.alone distinct (by rw [← key_eq]; exact live) own mem
  refine progress.step (Nat.le_succ _) (by rintro _ ⟨⟩; rfl) nofun ?_ ?_ ?_ rfl ?_ ?_
  · refine List.forall_mem_cons.mpr ⟨⟨lt, Nat.lt_succ_of_le (Nat.le_of_eq computing.index)⟩,
      fun other (mem : other ∈ before ++ after) => ?_⟩
    exact (progress.fits other (mem_crew mem)).of_idle (others other mem) (Nat.le_succ _)
  · -- with its lock gone, nothing is held
    intro k g live
    exfalso
    by_cases same : k = m.key
    · cases (if_pos same).symm.trans live
    · have before_ : v.live k = some g := (if_neg same).symm.trans live
      obtain ⟨other, mem, computes, rfl⟩ := progress.held k g before_
      obtain rfl | mem := mem_crew_iff.mp mem
      · exact same rfl
      · rw [others other mem] at computes
        cases computes
  · have hand : m.hand ∈ hands := progress.enlisted.subset (List.mem_map_of_mem present)
    have to_go : stored < m.hand.2.toNat := by
      have index : m.keys.toNat - (m.left + 1) = stored := computing.index
      show stored < m.keys.toNat
      omega
    have content_eq : m.content = content (key stored) (holder m.hand.1) := by
      rw [Worker.content, key_eq]
      rfl
    refine progress.archive.store hand to_go ?_ [.computed m.key m.holder,
      .wrote .run m.key m.holder m.content, .released .run m.key m.holder] ?_ ?_
    · rw [← content_eq, ← key_eq]
      rfl
    · simp [Happening.commits]
    · rw [← content_eq, ← key_eq]
      rfl
  · simp [Happening.usual]
  · intro total owed busy' accounts
    have owing : m.owing = m.left + 1 := by rw [Worker.owing, stage]
    have owing' : (m.atStage (.served m.content false [.done])).owing = m.left := rfl
    have idle' : (m.atStage (.served m.content false [.done])).computes = false := rfl
    refine accounts.add ?_ ?_ ?_ ?_ ?_ <;>
      simp [granted, Happening.counted, owing, owing', busy, idle'] <;> omega

/-! ### Moves -/

/-- Nobody else acts under the name of a worker that wants a lock. -/
theorem apart (progress : Progress hands now v (before ++ m :: after) stored)
    (distinct : (hands.map Prod.fst).Nodup) {asked : Bool} (stage : m.stage = .queueing asked)
    {h : Hold} (live : v.live m.key = some h) : h.holder ≠ m.holder := by
  have idle : m.computes = false := by rw [Worker.computes, stage]
  obtain ⟨other, mem, computes, same⟩ := progress.held_by_others idle live
  obtain ⟨_, _, -, -, computing, -⟩ := (progress.fits other (mem_crew mem)).computing computes
  obtain ⟨h', live', own', -⟩ := computing.held
  rw [same, live] at live'
  cases live'
  intro own
  exact progress.number_ne distinct mem (holder_inj.mp (own'.symm.trans own))

/-- Whoever computes has its lock. -/
theorem holds (progress : Progress hands now v (before ++ m :: after) stored) {finish : Instant}
    {phase : Phase} (stage : m.stage = .computing finish phase) :
    ∃ h, v.live m.key = some h ∧ h.holder = m.holder := by
  have fits := progress.fits m (List.mem_append_right _ List.mem_cons_self)
  rw [Worker.Fits, stage] at fits
  obtain ⟨h, live, own, -⟩ := fits.2.1.held
  exact ⟨h, live, own⟩

/-- Whoever is about to sleep will be able to. -/
theorem timely (progress : Progress hands now v (before ++ m :: after) stored) {finish : Instant}
    (stage : m.stage = .computing finish .starting) : now.after? moment = some finish := by
  have fits := progress.fits m (List.mem_append_right _ List.mem_cons_self)
  rw [Worker.Fits, stage] at fits
  obtain ⟨-, computing, starts⟩ := fits
  have le := computing.shown
  rw [starts rfl] at le ⊢
  unfold Instant.after?
  refine if_neg (fun ⟨_, late⟩ => ?_)
  simp only [Instant, Duration] at *
  omega

/-- **Every move of a worker is progress.** -/
theorem move {w w' : World} {next : Option Worker}
    (progress : Progress hands now (w.view now 0) (before ++ m :: after) stored)
    (distinct : (hands.map Prod.fst).Nodup) (move : m.Move now w w' next)
    (in_time : ∀ key holder, ⟨0, now, .computing key holder⟩ ∈ w'.events →
      now + moment ≤ Instant.last) :
    ∃ stored', Progress hands now (w'.view now 0) (before ++ next.toList ++ after) stored' := by
  have fits := progress.fits m (List.mem_append_right _ List.mem_cons_self)
  cases move with
  | begins stage =>
    have owing : m.owing = m.keys.toNat := by rw [Worker.owing, stage]
    have idle : m.computes = false := by rw [Worker.computes, stage]
    refine ⟨stored, ?_⟩
    rw [← View.tell_nil (w.view now 0)]
    exact progress.turn nofun (m.hand_next _) (Worker.fits_next (Nat.le_refl _) (by omega))
      ((m.owing_next _).trans owing.symm) ((m.computes_next _).trans idle.symm)
      (by rw [idle]; nofun)
  | waits stage =>
    have idle : m.computes = false := by rw [Worker.computes, stage]
    rw [Worker.Fits, stage] at fits
    refine ⟨stored, ?_⟩
    rw [← View.tell_nil (w.view now 0)]
    exact progress.turn nofun rfl fits (by rw [Worker.owing, Worker.owing, stage]; rfl)
      idle.symm (fun _ => rfl)
  | reuses stage record shows =>
    rw [shows]
    exact ⟨stored, progress.reuse stage record⟩
  | computes stage free absent own deadline shows noted =>
    rw [shows]
    exact ⟨stored, progress.compute stage free absent own deadline (in_time _ _ noted)⟩
  | @rests finish phase phase' stage later =>
    have busy : m.computes = true := by rw [Worker.computes, stage]
    rw [Worker.Fits, stage] at fits
    obtain ⟨lt, computing, -⟩ := fits
    refine ⟨stored, ?_⟩
    rw [← View.tell_nil (w.view now 0)]
    have still : (m.atStage (.computing finish phase')).Computing now (w.view now 0) stored
        finish :=
      ⟨computing.index, computing.early, computing.shown, computing.held⟩
    exact progress.turn nofun rfl ⟨lt, still, fun starts => absurd starts later⟩
      (by rw [Worker.owing, Worker.owing, stage]; rfl) busy.symm (fun _ => rfl)
  | stores stage shows =>
    rw [shows]
    exact ⟨stored + 1, progress.store distinct stage⟩
  | @passes content reused inner u stage shows =>
    have owing : m.owing = m.left := by rw [Worker.owing, stage]
    have idle : m.computes = false := by rw [Worker.computes, stage]
    rw [Worker.Fits, stage] at fits
    obtain ⟨lt, served⟩ := fits
    refine ⟨stored, ?_⟩
    rw [shows]
    refine progress.turn ?_ (m.hand_next _) (Worker.fits_next (Nat.le_of_lt lt) ?_)
      ((m.owing_next _).trans owing.symm) ((m.computes_next _).trans idle.symm)
      (by rw [idle]; nofun)
    · split
      · exact List.forall_mem_singleton.mpr ⟨m.key, m.holder, rfl⟩
      · nofun
    · have index : m.keys.toNat - (m.left + 1) < stored := served
      omega
  | leaves stage =>
    refine ⟨stored, ?_⟩
    rw [Option.toList_none, List.append_nil]
    exact progress.leave stage

/-! ### Newcomers, and the clock -/

/-- **A further worker comes in.** -/
theorem enlist {crew : List Worker} (progress : Progress hands now v crew stored)
    (number keys : UInt32) :
    Progress (hands ++ [(number, keys)]) now v (crew ++ [⟨number, keys, 0, .setting⟩]) stored where
  enlisted := by
    rw [List.map_append]
    exact progress.enlisted.append (.refl _)
  reached hand mem := by
    rw [List.map_append, List.mem_append]
    obtain old | new := List.mem_append.mp mem
    · exact (progress.reached hand old).imp_right .inl
    · exact .inr (.inr new)
  fits := List.forall_mem_append.mpr ⟨progress.fits, List.forall_mem_singleton.mpr trivial⟩
  held key h live := by
    obtain ⟨m, mem, computes⟩ := progress.held key h live
    exact ⟨m, List.mem_append_left _ mem, computes⟩
  archive := by
    refine ⟨fun k lt => ?_, progress.archive.unrecorded, progress.archive.size⟩
    obtain ⟨hand, mem, rest⟩ := progress.archive.recorded k lt
    exact ⟨hand, List.mem_append_left _ mem, rest⟩
  accounts := by
    obtain ⟨served, granted, missed, found, written⟩ := progress.accounts
    have owing : Worker.owing ⟨number, keys, 0, .setting⟩ = keys.toNat := rfl
    have idle : Worker.computes ⟨number, keys, 0, .setting⟩ = false := rfl
    have more : total (hands ++ [(number, keys)]) = total hands + keys.toNat := by
      rw [total, List.map_append, List.sum_append]
      rfl
    simp only [more, List.map_append, List.map_cons, List.map_nil, List.sum_append, List.sum_cons,
      List.sum_nil, List.countP_append, List.countP_singleton, owing, idle]
    exact ⟨by omega, granted, missed, found, written⟩
  usual := progress.usual

/-- Whoever waits and computes sleeps, and is not overslept. -/
theorem sleeps_of_patient {later finish : Instant} {phase : Phase}
    (patient : m.thread.Patient later) (stage : m.stage = .computing finish phase) :
    phase = .sleeping ∧ later ≤ finish := by
  rw [Worker.thread, stage] at patient
  cases phase with
  | sleeping => exact ⟨rfl, patient⟩
  | _ => exact patient.elim

/-- **The clock moves on**, and nobody oversleeps. -/
theorem tick {crew : List Worker} {w : World} {later : Instant}
    (progress : Progress hands now (w.view now 0) crew stored) (le : now ≤ later)
    (patient : ∀ m ∈ crew, m.thread.Patient later) :
    Progress hands later (w.view later 0) crew stored := by
  have same : (w.view later 0).live = (w.view now 0).live := by
    funext key
    show (w.store 0).locks.live? later key = (w.store 0).locks.live? now key
    cases live : (w.store 0).locks.live? now key with
    | none =>
      rw [Locks.live?_later _ le, live]
      rfl
    | some h =>
      -- whoever has the key sleeps, and its hold outlasts that
      obtain ⟨m, mem, computes, rfl⟩ := progress.held key h live
      obtain ⟨finish, phase, stage, -, computing, -⟩ := (progress.fits m mem).computing computes
      obtain ⟨h', live', -, lasts⟩ := computing.held
      cases live.symm.trans live'
      have early := (sleeps_of_patient (patient m mem) stage).2
      exact Locks.live?_of_lasting live (fun d deadline => Int.le_trans early (lasts d deadline))
  have view : w.view later 0 = w.view now 0 := by
    show View.mk (w.view later 0).live _ _ = View.mk (w.view now 0).live _ _
    rw [same]
  rw [view]
  refine { progress with fits := fun m mem => ?_ }
  have fits := progress.fits m mem
  cases computes : m.computes with
  | false => exact fits.of_idle computes (Nat.le_refl _)
  | true =>
    obtain ⟨finish, phase, stage, lt, computing, -⟩ := fits.computing computes
    obtain ⟨rfl, early⟩ := sleeps_of_patient (patient m mem) stage
    rw [Worker.Fits, stage]
    exact ⟨lt, ⟨computing.index, early, computing.shown, computing.held⟩, nofun⟩

end Progress

end Demo

end AdvisoryStore
