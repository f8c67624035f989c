import AdvisoryStore.Proofs.Likeness.Rounds

/-!
# Commands in sessions that are alike

Two sessions that are alike at rest stay so when both are given a command,
and when the first is given one that leaves alone what is looked at
(`Session.Alike.carryOutAll`).

When the clock is moved on, the session that has more calls stops at more
moments. The other is then behind: its clock is, but nothing in it is due
until the clock has caught up, so that it would be alike if it did
(`Session.Lags`). When everything is looked at there are no calls besides
that wait, and the clocks go together.
-/

namespace AdvisoryStore

variable {m : Selection} {scope : Scope} {pair : Pairing} {s t : Session} {c d : Call}
  {target : Instant}

/-! ## The clock -/

namespace Session

theorem Alike.tick (alike : s.Alike m scope pair t) {later : Instant} (le : s.now ≤ later) :
    { s with now := later }.Alike m scope pair { t with now := later } where
  now := rfl
  world := alike.world.tick le
  calls := alike.calls
  returned := alike.returned
  sound := alike.sound
  sound' := alike.sound'

/-- **At rest, calls that are alike are to look again at the same moment.** -/
theorem Alike.wake_eq (alike : s.Alike m scope pair t) (rest : s.AtRest) (rest' : t.AtRest)
    (mem : c ∈ s.calls) (mem' : d ∈ t.calls) (same : c.Alike m scope pair d) :
    c.wake = d.wake := by
  obtain ⟨moment, blocked, wake⟩ := rest.blocked mem
  obtain ⟨moment', blocked', wake'⟩ := rest'.blocked mem'
  have waits := same.waits alike.world (Point.pass_eq_waits_iff.mpr blocked)
  rw [alike.now] at waits wake
  rw [Point.pass_eq_waits_iff.mpr blocked'] at waits
  cases waits
  rw [wake, wake']

/-- The clock does not run when no call is to look again up to the target. -/
theorem runUntil_of_early (early : ∀ d ∈ t.calls, reached target d.wake = false) :
    t.runUntil target = t := by
  unfold runUntil
  split
  · rfl
  · next x next =>
    refine dif_neg (fun ahead => ?_)
    obtain ⟨d, mem, wake⟩ := exists_of_nextWake next
    have unreached := early d mem
    rw [wake] at unreached
    exact of_decide_eq_false unreached ahead.2

/-- Where the clock stops, no call is to look again up to the target. -/
theorem AtRest.early (rest : s.AtRest)
    (stops : ∀ x, s.nextWake = some x → ¬ (s.now < x ∧ x ≤ target)) :
    ∀ c ∈ s.calls, reached target c.wake = false := by
  intro c mem
  cases wake : c.wake with
  | none => rfl
  | some y =>
    obtain ⟨x, next, le⟩ := nextWake_le mem wake
    obtain ⟨first, first_mem, first_wake⟩ := exists_of_nextWake next
    have ahead := lt_wake_of_isIdle (rest.idle first first_mem) first_wake
    exact decide_eq_false (fun late => stops x next ⟨ahead, Int.le_trans le late⟩)

/-- The next moment is one at which a call is to look again, if none is to
before. -/
theorem nextWake_eq_some {x : Instant} (mem : d ∈ t.calls) (wake : d.wake = some x)
    (least : ∀ d ∈ t.calls, ∀ y, d.wake = some y → x ≤ y) : t.nextWake = some x := by
  obtain ⟨y, next, le⟩ := nextWake_le mem wake
  obtain ⟨d, mem, wake⟩ := exists_of_nextWake next
  rw [next, Int.le_antisymm le (least d mem y wake)]

/-- **A session that is behind another** by nothing but its clock. It is
not behind when everything is looked at. -/
structure Lags (m : Selection) (scope : Scope) (s t : Session) : Prop where
  le : t.now ≤ s.now
  rest : s.AtRest
  rest' : t.AtRest
  waited : { t with now := s.now }.AtRest
  alike : ∃ pair, s.Alike m scope pair { t with now := s.now }
  level : scope = .all → t.now = s.now

/-- When one of them is to look again at a moment, so is the other. -/
theorem Lags.wakes (lags : s.Lags m scope t) (mem : d ∈ t.calls) :
    ∃ c ∈ s.calls, c.wake = d.wake := by
  obtain ⟨pair, alike⟩ := lags.alike
  obtain ⟨c, mem', same⟩ := alike.calls.of_mem_right mem
  exact ⟨c, mem', alike.wake_eq lags.rest lags.waited mem' mem same⟩

/-- A session that is like another is not behind. -/
theorem Alike.lags (alike : s.Alike m scope pair t) (rest : s.AtRest) (rest' : t.AtRest) :
    s.Lags m scope t := by
  have level : { t with now := s.now } = t := by rw [alike.now]
  refine ⟨Int.le_of_eq alike.now.symm, rest, rest', ?_, ⟨pair, ?_⟩, fun _ => alike.now.symm⟩
  · rwa [level]
  · rwa [level]

/-- The other session is to look again no sooner. -/
theorem Lags.le_wake (lags : s.Lags m scope t) {x : Instant} (next : s.nextWake = some x) :
    ∀ d ∈ t.calls, ∀ y, d.wake = some y → x ≤ y := by
  intro d mem y wake
  obtain ⟨c, mem', wake'⟩ := lags.wakes mem
  obtain ⟨z, next', le⟩ := nextWake_le mem' (wake'.trans wake)
  rw [next] at next'
  cases next'
  exact le

/-- **A session falls behind** at a moment at which none of its own calls is
to look again. -/
theorem Lags.pass_by (lags : s.Lags m scope t) {x : Instant} (next : s.nextWake = some x)
    (le : s.now ≤ x) (le_last : x ≤ max s.now Instant.last)
    (asleep : ∀ d ∈ t.calls, d.wake ≠ some x) : { s with now := x }.drain.Lags m scope t := by
  have ticked : { s with now := x }.Vigilant := lags.rest.vigilant.tick le le_last
  have ticked' : { t with now := x }.Vigilant := lags.waited.vigilant.tick le le_last
  have idle : ∀ d ∈ { t with now := x }.calls, { t with now := x }.isIdle d = true := by
    intro d mem
    have before := lags.waited.idle d mem
    simp only [isIdle, Call.ready, Bool.not_eq_true', Bool.or_eq_false_iff] at before ⊢
    refine ⟨?_, before.2⟩
    cases wake : d.wake with
    | none => rfl
    | some y =>
      have ne : x ≠ y := fun eq => asleep d mem (by rw [wake, eq])
      have lt : x < y := Int.lt_iff_le_and_ne.mpr ⟨lags.le_wake next d mem y wake, ne⟩
      exact decide_eq_false (Int.not_le.mpr lt)
  obtain ⟨pair, alike⟩ := lags.alike
  obtain ⟨pair', drained⟩ := (alike.tick le).drain ticked ticked'
  rw [drain_of_isIdle idle] at drained
  refine ⟨?_, ticked.atRest_drain, lags.rest', ?_, ?_, fun all => ?_⟩
  · rw [now_drain]
    exact Int.le_trans lags.le le
  · rw [now_drain]
    exact ⟨ticked', idle⟩
  · rw [now_drain]
    exact ⟨pair', drained⟩
  · -- when everything is looked at, the call that is due is in both sessions
    obtain ⟨c, mem, wake⟩ := exists_of_nextWake next
    obtain ⟨d, mem', same⟩ | aside := alike.calls.of_mem_left mem
    · have wake' := alike.wake_eq lags.rest lags.waited mem mem' same
      exact absurd (wake'.symm.trans wake) (asleep d mem')
    · obtain ⟨key, apart, -⟩ := aside.apart
      subst all
      exact absurd trivial apart

/-- Where the clock stops, it stops in the session that is behind. -/
theorem Lags.stop (lags : s.Lags m scope t)
    (stops : ∀ x, s.nextWake = some x → ¬ (s.now < x ∧ x ≤ target)) :
    s.Lags m scope (t.runUntil target) := by
  have early : ∀ d ∈ t.calls, reached target d.wake = false := by
    intro d mem
    obtain ⟨c, mem', wake⟩ := lags.wakes mem
    rw [← wake]
    exact lags.rest.early stops c mem'
  rwa [runUntil_of_early early]

/-- **The session that is behind goes where the other goes.** -/
theorem Lags.runUntil (lags : s.Lags m scope t) (le_last : target ≤ max s.now Instant.last) :
    (s.runUntil target).Lags m scope (t.runUntil target) := by
  fun_induction Session.runUntil s target generalizing t with
  | case1 s none_next =>
    refine lags.stop (fun x next => ?_)
    rw [none_next] at next
    cases next
  | case3 s x next not_ahead =>
    refine lags.stop (fun y next' => ?_)
    rw [next] at next'
    cases next'
    exact not_ahead
  | case2 s x next ahead ih =>
    have le : s.now ≤ x := Int.le_of_lt ahead.1
    have x_le_last : x ≤ max s.now Instant.last := Int.le_trans ahead.2 le_last
    have le_last' : target ≤ max { s with now := x }.drain.now Instant.last := by
      rw [now_drain]
      simp only [Instant] at *
      omega
    by_cases woken : ∃ d ∈ t.calls, d.wake = some x
    · -- both clocks stop here
      obtain ⟨d, mem, wake⟩ := woken
      have stop : t.runUntil target = { t with now := x }.drain.runUntil target := by
        conv => lhs; unfold Session.runUntil
        rw [nextWake_eq_some mem wake (lags.le_wake next)]
        dsimp only
        rw [dif_pos ⟨Int.lt_of_le_of_lt lags.le ahead.1, ahead.2⟩]
      have ticked : { s with now := x }.Vigilant := lags.rest.vigilant.tick le x_le_last
      have ticked' : { t with now := x }.Vigilant := lags.waited.vigilant.tick le x_le_last
      obtain ⟨pair, alike⟩ := lags.alike
      obtain ⟨pair', drained⟩ := (alike.tick le).drain ticked ticked'
      rw [stop]
      exact ih (drained.lags ticked.atRest_drain ticked'.atRest_drain) le_last'
    · exact ih (lags.pass_by next le x_le_last (fun d mem wake => woken ⟨d, mem, wake⟩)) le_last'

/-- **When the clock is moved on, sessions stay alike.** -/
theorem Alike.advance (alike : s.Alike m scope pair t) (rest : s.AtRest) (rest' : t.AtRest)
    (d : Duration) : ∃ pair', (s.advance d).Alike m scope pair' (t.advance d) := by
  unfold Session.advance
  rw [← alike.now]
  have le_last := s.now.getD_after?_le d
  generalize (s.now.after? d).getD Instant.last = target at le_last
  obtain ⟨pair', ran⟩ := ((alike.lags rest rest').runUntil le_last).alike
  exact ⟨pair', ran.tick (s.runUntil_now_le_max target)⟩

/-- **When the clock runs until nothing is due, sessions stay alike**, if
everything is looked at. -/
theorem Alike.settle (alike : s.Alike m .all pair t) (rest : s.AtRest) (rest' : t.AtRest) :
    ∃ pair', s.settle.Alike m .all pair' t.settle := by
  have ran := (alike.lags rest rest').runUntil (Int.le_max_right s.now Instant.last)
  have level : { t.settle with now := s.settle.now } = t.settle := by
    rw [Session.settle, Session.settle, ← ran.level rfl]
  rw [← level]
  exact ran.alike

/-! ## Commands -/

@[simp] theorem nextId_file (s : Session) (before : List Call) (id : Nat) (after : List Call)
    (outcome : World × Standing) : (s.file before id after outcome).nextId = s.nextId := by
  obtain ⟨w, standing⟩ := outcome
  cases standing <;> rfl

@[simp] theorem nextId_drain (s : Session) : s.drain.nextId = s.nextId := by
  fun_induction Session.drain s with
  | case1 => rfl
  | case2 s c after eq ih => rw [ih, nextId_file]

@[simp] theorem nextId_runUntil (s : Session) (target : Instant) :
    (s.runUntil target).nextId = s.nextId := by
  fun_induction Session.runUntil s target with
  | case1 => rfl
  | case2 s x next ahead ih => rw [ih, nextId_drain]
  | case3 => rfl

/-- Every command takes a number. -/
theorem nextId_carryOut (s : Session) (c : Command) : (s.carryOut c).1.nextId = s.nextId + 1 := by
  cases c with
  | call a => exact (nextId_drain _).trans (nextId_file ..)
  | advance d => exact nextId_runUntil { s with nextId := s.nextId + 1 } _
  | settle => exact nextId_runUntil { s with nextId := s.nextId + 1 } _

/-- The number of the next command makes no difference to what is looked at. -/
theorem Alike.numbered (alike : s.Alike m scope pair t) (n k : Nat) :
    { s with nextId := n }.Alike m scope pair { t with nextId := k } where
  now := alike.now
  world := alike.world
  calls := alike.calls
  returned := alike.returned
  sound := alike.sound
  sound' := alike.sound'

end Session

/-- **The commands that are looked at.** What is about no call is looked at
unless it tells of all of them. -/
def Command.LookedAt (scope : Scope) : Command → Prop
  | call a => scope.Admits a
  | advance _ => True
  | settle => scope = .all

/-- **The commands that leave alone what is looked at**: calls that do so,
and if they have to wait do so where nothing is looked at. -/
def Command.LeavesAlone (scope : Scope) : Command → Prop
  | call a => ∀ now w, w.Unmoved scope now (Control.run now w ⟨.perform a, []⟩).1
    ∧ (Control.run now w ⟨.perform a, []⟩).2.Aside scope
  | _ => False

/-- **A selection fits what is looked at** if what is selected is, and the
rest leaves that alone. -/
def Selection.Fits (m : Selection) (scope : Scope) : Prop :=
  ∀ x ∈ m, if x.2 then x.1.LookedAt scope else x.1.LeavesAlone scope

namespace Session

/-- **A command that is looked at keeps sessions alike.** -/
theorem Alike.carryOut_both (alike : s.Alike m scope pair t) (rest : s.AtRest) (rest' : t.AtRest)
    (number : t.nextId = m.rank s.nextId) {c : Command} (found : m[s.nextId]? = some (c, true))
    (looked : c.LookedAt scope) :
    ∃ pair', (s.carryOut c).1.Alike m scope pair' (t.carryOut c).1 := by
  have numbered := alike.numbered (s.nextId + 1) (t.nextId + 1)
  have rest_numbered : { s with nextId := s.nextId + 1 }.AtRest := ⟨rest.vigilant, rest.idle⟩
  have rest_numbered' : { t with nextId := t.nextId + 1 }.AtRest := ⟨rest'.vigilant, rest'.idle⟩
  cases c with
  | advance d => exact numbered.advance rest_numbered rest_numbered' d
  | settle =>
    obtain rfl : scope = .all := looked
    exact numbered.settle rest_numbered rest_numbered'
  | call a =>
    have calls : Control.Alike scope pair a ⟨.perform a, []⟩ ⟨.perform a, []⟩ :=
      ⟨a, .perform looked, .top⟩
    obtain ⟨pair', le, worlds, standings⟩ := calls.run alike.world alike.sound alike.sound'
    have sound := (Control.evolves_run s.now s.world ⟨.perform a, []⟩).sound alike.sound
    have sound' := (Control.evolves_run s.now t.world ⟨.perform a, []⟩).sound alike.sound'
    have called := numbered.file_both found worlds standings sound sound'
      (numbered.calls.mono le) .nil
    have same : ({ t with nextId := t.nextId + 1 }.file t.calls (m.rank s.nextId) []
        (Control.run s.now t.world ⟨.perform a, []⟩)) = (t.call a).1 := by
      rw [Session.call, number, alike.now]
    rw [same] at called
    exact called.drain (rest.vigilant.call a) (rest'.vigilant.call a)

/-- **A command that leaves alone what is looked at** need not be given. -/
theorem Alike.carryOut_aside (alike : s.Alike m scope pair t) (rest : s.AtRest) (rest' : t.AtRest)
    {c : Command} (found : m[s.nextId]? = some (c, false)) (apart : c.LeavesAlone scope) :
    ∃ pair', (s.carryOut c).1.Alike m scope pair' t := by
  cases c with
  | advance d => exact apart.elim
  | settle => exact apart.elim
  | call a =>
    obtain ⟨unmoved, standing⟩ := apart s.now s.world
    have unselected : m.keeps s.nextId = false := by rw [Selection.keeps, found]; rfl
    have sound := (Control.evolves_run s.now s.world ⟨.perform a, []⟩).sound alike.sound
    have called : (s.call a).1.Alike m scope pair t :=
      (alike.numbered (s.nextId + 1) t.nextId).file_aside unselected unmoved standing sound
        alike.calls .nil (List.append_nil _).symm
    obtain ⟨pair', drained⟩ := called.drain (rest.vigilant.call a) rest'.vigilant
    rw [drain_of_isIdle rest'.idle] at drained
    exact ⟨pair', drained⟩

/-- **Commands keep sessions alike**, the one being given all of them and
the other those that are selected. -/
theorem Alike.carryOutAll {done more : Selection} (alike : s.Alike m scope pair t)
    (rest : s.AtRest) (rest' : t.AtRest) (split : m = done ++ more) (fits : more.Fits scope)
    (number : s.nextId = done.length) (number' : t.nextId = m.rank s.nextId) :
    ∃ pair', (s.carryOutAll more.commands).1.Alike m scope pair'
      (t.carryOutAll more.selected).1 := by
  induction more generalizing s t done pair with
  | nil => exact ⟨pair, alike⟩
  | cons x more ih =>
    obtain ⟨c, kept⟩ := x
    obtain ⟨first, others⟩ := List.forall_mem_cons.mp fits
    have found : m[s.nextId]? = some (c, kept) := by
      rw [split, number, List.getElem?_append_right (Nat.le_refl _), Nat.sub_self]
      rfl
    have split : m = (done ++ [(c, kept)]) ++ more := by rw [split, List.append_cons]
    have number_next : (s.carryOut c).1.nextId = (done ++ [(c, kept)]).length := by
      rw [nextId_carryOut, number, List.length_append]
      rfl
    have rank_next : m.rank (s.carryOut c).1.nextId = t.nextId + kept.toNat := by
      rw [nextId_carryOut, Selection.rank_succ found, number']
    cases kept with
    | true =>
      obtain ⟨pair', after⟩ := alike.carryOut_both rest rest' number' found first
      have number_next' : (t.carryOut c).1.nextId = m.rank (s.carryOut c).1.nextId := by
        rw [rank_next, nextId_carryOut]
        rfl
      exact ih after (rest.carryOut c) (rest'.carryOut c) split others number_next number_next'
    | false =>
      obtain ⟨pair', after⟩ := alike.carryOut_aside rest rest' found first
      exact ih after (rest.carryOut c) rest' split others number_next rank_next.symm

/-- **Sessions that begin alike stay alike**, whatever the one is given
besides. -/
theorem alike_of_start (fits : m.Fits scope) (hash hash' : Bytes → Nat)
    (settings settings' : StoreSettings) (environment : Environment) (now : Instant)
    (defaultHold : settings.defaultHold = settings'.defaultHold)
    (whole : scope = .all → hash = hash' ∧ settings = settings') :
    ∃ pair, ((start hash settings environment now).carryOutAll m.commands).1.Alike m scope pair
      ((start hash' settings' environment now).carryOutAll m.selected).1 := by
  have worlds : World.Alike scope _ now _ _ := World.alike_new environment defaultHold whole
  have begun : (start hash settings environment now).Alike m scope (fun _ _ _ _ => False)
      (start hash' settings' environment now) :=
    ⟨rfl, worlds, .nil, .nil, World.sound_new .., World.sound_new ..⟩
  exact begun.carryOutAll (Quiescent.start ..).atRest (Quiescent.start ..).atRest
    (List.nil_append m).symm fits rfl rfl

/-! ## The end -/

/-- **When the handles that are kept are destroyed, sessions stay alike**, if
everything is looked at. -/
theorem Alike.close (alike : s.Alike m .all pair t) (rest : s.AtRest) (rest' : t.AtRest) :
    ∃ pair', s.close.1.Alike m .all pair' t.close.1 := by
  have slots : t.world.slots = s.world.slots := (alike.world.whole rfl).slots
  have worlds := alike.world.destroy (inByteOrder s.world.slots.keys)
  have vigilant' := rest'.vigilant.destroy (inByteOrder t.world.slots.keys)
  unfold Session.close
  rw [slots, ← alike.now] at vigilant' ⊢
  exact Alike.drain
    ⟨rfl, worlds, alike.calls, alike.returned, alike.sound.destroy _, alike.sound'.destroy _⟩
    (rest.vigilant.destroy _) vigilant'

/-! ## What can be seen of sessions that are alike -/

/-- **The same calls come to the same answers**, at the same instants and in
the same order. -/
theorem Alike.returned_eq (alike : s.Alike m scope pair t) :
    List.Forall₂ (Return.Alike m scope) (s.returned.filter (m.keeps ·.id)) t.returned := by
  refine alike.returned.forall₂_filter _ (fun r q same => ?_) (fun r unselected => unselected)
  obtain ⟨a, asks, -⟩ := same.reply
  exact asks.keeps

/-- **The same calls wait.** -/
theorem Alike.pending_eq (alike : s.Alike m scope pair t) :
    t.pending = (s.pending.filter m.keeps).map m.rank := by
  have calls := alike.calls
  unfold pending
  generalize s.calls = waiting at calls ⊢
  generalize t.calls = waiting' at calls ⊢
  induction calls with
  | nil => rfl
  | both same rest ih =>
    obtain ⟨id, a, b, asks, -⟩ := same
    rw [List.map_cons, List.map_cons, List.filter_cons_of_pos asks.keeps, List.map_cons, id, ih]
  | aside extra rest ih =>
    rw [List.map_cons, List.filter_cons_of_neg (Bool.eq_false_iff.mp extra.unselected), ih]

end Session
end AdvisoryStore
