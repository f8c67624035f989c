import AdvisoryStore.Proofs.Quiescence

/-!
# Looking again without cause

A session resumes a call only if it has cause to look again. One could do
without the causes: let every call that waits look again after whatever
happens, the first made first, and begin anew whenever one of them goes on
(`Session.recheck`). That takes more work, and makes no difference. A call
that has no cause to look again is blocked, trying its point in vain leaves
the world as it was, and filing it anew leaves the session as it was
(`Session.file_of_isIdle`); so a round of looking comes to the very
session that a round of waking comes to (`Session.recheck_eq_drain`), and
with it commands to the same reports.
-/

namespace AdvisoryStore

namespace Session

/-! ## Filing a call anew -/

/-- A call that gets past its point leaves less to do for all. -/
theorem callsWork_file_lt {s : Session} {before after : List Call} {c : Call} {w : World}
    {next : Control} (calls_eq : s.calls = before ++ c :: after)
    (pass : c.point.pass s.now s.world true c.stack = .passed w next) :
    callsWork (s.file before c.id after (next.run s.now w)).calls < callsWork s.calls := by
  have less := Nat.lt_of_le_of_lt (next.work_run_le s.now w) (Point.work_of_pass pass)
  rw [calls_eq, callsWork_append, callsWork_cons]
  generalize next.run s.now w = outcome at less
  obtain ⟨w, standing⟩ := outcome
  cases standing with
  | waiting p stack wake =>
    rw [file, callsWork_append, callsWork_cons]
    simp only [Call.work, Standing.work] at less ⊢
    omega
  | finished reply =>
    rw [file, callsWork_append]
    simp only [Call.work, Standing.work] at less ⊢
    omega

theorem calls_eq_of_getElem? {s : Session} {n : Nat} {c : Call} (found : s.calls[n]? = some c) :
    s.calls = s.calls.take n ++ c :: s.calls.drop (n + 1) := by
  obtain ⟨there, rfl⟩ := List.getElem?_eq_some_iff.mp found
  rw [← List.drop_eq_getElem_cons there, List.take_append_drop]

/-- **Lets the calls that wait look again**, whether they have cause to or
not, from the `n`-th on; and from the first whenever one of them goes on. -/
def recheck (s : Session) (n : Nat) : Session :=
  match _found : s.calls[n]? with
  | none => s
  | some c =>
    match _pass : c.point.pass s.now s.world true c.stack with
    | .passed w next =>
      (s.file (s.calls.take n) c.id (s.calls.drop (n + 1)) (next.run s.now w)).recheck 0
    | .waits wake =>
      (s.file (s.calls.take n) c.id (s.calls.drop (n + 1))
        (s.world, .waiting c.point c.stack wake)).recheck (n + 1)
termination_by (callsWork s.calls, s.calls.length - n)
decreasing_by
  · exact .left _ _ (callsWork_file_lt (calls_eq_of_getElem? _found) _pass)
  · have calls_eq := calls_eq_of_getElem? _found
    have there := (List.getElem?_eq_some_iff.mp _found).1
    have same_work : callsWork (s.file (s.calls.take n) c.id (s.calls.drop (n + 1))
        (s.world, .waiting c.point c.stack wake)).calls = callsWork s.calls := by
      conv => rhs; rw [calls_eq, callsWork_append, callsWork_cons]
      rw [file, callsWork_append, callsWork_cons]
      rfl
    have same_length : (s.file (s.calls.take n) c.id (s.calls.drop (n + 1))
        (s.world, .waiting c.point c.stack wake)).calls.length = s.calls.length := by
      conv => rhs; rw [calls_eq, List.length_append, List.length_cons]
      rw [file, List.length_append, List.length_cons]
    rw [same_work, same_length]
    exact .right _ (by omega)

/-- Looking again leaves the clock. -/
@[simp] theorem now_recheck (s : Session) (n : Nat) : (s.recheck n).now = s.now := by
  fun_induction recheck s n with
  | case1 => rfl
  | case2 s n c found w next pass ih => rwa [now_file] at ih
  | case3 s n c found wake waits ih => rwa [now_file] at ih

/-- **A call that has no cause to look again looks again for nothing**: the
session is the same as before. -/
theorem file_of_isIdle {s : Session} (vigilant : s.Vigilant) {before after : List Call} {c : Call}
    (calls_eq : s.calls = before ++ c :: after) (idle : s.isIdle c = true) :
    ∃ wake, c.point.pass s.now s.world true c.stack = .waits wake
      ∧ s.file before c.id after (s.world, .waiting c.point c.stack wake) = s := by
  have mem : c ∈ s.calls := by
    rw [calls_eq]
    exact List.mem_append_right _ List.mem_cons_self
  have unready : c.ready s.now s.world = false := (Bool.not_eq_true' _).mp idle
  have watches := (vigilant c mem).watches
  rw [unready] at watches
  obtain ⟨wake, blocked, wake_eq⟩ := watches.resolve_left Bool.false_ne_true
  refine ⟨wake, Point.pass_eq_waits_iff.mpr blocked, ?_⟩
  have heard : c.point.rings s.world = c.heard :=
    Decidable.byContradiction (fun ne => by
      rw [Call.ready, decide_eq_true ne, Bool.or_true] at unready
      cases unready)
  have same : Call.mk c.id c.point c.stack (upcoming s.now wake) (c.point.rings s.world) = c := by
    rw [heard, ← wake_eq]
  rw [file, same, ← calls_eq]

/-- A call that was just filed has no cause to look again. -/
theorem isIdle_of_filed (s : Session) (id : Nat) (p : Point) (stack : List Frame)
    (wake : Option Instant) :
    s.isIdle ⟨id, p, stack, upcoming s.now wake, p.rings s.world⟩ = true := by
  simp [isIdle, Call.ready, reached_upcoming]

/-- **Looking again without cause makes no difference.** -/
theorem recheck_eq_drain {s : Session} {n : Nat} (vigilant : s.Vigilant)
    (idle : ∀ c ∈ s.calls.take n, s.isIdle c = true) : s.recheck n = s.drain := by
  fun_induction recheck s n with
  | case1 s n none =>
    rw [List.take_of_length_le (List.getElem?_eq_none_iff.mp none)] at idle
    exact (drain_of_isIdle idle).symm
  | case2 s n c found w next pass ih =>
    have calls_eq := calls_eq_of_getElem? found
    have retry_eq : c.retry s.now s.world = next.run s.now w := by rw [Call.retry, pass]
    by_cases own : s.isIdle c = true
    · -- an idle call would not get past its point
      obtain ⟨wake, waits, -⟩ := file_of_isIdle vigilant calls_eq own
      rw [pass] at waits
      cases waits
    · have retried := vigilant.retry calls_eq
      rw [drain_of_ready calls_eq idle (Bool.eq_false_iff.mpr own)]
      rw [retry_eq] at retried ⊢
      exact ih retried (fun other mem => nomatch mem)
  | case3 s n c found wake waits ih =>
    have calls_eq := calls_eq_of_getElem? found
    have retry_eq : c.retry s.now s.world = (s.world, .waiting c.point c.stack wake) := by
      rw [Call.retry, waits]
    by_cases own : s.isIdle c = true
    · -- nothing has changed, and there is one call less to look at
      obtain ⟨wake', waits', same⟩ := file_of_isIdle vigilant calls_eq own
      rw [waits] at waits'
      cases waits'
      rw [same] at ih ⊢
      refine ih vigilant ?_
      rw [List.take_add_one, found]
      exact List.forall_mem_append.mpr ⟨idle, List.forall_mem_singleton.mpr own⟩
    · have retried := vigilant.retry calls_eq
      rw [drain_of_ready calls_eq idle (Bool.eq_false_iff.mpr own)]
      rw [retry_eq] at retried ⊢
      refine ih retried ?_
      -- the call had cause to look again, and has none now that it was filed
      have there : n < s.calls.length := (List.getElem?_eq_some_iff.mp found).1
      have first : (s.file (s.calls.take n) c.id (s.calls.drop (n + 1))
          (s.world, .waiting c.point c.stack wake)).calls.take (n + 1)
          = s.calls.take n
            ++ [⟨c.id, c.point, c.stack, upcoming s.now wake, c.point.rings s.world⟩] := by
        show (s.calls.take n ++ _ :: s.calls.drop (n + 1)).take (n + 1) = _
        rw [List.append_cons, List.take_left']
        rw [List.length_append, List.length_take, Nat.min_eq_left (Nat.le_of_lt there)]
        rfl
      rw [first]
      refine List.forall_mem_append.mpr ⟨idle, List.forall_mem_singleton.mpr ?_⟩
      exact s.isIdle_of_filed ..

/-- Looking again from the first on is a round. -/
theorem Vigilant.recheck_eq_drain {s : Session} (vigilant : s.Vigilant) :
    s.recheck 0 = s.drain :=
  Session.recheck_eq_drain vigilant (fun _ mem => nomatch mem)

/-! ## Commands carried out with looking again after everything -/

/-- Lets the clock run up to a target, and all calls look again at every
moment at which it stops. -/
def runUntilEagerly (s : Session) (target : Instant) : Session :=
  match s.nextWake with
  | none => s
  | some t =>
    if _h : s.now < t ∧ t ≤ target then
      ({ s with now := t }.recheck 0).runUntilEagerly target
    else s
termination_by (target - s.now).toNat
decreasing_by
  simp only [now_recheck, Instant] at *
  omega

/-- Moves the clock on, unless that would be back. -/
def advanceEagerly (s : Session) (d : Duration) : Session :=
  let target := (s.now.after? d).getD Instant.last
  { s.runUntilEagerly target with now := max s.now target }

/-- Moves the clock by a command that does so, and lets all calls look
again when all is done. -/
def followEagerly (s : Session) : Command → Session
  | .call _ => s.recheck 0
  | .advance d => (s.advanceEagerly d).recheck 0
  | .settle => (s.runUntilEagerly Instant.last).recheck 0

/-- Carries out a command. -/
def carryOutEagerly (s : Session) (c : Command) : Session × Report :=
  let (issued, reply) := s.issue c
  let final := issued.followEagerly c
  (final, s.report issued final reply)

/-- Carries out commands one after the other. -/
def carryOutAllEagerly (s : Session) : List Command → Session × List Report
  | [] => (s, [])
  | c :: rest =>
    let (s, report) := s.carryOutEagerly c
    let (s, reports) := s.carryOutAllEagerly rest
    (s, report :: reports)

/-- Destroys the handles that are still kept, and lets all calls look
again. -/
def closeEagerly (s : Session) : Session × Report :=
  let world := (inByteOrder s.world.slots.keys).foldl
    (fun w slot => (w.handleDestroy s.now slot).1) s.world
  let issued := { s with world }
  let final := issued.recheck 0
  (final, s.report issued final (some .done))

theorem Vigilant.runUntilEagerly_eq {s : Session} (vigilant : s.Vigilant) {target : Instant}
    (le_last : target ≤ max s.now Instant.last) :
    s.runUntilEagerly target = s.runUntil target := by
  fun_induction runUntilEagerly s target with
  | case1 s none_next =>
    unfold runUntil
    split
    · rfl
    · next next_eq =>
      rw [none_next] at next_eq
      cases next_eq
  | case2 s t next ahead ih =>
    have le : s.now ≤ t := Int.le_of_lt ahead.1
    have ticked : { s with now := t }.Vigilant :=
      vigilant.tick le (Int.le_trans ahead.2 le_last)
    rw [ticked.recheck_eq_drain] at ih ⊢
    have le_last : target ≤ max { s with now := t }.drain.now Instant.last := by
      rw [now_drain]
      simp only [Instant] at *
      omega
    rw [ih ticked.drain le_last]
    conv => rhs; unfold runUntil
    rw [next]
    dsimp only
    rw [dif_pos ahead]
  | case3 s t next not_ahead =>
    conv => rhs; unfold runUntil
    rw [next]
    dsimp only
    rw [dif_neg not_ahead]

/-- **A command comes to the same**, in a session at rest. -/
theorem AtRest.carryOutEagerly_eq {s : Session} (rest : s.AtRest) (c : Command) :
    s.carryOutEagerly c = s.carryOut c := by
  have settled {t : Session} (rest : t.AtRest) : t.recheck 0 = t :=
    rest.vigilant.recheck_eq_drain.trans (drain_of_isIdle rest.idle)
  have issued : { s with nextId := s.nextId + 1 }.AtRest := ⟨rest.vigilant, rest.idle⟩
  have followed : (s.issue c).1.followEagerly c = (s.issue c).1.follow c := by
    cases c with
    | call a => exact (rest.vigilant.call a).recheck_eq_drain
    | advance d =>
      have eager_eq := issued.vigilant.runUntilEagerly_eq (s.now.getD_after?_le d)
      have advanced : { s with nextId := s.nextId + 1 }.advanceEagerly d
          = { s with nextId := s.nextId + 1 }.advance d := by
        rw [advanceEagerly, Session.advance, eager_eq]
      exact (congrArg (recheck · 0) advanced).trans (settled (issued.advance d))
    | settle =>
      have eager_eq := issued.vigilant.runUntilEagerly_eq (Int.le_max_right s.now Instant.last)
      exact (congrArg (recheck · 0) eager_eq).trans (settled issued.settle)
  unfold carryOutEagerly Session.carryOut
  generalize s.issue c = outcome at followed
  obtain ⟨issued, reply⟩ := outcome
  dsimp only at followed ⊢
  rw [followed]

/-- **And so do commands one after the other.** -/
theorem AtRest.carryOutAllEagerly_eq {s : Session} (rest : s.AtRest) (commands : List Command) :
    s.carryOutAllEagerly commands = s.carryOutAll commands := by
  induction commands generalizing s with
  | nil => rfl
  | cons c more ih =>
    have later := ih (rest.carryOut c)
    rw [carryOutAllEagerly, carryOutAll, rest.carryOutEagerly_eq]
    generalize s.carryOut c = outcome at later
    obtain ⟨next, report⟩ := outcome
    dsimp only at later ⊢
    rw [later]

/-- Closing a session at rest is the same with every call looking again. -/
theorem AtRest.closeEagerly_eq {s : Session} (rest : s.AtRest) : s.closeEagerly = s.close := by
  have drained := (rest.vigilant.destroy (inByteOrder s.world.slots.keys)).recheck_eq_drain
  rw [closeEagerly, Session.close, drained]

end Session

/-! ## What a session at rest is like -/

/-- **A call at a point faces what it waits for**: another's live hold, or
the very hold whose end it awaits, or an instant that has not come. The
time to give up has not come either, and trying leaves the world as it
is. -/
def Point.Faces (p : Point) (now : Instant) (w : World) : Prop :=
  match p with
  | lock i request _ => ∃ h, ((w.store i).look now request.key).answer = some h
    ∧ h.holder ≠ request.holder ∧ (∀ t, request.giveUp = some t → now < t)
    ∧ ∀ waited, w.on now i (·.attempt now request waited) = (w, .blockedBy h)
  | release i key generation giveUp => ∃ h, ((w.store i).look now key).answer = some h
    ∧ h.generation = generation ∧ (∀ t, giveUp = some t → now < t)
    ∧ w.on now i (·.awaitEnd now key generation giveUp) = (w, .heldBy h)
  | sleep finish => ∀ t, finish = some t → now < t

/-- A call that has to wait faces what it waits for. -/
theorem Point.Blocked.faces {p : Point} {now : Instant} {w : World} {moment : Option Instant}
    (blocked : p.Blocked now w moment) : p.Faces now w := by
  have ahead {limit : Option Instant} (patient : reached now limit = false) :
      ∀ t, limit = some t → now < t := by
    rintro t rfl
    exact Int.not_le.mp (of_decide_eq_false patient)
  cases p with
  | lock i request purpose =>
    obtain ⟨h, live, other, patient, -⟩ := blocked
    refine ⟨h, ?_, other, ahead patient, fun waited => ?_⟩
    · rwa [Store.answer_look]
    · exact World.on_attempt_of_blockedBy
        (Locks.attempt_eq_blockedBy_iff.mpr ⟨live, other, patient⟩)
  | release i key generation giveUp =>
    obtain ⟨h, live, same, patient, -⟩ := blocked
    refine ⟨h, ?_, same, ahead patient, ?_⟩
    · rwa [Store.answer_look]
    · exact World.on_awaitEnd_of_heldBy
        (Locks.awaitEnd_eq_heldBy_iff.mpr ⟨live, same, patient⟩)
  | sleep finish => exact ahead blocked.1

namespace Session

/-- **No wake-up is lost, and none is needed.** In whatever session commands
lead to, every call that waits faces what it waits for; if it looks again
it waits on, the session being the same; and if all calls look again after
whatever happens from then on, the session and its reports are the same. -/
theorem no_wakeup_lost {s : Session} (quiescent : s.Quiescent) :
    (∀ c ∈ s.calls, c.point.Faces s.now s.world)
      ∧ (∀ before c after, s.calls = before ++ c :: after →
        ∃ wake, c.retry s.now s.world = (s.world, .waiting c.point c.stack wake)
          ∧ s.file before c.id after (c.retry s.now s.world) = s)
      ∧ (∀ commands, s.carryOutAllEagerly commands = s.carryOutAll commands)
      ∧ s.closeEagerly = s.close := by
  have rest := quiescent.atRest
  refine ⟨fun c mem => ?_, fun before c after calls_eq => ?_, rest.carryOutAllEagerly_eq,
    rest.closeEagerly_eq⟩
  · obtain ⟨moment, blocked, -⟩ := rest.blocked mem
    exact blocked.faces
  · have mem : c ∈ s.calls := by
      rw [calls_eq]
      exact List.mem_append_right _ List.mem_cons_self
    obtain ⟨wake, waits, same⟩ := file_of_isIdle rest.vigilant calls_eq (rest.idle c mem)
    have retry_eq : c.retry s.now s.world = (s.world, .waiting c.point c.stack wake) := by
      rw [Call.retry, waits]
    refine ⟨wake, retry_eq, ?_⟩
    rw [retry_eq]
    exact same

/-- A session in which a key is held, another wants it and a third waits
for the end of the hold. -/
def queued : Session :=
  ((start (fun _ => 0) {} (fun _ => none) 0).carryOutAll
    [.call (.acquire [1] [10] (some 100) none), .call (.acquire [1] [20] none (some 200)),
      .call (.wait [1] none)]).1

theorem no_wakeup_lost_of_queued :
    queued.calls.length = 2
      ∧ (∀ c ∈ queued.calls, c.point.Faces queued.now queued.world)
      ∧ queued.carryOutAllEagerly [.advance 50, .settle]
        = queued.carryOutAll [.advance 50, .settle] := by
  have quiescent : queued.Quiescent := (Quiescent.start ..).carryOutAll _
  obtain ⟨faces, -, same, -⟩ := no_wakeup_lost quiescent
  exact ⟨by decide +kernel, faces, same _⟩

end Session

end AdvisoryStore
