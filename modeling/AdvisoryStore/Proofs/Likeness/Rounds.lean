import AdvisoryStore.Proofs.Likeness.Bystander
import AdvisoryStore.Proofs.Recheck

/-!
# Sessions that are alike

One session is given all commands of a list, and another only those that
are selected (`Selection`). What the first is given besides has to leave
alone what is looked at; then the sessions stay **alike**: the worlds are,
the selected calls that wait do so at points that are alike, and the
selected calls that came to their answers did so at the same instants, in
the same order, with answers that agree (`Session.Alike`).

A round needs some care, since the calls that are not selected ring bells
and let others be resumed that have no cause to be in the other session. So
the first session is made to let *every* call look again, which makes no
difference (`Session.recheck_eq_drain`), and the second follows: it resumes
its counterpart of the call, or would do so for nothing
(`Session.Alike.recheck`).
-/

namespace AdvisoryStore

/-! ## A list that has more than another -/

/-- **One list is like another, but for what it has besides.** -/
inductive Besides {α β : Type} (R : α → β → Prop) (P : α → Prop) : List α → List β → Prop
  | nil : Besides R P [] []
  | both {a : α} {b : β} {l : List α} {m : List β} (same : R a b) (rest : Besides R P l m) :
      Besides R P (a :: l) (b :: m)
  | aside {a : α} {l : List α} {m : List β} (extra : P a) (rest : Besides R P l m) :
      Besides R P (a :: l) m

namespace Besides

variable {α β : Type} {R S : α → β → Prop} {P : α → Prop} {l l' : List α} {m m' : List β}

theorem mono (besides : Besides R P l m) (le : ∀ a b, R a b → S a b) : Besides S P l m := by
  induction besides with
  | nil => exact .nil
  | both same rest ih => exact .both (le _ _ same) ih
  | aside extra rest ih => exact .aside extra ih

theorem append (first : Besides R P l m) (later : Besides R P l' m') :
    Besides R P (l ++ l') (m ++ m') := by
  induction first with
  | nil => exact later
  | both same rest ih => exact .both same ih
  | aside extra rest ih => exact .aside extra ih

/-- What is in the list is in the other, or is there besides. -/
theorem of_mem_left (besides : Besides R P l m) {a : α} (mem : a ∈ l) :
    (∃ b ∈ m, R a b) ∨ P a := by
  induction besides with
  | nil => cases mem
  | @both _ b _ _ same rest ih =>
    obtain rfl | mem := List.mem_cons.mp mem
    · exact .inl ⟨b, List.mem_cons_self, same⟩
    · exact (ih mem).imp_left (fun ⟨b, mem, same⟩ => ⟨b, List.mem_cons_of_mem _ mem, same⟩)
  | aside extra rest ih =>
    obtain rfl | mem := List.mem_cons.mp mem
    · exact .inr extra
    · exact ih mem

/-- What is in the other list is in the list. -/
theorem of_mem_right (besides : Besides R P l m) {b : β} (mem : b ∈ m) : ∃ a ∈ l, R a b := by
  induction besides with
  | nil => cases mem
  | @both a _ _ _ same rest ih =>
    obtain rfl | mem := List.mem_cons.mp mem
    · exact ⟨a, List.mem_cons_self, same⟩
    · obtain ⟨a, mem, same⟩ := ih mem
      exact ⟨a, List.mem_cons_of_mem _ mem, same⟩
  | aside extra rest ih =>
    obtain ⟨a, mem, same⟩ := ih mem
    exact ⟨a, List.mem_cons_of_mem _ mem, same⟩

/-- **Without what it has besides the list is like the other.** -/
theorem forall₂_filter (besides : Besides R P l m) (p : α → Bool)
    (both : ∀ a b, R a b → p a = true) (aside : ∀ a, P a → p a = false) :
    List.Forall₂ R (l.filter p) m := by
  induction besides with
  | nil => exact .nil
  | both same rest ih =>
    rw [List.filter_cons_of_pos (both _ _ same)]
    exact .cons same ih
  | aside extra rest ih =>
    rwa [List.filter_cons_of_neg (Bool.eq_false_iff.mp (aside _ extra))]

end Besides

/-! ## Commands of which some are selected -/

/-- **Commands, and whether they are selected.** -/
abbrev Selection := List (Command × Bool)

namespace Selection

/-- All commands. -/
def commands (m : Selection) : List Command := m.map Prod.fst

/-- The commands that are selected. -/
def selected (m : Selection) : List Command := (m.filter Prod.snd).map Prod.fst

/-- Whether the command of a number is selected. -/
def keeps (m : Selection) (id : Nat) : Bool := m[id]?.any Prod.snd

/-- Whether the command of a number is the selected call of an action. -/
def Asks (m : Selection) (id : Nat) (a : Action) : Prop := m[id]? = some (.call a, true)

/-- **The number a command has among those that are selected.** -/
def rank (m : Selection) (id : Nat) : Nat := (m.take id).countP Prod.snd

theorem Asks.keeps {m : Selection} {id : Nat} {a : Action} (asks : m.Asks id a) :
    m.keeps id = true := by
  rw [Selection.keeps, asks]
  rfl

theorem rank_succ {m : Selection} {id : Nat} {c : Command} {kept : Bool}
    (found : m[id]? = some (c, kept)) : m.rank (id + 1) = m.rank id + kept.toNat := by
  rw [rank, List.take_add_one, found, List.countP_append]
  cases kept <;> rfl

end Selection

/-! ## Calls and answers that are alike -/

/-- How a call stands that stays on a key that is not looked at, if it waits. -/
def Standing.Aside (scope : Scope) : Standing → Prop
  | waiting p stack _ => ∃ key, ¬ scope.Covers key ∧ p.StaysOn key ∧ ∀ f ∈ stack, f.StaysOn key
  | finished _ => True

theorem Standing.StaysOn.aside {key : Bytes} {scope : Scope} {standing : Standing}
    (stays : standing.StaysOn key) (apart : ¬ scope.Covers key) : standing.Aside scope := by
  cases standing with
  | waiting p stack wake => exact ⟨key, apart, stays⟩
  | finished reply => trivial

/-- **Calls are alike**: they are the same call, and wait at points that are
alike. -/
def Call.Alike (m : Selection) (scope : Scope) (pair : Pairing) (c d : Call) : Prop :=
  d.id = m.rank c.id ∧ ∃ a b, m.Asks c.id a ∧ c.point.Alike scope pair b d.point
    ∧ StackAlike scope a b c.stack d.stack

/-- A call that is not selected, and waits where nothing is looked at. -/
structure Call.Aside (m : Selection) (scope : Scope) (c : Call) : Prop where
  unselected : m.keeps c.id = false
  apart : (Standing.waiting c.point c.stack c.wake).Aside scope

/-- **Answers are alike**: they are answers to the same call, were given at
the same instant, and agree. -/
structure Return.Alike (m : Selection) (scope : Scope) (r q : Return) : Prop where
  id : q.id = m.rank r.id
  time : r.time = q.time
  reply : ∃ a, m.Asks r.id a ∧ a.Agree scope r.reply q.reply

/-- The calls that wait, and those of them that are selected. -/
abbrev CallsAlike (m : Selection) (scope : Scope) (pair : Pairing) :
    List Call → List Call → Prop :=
  Besides (Call.Alike m scope pair) (Call.Aside m scope)

/-- **Sessions are alike** as far as they are looked at. -/
structure Session.Alike (m : Selection) (scope : Scope) (pair : Pairing) (s t : Session) :
    Prop where
  now : s.now = t.now
  world : s.world.Alike scope pair s.now t.world
  calls : CallsAlike m scope pair s.calls t.calls
  returned : Besides (Return.Alike m scope) (fun r => m.keeps r.id = false) s.returned t.returned
  sound : s.world.Sound
  sound' : t.world.Sound

variable {m : Selection} {scope : Scope} {pair pair' : Pairing} {s t : Session} {c d : Call}
  {before after before' after' : List Call}

theorem CallsAlike.mono {calls calls' : List Call} (alike : CallsAlike m scope pair calls calls')
    (le : pair ≤ pair') : CallsAlike m scope pair' calls calls' :=
  Besides.mono alike (fun _ _ ⟨id, a, b, asks, points, frames⟩ =>
    ⟨id, a, b, asks, points.mono le, frames⟩)

/-- **Calls that are alike look again alike.** -/
theorem Call.Alike.retry (calls : c.Alike m scope pair d) {now : Instant} {w v : World}
    (alike : w.Alike scope pair now v) (sound : w.Sound) (sound' : v.Sound) :
    ∃ a pair', m.Asks c.id a ∧ pair ≤ pair'
      ∧ (c.retry now w).1.Alike scope pair' now (d.retry now v).1
      ∧ (c.retry now w).2.Alike scope pair' a (d.retry now v).2 := by
  obtain ⟨-, a, b, asks, points, frames⟩ := calls
  have passes := points.pass alike frames true
  unfold Call.retry
  generalize pass : c.point.pass now w true c.stack = x at passes
  generalize pass' : d.point.pass now v true d.stack = y at passes
  cases passes with
  | passed le next =>
    have sound := (Thread.Turn.resume pass).evolves.sound sound
    have sound' := (Thread.Turn.resume pass').evolves.sound sound'
    obtain ⟨pair', le', worlds, standings⟩ := Control.Alike.run next.2 next.1 sound sound'
    exact ⟨a, pair', asks, le_trans le le', worlds, standings⟩
  | waits same =>
    subst same
    exact ⟨a, pair, asks, le_refl pair, alike, .waiting points frames⟩

/-- Calls that are alike wait alike. -/
theorem Call.Alike.waits (calls : c.Alike m scope pair d) {now : Instant} {w v : World}
    (alike : w.Alike scope pair now v) {wake : Option Instant}
    (waits : c.point.pass now w true c.stack = .waits wake) :
    d.point.pass now v true d.stack = .waits wake := by
  obtain ⟨-, a, b, asks, points, frames⟩ := calls
  have passes := points.pass alike frames true
  rw [waits] at passes
  generalize d.point.pass now v true d.stack = y at passes ⊢
  cases passes with
  | waits same => rw [same]

/-- **A call that is not selected leaves alone what is looked at** when it
looks again. -/
theorem Call.Aside.retry (aside : c.Aside m scope) (now : Instant) (w : World) :
    w.Unmoved scope now (c.retry now w).1 ∧ (c.retry now w).2.Aside scope := by
  obtain ⟨-, key, apart, point, stays⟩ := aside
  unfold Call.retry
  split
  · next w' next pass =>
    have beside := point.pass apart stays pass
    have goes : w'.Unmoved scope now (next.run now w').1 ∧ _ := beside.stays.run apart
    exact ⟨beside.unmoved.trans goes.1, goes.2.aside apart⟩
  · exact ⟨.refl w, key, apart, point, stays⟩

namespace Session

/-! ## Calls are filed -/

/-- **The same call is filed in both sessions.** -/
theorem Alike.file_both (alike : s.Alike m scope pair t) {id : Nat} {a : Action}
    (asks : m.Asks id a) {x y : World × Standing} (worlds : x.1.Alike scope pair' s.now y.1)
    (standings : x.2.Alike scope pair' a y.2) (sound : x.1.Sound) (sound' : y.1.Sound)
    (earlier : CallsAlike m scope pair' before before')
    (later : CallsAlike m scope pair' after after') :
    (s.file before id after x).Alike m scope pair' (t.file before' (m.rank id) after' y) := by
  obtain ⟨w, standing⟩ := x
  obtain ⟨v, standing'⟩ := y
  cases standings with
  | waiting points frames =>
    refine ⟨alike.now, worlds, earlier.append (.both ?_ later), alike.returned, sound, sound'⟩
    exact ⟨rfl, a, _, asks, points, frames⟩
  | finished agree =>
    refine ⟨alike.now, worlds, earlier.append later, .both ?_ alike.returned, sound, sound'⟩
    exact ⟨rfl, alike.now, a, asks, agree⟩

/-- **A call that is not selected is filed** in the session that has it. -/
theorem Alike.file_aside (alike : s.Alike m scope pair t) {id : Nat}
    (unselected : m.keeps id = false) {x : World × Standing}
    (unmoved : s.world.Unmoved scope s.now x.1) (aside : x.2.Aside scope) (sound : x.1.Sound)
    (earlier : CallsAlike m scope pair before before')
    (later : CallsAlike m scope pair after after') (calls_eq : t.calls = before' ++ after') :
    (s.file before id after x).Alike m scope pair t := by
  have worlds := alike.world.unmoved unmoved (.refl t.world)
  obtain ⟨w, standing⟩ := x
  cases standing with
  | waiting p stack wake =>
    have filed : Call.Aside m scope ⟨id, p, stack, upcoming s.now wake, p.rings w⟩ :=
      ⟨unselected, aside⟩
    refine ⟨alike.now, worlds, ?_, alike.returned, sound, alike.sound'⟩
    rw [calls_eq]
    exact earlier.append (.aside filed later)
  | finished reply =>
    refine ⟨alike.now, worlds, ?_, .aside unselected alike.returned, sound, alike.sound'⟩
    rw [calls_eq]
    exact earlier.append later

/-- **The same call waits on in both sessions.** -/
theorem Alike.wait_both (alike : s.Alike m scope pair t) (same : c.Alike m scope pair d)
    (earlier : CallsAlike m scope pair before before')
    (later : CallsAlike m scope pair after after') (wake : Option Instant) :
    (s.file before c.id after (s.world, .waiting c.point c.stack wake)).Alike m scope pair
      (t.file before' d.id after' (t.world, .waiting d.point d.stack wake)) := by
  obtain ⟨id, a, b, asks, points, frames⟩ := same
  have standings : (Standing.waiting c.point c.stack wake).Alike scope pair a
      (.waiting d.point d.stack wake) := .waiting points frames
  rw [id]
  exact alike.file_both asks alike.world standings alike.sound alike.sound' earlier later

/-- A call that is not selected waits on in the session that has it. -/
theorem Alike.wait_aside (alike : s.Alike m scope pair t) (aside : c.Aside m scope)
    (earlier : CallsAlike m scope pair before before')
    (later : CallsAlike m scope pair after after') (calls_eq : t.calls = before' ++ after')
    (wake : Option Instant) :
    (s.file before c.id after (s.world, .waiting c.point c.stack wake)).Alike m scope pair t := by
  have standing : (Standing.waiting c.point c.stack wake).Aside scope := aside.apart
  exact alike.file_aside aside.unselected (.refl s.world) standing alike.sound earlier later
    calls_eq

/-- **The same call looks again in both sessions.** -/
theorem Alike.retry_both (alike : s.Alike m scope pair t) (same : c.Alike m scope pair d)
    (earlier : CallsAlike m scope pair before before')
    (later : CallsAlike m scope pair after after') :
    ∃ pair', (s.file before c.id after (c.retry s.now s.world)).Alike m scope pair'
      (t.file before' d.id after' (d.retry t.now t.world)) := by
  have sound := (c.evolves_retry s.now s.world).sound alike.sound
  have sound' := (d.evolves_retry s.now t.world).sound alike.sound'
  obtain ⟨a, pair', asks, le, worlds, standings⟩ :=
    same.retry alike.world alike.sound alike.sound'
  rw [← alike.now, same.1]
  exact ⟨pair', alike.file_both asks worlds standings sound sound' (earlier.mono le)
    (later.mono le)⟩

/-- A call that is not selected looks again in the session that has it. -/
theorem Alike.retry_aside (alike : s.Alike m scope pair t) (aside : c.Aside m scope)
    (earlier : CallsAlike m scope pair before before')
    (later : CallsAlike m scope pair after after') (calls_eq : t.calls = before' ++ after') :
    (s.file before c.id after (c.retry s.now s.world)).Alike m scope pair t := by
  obtain ⟨unmoved, standing⟩ := aside.retry s.now s.world
  have sound := (c.evolves_retry s.now s.world).sound alike.sound
  exact alike.file_aside aside.unselected unmoved standing sound earlier later calls_eq

/-! ## Rounds -/

/-- **Letting the next call look again makes no difference to a round**,
whether it has cause to or not. -/
theorem Vigilant.drain_retry (vigilant : t.Vigilant) (calls_eq : t.calls = before ++ d :: after)
    (idle : ∀ c ∈ before, t.isIdle c = true) :
    (t.file before d.id after (d.retry t.now t.world)).drain = t.drain := by
  cases own : t.isIdle d with
  | true =>
    obtain ⟨wake, waits, same⟩ := file_of_isIdle vigilant calls_eq own
    have retry_eq : d.retry t.now t.world = (t.world, .waiting d.point d.stack wake) := by
      rw [Call.retry, waits]
    rw [retry_eq, same]
  | false => exact (drain_of_ready calls_eq idle own).symm

/-- A call that has looked again and waits on. -/
def refiled (s : Session) (c : Call) (wake : Option Instant) : Call :=
  { c with wake := upcoming s.now wake, heard := c.point.rings s.world }

/-- Where a call is in the list that waits on. -/
theorem calls_file_waits {n : Nat} (found : s.calls[n]? = some c) (wake : Option Instant) :
    (s.file (s.calls.take n) c.id (s.calls.drop (n + 1))
        (s.world, .waiting c.point c.stack wake)).calls.take (n + 1)
      = s.calls.take n ++ [s.refiled c wake]
    ∧ (s.file (s.calls.take n) c.id (s.calls.drop (n + 1))
        (s.world, .waiting c.point c.stack wake)).calls.drop (n + 1) = s.calls.drop (n + 1) := by
  have there : n < s.calls.length := (List.getElem?_eq_some_iff.mp found).1
  have length (x : Call) : (s.calls.take n ++ [x]).length = n + 1 := by
    rw [List.length_append, List.length_take, Nat.min_eq_left (Nat.le_of_lt there)]
    rfl
  rw [file, List.append_cons]
  exact ⟨List.take_left' (length _), List.drop_left' (length _)⟩

theorem drop_eq_cons {n : Nat} (found : s.calls[n]? = some c) :
    s.calls.drop n = c :: s.calls.drop (n + 1) := by
  obtain ⟨there, rfl⟩ := List.getElem?_eq_some_iff.mp found
  exact List.drop_eq_getElem_cons there

/-- **A round of the other session follows**, whatever calls have looked
again so far. -/
theorem Alike.recheck {n : Nat} (alike : s.Alike m scope pair t) (vigilant : t.Vigilant)
    (earlier : CallsAlike m scope pair (s.calls.take n) before')
    (later : CallsAlike m scope pair (s.calls.drop n) after')
    (calls_eq : t.calls = before' ++ after') (idle : ∀ d ∈ before', t.isIdle d = true) :
    ∃ pair', (s.recheck n).Alike m scope pair' t.drain := by
  fun_induction Session.recheck s n generalizing t pair before' after' with
  | case1 s n none =>
    rw [List.drop_of_length_le (List.getElem?_eq_none_iff.mp none)] at later
    cases later
    rw [List.append_nil] at calls_eq
    subst calls_eq
    rw [drain_of_isIdle idle]
    exact ⟨pair, alike⟩
  | case2 s n c found w next pass ih =>
    have retry_eq : c.retry s.now s.world = next.run s.now w := by rw [Call.retry, pass]
    rw [drop_eq_cons found] at later
    rw [← retry_eq] at ih ⊢
    cases later with
    | both same later =>
      obtain ⟨pair', retried⟩ := alike.retry_both same earlier later
      have followed := ih retried (vigilant.retry calls_eq) .nil retried.calls rfl
        (List.forall_mem_nil _)
      rwa [vigilant.drain_retry calls_eq idle] at followed
    | aside extra later =>
      have retried := alike.retry_aside extra earlier later calls_eq
      exact ih retried vigilant .nil retried.calls rfl (List.forall_mem_nil _)
  | case3 s n c found wake waits ih =>
    obtain ⟨first, rest⟩ := s.calls_file_waits found wake
    rw [first, rest] at ih
    rw [drop_eq_cons found] at later
    cases later with
    | @both _ d _ after' same later =>
      have waits' : d.point.pass t.now t.world true d.stack = .waits wake := by
        rw [← alike.now]
        exact same.waits alike.world waits
      have retry_eq : d.retry t.now t.world = (t.world, .waiting d.point d.stack wake) := by
        rw [Call.retry, waits']
      have filed := alike.wait_both same earlier later wake
      have vigilant' := vigilant.retry calls_eq
      rw [← vigilant.drain_retry calls_eq idle]
      rw [retry_eq] at vigilant' ⊢
      have refiled : (s.refiled c wake).Alike m scope pair (t.refiled d wake) := same
      refine ih filed vigilant' (earlier.append (.both refiled .nil)) later ?_ ?_
      · exact List.append_cons before' (t.refiled d wake) after'
      · exact List.forall_mem_append.mpr
          ⟨idle, List.forall_mem_singleton.mpr (t.isIdle_of_filed ..)⟩
    | aside extra later =>
      have refiled : (s.refiled c wake).Aside m scope := ⟨extra.unselected, extra.apart⟩
      have filed := alike.wait_aside extra earlier later calls_eq wake
      have earlier := earlier.append (.aside refiled .nil)
      rw [List.append_nil] at earlier
      exact ih filed vigilant earlier later calls_eq idle

/-- **After a round sessions that were alike are alike.** -/
theorem Alike.drain (alike : s.Alike m scope pair t) (vigilant : s.Vigilant)
    (vigilant' : t.Vigilant) : ∃ pair', s.drain.Alike m scope pair' t.drain := by
  rw [← vigilant.recheck_eq_drain]
  exact alike.recheck vigilant' .nil alike.calls rfl (List.forall_mem_nil _)

end Session

end AdvisoryStore
