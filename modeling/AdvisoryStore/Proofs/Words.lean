import AdvisoryStore.Proofs.Configuration
import AdvisoryStore.Proofs.Terms

/-!
# Time in words

Instants and durations are integers here, and counts of 64 bits where there is a
clock to read them off. The two agree as long as no difference and no sum leaves the
words. That is what the question in `Instant.after?` is for, and the question itself
subtracts: from the last instant, on the side where a duration leads onward, so that
what is left is in range because the clock is (`Instant.afterInWords?_eq`).

On the way of a session the clock has two kinds of durations added to it: how long a
caller is ready to wait, and how long it wants to hold. Both are words if the callers
say words, since the standard that stands in for what they do not say is one, whether
a caller brought it or the environment did (`Scene.Path.times_in_words`).

A difference is formed once more, of a deadline and the clock. It is of a hold that
is live, so that it is not below zero, and it would be in range even if the clock
went on before it is formed.
-/

namespace AdvisoryStore

/-! ## Words -/

/-- **The counts that a word of 64 bits can show.** -/
def Word (n : Int) : Prop := -0x8000000000000000 ≤ n ∧ n ≤ 0x7fffffffffffffff

instance (n : Int) : Decidable (Word n) := inferInstanceAs (Decidable (_ ∧ _))

/-- A sum that the clock can show is a word. -/
theorem word_add {now : Instant} {d : Duration} (nonneg : 0 ≤ now) (fits : Word d)
    (shown : now + d ≤ Instant.last) : Word (now + d) := by
  unfold Word Instant.last at *
  simp only [Instant, Duration] at *
  omega

/-- How far two instants are apart is a word. -/
theorem word_sub {t now : Instant} (nonneg : 0 ≤ t) (shown : t ≤ Instant.last)
    (nonneg' : 0 ≤ now) (shown' : now ≤ Instant.last) : Word (t - now) := by
  unfold Word Instant.last at *
  simp only [Instant] at *
  omega

/-- What comes of a count in a word, if it fits one. -/
def word? (n : Int) : Option Int := if Word n then some n else none

theorem word?_eq {n : Int} (fits : Word n) : word? n = some n := if_pos fits

/-- **`Instant.after?` in words.** Each difference and each sum is formed where
`after?` forms it, and nothing comes of it all if one of them fits no word. -/
def Instant.afterInWords? (now : Instant) (d : Duration) : Option (Option Instant) :=
  if 0 < d then do
    let room ← word? (Instant.last - now)
    if room < d then some none else (word? (now + d)).map some
  else
    (word? (now + d)).map some

/-- **The clock is added to in words.** -/
theorem Instant.afterInWords?_eq {now : Instant} {d : Duration} (nonneg : 0 ≤ now)
    (shown : now ≤ Instant.last) (fits : Word d) :
    now.afterInWords? d = some (now.after? d) := by
  unfold afterInWords? after?
  by_cases onward : 0 < d
  · rw [if_pos onward, word?_eq (word_sub (Int.le_trans nonneg shown) (Int.le_refl _) nonneg shown)]
    by_cases beyond : Instant.last - now < d
    · rw [if_pos ⟨onward, beyond⟩]
      exact if_pos beyond
    · have sum : now + d ≤ Instant.last := by
        simp only [Instant, Duration] at *
        omega
      rw [if_neg fun both => beyond both.2]
      refine (if_neg beyond).trans ?_
      rw [word?_eq (word_add nonneg fits sum)]
      rfl
  · have sum : now + d ≤ Instant.last := by
      simp only [Instant, Duration] at *
      omega
    rw [if_neg onward, if_neg fun both => onward both.1, word?_eq (word_add nonneg fits sum)]
    rfl

/-- An instant that a word leads to is a word. -/
theorem Instant.word_of_exactly {now t : Instant} {span : Option Duration} (nonneg : 0 ≤ now)
    (fits : ∀ d, span = some d → Word d) (sum : now.exactly span = some t) : Word t := by
  cases span with
  | none => cases sum
  | some d =>
    rw [exactly, Option.bind_some] at sum
    split at sum <;> cases sum
    next shown => exact word_add nonneg (fits d rfl) shown

/-! ## Terms in words -/

/-- The durations of these terms are words. -/
structure Terms.InWords (t : Terms) : Prop where
  hold : ∀ d, t.hold = some d → Word d
  patience : ∀ d, t.patience = some d → Word d

/-- The standard of these settings is a word. -/
def StoreSettings.InWords (s : StoreSettings) : Prop := ∀ d, s.defaultHold = some d → Word d

/-- **What the action says of time is said in words.** -/
structure Action.InWords (a : Action) : Prop where
  terms : a.terms.InWords
  settings : ∀ s, a = .operation (.newStore s) → s.InWords

/-- The move begins nothing that is not said in words. -/
def Stride.InWords (x : Stride) : Prop := ∀ a, x.thread.performs? = some a → a.InWords

/-- **The environment speaks in words.** -/
theorem StoreSettings.inWords_of_environment {env : Environment} {s : StoreSettings}
    (read : ofEnvironment env = .ok s) : s.InWords := by
  intro d eq
  obtain ⟨positive, le⟩ := ((StoreSettings.decided env).fits s read).within.2.2 d eq
  exact ⟨Int.le_trans (by decide) (Int.le_of_lt positive), le⟩

/-- A call speaks in words if its actions do. -/
theorem Thread.terms_inWords {t : Thread}
    (asked : ∀ a, t.performs? = some a → a.InWords) : t.terms.InWords := by
  unfold terms
  split
  · exact (asked _ rfl).terms
  · refine ⟨?_, nofun⟩
    rintro _ ⟨⟩
    decide
  · exact ⟨nofun, nofun⟩

/-- The action that performs an operation. -/
theorem Thread.performs?_of_operation? {t : Thread} {o : Operation}
    (operation : t.operation? = some o) : t.performs? = some (.operation o) := by
  unfold operation? at operation
  split at operation <;> cases operation
  rfl

namespace Scene

variable {hash : Bytes → Nat} {settings : StoreSettings} {environment : Environment}
  {start : Instant} {s : Scene} {strides : List Stride}

/-- The clock of a move lies between those of the ends of the way. -/
theorem Path.now_between {s t : Scene} (path : s.Path strides t) {x : Stride}
    (mem : x ∈ strides) : s.now ≤ x.now ∧ x.now ≤ t.now := by
  obtain ⟨early, late, rfl⟩ := List.append_of_mem mem
  obtain ⟨_, _, first, rest⟩ := path.split
  exact ⟨first.leads.now_le, rest.leads.now_le⟩

/-- **The standard of every store is a word**, whoever brought it. -/
theorem Path.standards_inWords
    (path : (Session.start hash settings environment start).scene.Path strides s)
    (standard : settings.InWords)
    (asked : ∀ x ∈ strides, x.InWords) (i : Nat) :
    (s.world.store i).settings.InWords := by
  by_cases there : i < s.world.stores.length
  · refine path.store_invariant (I := fun s => s.settings.InWords) ?_ ?_ ?_ i there
    · intro now s t happened occurs fits
      rwa [occurs.settings]
    · rintro x mem made ⟨o, operation, rfl | ⟨rfl, read⟩⟩
      · exact (asked x mem _ (Thread.performs?_of_operation? operation)).settings made rfl
      · exact StoreSettings.inWords_of_environment read
    · intro i there
      obtain rfl : i = 0 := Nat.lt_one_iff.mp there
      exact standard
  · rw [World.store_of_length_le (Nat.le_of_not_lt there)]
    exact nofun

/-- **A wish that a call was set out with is in words.** -/
theorem Path.hold_inWords
    (path : (Session.start hash settings environment start).scene.Path strides s)
    (standard : settings.InWords)
    (asked : ∀ x ∈ strides, x.InWords) {x : Stride}
    (mem : x ∈ strides) {i : Nat} {r : LockRequest} {purpose : Purpose}
    (sets : x.Sets (.lock i r purpose)) : ∀ d, r.hold = some d → Word d := by
  intro d eq
  rw [sets.hold i r purpose rfl] at eq
  cases said : x.thread.terms.hold with
  | some own =>
    rw [said] at eq
    exact (Thread.terms_inWords (asked x mem)).hold d (said.trans eq)
  | none =>
    rw [said] at eq
    obtain ⟨early, late, rfl⟩ := List.append_of_mem mem
    obtain ⟨_, _, first, -⟩ := path.split
    exact first.standards_inWords standard
      (fun y mem => asked y (List.mem_append_left _ mem)) i d eq

end Scene

/-- **The move adds a duration to the clock**: it is how long the call is ready to wait,
or how long it wants to hold the lock that it is to get past. -/
def Stride.Adds (x : Stride) (d : Duration) : Prop :=
  x.thread.terms.patience = some d
    ∨ ∃ i r purpose, x.thread.point? = some (.lock i r purpose) ∧ r.hold = some d

namespace Hold

variable {h : Hold} {since later : Instant}

/-- **A hold of the greatest duration never ends.** -/
theorem expired_of_longest (nonneg : 0 ≤ since)
    (deadline : h.deadline = since.exactly (some Instant.last)) (shown : later ≤ Instant.last) :
    h.expired later = false := by
  refine expired_eq_false_iff.mpr fun t eq => ?_
  rw [deadline, Instant.exactly, Option.bind_some] at eq
  split at eq <;> cases eq
  simp only [Instant] at *
  omega

/-- **A hold of a negative duration is over** when it begins. -/
theorem expired_of_negative {d : Duration} (negative : d < 0) (le_last : since ≤ Instant.last)
    (deadline : h.deadline = since.exactly (some d)) (le : since ≤ later) :
    h.expired later = true := by
  have sum : since + d ≤ Instant.last := by
    simp only [Instant, Duration] at *
    omega
  rw [Instant.exactly, Option.bind_some, if_pos sum] at deadline
  rw [expired, deadline]
  refine decide_eq_true ?_
  simp only [Instant, Duration] at *
  omega

end Hold

/-- **Time stays in words**, on every way from a start at which the clock is not below
zero, if the callers say words and the clock shows one.

Every sum that is formed fits a word, and the question before it too. Whoever is at a
point was set out for it with a time to give up that is the exact sum, or none; and
whatever is stored was granted with a deadline that is the exact sum, or none, of the
hold that was asked for, or of the standard. The greatest hold never ends, and a
negative one is over at once. What remains of a live hold fits a word and is not below
zero, and would fit one if the clock went on. -/
theorem Scene.Path.times_in_words {hash : Bytes → Nat} {settings : StoreSettings}
    {environment : Environment} {start : Instant} {s : Scene} {strides : List Stride}
    (path : (Session.start hash settings environment start).scene.Path strides s)
    (nonneg : 0 ≤ start) (shown : s.now ≤ Instant.last) (standard : settings.InWords)
    (asked : ∀ x ∈ strides, x.InWords) :
    (∀ (now : Instant) (d : Duration), 0 ≤ now → now ≤ Instant.last → Word d →
        now.afterInWords? d = some (now.after? d) ∧ now.after? d = now.exactly (some d))
      ∧ (∀ x ∈ strides, ∀ d, x.Adds d →
        0 ≤ x.now ∧ Word d ∧ x.now.afterInWords? d = some (x.now.after? d))
      ∧ (∀ c ∈ s.threads, ∀ p, c.point? = some p →
        (∃ x ∈ strides, x.Sets p) ∧ ∀ t, p.limit? = some t → Word t)
      ∧ (∀ i key h, (s.world.store i).locks.stored? key = some h →
        (∀ t, h.deadline = some t → Word t)
        ∧ ∃ x ∈ strides, ∃ r purpose, x.thread.point? = some (.lock i r purpose)
          ∧ r.Yields x.now key h ∧ (∃ y ∈ strides, y.Sets (.lock i r purpose))
          ∧ (r.hold = some Instant.last → ∀ later ≤ Instant.last, h.expired later = false)
          ∧ ∀ d < 0, r.hold = some d → ∀ later, x.now ≤ later → h.expired later = true)
      ∧ (∀ i key h t, (s.world.store i).locks.live? s.now key = some h → h.deadline = some t →
        0 ≤ t - s.now ∧ ∀ later, s.now ≤ later → later ≤ Instant.last → Word (t - later))
      ∧ ∀ env made, StoreSettings.ofEnvironment env = .ok made → made.InWords := by
  have clock {x : Stride} (mem : x ∈ strides) : 0 ≤ x.now ∧ x.now ≤ Instant.last :=
    ⟨Int.le_trans nonneg (path.now_between mem).1, Int.le_trans (path.now_between mem).2 shown⟩
  have terms {x : Stride} (mem : x ∈ strides) := Thread.terms_inWords (asked x mem)
  have stored_word {i : Nat} {key : Bytes} {h : Hold}
      (stored : (s.world.store i).locks.stored? key = some h) :
      ∀ t, h.deadline = some t → Word t := by
    obtain ⟨x, mem, r, purpose, -, yields, y, mem', sets⟩ := path.granted shown stored
    intro t eq
    exact Instant.word_of_exactly (clock mem).1 (path.hold_inWords standard asked mem' sets)
      (yields.deadline.symm.trans eq)
  refine ⟨fun now d nonneg shown word => ?_, fun x mem d adds => ?_, fun c mem p point => ?_,
    fun i key h stored => ?_, fun i key h t live eq => ?_,
    fun _ _ read => StoreSettings.inWords_of_environment read⟩
  · exact ⟨Instant.afterInWords?_eq nonneg shown word, Instant.bind_after?_eq shown (some d)⟩
  · have word : Word d := by
      obtain patience | ⟨i, r, purpose, point, hold⟩ := adds
      · exact (terms mem).patience d patience
      · obtain ⟨y, mem', sets⟩ := path.set_out_of_mem rfl shown mem point
        exact path.hold_inWords standard asked mem' sets d hold
    exact ⟨(clock mem).1, word, Instant.afterInWords?_eq (clock mem).1 (clock mem).2 word⟩
  · obtain ⟨x, mem, sets⟩ := path.set_out rfl shown c mem p point
    refine ⟨⟨x, mem, sets⟩, fun t eq => ?_⟩
    exact Instant.word_of_exactly (clock mem).1 (terms mem).patience (sets.limit.symm.trans eq)
  · obtain ⟨x, mem, r, purpose, point, yields, set⟩ := path.granted shown stored
    refine ⟨stored_word stored, x, mem, r, purpose, point, yields, set, ?_, ?_⟩
    · intro longest later le
      exact Hold.expired_of_longest (clock mem).1 (longest ▸ yields.deadline) le
    · intro d negative hold later le
      exact Hold.expired_of_negative negative (clock mem).2 (hold ▸ yields.deadline) le
  · obtain ⟨stored, lasting⟩ := Locks.live?_eq_some_iff.mp live
    have ahead : s.now ≤ t := Hold.expired_eq_false_iff.mp lasting t eq
    have started : 0 ≤ s.now := Int.le_trans nonneg path.leads.now_le
    refine ⟨Int.sub_nonneg_of_le ahead, fun later le le_last => ?_⟩
    exact word_sub (Int.le_trans started ahead) (stored_word stored t eq).2
      (Int.le_trans started le) le_last

namespace Scene

/-- A session of which the standard is the greatest hold. -/
def lavish : Scene :=
  (Session.start (fun _ => 0) { defaultHold := some Instant.last } (fun _ => none) 0).scene

/-- A call that leaves it to the standard how long it is to hold. -/
def standing : Action := .acquire [1] [10] none none

/-- A call that wants the least hold, and is ready to wait the longest for it. -/
def fleeting : Action := .acquire [2] [10] (some (-0x8000000000000000)) (some Instant.last)

/-- Both have been granted, the one at the beginning and the other some time later. -/
def extreme : Scene :=
  let s := ({ lavish with threads := [Thread.going ⟨.perform standing, []⟩] }.act 0).act 0
  let calls := s.threads ++ [Thread.going ⟨.perform fleeting, []⟩]
  ({ s with now := 7, threads := calls }.act 1).act 1

theorem Path.times_in_words_of_extreme :
    (∃ h, (extreme.world.store 0).locks.live? 7 [1] = some h ∧ h.deadline = some Instant.last
        ∧ ∀ later, 7 ≤ later → later ≤ Instant.last → Word (Instant.last - later))
      ∧ ∃ h, (extreme.world.store 0).locks.stored? [2] = some h
        ∧ h.deadline = some (7 - 0x8000000000000000) ∧ Word (7 - 0x8000000000000000) := by
  have spoken : fleeting.InWords := by
    refine ⟨⟨?_, ?_⟩, nofun⟩
    · rintro _ ⟨⟩
      decide
    · rintro _ ⟨⟩
      decide
  obtain ⟨x₁, set₁, path⟩ := (Path.nil.begin (s := lavish) standing).act (n := 0) rfl rfl
  obtain ⟨x₂, past₂, path⟩ := path.act (n := 0) rfl rfl
  obtain ⟨x₃, set₃, path⟩ :=
    ((path.tick (show (0 : Int) ≤ 7 by decide)).begin fleeting).act (n := 1) rfl rfl
  obtain ⟨x₄, past₄, path⟩ := path.act (n := 1) rfl rfl
  have asked : ∀ x ∈ [x₁, x₂, x₃, x₄], x.InWords := by
    intro x mem a performs
    simp only [List.mem_cons, List.not_mem_nil, or_false] at mem
    obtain rfl | rfl | rfl | rfl := mem
    · rw [set₁] at performs
      cases performs
      exact ⟨⟨nofun, nofun⟩, nofun⟩
    · rw [past₂] at performs
      cases performs
    · rw [set₃] at performs
      cases performs
      exact spoken
    · rw [past₄] at performs
      cases performs
  have words := Path.times_in_words (s := extreme) path (by decide) (by decide +kernel)
    (by rintro _ ⟨⟩; decide) asked
  obtain ⟨-, -, -, stored, live, -⟩ := words
  have first : (extreme.world.store 0).locks.live? 7 [1]
      = some ⟨[10], 0, some Instant.last, 0⟩ := by decide +kernel
  have second : (extreme.world.store 0).locks.stored? [2]
      = some ⟨[10], 7, some (7 - 0x8000000000000000), 1⟩ := by decide +kernel
  exact ⟨⟨_, first, rfl, (live 0 [1] _ _ first rfl).2⟩, _, second, rfl,
    (stored 0 [2] _ second).1 _ rfl⟩

end Scene

end AdvisoryStore
