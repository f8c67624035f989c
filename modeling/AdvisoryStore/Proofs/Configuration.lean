import AdvisoryStore.Settings
import AdvisoryStore.Proofs.Numerals

/-!
# Which settings are accepted

Settings are read text by text, in a fixed order, and the first text that is no
good is the answer. Here this is told without the readers. A source *accepts*
a text or does not (`SettingSource.Accepts`); a group of settings *consults*
the sources that are set (`StoreSettings.consulted`,
`ServiceSettings.consulted`); and settings *fit* an environment if each of them
is what its text means, or its default (`StoreSettings.Fits`,
`ServiceSettings.Fits`). `Reads` says what the readers make of these, and is
put together from one statement for each reader.

What a text means as a number is a parameter, of which only one thing is asked:
that the scanner agrees with it (`Numeral.Agrees`). Where no number has a
minus sign the scanner agrees with the numeral that is spelled, and settings
are accepted as they should be (`settings_decided`). With minus signs it agrees
with something that nobody would write down, and a negative number can pass for
a small positive one (`minus_refused_unless_wrapped`, `negative_shards_accepted`).
-/

namespace AdvisoryStore

/-! ## What a source accepts -/

/-- The least and the greatest number that a source may give, if it is to give
a number. -/
def SettingSource.range? : SettingSource → Option (Nat × Nat)
  | ofVariable .shards => some (1, 4096)
  | ofVariable .holdMilliseconds => some (0, 4294967295)
  | ofVariable .port | portArgument => some (0, 65535)
  | ofVariable .workers => some (0, 1024)
  | ofVariable .keysPerWorker => some (0, 1048576)
  | ofVariable .verbose | ofVariable .address => none

/-- The source that a fault names. -/
def SettingFault.source : SettingFault → SettingSource
  | notANumber source _ | outOfRange source _ | notABoolean source _ => source
  | noShards => .ofVariable .shards

/-- **A message begins with the name of the source.** -/
theorem SettingFault.name_prefix_message (f : SettingFault) :
    utf8 f.source.name <+: f.message := by
  cases f with
  | notANumber | notABoolean | outOfRange =>
    simp only [message, List.append_assoc]
    exact List.prefix_append ..
  | noShards => exact List.prefix_append ..

section

variable (spells : Bytes → Nat → Prop)

/-- **A source accepts a text**: it spells a number that the source may give. A
flag accepts the texts that switch it on or off, and an address any text. -/
def SettingSource.Accepts (source : SettingSource) (text : Bytes) : Prop :=
  match source.range? with
  | some (least, most) => ∃ n, spells text n ∧ least ≤ n ∧ n ≤ most
  | none => source = .ofVariable .verbose → text ∈ flagOn ++ flagOff

/-- **Why a text is refused.** Digits that denote more than a word holds are no
number. -/
def SettingFault.Explains (text : Bytes) : SettingFault → Prop
  | notANumber _ shown => shown = text ∧ ∀ n < Numeral.wordSize, ¬ spells text n
  | outOfRange source shown => shown = text ∧ ∃ n < Numeral.wordSize, spells text n
      ∧ ∀ least most, source.range? = some (least, most) → most < n
  | noShards => spells text 0
  | notABoolean _ shown => shown = text ∧ text ∉ flagOn ++ flagOff

/-- What a text that may be missing gives: the default, or what the text means. -/
def Given {α : Type} (standard : α) (means : Bytes → α → Prop) : Option Bytes → α → Prop
  | none, a => a = standard
  | some text, a => means text a

/-- **What reading comes to**: all texts that are consulted are accepted, and the
result is as they say; or the first that is not is named, with the reason. -/
inductive Reads {α : Type} (Fits : α → Prop) (consulted : List (SettingSource × Bytes)) :
    Except SettingFault α → Prop
  | accepted {a : α} (all : ∀ e ∈ consulted, e.1.Accepts spells e.2) (fits : Fits a) :
      Reads Fits consulted (.ok a)
  | refused {before after : List (SettingSource × Bytes)} {text : Bytes} {f : SettingFault}
      (eq : consulted = before ++ (f.source, text) :: after)
      (earlier : ∀ e ∈ before, e.1.Accepts spells e.2) (unfit : ¬ f.source.Accepts spells text)
      (explains : f.Explains spells text) : Reads Fits consulted (.error f)

end

variable {α β : Type} {spells : Bytes → Nat → Prop}

/-- Where nothing is consulted nothing can be refused. -/
theorem Reads.nothing {Fits : α → Prop} {a : α} (fits : Fits a) : Reads spells Fits [] (.ok a) :=
  .accepted (fun _ mem => absurd mem List.not_mem_nil) fits

/-- The only text that is consulted is refused. -/
theorem Reads.refused_alone {Fits : α → Prop} {source : SettingSource} {text : Bytes}
    {f : SettingFault} (named : f.source = source) (unfit : ¬ source.Accepts spells text)
    (explains : f.Explains spells text) : Reads spells Fits [(source, text)] (.error f) := by
  subst named
  exact .refused (List.nil_append _).symm (fun _ mem => absurd mem List.not_mem_nil) unfit explains

/-- **One group of texts after another.** -/
theorem Reads.bind {A : α → Prop} {B : β → Prop} {first next : List (SettingSource × Bytes)}
    {x : Except SettingFault α} {k : α → Except SettingFault β} (reads : Reads spells A first x)
    (go : ∀ a, A a → Reads spells B next (k a)) : Reads spells B (first ++ next) (x >>= k) := by
  cases reads with
  | @accepted a all fits =>
    have both {entries : List (SettingSource × Bytes)}
        (accepted : ∀ e ∈ entries, e.1.Accepts spells e.2) :
        ∀ e ∈ first ++ entries, e.1.Accepts spells e.2 :=
      fun e mem => (List.mem_append.mp mem).elim (all e) (accepted e)
    have read := go a fits
    show Reads spells B (first ++ next) (k a)
    generalize k a = result at read
    cases read with
    | accepted rest fits => exact .accepted (both rest) fits
    | refused eq earlier unfit explains =>
      exact .refused (by rw [eq, ← List.append_assoc]) (both earlier) unfit explains
  | refused eq earlier unfit explains =>
    exact .refused (by rw [eq, List.append_assoc, List.cons_append]) earlier unfit explains

/-- A text that may be missing. -/
theorem Reads.readOr {source : SettingSource} {standard : α}
    {read : Bytes → Except SettingFault α} {means : Bytes → α → Prop} {value? : Option Bytes}
    (reads : ∀ text, value? = some text → Reads spells (means text) [(source, text)] (read text)) :
    Reads spells (Given standard means value?) (value?.toList.map (source, ·))
      (readOr standard read value?) := by
  cases value? with
  | none => exact .nothing rfl
  | some text => exact reads text rfl

/-- **The scanner agrees with a way to spell numbers** about a text. -/
def Numeral.Agrees (spells : Bytes → Nat → Prop) (text : Bytes) : Prop :=
  ∀ n, read? text = some n ↔ n < wordSize ∧ spells text n

/-- **A number is read**, and something is made of it. -/
theorem Reads.number {source : SettingSource} {least most : Nat} {text : Bytes} {Fits : α → Prop}
    {k : Nat → Except SettingFault α} (range : source.range? = some (least, most))
    (fits_word : most < Numeral.wordSize) (agrees : Numeral.Agrees spells text)
    (low : ∀ n < least, spells text n →
      ∃ f, k n = .error f ∧ f.source = source ∧ f.Explains spells text)
    (high : ∀ n, spells text n → least ≤ n → n ≤ most → ∃ a, k n = .ok a ∧ Fits a) :
    Reads spells Fits [(source, text)] (readNumber source most text >>= k) := by
  have accepts_iff : source.Accepts spells text ↔ ∃ n, spells text n ∧ least ≤ n ∧ n ≤ most := by
    rw [SettingSource.Accepts, range]
  -- the scanner reads one number at most
  have only {n m : Nat} (read : Numeral.read? text = some n) (spelled : spells text m)
      (le : m ≤ most) : m = n := by
    have reads := (agrees m).mpr ⟨by omega, spelled⟩
    exact Option.some.inj (reads.symm.trans read)
  have refuse {f : SettingFault} (named : f.source = source)
      (unfit : ∀ n, spells text n → least ≤ n → ¬ n ≤ most) (explains : f.Explains spells text) :
      Reads spells Fits [(source, text)] (.error f) := by
    refine .refused_alone named (fun accepts => ?_) explains
    obtain ⟨n, spelled, ge, le⟩ := accepts_iff.mp accepts
    exact unfit n spelled ge le
  unfold readNumber
  cases read : Numeral.read? text with
  | none =>
    have none_spelled : ∀ n < Numeral.wordSize, ¬ spells text n := by
      intro n small spelled
      have reads := (agrees n).mpr ⟨small, spelled⟩
      rw [read] at reads
      cases reads
    refine refuse rfl (fun n spelled _ le => none_spelled n (by omega) spelled) ?_
    exact ⟨rfl, none_spelled⟩
  | some n =>
    obtain ⟨small, spelled⟩ := (agrees n).mp read
    dsimp only
    split
    · next large =>
      refine refuse rfl (fun m spelled _ le => ?_) ⟨rfl, n, small, spelled, fun _ _ eq => ?_⟩
      · have same := only read spelled le
        omega
      · cases range.symm.trans eq
        exact large
    · next le =>
      show Reads spells Fits _ (k n)
      by_cases ge : least ≤ n
      · obtain ⟨a, made, fits⟩ := high n spelled ge (by omega)
        rw [made]
        refine .accepted (fun e mem => ?_) fits
        rw [List.mem_singleton.mp mem]
        exact accepts_iff.mpr ⟨n, spelled, ge, by omega⟩
      · obtain ⟨f, made, named, explains⟩ := low n (by omega) spelled
        rw [made]
        refine refuse named (fun m spelled ge le => ?_) explains
        have same := only read spelled le
        omega

/-- **A flag is read.** -/
theorem reads_readFlag (text : Bytes) :
    Reads spells (fun on => text ∈ if on then flagOn else flagOff) [(.ofVariable .verbose, text)]
      (readFlag (.ofVariable .verbose) text) := by
  have accepts {row : List Bytes} (mem : text ∈ row) (sub : row ⊆ flagOn ++ flagOff) :
      ∀ e ∈ [(SettingSource.ofVariable .verbose, text)], e.1.Accepts spells e.2 := by
    intro e e_mem
    rw [List.mem_singleton.mp e_mem]
    exact fun _ => sub mem
  unfold readFlag
  split
  · next on => exact .accepted (accepts on (List.subset_append_left ..)) on
  · next not_on =>
    split
    · next off => exact .accepted (accepts off (List.subset_append_right ..)) off
    · next not_off =>
      have neither : text ∉ flagOn ++ flagOff := by
        rw [List.mem_append]
        exact fun either => either.elim not_on not_off
      exact .refused_alone rfl (fun accepted => neither (accepted rfl)) ⟨rfl, neither⟩

/-- What a variable contributes to what is consulted. -/
def Environment.consult (env : Environment) (v : Variable) : List (SettingSource × Bytes) :=
  (env.value v).toList.map (.ofVariable v, ·)

/-! ## A store's settings -/

namespace StoreSettings

section

variable (spells : Bytes → Nat → Prop)

/-- What a text means as a number of shards. -/
def MeansShards (text : Bytes) (n : Nat) : Prop := spells text n ∧ 1 ≤ n ∧ n ≤ 4096

/-- What a text means as a default hold: milliseconds in nanoseconds, and none if
they are none. -/
def MeansHold (text : Bytes) (hold : Option Duration) : Prop :=
  ∃ n : Nat, spells text n ∧ n ≤ 4294967295
    ∧ hold = if n = 0 then none else some (n * 1000000 : Int)

/-- What a text means as a flag. -/
def MeansFlag (text : Bytes) (on : Bool) : Prop := text ∈ if on then flagOn else flagOff

/-- **What a store's settings are read from**, in order. -/
def consulted (env : Environment) : List (SettingSource × Bytes) :=
  env.consult .shards ++ env.consult .holdMilliseconds ++ env.consult .verbose

/-- **Settings that are as the environment says**, each of them, or their defaults. -/
structure Fits (env : Environment) (s : StoreSettings) : Prop where
  shards : Given 16 (MeansShards spells) (env.value .shards) s.shards
  defaultHold : Given none (MeansHold spells) (env.value .holdMilliseconds) s.defaultHold
  verbose : Given false MeansFlag (env.value .verbose) s.verbose

end

theorem reads_readShards {text : Bytes} (agrees : Numeral.Agrees spells text) :
    Reads spells (MeansShards spells text) [(.ofVariable .shards, text)] (readShards text) := by
  refine .number rfl (by decide) agrees (fun n lt spelled => ?_) (fun n spelled ge le => ?_)
  · obtain rfl : n = 0 := by omega
    exact ⟨.noShards, rfl, rfl, spelled⟩
  · exact ⟨n, if_neg (by omega), spelled, ge, le⟩

theorem reads_readHold {text : Bytes} (agrees : Numeral.Agrees spells text) :
    Reads spells (MeansHold spells text) [(.ofVariable .holdMilliseconds, text)]
      (readHold text) := by
  refine .number rfl (by decide) agrees (fun n lt => absurd lt (Nat.not_lt_zero n)) ?_
  intro n spelled _ le
  refine ⟨_, rfl, n, spelled, le, ?_⟩
  rw [Duration.milliseconds, Int.natCast_mul]
  rfl

/-- **A store's settings are what the environment says**, where the scanner
agrees about the numbers. -/
theorem reads {env : Environment}
    (agrees : ∀ e ∈ consulted env, e.1.range?.isSome → Numeral.Agrees spells e.2) :
    Reads spells (Fits spells env) (consulted env) (ofEnvironment env) := by
  have shards : Reads spells (Given 16 (MeansShards spells) (env.value .shards))
      (env.consult .shards) (readOr 16 readShards (env.value .shards)) :=
    .readOr fun text value => reads_readShards <|
      agrees (.ofVariable .shards, text) (by simp [consulted, Environment.consult, value]) rfl
  have hold : Reads spells (Given none (MeansHold spells) (env.value .holdMilliseconds))
      (env.consult .holdMilliseconds) (readOr none readHold (env.value .holdMilliseconds)) :=
    .readOr fun text value => reads_readHold <|
      agrees (.ofVariable .holdMilliseconds, text)
        (by simp [consulted, Environment.consult, value]) rfl
  have verbose : Reads spells (Given false MeansFlag (env.value .verbose))
      (env.consult .verbose)
      (readOr false (readFlag (.ofVariable .verbose)) (env.value .verbose)) :=
    .readOr fun text _ => reads_readFlag text
  rw [consulted, List.append_assoc]
  refine shards.bind fun shards shards_fit => hold.bind fun hold hold_fits => ?_
  rw [← List.append_nil (env.consult .verbose)]
  refine verbose.bind fun verbose verbose_fits => ?_
  exact .nothing ⟨shards_fit, hold_fits, verbose_fits⟩

/-- Settings that fit are within bounds, and a hold is a duration of the clock. -/
theorem Fits.within {env : Environment} {s : StoreSettings} (fits : Fits spells env s) :
    1 ≤ s.shards ∧ s.shards ≤ 4096 ∧ ∀ d, s.defaultHold = some d → 0 < d ∧ d ≤ Instant.last := by
  obtain ⟨shards, hold, -⟩ := fits
  have shards_within : 1 ≤ s.shards ∧ s.shards ≤ 4096 := by
    cases set : env.value .shards with
    | none =>
      rw [set] at shards
      exact shards ▸ by decide
    | some text =>
      rw [set] at shards
      exact shards.2
  refine ⟨shards_within.1, shards_within.2, fun d eq => ?_⟩
  rw [eq] at hold
  cases set : env.value .holdMilliseconds with
  | none =>
    rw [set] at hold
    cases hold
  | some text =>
    rw [set] at hold
    obtain ⟨n, -, le, given⟩ := hold
    split at given
    · cases given
    · cases given
      show (0 : Int) < n * 1000000 ∧ (n * 1000000 : Int) ≤ 0x7fffffffffffffff
      omega

end StoreSettings

/-! ## The service's settings -/

namespace ServiceSettings

section

variable (spells : Bytes → Nat → Prop)

/-- What a text means as a port. -/
def MeansPort (text : Bytes) (port : UInt16) : Prop :=
  spells text port.toNat ∧ port.toNat ≤ 65535

/-- What a text means as a count that is bounded. -/
def MeansCount (most : Nat) (text : Bytes) (n : UInt32) : Prop :=
  spells text n.toNat ∧ n.toNat ≤ most

/-- **What the port is read from**: its variable, or the argument if that is not set. -/
def consultedPort (env : Environment) (argument : Option Bytes) : Option (SettingSource × Bytes) :=
  match env.value .port with
  | some text => some (.ofVariable .port, text)
  | none => argument.map (fun text => (.portArgument, untilZero text))

/-- **What the service's settings are read from**, in order. -/
def consulted (env : Environment) (argument : Option Bytes) : List (SettingSource × Bytes) :=
  (consultedPort env argument).toList ++ env.consult .workers ++ env.consult .keysPerWorker

/-- **Settings that are as the environment and the argument say**, each of them,
or their defaults. -/
structure Fits (env : Environment) (argument : Option Bytes) (s : ServiceSettings) : Prop where
  address : s.address = (env.value .address).getD (utf8 "0.0.0.0")
  port : Given 8001 (MeansPort spells) ((consultedPort env argument).map Prod.snd) s.port
  workers : Given 4 (MeansCount spells 1024) (env.value .workers) s.workers
  keysPerWorker : Given 8 (MeansCount spells 1048576) (env.value .keysPerWorker) s.keysPerWorker

end

theorem reads_readPort {source : SettingSource} (range : source.range? = some (0, 65535))
    {text : Bytes} (agrees : Numeral.Agrees spells text) :
    Reads spells (MeansPort spells text) [(source, text)] (readPort source text) := by
  refine .number range (by decide) agrees (fun n lt => absurd lt (Nat.not_lt_zero n)) ?_
  intro n spelled _ le
  have same : (UInt16.ofNat n).toNat = n :=
    UInt16.toNat_ofNat_of_lt' (Nat.lt_of_le_of_lt le (by decide))
  exact ⟨_, rfl, by rwa [same], by rwa [same]⟩

theorem reads_readCount {v : Variable} {most : Nat} (small : most < 4294967296)
    (range : (SettingSource.ofVariable v).range? = some (0, most)) {text : Bytes}
    (agrees : Numeral.Agrees spells text) :
    Reads spells (MeansCount spells most text) [(.ofVariable v, text)] (readCount v most text) := by
  refine .number range (Nat.lt_trans small (by decide)) agrees
    (fun n lt => absurd lt (Nat.not_lt_zero n)) ?_
  intro n spelled _ le
  have same : (UInt32.ofNat n).toNat = n := UInt32.toNat_ofNat_of_lt' (Nat.lt_of_le_of_lt le small)
  exact ⟨_, rfl, by rwa [same], by rwa [same]⟩

/-- **The service's settings are what the environment and the argument say**,
where the scanner agrees about the numbers. -/
theorem reads {env : Environment} {argument : Option Bytes}
    (agrees : ∀ e ∈ consulted env argument, e.1.range?.isSome → Numeral.Agrees spells e.2) :
    Reads spells (Fits spells env argument) (consulted env argument)
      (ofEnvironment env argument) := by
  have agrees_port {e : SettingSource × Bytes} (mem : consultedPort env argument = some e)
      (number : e.1.range?.isSome) : Numeral.Agrees spells e.2 :=
    agrees e (by simp [consulted, mem]) number
  have workers : Reads spells (Given 4 (MeansCount spells 1024) (env.value .workers))
      (env.consult .workers) (readOr 4 (readCount .workers 1024) (env.value .workers)) :=
    .readOr fun text value => reads_readCount (by decide) rfl <|
      agrees (.ofVariable .workers, text) (by simp [consulted, Environment.consult, value]) rfl
  have keys : Reads spells (Given 8 (MeansCount spells 1048576) (env.value .keysPerWorker))
      (env.consult .keysPerWorker)
      (readOr 8 (readCount .keysPerWorker 1048576) (env.value .keysPerWorker)) :=
    .readOr fun text value => reads_readCount (by decide) rfl <|
      agrees (.ofVariable .keysPerWorker, text)
        (by simp [consulted, Environment.consult, value]) rfl
  have go {port : Except SettingFault UInt16} (reads : Reads spells
      (Given 8001 (MeansPort spells) ((consultedPort env argument).map Prod.snd))
      (consultedPort env argument).toList port) :
      Reads spells (Fits spells env argument) (consulted env argument)
        (port >>= fun port => readOr 4 (readCount .workers 1024) (env.value .workers)
          >>= fun workers => readOr 8 (readCount .keysPerWorker 1048576) (env.value .keysPerWorker)
          >>= fun keysPerWorker => .ok
            { address := (env.value .address).getD (utf8 "0.0.0.0"), port, workers,
              keysPerWorker }) := by
    rw [consulted, List.append_assoc]
    refine reads.bind fun port port_fits => workers.bind fun workers workers_fit => ?_
    rw [← List.append_nil (env.consult .keysPerWorker)]
    refine keys.bind fun keys keys_fit => ?_
    exact .nothing ⟨rfl, port_fits, workers_fit, keys_fit⟩
  unfold ofEnvironment
  unfold consultedPort at agrees_port go
  cases set : env.value .port with
  | some text =>
    rw [set] at agrees_port go
    exact go (reads_readPort rfl (agrees_port rfl rfl))
  | none =>
    rw [set] at agrees_port go
    cases argument with
    | none => exact go (.nothing rfl)
    | some text => exact go (reads_readPort rfl (agrees_port rfl rfl))

/-- Settings that fit are within bounds. -/
theorem Fits.within {env : Environment} {argument : Option Bytes} {s : ServiceSettings}
    (fits : Fits spells env argument s) :
    s.port.toNat ≤ 65535 ∧ s.workers.toNat ≤ 1024 ∧ s.keysPerWorker.toNat ≤ 1048576 := by
  obtain ⟨-, -, workers, keys⟩ := fits
  have bounded {standard n : UInt32} {most : Nat} (small : standard.toNat ≤ most)
      {value? : Option Bytes} (given : Given standard (MeansCount spells most) value? n) :
      n.toNat ≤ most := by
    cases value? with
    | none => exact given ▸ small
    | some text => exact given.2
  refine ⟨Nat.le_of_lt_succ s.port.toNat_lt, ?_, ?_⟩
  · exact bounded (by decide) workers
  · exact bounded (by decide) keys

end ServiceSettings

/-! ## Numbers with a minus sign and without -/

/-- **What the scanner takes a text for**: the number it spells, or, if there is a
minus sign in it, the number it wraps to. -/
def Numeral.Denotes (text : Bytes) (n : Nat) : Prop :=
  if minus ∈ text then Wraps text n else Spells false text n

theorem Numeral.agrees_denotes (text : Bytes) : Agrees Denotes text := by
  intro n
  rw [read?_eq_some_iff, Denotes]
  split
  · next signed => rw [or_iff_right fun spells => spells.minus_not_mem signed]
  · next unsigned => rw [or_iff_left fun wraps => unsigned wraps.minus_mem]

/-- **The texts that are consulted decide the answer.** -/
structure Decided {α : Type} (spells : Bytes → Nat → Prop) (Fits : α → Prop)
    (consulted : List (SettingSource × Bytes)) (answer : Except SettingFault α) : Prop where
  /-- It is a refusal exactly if some text is not accepted. -/
  refused_iff : (∃ f, answer = .error f) ↔ ∃ e ∈ consulted, ¬ e.1.Accepts spells e.2
  /-- The first such text is the one that is named, and the fault says what is wrong
  with it. -/
  named : ∀ f, answer = .error f → utf8 f.source.name <+: f.message
    ∧ ∃ before text after, consulted = before ++ (f.source, text) :: after
      ∧ (∀ e ∈ before, e.1.Accepts spells e.2) ∧ ¬ f.source.Accepts spells text
      ∧ f.Explains spells text
  /-- Otherwise the settings are what the texts say. -/
  fits : ∀ a, answer = .ok a → Fits a

/-- What is read is decided: an answer fits the texts, and a fault names the first
that cannot be read. -/
theorem Reads.decided {Fits : α → Prop} {consulted : List (SettingSource × Bytes)}
    {answer : Except SettingFault α} (reads : Reads spells Fits consulted answer) :
    Decided spells Fits consulted answer := by
  cases reads with
  | accepted all fits =>
    refine ⟨⟨?_, ?_⟩, ?_, ?_⟩
    · rintro ⟨f, ⟨⟩⟩
    · rintro ⟨e, mem, unfit⟩
      exact absurd (all e mem) unfit
    · rintro f ⟨⟩
    · rintro a ⟨⟩
      exact fits
  | @refused before after text f eq earlier unfit explains =>
    refine ⟨⟨fun _ => ⟨(f.source, text), ?_, unfit⟩, fun _ => ⟨f, rfl⟩⟩, ?_, ?_⟩
    · rw [eq]
      exact List.mem_append_right _ List.mem_cons_self
    · rintro _ ⟨⟩
      exact ⟨f.name_prefix_message, before, text, after, eq, earlier, unfit, explains⟩
    · rintro a ⟨⟩

/-- What the scanner takes the texts for decides what becomes of a store's settings. -/
theorem StoreSettings.decided (env : Environment) :
    Decided Numeral.Denotes (Fits Numeral.Denotes env) (consulted env) (ofEnvironment env) :=
  (reads fun e _ _ => Numeral.agrees_denotes e.2).decided

/-- And of the service's. -/
theorem ServiceSettings.decided (env : Environment) (argument : Option Bytes) :
    Decided Numeral.Denotes (Fits Numeral.Denotes env argument) (consulted env argument)
      (ofEnvironment env argument) :=
  (reads fun e _ _ => Numeral.agrees_denotes e.2).decided

/-- **A negative number that does not come round**: it is not zero, and its
negation in a word is no number of 32 bits. -/
def Numeral.Negative (text : Bytes) : Prop :=
  ∃ m, Spells true text m ∧ 0 < m ∧ (m + 4294967295 < wordSize ∨ wordSize ≤ m)

/-- No source accepts a negative number that does not come round. -/
theorem SettingSource.not_accepts_of_negative {source : SettingSource} {text : Bytes}
    (number : source.range?.isSome) (negative : Numeral.Negative text) :
    ¬ source.Accepts Numeral.Denotes text := by
  obtain ⟨m, spells, positive, far⟩ := negative
  obtain ⟨⟨least, most⟩, range⟩ := Option.isSome_iff_exists.mp number
  have small : most ≤ 4294967295 := by
    cases source with
    | ofVariable v => cases v <;> cases range <;> decide
    | portArgument => cases range; decide
  rw [Accepts, range]
  rintro ⟨n, denotes, -, le⟩
  rw [Numeral.Denotes, if_pos spells.minus_mem] at denotes
  obtain ⟨-, m', fits, spells', rfl⟩ := denotes
  obtain rfl := spells.unique spells'
  rw [Nat.mod_eq_of_lt (by omega)] at le
  omega

/-- **A negative number is refused, unless it comes round.** A number that is used
is the one its text spells, or one that a text with a minus sign wraps to; and
if some text is a negative number that does not come round, the answer is a
fault. -/
theorem minus_refused_unless_wrapped (env : Environment) (argument : Option Bytes) :
    Decided Numeral.Denotes (StoreSettings.Fits Numeral.Denotes env)
        (StoreSettings.consulted env) (StoreSettings.ofEnvironment env)
      ∧ Decided Numeral.Denotes (ServiceSettings.Fits Numeral.Denotes env argument)
        (ServiceSettings.consulted env argument) (ServiceSettings.ofEnvironment env argument)
      ∧ ((∃ e ∈ StoreSettings.consulted env, e.1.range?.isSome ∧ Numeral.Negative e.2)
        → ∃ f, StoreSettings.ofEnvironment env = .error f)
      ∧ ((∃ e ∈ ServiceSettings.consulted env argument, e.1.range?.isSome
          ∧ Numeral.Negative e.2)
        → ∃ f, ServiceSettings.ofEnvironment env argument = .error f) := by
  have store := StoreSettings.decided env
  have service := ServiceSettings.decided env argument
  refine ⟨store, service, ?_, ?_⟩
  · rintro ⟨e, mem, number, negative⟩
    exact store.refused_iff.mpr ⟨e, mem, SettingSource.not_accepts_of_negative number negative⟩
  · rintro ⟨e, mem, number, negative⟩
    exact service.refused_iff.mpr ⟨e, mem, SettingSource.not_accepts_of_negative number negative⟩

/-- An environment in which a negative number comes round to one, and another
does not come round. -/
def Environment.roundabout : Environment
  | .shards => some (utf8 " -18446744073709551615")
  | .workers => some (utf8 "\t-0005")
  | _ => none

/-- **A negative number of shards is accepted.** -/
theorem negative_shards_accepted :
    Environment.roundabout .shards = some (utf8 " -18446744073709551615")
      ∧ Numeral.Spells true (utf8 " -18446744073709551615") 18446744073709551615
      ∧ StoreSettings.ofEnvironment .roundabout = .ok { shards := 1 } := by
  refine ⟨rfl, ?_, by decide +kernel⟩
  exact ⟨utf8 " ", by decide +kernel, utf8 "-", by decide, utf8 "18446744073709551615",
    ⟨0, by decide +kernel⟩, by decide +kernel⟩

theorem minus_refused_unless_wrapped_of_roundabout :
    (∃ e ∈ ServiceSettings.consulted .roundabout none, e.1.range?.isSome
        ∧ Numeral.Negative e.2)
      ∧ (∃ f, ServiceSettings.ofEnvironment .roundabout none = .error f)
      ∧ Numeral.Denotes (utf8 " -18446744073709551615") 1 := by
  have negative : ∃ e ∈ ServiceSettings.consulted .roundabout none, e.1.range?.isSome
      ∧ Numeral.Negative e.2 := by
    refine ⟨(.ofVariable .workers, utf8 "\t-0005"), by decide +kernel, rfl, 5, ?_, by decide⟩
    exact ⟨utf8 "\t", by decide +kernel, utf8 "-", by decide, utf8 "0005", ⟨3, by decide⟩,
      by decide⟩
  obtain ⟨store, -, -, service⟩ := minus_refused_unless_wrapped .roundabout none
  have read : StoreSettings.ofEnvironment .roundabout = .ok { shards := 1 } := by decide +kernel
  exact ⟨negative, service negative, (store.fits _ read).shards.1⟩

end AdvisoryStore
