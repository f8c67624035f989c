import AdvisoryStore.Numeral
import AdvisoryStore.Time

/-!
# Settings and the environment

What can be set from outside is a fixed list of variables, so an
**environment** is a function on `Variable`: a variable that is set has a
value, perhaps an empty one, and one that is not set has none. Two groups
of settings are read from it, those of a store and those of the service in
front of it.

Every value is checked on its own, in the order in which the group lists
its variables, and the first that fails decides the answer
(`SettingFault`). A variable that is not set leaves the default.
-/

namespace AdvisoryStore

/-- **The variables the settings are read from.** -/
inductive Variable
  | shards
  | holdMilliseconds
  | verbose
  | address
  | port
  | workers
  | keysPerWorker
  deriving DecidableEq, Repr

/-- The name a variable goes by. -/
def Variable.name : Variable → String
  | shards => "RECORD_STORE_SHARDS"
  | holdMilliseconds => "RECORD_STORE_DEFAULT_HOLD_TIMEOUT_MS"
  | verbose => "RECORD_STORE_VERBOSE"
  | address => "BIND_HOST"
  | port => "PORT"
  | workers => "DEMO_WORKERS"
  | keysPerWorker => "DEMO_KEYS"

/-- All variables. -/
def Variable.all : List Variable :=
  [shards, holdMilliseconds, verbose, address, port, workers, keysPerWorker]

/-- **The values of the variables** that are set. -/
abbrev Environment := Variable → Option Bytes

/-- **The value of a variable**, which ends before its first zero byte. -/
def Environment.value (env : Environment) (v : Variable) : Option Bytes := (env v).map untilZero

/-- Where the text of a setting came from. -/
inductive SettingSource
  | ofVariable (v : Variable)
  | portArgument
  deriving DecidableEq, Repr

/-- What a message calls the place a text came from. -/
def SettingSource.name : SettingSource → String
  | ofVariable v => v.name
  | portArgument => "port"

/-- **Why settings are refused.** -/
inductive SettingFault
  | notANumber (source : SettingSource) (text : Bytes)
  | outOfRange (source : SettingSource) (text : Bytes)
  | noShards
  | notABoolean (source : SettingSource) (text : Bytes)
  deriving DecidableEq, Repr

/-- The message of a refusal. -/
def SettingFault.message : SettingFault → Bytes
  | notANumber source text => utf8 source.name ++ utf8 ": not a number: '" ++ text ++ utf8 "'"
  | outOfRange source text => utf8 source.name ++ utf8 ": out of range: " ++ text
  | noShards => utf8 Variable.shards.name ++ utf8 ": must be at least 1"
  | notABoolean source text =>
    utf8 source.name ++ utf8 ": expected a boolean, got '" ++ text ++ utf8 "'"

/-- A number not above `bound`. -/
def readNumber (source : SettingSource) (bound : Nat) (text : Bytes) : Except SettingFault Nat :=
  match Numeral.read? text with
  | none => .error (.notANumber source text)
  | some n => if bound < n then .error (.outOfRange source text) else .ok n

/-- The texts that switch a flag on. -/
def flagOn : List Bytes := [utf8 "1", utf8 "true", utf8 "yes", utf8 "on"]

/-- The texts that switch a flag off; the empty text is one of them. -/
def flagOff : List Bytes := [utf8 "0", utf8 "false", utf8 "no", utf8 "off", []]

/-- A flag. -/
def readFlag (source : SettingSource) (text : Bytes) : Except SettingFault Bool :=
  if text ∈ flagOn then .ok true
  else if text ∈ flagOff then .ok false
  else .error (.notABoolean source text)

/-- Reads an optional text, and leaves the default when there is none. -/
def readOr {α : Type} (standard : α) (read : Bytes → Except SettingFault α) :
    Option Bytes → Except SettingFault α
  | none => .ok standard
  | some text => read text

/-! ## A store's settings -/

/-- **The settings of a store.** -/
structure StoreSettings where
  /-- How many cells records and locks are spread over; zero is read as one. -/
  shards : Nat := 16
  /-- How long a lock is held when its holder does not say. -/
  defaultHold : Option Duration := none
  /-- Whether operations that go well are logged too. -/
  verbose : Bool := false
  deriving DecidableEq, Repr

namespace StoreSettings

instance : Inhabited StoreSettings := ⟨{}⟩

/-- The number of shards, at least one and at most 4096. -/
def readShards (text : Bytes) : Except SettingFault Nat := do
  let n ← readNumber (.ofVariable .shards) 4096 text
  if n = 0 then .error .noShards else .ok n

/-- A default hold in milliseconds, of 32 bits, where zero means that there
is none. -/
def readHold (text : Bytes) : Except SettingFault (Option Duration) := do
  let n ← readNumber (.ofVariable .holdMilliseconds) 4294967295 text
  .ok (if n = 0 then none else some (Duration.milliseconds n))

/-- **A store's settings as the environment has them.** -/
def ofEnvironment (env : Environment) : Except SettingFault StoreSettings := do
  let standard : StoreSettings := {}
  let shards ← readOr standard.shards readShards (env.value .shards)
  let defaultHold ← readOr standard.defaultHold readHold (env.value .holdMilliseconds)
  let verbose ← readOr standard.verbose (readFlag (.ofVariable .verbose)) (env.value .verbose)
  .ok { shards, defaultHold, verbose }

end StoreSettings

/-! ## The service's settings -/

/-- **The settings of the service in front of a store.** -/
structure ServiceSettings where
  /-- The address to listen on. -/
  address : Bytes := utf8 "0.0.0.0"
  /-- The port to listen on. -/
  port : UInt16 := 8001
  /-- How many workers run the demo workload. -/
  workers : UInt32 := 4
  /-- How many keys each of them runs. -/
  keysPerWorker : UInt32 := 8
  deriving DecidableEq, Repr

namespace ServiceSettings

instance : Inhabited ServiceSettings := ⟨{}⟩

/-- A number that fits a port. -/
def readPort (source : SettingSource) (text : Bytes) : Except SettingFault UInt16 := do
  let n ← readNumber source 65535 text
  .ok (UInt16.ofNat n)

/-- A number of workers or keys. -/
def readCount (v : Variable) (bound : Nat) (text : Bytes) : Except SettingFault UInt32 := do
  let n ← readNumber (.ofVariable v) bound text
  .ok (UInt32.ofNat n)

/-- **The service's settings as the environment and the first argument have
them.** The argument names the port, and is looked at only when the
environment does not. -/
def ofEnvironment (env : Environment) (argument : Option Bytes) :
    Except SettingFault ServiceSettings := do
  let standard : ServiceSettings := {}
  let address := (env.value .address).getD standard.address
  let port ← match env.value .port with
    | some text => readPort (.ofVariable .port) text
    | none => readOr standard.port (readPort .portArgument) (argument.map untilZero)
  let workers ← readOr standard.workers (readCount .workers 1024) (env.value .workers)
  let keysPerWorker ←
    readOr standard.keysPerWorker (readCount .keysPerWorker 1048576) (env.value .keysPerWorker)
  .ok { address, port, workers, keysPerWorker }

end ServiceSettings

end AdvisoryStore
