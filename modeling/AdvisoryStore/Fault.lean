import AdvisoryStore.Settings

/-!
# Faults

A fault is the answer of an operation that could not do what it was asked.
Two of them are the store's own: a write meets another holder's lock, or a
lock is released by one who does not hold it. Settings may be refused, and
the work that a caller brings may fail for reasons of its own, which pass
through unchanged.

A fault says what went wrong and for which key and holder; `Fault.message`
is the one place where it is put into words. A message is a text that ends
at a zero byte, so a key or a holder that has one cuts the message short –
the fault itself still has them whole.
-/

namespace AdvisoryStore

/-- **Why an operation failed.** -/
inductive Fault
  /-- The key is locked by another holder than `holder`, who wanted to write. -/
  | conflict (key holder : Bytes)
  /-- `holder` does not hold the lock it wanted to release. -/
  | notHolder (key holder : Bytes)
  /-- The environment's settings are not valid. -/
  | badSettings (fault : SettingFault)
  /-- The caller's work refused its argument. -/
  | badArgument (message : Bytes)
  /-- The caller's work failed. -/
  | failure (message : Bytes)
  deriving DecidableEq, Repr

/-- What is to be said of a fault. -/
def Fault.wording : Fault → Bytes
  | conflict key _ =>
    utf8 "Cannot write to transaction with key " ++ key
      ++ utf8 " because it is locked by another holder."
  | notHolder key holder =>
    utf8 "No lock held by " ++ holder ++ utf8 " for transaction with key " ++ key
  | badSettings fault => fault.message
  | badArgument message => message
  | failure message => message

/-- **A fault in words**, up to the first zero byte among them. -/
def Fault.message (f : Fault) : Bytes := untilZero f.wording

/-- **What is said of a fault that was met under a key.** A conflict names its key
itself, and any other fault is put behind the key. -/
def Fault.complaint (key : Bytes) : Fault → Bytes
  | conflict name holder => (conflict name holder).message
  | fault => utf8 "key=" ++ key ++ utf8 " " ++ fault.message

end AdvisoryStore
