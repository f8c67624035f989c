/-!
# Byte strings

Keys, holders, payloads, request targets and the values of environment
variables are **byte strings**: nothing in the store asks them to be text,
two keys are the same key exactly when their bytes are, and every byte
comes back as it went in. They are lists, so that a scanner over them is a
recursion over the list.

What the library itself writes – log lines, exposition, messages – is text
of its own, and `utf8` turns such a text into bytes once.
-/

namespace AdvisoryStore

/-- **A byte string.** -/
abbrev Bytes := List UInt8

/-- The bytes of a text, in UTF-8. -/
def utf8 (text : String) : Bytes := text.toList.flatMap String.utf8EncodeChar

/-- The decimal numeral of a number, without sign or leading zeros. -/
def decimal (n : Nat) : Bytes := (Nat.toDigits 10 n).map (fun c => UInt8.ofNat c.toNat)

/-- **The part of a byte string before its first zero byte.** Some texts end
there when they are handed on: the values of the environment, and the
messages of faults. -/
def untilZero (text : Bytes) : Bytes := text.takeWhile (· ≠ 0)

/-- A hash of a byte string that mixes in one byte after the other, in 64
bits.

Which cell a key falls into shows in no answer; this is only the hash a
session uses when its caller brings none. -/
def spread (key : Bytes) : Nat :=
  (key.foldl (fun (h : UInt64) b => (h ^^^ b.toUInt64) * 0x100000001b3) 0xcbf29ce484222325).toNat

/-- Puts a byte string in its place in a list that is in byte order. -/
def insertInOrder (key : Bytes) : List Bytes → List Bytes
  | [] => [key]
  | k :: rest => if key < k then key :: k :: rest else k :: insertInOrder key rest

/-- The byte strings of a list in **byte order**: bytes compare as numbers,
a shorter string before its extensions. -/
def inByteOrder (keys : List Bytes) : List Bytes := keys.foldr insertInOrder []

end AdvisoryStore
