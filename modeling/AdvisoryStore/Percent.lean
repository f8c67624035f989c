import AdvisoryStore.Bytes

/-!
# Percent escapes

In a request target a byte may be written as `%` and two hexadecimal
digits, of either case. `decode` undoes this, and refuses a text in which
a `%` is not followed by two such digits. Every other byte stands for
itself.
-/

namespace AdvisoryStore.Percent

/-- The byte that opens an escape. -/
def sign : UInt8 := 37

/-- The value of a hexadecimal digit, of either case. -/
def digit? (b : UInt8) : Option UInt8 :=
  if 48 ≤ b ∧ b ≤ 57 then some (b - 48)
  else if 97 ≤ b ∧ b ≤ 102 then some (b - 87)
  else if 65 ≤ b ∧ b ≤ 70 then some (b - 55)
  else none

/-- The byte that two hexadecimal digits denote. -/
def pair? (high low : UInt8) : Option UInt8 :=
  match digit? high, digit? low with
  | some h, some l => some (16 * h + l)
  | _, _ => none

/-- **Undoes the escapes of a text**, if all of them are well formed. -/
def decode : Bytes → Option Bytes
  | [] => some []
  | b :: high :: low :: rest =>
    if b = sign then
      match pair? high low with
      | some byte => (decode rest).map (byte :: ·)
      | none => none
    else
      (decode (high :: low :: rest)).map (b :: ·)
  | b :: rest => if b = sign then none else (decode rest).map (b :: ·)

end AdvisoryStore.Percent
