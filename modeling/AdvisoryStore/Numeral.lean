import AdvisoryStore.Bytes

/-!
# Numerals in settings

A number in a setting is written as **a numeral**: any blanks, at most one
sign, and decimal digits to the end. It denotes a word of 64 bits. Digits
that denote more than such a word holds are no numeral at all, and a minus
sign takes the value to its negative modulo the size of the word.

A text that *begins* with a minus sign is refused outright. One that puts
blanks before it is not, and then the wrapped value stands – a small
negative number becomes a very large one, which the bound that the setting
has of its own almost always turns away.
-/

namespace AdvisoryStore.Numeral

/-- The blanks that may stand before a numeral: space, tab, line feed,
vertical tab, form feed and carriage return. -/
def isBlank (b : UInt8) : Bool := b = 32 || (9 ≤ b && b ≤ 13)

/-- The decimal digits. -/
def isDigit (b : UInt8) : Bool := 48 ≤ b && b ≤ 57

/-- The number a row of digits denotes, leading zeros and all. -/
def value (digits : Bytes) : Nat := digits.foldl (fun n d => 10 * n + (d.toNat - 48)) 0

/-- The sign byte that says the value is to be negated. -/
def minus : UInt8 := 45

/-- The sign byte that changes nothing. -/
def plus : UInt8 := 43

/-- Takes a sign off the front; the flag says whether it was a minus. -/
def takeSign : Bytes → Bool × Bytes
  | [] => (false, [])
  | b :: rest =>
    if b = minus then (true, rest) else if b = plus then (false, rest) else (false, b :: rest)

/-- How many values a word of 64 bits has. -/
def wordSize : Nat := 0x10000000000000000

/-- **The word a text denotes**, if the text is a numeral that does not
begin with a minus sign. -/
def read? (text : Bytes) : Option Nat :=
  let (negative, digits) := takeSign (text.dropWhile isBlank)
  if text.head? ≠ some minus ∧ digits ≠ [] ∧ digits.all isDigit ∧ value digits < wordSize then
    some (if negative then (wordSize - value digits) % wordSize else value digits)
  else
    none

/-! ## Numerals that are written here are read back -/

/-- One more digit at the end. -/
theorem value_append_digit (digits : Bytes) (d : UInt8) :
    value (digits ++ [d]) = 10 * value digits + (d.toNat - 48) := by
  simp [value]

/-- A decimal numeral by its last digit. -/
theorem decimal_eq (n : Nat) :
    decimal n = (if n < 10 then [] else decimal (n / 10)) ++ [UInt8.ofNat (48 + n % 10)] := by
  have digit : ∀ d : Fin 10, UInt8.ofNat (Nat.digitChar d).toNat = UInt8.ofNat (48 + d) := by decide
  have last : UInt8.ofNat (Nat.digitChar (n % 10)).toNat = UInt8.ofNat (48 + n % 10) :=
    digit ⟨n % 10, Nat.mod_lt _ (by decide)⟩
  unfold decimal
  rw [Nat.toDigits_eq_if (by decide)]
  split
  · next small =>
    rw [Nat.mod_eq_of_lt small] at last ⊢
    rw [List.map_singleton, last, List.nil_append]
  · rw [List.map_append, List.map_singleton, last]

/-- A decimal numeral is made of digits. -/
theorem isDigit_of_mem_decimal (n : Nat) : ∀ b ∈ decimal n, isDigit b := by
  induction n using Nat.strongRecOn with
  | _ n ih =>
    have digit : ∀ d : Fin 10, isDigit (UInt8.ofNat (48 + d)) := by decide
    intro b mem
    rw [decimal_eq, List.mem_append, List.mem_singleton] at mem
    obtain mem | rfl := mem
    · split at mem
      · simp at mem
      · exact ih (n / 10) (by omega) b mem
    · exact digit ⟨n % 10, Nat.mod_lt _ (by decide)⟩

/-- **A decimal numeral denotes its number.** -/
theorem value_decimal (n : Nat) : value (decimal n) = n := by
  induction n using Nat.strongRecOn with
  | _ n ih =>
    have digit : ∀ d : Fin 10, (UInt8.ofNat (48 + d)).toNat - 48 = d := by decide
    have last : (UInt8.ofNat (48 + n % 10)).toNat - 48 = n % 10 :=
      digit ⟨n % 10, Nat.mod_lt _ (by decide)⟩
    rw [decimal_eq, value_append_digit, last]
    split
    · next small =>
      rw [show value [] = 0 from rfl]
      omega
    · rw [ih (n / 10) (by omega)]
      omega

/-- A decimal numeral has at least one digit. -/
theorem decimal_ne_nil (n : Nat) : decimal n ≠ [] := by
  rw [decimal_eq]
  exact List.append_ne_nil_of_right_ne_nil _ (List.cons_ne_nil _ _)

/-- A digit is no blank. -/
theorem isBlank_of_isDigit {b : UInt8} (digit : isDigit b) : isBlank b = false := by
  simp only [isDigit, Bool.and_eq_true, decide_eq_true_eq, UInt8.le_iff_toNat_le] at digit
  simp only [isBlank, Bool.or_eq_false_iff, Bool.and_eq_false_iff, decide_eq_false_iff_not,
    ← UInt8.toNat_inj, UInt8.le_iff_toNat_le]
  simp at digit ⊢
  omega

/-- A text that begins with a digit has no sign to take. -/
theorem takeSign_of_isDigit {b : UInt8} (digit : isDigit b) (rest : Bytes) :
    takeSign (b :: rest) = (false, b :: rest) := by
  have apart : b ≠ minus ∧ b ≠ plus := by
    constructor <;> rintro rfl <;> exact absurd digit (by decide)
  rw [takeSign, if_neg apart.1, if_neg apart.2]

/-- **A decimal numeral is read back**, if its number fits a word. -/
theorem read?_decimal {n : Nat} (fits : n < wordSize) : read? (decimal n) = some n := by
  have digits := isDigit_of_mem_decimal n
  have denotes := value_decimal n
  obtain ⟨b, rest, written⟩ := List.exists_cons_of_ne_nil (decimal_ne_nil n)
  rw [written] at digits denotes ⊢
  have first := digits b List.mem_cons_self
  have unsigned : b ≠ minus := by
    rintro rfl
    exact absurd first (by decide)
  have all : (b :: rest).all isDigit := List.all_eq_true.mpr digits
  rw [read?, List.dropWhile_cons_of_neg (by simp [isBlank_of_isDigit first]),
    takeSign_of_isDigit first]
  simp [unsigned, all, denotes, fits]

end AdvisoryStore.Numeral
