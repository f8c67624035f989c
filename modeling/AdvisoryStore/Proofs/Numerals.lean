import Mathlib.Data.List.Induction
import AdvisoryStore.Numeral

/-!
# Which texts are numerals

`Numeral.read?` is a scanner: it drops blanks, takes a sign, and adds up
digits. Here the same is told from the writer's side. Digits *denote* a number
if they are its decimal numeral, perhaps with zeros before it
(`Numeral.Digits`), and a text *spells* a number if it is blanks, a sign that
may be missing, and such digits, with nothing behind them
(`Numeral.Spells`). The scanner reads exactly the texts that spell a number
which fits a word (`Numeral.read?_eq_some_iff`).

The sign is where the two sides part. A minus sign is refused where the text
begins with it. Behind a blank it is let through, and what is read is not the
number that is spelled but its distance from the size of a word
(`Numeral.Wraps`).
-/

namespace AdvisoryStore.Numeral

/-- **The blanks.** -/
def blanks : Bytes := utf8 " \t\n\x0b\x0c\r"

/-- The digit that adds nothing before a numeral. -/
def zero : UInt8 := 48

/-- **Digits denote a number**: they are its decimal numeral behind any zeros. -/
def Digits (digits : Bytes) (n : Nat) : Prop :=
  ∃ zeros, digits = List.replicate zeros zero ++ decimal n

/-- How a number may be signed: with a minus sign, or with a plus sign or none. -/
def signs (negative : Bool) : List Bytes := if negative then [[minus]] else [[], [plus]]

/-- **A text spells a number**: any blanks, a sign, and digits that denote the
number, to the end of the text. -/
def Spells (negative : Bool) (text : Bytes) (n : Nat) : Prop :=
  ∃ space, (∀ b ∈ space, b ∈ blanks) ∧ ∃ sign ∈ signs negative, ∃ digits, Digits digits n
    ∧ text = space ++ sign ++ digits

/-- **A text wraps to a number**: a minus sign that some blank stands before,
and behind it the number's distance from the size of a word, modulo that size. -/
def Wraps (text : Bytes) (n : Nat) : Prop :=
  text.head? ≠ some minus ∧ ∃ m < wordSize, Spells true text m ∧ n = (wordSize - m) % wordSize

/-! ## Digits -/

theorem isBlank_iff_mem {b : UInt8} : isBlank b = true ↔ b ∈ blanks := by
  have every : ∀ n < 256, isBlank (UInt8.ofNat n) = true ↔ UInt8.ofNat n ∈ blanks := by
    decide +kernel
  have shown := every b.toNat b.toNat_lt
  rwa [UInt8.ofNat_toNat] at shown

/-- A digit is written by its value. -/
theorem eq_of_isDigit {d : UInt8} (digit : isDigit d) :
    d = UInt8.ofNat (48 + (d.toNat - 48)) ∧ d.toNat - 48 < 10 := by
  simp only [isDigit, Bool.and_eq_true, decide_eq_true_eq, UInt8.le_iff_toNat_le] at digit
  have bounds : 48 ≤ d.toNat ∧ d.toNat ≤ 57 := digit
  constructor
  · rw [Nat.add_sub_of_le bounds.1, UInt8.ofNat_toNat]
  · omega

theorem value_append (zeros digits : Bytes) (none : value zeros = 0) :
    value (zeros ++ digits) = value digits := by
  unfold value at none ⊢
  rw [List.foldl_append, none]

theorem value_replicate_zero (zeros : Nat) : value (List.replicate zeros zero) = 0 := by
  induction zeros with
  | zero => rfl
  | succ zeros ih =>
    rw [List.replicate_succ', value_append_digit, ih]
    rfl

/-- **Digits denote what the scanner adds up.** -/
theorem digits_iff {digits : Bytes} {n : Nat} :
    Digits digits n ↔ digits ≠ [] ∧ digits.all isDigit = true ∧ value digits = n := by
  constructor
  · rintro ⟨zeros, rfl⟩
    refine ⟨List.append_ne_nil_of_right_ne_nil _ (decimal_ne_nil n), ?_, ?_⟩
    · refine List.all_eq_true.mpr (fun b mem => ?_)
      obtain mem | mem := List.mem_append.mp mem
      · rw [List.eq_of_mem_replicate mem]
        decide
      · exact isDigit_of_mem_decimal n b mem
    · rw [value_append _ _ (value_replicate_zero zeros), value_decimal]
  · -- digit by digit from the end, as the value is built
    induction digits using List.reverseRecOn generalizing n with
    | nil => exact fun h => absurd rfl h.1
    | append_singleton front d ih =>
      rintro ⟨-, all, rfl⟩
      rw [List.all_append, Bool.and_eq_true, List.all_cons, List.all_nil, Bool.and_true] at all
      obtain ⟨written, small⟩ := eq_of_isDigit all.2
      rw [value_append_digit]
      obtain rfl | some_front := eq_or_ne front []
      · refine ⟨0, ?_⟩
        rw [show value [] = 0 from rfl, decimal_eq, if_pos (by omega), Nat.mod_eq_of_lt (by omega),
          Nat.mul_zero, Nat.zero_add, ← written]
        rfl
      · obtain ⟨zeros, eq⟩ := ih ⟨some_front, all.1, rfl⟩
        generalize value front = m at eq ⊢
        have quotient : (10 * m + (d.toNat - 48)) / 10 = m := by omega
        have remainder : (10 * m + (d.toNat - 48)) % 10 = d.toNat - 48 := by omega
        rw [eq, Digits, decimal_eq (10 * m + _), quotient, remainder, ← written]
        obtain rfl | positive := Nat.eq_zero_or_pos m
        · -- the front is nothing but zeros
          refine ⟨zeros + 1, ?_⟩
          rw [if_pos (by omega), List.replicate_succ', List.nil_append]
          rfl
        · refine ⟨zeros, ?_⟩
          rw [if_neg (by omega), List.append_assoc]

/-! ## Scanning -/

/-- Digits begin with a digit. -/
theorem Digits.exists_cons {digits : Bytes} {n : Nat} (denote : Digits digits n) :
    ∃ d rest, digits = d :: rest ∧ isDigit d = true := by
  obtain ⟨some_digit, all, -⟩ := digits_iff.mp denote
  obtain ⟨d, rest, rfl⟩ := List.exists_cons_of_ne_nil some_digit
  rw [List.all_cons, Bool.and_eq_true] at all
  exact ⟨d, rest, rfl, all.1⟩

/-- A plain number has a plus sign or none. -/
theorem eq_of_mem_signs_false {sign : Bytes} (mem : sign ∈ signs false) :
    sign = [] ∨ sign = [plus] := by
  simpa [signs] using mem

theorem eq_of_mem_signs {negative : Bool} {sign : Bytes} (mem : sign ∈ signs negative) :
    sign = [minus] ∨ sign = [] ∨ sign = [plus] := by
  cases negative with
  | true => exact .inl (List.mem_singleton.mp mem)
  | false => exact .inr (eq_of_mem_signs_false mem)

/-- **The sign is what stands before the digits.** -/
theorem takeSign_eq_iff {left digits : Bytes} {n : Nat} (denote : Digits digits n)
    {negative : Bool} :
    takeSign left = (negative, digits) ↔ ∃ sign ∈ signs negative, left = sign ++ digits := by
  obtain ⟨d, rest, rfl, digit⟩ := denote.exists_cons
  constructor
  · intro taken
    unfold takeSign at taken
    split at taken
    · cases taken
    · next b left =>
      split at taken
      · next eq =>
        cases taken
        exact ⟨[minus], List.mem_singleton_self _, congrArg (· :: _) eq⟩
      · split at taken
        · next eq =>
          cases taken
          exact ⟨[plus], by decide, congrArg (· :: _) eq⟩
        · cases taken
          exact ⟨[], by decide, rfl⟩
  · rintro ⟨sign, mem, rfl⟩
    cases negative with
    | true =>
      rw [List.mem_singleton.mp mem]
      rfl
    | false =>
      obtain rfl | rfl := eq_of_mem_signs_false mem
      · exact takeSign_of_isDigit digit rest
      · rfl

/-- A sign and digits do not begin with a blank. -/
theorem dropWhile_sign_append {sign digits : Bytes} {n : Nat} (denote : Digits digits n)
    {negative : Bool} (mem : sign ∈ signs negative) :
    (sign ++ digits).dropWhile isBlank = sign ++ digits := by
  obtain ⟨d, rest, rfl, digit⟩ := denote.exists_cons
  obtain rfl | rfl | rfl := eq_of_mem_signs mem
  · exact List.dropWhile_cons_of_neg (by decide)
  · exact List.dropWhile_cons_of_neg (by simp [isBlank_of_isDigit digit])
  · exact List.dropWhile_cons_of_neg (by decide)

/-- **A text spells a number if, behind its blanks and its sign, digits denote it.** -/
theorem spells_iff {negative : Bool} {text : Bytes} {n : Nat} :
    Spells negative text n
      ↔ ∃ digits, Digits digits n ∧ takeSign (text.dropWhile isBlank) = (negative, digits) := by
  constructor
  · rintro ⟨space, blank, sign, mem, digits, denote, rfl⟩
    refine ⟨digits, denote, ?_⟩
    rw [List.append_assoc,
      List.dropWhile_append_of_pos (fun b mem => isBlank_iff_mem.mpr (blank b mem)),
      dropWhile_sign_append denote mem, takeSign_eq_iff denote]
    exact ⟨sign, mem, rfl⟩
  · rintro ⟨digits, denote, taken⟩
    obtain ⟨sign, mem, eq⟩ := (takeSign_eq_iff denote).mp taken
    refine ⟨text.takeWhile isBlank, fun b mem => ?_, sign, mem, digits, denote, ?_⟩
    · exact isBlank_iff_mem.mp (List.all_eq_true.mp List.all_takeWhile b mem)
    · rw [List.append_assoc, ← eq, List.takeWhile_append_dropWhile]

/-- A text that spells a number without a minus sign does not begin with one. -/
theorem Spells.head?_ne {text : Bytes} {n : Nat} (spells : Spells false text n) :
    text.head? ≠ some minus := by
  intro begins
  obtain ⟨rest, rfl⟩ := List.head?_eq_some_iff.mp begins
  obtain ⟨digits, denote, taken⟩ := spells_iff.mp spells
  cases taken

/-- The scanner by the digits that it comes to. -/
theorem read?_eq_some_iff_digits {text : Bytes} {n : Nat} :
    read? text = some n ↔ text.head? ≠ some minus ∧ ∃ negative digits m,
      Digits digits m ∧ takeSign (text.dropWhile isBlank) = (negative, digits) ∧ m < wordSize
        ∧ n = if negative then (wordSize - m) % wordSize else m := by
  unfold read?
  generalize takeSign (text.dropWhile isBlank) = taken
  obtain ⟨negative, digits⟩ := taken
  dsimp only
  constructor
  · intro eq
    split at eq
    · next h =>
      cases eq
      exact ⟨h.1, negative, digits, _, digits_iff.mpr ⟨h.2.1, h.2.2.1, rfl⟩, rfl, h.2.2.2, rfl⟩
    · cases eq
  · rintro ⟨unsigned, _, _, m, denote, ⟨⟩, fits, rfl⟩
    obtain ⟨some_digit, all, rfl⟩ := digits_iff.mp denote
    rw [if_pos ⟨unsigned, some_digit, all, fits⟩]

/-- **The texts that are read**, and as what. -/
theorem read?_eq_some_iff {text : Bytes} {n : Nat} :
    read? text = some n ↔ n < wordSize ∧ (Spells false text n ∨ Wraps text n) := by
  rw [read?_eq_some_iff_digits]
  constructor
  · rintro ⟨unsigned, negative, digits, m, denote, taken, fits, rfl⟩
    have spells : Spells negative text m := spells_iff.mpr ⟨digits, denote, taken⟩
    cases negative with
    | false => exact ⟨fits, .inl spells⟩
    | true => exact ⟨Nat.mod_lt _ (by decide), .inr ⟨unsigned, m, fits, spells, rfl⟩⟩
  · rintro ⟨fits, spells | ⟨unsigned, m, small, spells, rfl⟩⟩
    · obtain ⟨digits, denote, taken⟩ := spells_iff.mp spells
      exact ⟨spells.head?_ne, false, digits, n, denote, taken, fits, rfl⟩
    · obtain ⟨digits, denote, taken⟩ := spells_iff.mp spells
      exact ⟨unsigned, true, digits, m, denote, taken, small, rfl⟩

/-- A text spells one number at most. -/
theorem Spells.unique {negative : Bool} {text : Bytes} {n m : Nat} (spells : Spells negative text n)
    (spells' : Spells negative text m) : n = m := by
  obtain ⟨digits, denote, taken⟩ := spells_iff.mp spells
  obtain ⟨digits', denote', taken'⟩ := spells_iff.mp spells'
  cases taken.symm.trans taken'
  rw [← (digits_iff.mp denote).2.2, ← (digits_iff.mp denote').2.2]

/-! ## Minus signs -/

/-- A text that spells a number without a minus sign has none anywhere. -/
theorem Spells.minus_not_mem {text : Bytes} {n : Nat} (spells : Spells false text n) :
    minus ∉ text := by
  obtain ⟨space, blank, sign, sign_mem, digits, denote, rfl⟩ := spells
  have in_sign : minus ∉ sign := by
    obtain rfl | rfl := eq_of_mem_signs_false sign_mem
    · exact List.not_mem_nil
    · decide
  simp only [List.mem_append, not_or]
  refine ⟨⟨fun mem => absurd (blank _ mem) (by decide), in_sign⟩, fun mem => ?_⟩
  have digit := List.all_eq_true.mp (digits_iff.mp denote).2.1 minus mem
  exact absurd digit (by decide)

/-- A text that spells a number with a minus sign has it. -/
theorem Spells.minus_mem {text : Bytes} {n : Nat} (spells : Spells true text n) : minus ∈ text := by
  obtain ⟨space, -, sign, sign_mem, digits, -, rfl⟩ := spells
  rw [List.mem_singleton.mp sign_mem]
  simp

theorem Wraps.minus_mem {text : Bytes} {n : Nat} (wraps : Wraps text n) : minus ∈ text := by
  obtain ⟨-, m, -, spells, -⟩ := wraps
  exact spells.minus_mem

end AdvisoryStore.Numeral
