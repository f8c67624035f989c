import Mathlib.Data.List.Basic
import AdvisoryStore.Json
import AdvisoryStore.Numeral
import AdvisoryStore.Percent

/-!
# Reading what is written as JSON

A reader of JSON texts stands here against the writer. It knows all of JSON, and
reads bytes: the escapes in a string are undone, two units of an escape by number
becoming one character, and every other byte of a string is kept, whether it
belongs to a text or not. The members of an object are given as they come, with
their repetitions, so that nothing that slipped into an object would go unseen.

A text is read as a value if it is so whatever follows it (`Json.IsRead`). This
holds for a string with any bytes in it (`Json.isRead_quoted`), for a numeral, and
for an object of such texts (`Json.isRead_object`).

The last part is about what writing keeps of a text: that no byte of it is a control
byte, and that it is UTF-8 (`Json.Kept`).
-/

namespace AdvisoryStore.Json

/-- **A JSON value.** A number is a whole number times a power of ten, a string
is the bytes it stands for, and an object has its members as they come, with
their repetitions. -/
inductive Value
  | null
  | bool (b : Bool)
  | number (mantissa exponent : Int)
  | string (text : Bytes)
  | array (items : List Value)
  | object (members : List (Bytes × Value))

/-! ## Strings -/

/-- The byte that begins and ends a string. -/
def quote : UInt8 := 34

/-- The byte that begins an escape. -/
def backslash : UInt8 := 92

/-- The escapes of one letter, and what they stand for. -/
def letters : List (UInt8 × UInt8) :=
  [(34, 34), (92, 92), (47, 47), (98, 8), (102, 12), (110, 10), (114, 13), (116, 9)]

/-- The number that four hexadecimal digits denote. -/
def unit? : Bytes → Option (Nat × Bytes)
  | a :: b :: c :: d :: rest =>
    match Percent.pair? a b, Percent.pair? c d with
    | some high, some low => some (256 * high.toNat + low.toNat, rest)
    | _, _ => none
  | _ => none

/-- **The character of an escape by number.** One that does not fit a unit takes
two of them, and neither of the two stands alone. -/
def character? (text : Bytes) : Option (Bytes × Bytes) :=
  match unit? text with
  | none => none
  | some (unit, rest) =>
    if unit < 0xD800 ∨ 0xDFFF < unit then some (String.utf8EncodeChar (Char.ofNat unit), rest)
    else
      match rest with
      | b :: u :: rest =>
        match unit? rest with
        | some (low, rest) =>
          if b = backslash ∧ u = 117 ∧ unit < 0xDC00 ∧ 0xDC00 ≤ low ∧ low < 0xE000 then
            some (String.utf8EncodeChar
              (Char.ofNat (0x10000 + 0x400 * (unit - 0xD800) + (low - 0xDC00))), rest)
          else none
        | none => none
      | _ => none

/-- **What an escape stands for**, without its backslash. -/
def escaped? : Bytes → Option (Bytes × Bytes)
  | [] => none
  | b :: rest =>
    if b = 117 then character? rest else (letters.lookup b).map (fun byte => ([byte], rest))

/-- **A string up to its closing quote**, in so many steps at most. -/
def string? : Nat → Bytes → Option (Bytes × Bytes)
  | 0, _ | _, [] => none
  | steps + 1, b :: rest =>
    if b = quote then some ([], rest)
    else if b = backslash then
      match escaped? rest with
      | none => none
      | some (bytes, rest) => (string? steps rest).map (fun read => (bytes ++ read.1, read.2))
    else if b < 32 then none
    else (string? steps rest).map (fun read => (b :: read.1, read.2))

/-! ## Numbers -/

/-- The digits at the beginning of a text, and the rest. -/
def digits (text : Bytes) : Bytes × Bytes :=
  (text.takeWhile Numeral.isDigit, text.dropWhile Numeral.isDigit)

/-- The digits behind a point, if there is one. -/
def fraction? : Bytes → Option (Bytes × Bytes)
  | [] => some ([], [])
  | b :: rest =>
    if b = 46 then if (digits rest).1 = [] then none else some (digits rest)
    else some ([], b :: rest)

/-- The power of ten behind an `e`, if there is one. -/
def exponent? : Bytes → Option (Int × Bytes)
  | [] => some (0, [])
  | b :: rest =>
    if b = 101 ∨ b = 69 then
      let (negative, rest) := Numeral.takeSign rest
      let (power, rest) := digits rest
      if power = [] then none
      else some (if negative then -(Numeral.value power : Int) else Numeral.value power, rest)
    else some (0, b :: rest)

/-- **A number.** Its whole part has no zeros before it. -/
def number? (text : Bytes) : Option (Value × Bytes) :=
  let negative := text.head? = some Numeral.minus
  let (whole, rest) := digits (if negative then text.tail else text)
  if whole = [] ∨ whole.head? = some 48 ∧ whole ≠ [48] then none
  else
    match fraction? rest with
    | none => none
    | some (part, rest) =>
      match exponent? rest with
      | none => none
      | some (power, rest) =>
        let size : Int := Numeral.value (whole ++ part)
        some (.number (if negative then -size else size) (power - part.length), rest)

/-! ## Values -/

/-- The bytes that may stand between the parts of a value. -/
def isSpace (b : UInt8) : Bool := b = 32 || b = 9 || b = 10 || b = 13

/-- A text from its first byte that is not space. -/
def skip (text : Bytes) : Bytes := text.dropWhile isSpace

/-- A value that is written as a word. -/
def word? (word : String) (v : Value) (text : Bytes) : Option (Value × Bytes) :=
  if (utf8 word).isPrefixOf text then some (v, text.drop (utf8 word).length) else none

/-- **Items with commas between them**, up to a closing byte, in so many steps at
most. -/
def items? {α : Type} (item? : Bytes → Option (α × Bytes)) (close : UInt8) :
    Nat → Bytes → Option (List α × Bytes)
  | 0, _ => none
  | steps + 1, text =>
    match item? text with
    | none => none
    | some (a, rest) =>
      match skip rest with
      | [] => none
      | b :: rest =>
        if b = close then some ([a], rest)
        else if b = 44 then
          (items? item? close steps rest).map (fun read => (a :: read.1, read.2))
        else none

/-- Items up to a closing byte, of which there may be none. -/
def enclosed? {α : Type} (item? : Bytes → Option (α × Bytes)) (close : UInt8) (text : Bytes) :
    Option (List α × Bytes) :=
  match skip text with
  | [] => none
  | b :: rest => if b = close then some ([], rest) else items? item? close text.length text

/-- A member of an object: a string, a colon and a value. -/
def member? {α : Type} (value? : Bytes → Option (α × Bytes)) (text : Bytes) :
    Option ((Bytes × α) × Bytes) :=
  match skip text with
  | [] => none
  | b :: rest =>
    if b = quote then
      match string? rest.length rest with
      | none => none
      | some (name, rest) =>
        match skip rest with
        | [] => none
        | c :: rest =>
          if c = 58 then (value? rest).map (fun read => ((name, read.1), read.2)) else none
    else none

/-- **A value at the beginning of a text**, and the rest; values within values to
some depth. -/
def value? : Nat → Bytes → Option (Value × Bytes)
  | 0, _ => none
  | depth + 1, text =>
    match skip text with
    | [] => none
    | b :: rest =>
      if b = quote then (string? rest.length rest).map (fun read => (.string read.1, read.2))
      else if b = 91 then
        (enclosed? (value? depth) 93 rest).map (fun read => (.array read.1, read.2))
      else if b = 123 then
        (enclosed? (member? (value? depth)) 125 rest).map (fun read => (.object read.1, read.2))
      else if b = 110 then word? "null" .null (b :: rest)
      else if b = 116 then word? "true" (.bool true) (b :: rest)
      else if b = 102 then word? "false" (.bool false) (b :: rest)
      else number? (b :: rest)

/-- **The value that a text is**, if it is one. -/
def read? (text : Bytes) : Option Value :=
  match value? text.length text with
  | none => none
  | some (v, rest) => if skip rest = [] then some v else none

-- It reads what is written otherwise than here, and refuses what is no JSON.
example : read? (utf8 " [-1.50e2, \"\\u00e9\\ud83d\\ude00\" ,true]\n")
      = some (.array [.number (-150) 0, .string (utf8 "é😀"), .bool true])
    ∧ (∀ text ∈ [utf8 "[1,]", utf8 "01", utf8 "\"\n\"", utf8 "\"\\ud83d\"", utf8 "1 2"],
      read? text = none) := ⟨rfl, by decide⟩

/-! ## What is written as a string is read as that string -/

/-- The printable characters of ASCII. -/
def isPlain (b : UInt8) : Bool := 32 ≤ b && b < 128

/-- **A text is the escape of a byte**: it is a backslash and printable characters that
stand for that byte, which is in ASCII itself. -/
structure IsEscape (text : Bytes) (b : UInt8) : Prop where
  ascii : b < 128
  read : ∃ code, text = backslash :: code ∧ code.all isPlain = true
    ∧ ∀ rest, escaped? (code ++ rest) = some ([b], rest)

/-- A letter with its backslash is an escape. -/
theorem isEscape_letter {letter b : UInt8} (listed : (letter, b) ∈ letters) :
    IsEscape [backslash, letter] b := by
  have every : letters.all (fun e => e.2 < 128 ∧ [e.1].all isPlain ∧ e.1 ≠ 117
      ∧ letters.lookup e.1 = some e.2) = true := by decide
  obtain ⟨ascii, plain, apart, looked⟩ := of_decide_eq_true (List.all_eq_true.mp every _ listed)
  refine ⟨ascii, [letter], rfl, plain, fun rest => ?_⟩
  rw [List.singleton_append, escaped?, if_neg apart, looked]
  rfl

/-- A control byte's number is an escape. -/
theorem isEscape_number {b : UInt8} (control : b < 32) :
    IsEscape (utf8 "\\u00" ++ [hexDigit (b / 16), hexDigit (b % 16)]) b := by
  have small : b.toNat < 32 := UInt8.lt_iff_toNat_lt.mp control
  -- What is said of a byte below is checked for each of them.
  have every : ∀ n < 32, Percent.pair? (hexDigit (UInt8.ofNat n / 16))
        (hexDigit (UInt8.ofNat n % 16)) = some (UInt8.ofNat n)
      ∧ String.utf8EncodeChar (Char.ofNat n) = [UInt8.ofNat n]
      ∧ [117, 48, 48, hexDigit (UInt8.ofNat n / 16), hexDigit (UInt8.ofNat n % 16)].all isPlain
        = true := by decide
  obtain ⟨pair, character, plain⟩ := every b.toNat small
  rw [UInt8.ofNat_toNat] at pair character plain
  refine ⟨UInt8.lt_trans control (by decide), _, ?_, plain, fun rest => ?_⟩
  · rw [show utf8 "\\u00" = [92, 117, 48, 48] by decide]
    rfl
  · have zeros : Percent.pair? 48 48 = some 0 := by decide
    have unit : unit? (48 :: 48 :: hexDigit (b / 16) :: hexDigit (b % 16) :: rest)
        = some (b.toNat, rest) := by
      rw [unit?, zeros, pair]
      simp
    change character? (48 :: 48 :: hexDigit (b / 16) :: hexDigit (b % 16) :: rest) = _
    rw [character?, unit]
    dsimp only
    rw [if_pos (.inl (Nat.lt_trans small (by decide))), character]

/-- **How a byte stands in a string**: as it is, or as an escape. -/
theorem escapeByte_cases (b : UInt8) :
    (escapeByte b = [b] ∧ b ≠ quote ∧ b ≠ backslash ∧ 32 ≤ b) ∨ IsEscape (escapeByte b) b := by
  unfold escapeByte
  split
  · next eq => exact .inr (eq ▸ isEscape_letter (by decide))
  · next unquoted =>
    split
    · next eq => exact .inr (eq ▸ isEscape_letter (by decide))
    · next plain =>
      split
      · next eq => exact .inr (eq ▸ isEscape_letter (by decide))
      · split
        · next eq => exact .inr (eq ▸ isEscape_letter (by decide))
        · split
          · next eq => exact .inr (eq ▸ isEscape_letter (by decide))
          · split
            · next control => exact .inr (isEscape_number control)
            · next printable => exact .inl ⟨rfl, unquoted, plain, UInt8.not_lt.mp printable⟩

/-- **An escaped byte is read as that byte.** -/
theorem string?_escapeByte (steps : Nat) (b : UInt8) (rest : Bytes) :
    string? (steps + 1) (escapeByte b ++ rest)
      = (string? steps rest).map (fun read => (b :: read.1, read.2)) := by
  obtain ⟨same, unquoted, plain, printable⟩ | ⟨-, code, escape, -, read⟩ := escapeByte_cases b
  · rw [same, List.singleton_append, string?, if_neg unquoted, if_neg plain,
      if_neg (UInt8.not_lt.mpr printable)]
  · rw [escape, List.cons_append, string?, if_neg (by decide), if_pos rfl, read]
    rfl

/-- Escaping makes no text shorter. -/
theorem length_le_escape (text : Bytes) : text.length ≤ (escape text).length := by
  induction text with
  | nil => exact Nat.le_refl _
  | cons b text ih =>
    have some_byte : 1 ≤ (escapeByte b).length := by
      obtain ⟨same, -⟩ | ⟨-, code, escape, -⟩ := escapeByte_cases b
      · rw [same]
        exact Nat.le_refl _
      · rw [escape]
        exact Nat.le_add_left ..
    rw [escape, List.flatMap_cons, List.length_append, List.length_cons, ← escape]
    omega

/-- **A string is read back**, whatever bytes it holds and whatever follows it. -/
theorem string?_escape (text rest : Bytes) :
    string? (escape text ++ quote :: rest).length (escape text ++ quote :: rest)
      = some (text, rest) := by
  -- one step for each byte of the text, however long its escape, and one for the quote
  have steps : ∀ steps, text.length < steps →
      string? steps (escape text ++ quote :: rest) = some (text, rest) := by
    induction text with
    | nil =>
      intro steps enough
      obtain ⟨steps, rfl⟩ := Nat.exists_eq_add_one_of_ne_zero (Nat.ne_of_gt enough)
      rfl
    | cons b text ih =>
      intro steps enough
      obtain ⟨steps, rfl⟩ :=
        Nat.exists_eq_add_one_of_ne_zero (Nat.ne_of_gt (Nat.zero_lt_of_lt enough))
      rw [escape, List.flatMap_cons, List.append_assoc, string?_escapeByte, ← escape,
        ih steps (Nat.lt_of_succ_lt_succ enough)]
      rfl
  refine steps _ ?_
  have le := length_le_escape text
  rw [List.length_append, List.length_cons]
  omega

/-! ## What is written is read -/

/-- What may follow a value: nothing, a comma or a closing byte. -/
def Stops (rest : Bytes) : Prop := ∀ b, rest.head? = some b → b = 44 ∨ b = 93 ∨ b = 125

/-- **A text is read as a value**, whatever follows it, by a reader that goes so
deep or deeper. -/
def IsRead (depth : Nat) (text : Bytes) (v : Value) : Prop :=
  ∀ more rest, Stops rest → value? (depth + more) (text ++ rest) = some (v, rest)

theorem IsRead.read? {depth : Nat} {text : Bytes} {v : Value} (isRead : IsRead depth text v)
    (deep : depth ≤ text.length) : Json.read? text = some v := by
  have read := isRead (text.length - depth) [] (fun b begins => by cases begins)
  rw [List.append_nil, Nat.add_sub_of_le deep] at read
  rw [Json.read?, read]
  rfl

theorem skip_cons {b : UInt8} (tight : isSpace b = false) (rest : Bytes) :
    skip (b :: rest) = b :: rest :=
  List.dropWhile_cons_of_neg (by rw [tight]; exact Bool.false_ne_true)

theorem quoted_append (text rest : Bytes) :
    quoted text ++ rest = quote :: (escape text ++ quote :: rest) := by
  rw [quoted, show utf8 "\"" = [quote] by decide]
  simp

/-- **A quoted text is read as a string.** -/
theorem isRead_quoted (text : Bytes) : IsRead 1 (quoted text) (.string text) := by
  intro more rest _
  rw [quoted_append, Nat.add_comm, value?, skip_cons (by decide)]
  dsimp only
  rw [if_pos rfl, string?_escape]
  rfl

theorem isRead_null : IsRead 1 (utf8 "null") .null := by
  intro more rest _
  rw [show utf8 "null" = [110, 117, 108, 108] by decide, Nat.add_comm]
  rfl

/-! ### Numerals -/

/-- What follows a value is no part of a number. -/
theorem Stops.apart {rest : Bytes} (stops : Stops rest) {b : UInt8} (begins : rest.head? = some b) :
    Numeral.isDigit b = false ∧ b ≠ 46 ∧ b ≠ 101 ∧ b ≠ 69 := by
  obtain rfl | rfl | rfl := stops b begins <;> decide

/-- A value that begins with a digit is a number. -/
theorem value?_of_isDigit {d : UInt8} (digit : Numeral.isDigit d) (depth : Nat) (rest : Bytes) :
    value? (depth + 1) (d :: rest) = number? (d :: rest) := by
  have reserved : [32, 9, 10, 13, quote, 91, 123, 110, 116, 102].all (!Numeral.isDigit ·)
      = true := by decide
  have apart : ∀ c ∈ [32, 9, 10, 13, quote, 91, 123, 110, 116, 102], d ≠ c := by
    rintro c mem rfl
    simpa [digit] using List.all_eq_true.mp reserved d mem
  simp only [List.forall_mem_cons, List.not_mem_nil, false_implies, implies_true, and_true] at apart
  have tight : isSpace d = false := by simp [isSpace, apart]
  rw [value?, skip_cons tight]
  simp only [apart, if_false]

/-- The digits before a byte that is none. -/
theorem digits_append {row rest : Bytes} (all : ∀ b ∈ row, Numeral.isDigit b) (stops : Stops rest) :
    digits (row ++ rest) = (row, rest) := by
  rw [digits, List.takeWhile_append_of_pos all, List.dropWhile_append_of_pos all]
  cases rest with
  | nil => rw [List.takeWhile_nil, List.dropWhile_nil, List.append_nil]
  | cons b rest =>
    have none : ¬ Numeral.isDigit b = true := by simp [(stops.apart rfl).1]
    rw [List.takeWhile_cons_of_neg none, List.dropWhile_cons_of_neg none, List.append_nil]

/-- A decimal numeral begins with a zero only if it is one. -/
theorem eq_zero_of_head?_decimal {n : Nat} (begins : (decimal n).head? = some 48) : n = 0 := by
  induction n using Nat.strongRecOn with
  | _ n ih =>
    rw [Numeral.decimal_eq] at begins
    by_cases small : n < 10
    · have zero : ∀ d : Fin 10, UInt8.ofNat (48 + d) = 48 → d = 0 := by decide
      rw [if_pos small, List.nil_append, List.head?_cons, Nat.mod_eq_of_lt small] at begins
      exact congrArg Fin.val (zero ⟨n, small⟩ (Option.some.inj begins))
    · obtain ⟨d, row, written⟩ := List.exists_cons_of_ne_nil (Numeral.decimal_ne_nil (n / 10))
      rw [if_neg small, written, List.cons_append, List.head?_cons] at begins
      have shorter := ih (n / 10) (by omega) (by rw [written, List.head?_cons, begins])
      omega

/-- A decimal numeral is read to its end. -/
theorem number?_decimal (n : Nat) {rest : Bytes} (stops : Stops rest) :
    number? (decimal n ++ rest) = some (.number n 0, rest) := by
  have all := Numeral.isDigit_of_mem_decimal n
  have some_digit := Numeral.decimal_ne_nil n
  have unsigned : (decimal n ++ rest).head? ≠ some Numeral.minus := by
    obtain ⟨d, row, written⟩ := List.exists_cons_of_ne_nil some_digit
    have digit := all d (written ▸ List.mem_cons_self)
    rintro begins
    rw [written, List.cons_append, List.head?_cons, Option.some.injEq] at begins
    exact absurd (begins ▸ digit) (by decide)
  have proper : ¬ (decimal n = [] ∨ (decimal n).head? = some 48 ∧ decimal n ≠ [48]) := by
    rintro (none | ⟨begins, longer⟩)
    · exact some_digit none
    · obtain rfl := eq_zero_of_head?_decimal begins
      exact longer (by decide)
  have whole : fraction? rest = some ([], rest) := by
    cases rest with
    | nil => rfl
    | cons b rest => rw [fraction?, if_neg (stops.apart rfl).2.1]
  have plain : exponent? rest = some (0, rest) := by
    cases rest with
    | nil => rfl
    | cons b rest =>
      obtain ⟨-, -, lower, upper⟩ := stops.apart rfl
      rw [exponent?, if_neg (not_or.mpr ⟨lower, upper⟩)]
  simp only [number?, unsigned, if_false, digits_append all stops, proper, whole, plain,
    List.append_nil, Numeral.value_decimal]
  rfl

/-- **A decimal numeral is read as its number.** -/
theorem isRead_decimal (n : Nat) : IsRead 1 (decimal n) (.number n 0) := by
  intro more rest stops
  obtain ⟨d, row, written⟩ := List.exists_cons_of_ne_nil (Numeral.decimal_ne_nil n)
  have digit := Numeral.isDigit_of_mem_decimal n d (written ▸ List.mem_cons_self)
  have read := number?_decimal n stops
  rw [written, List.cons_append] at read ⊢
  rw [Nat.add_comm, value?_of_isDigit digit, read]

/-! ### Items and objects -/

/-- Commas stand between texts, so there is at most one text more than there are bytes. -/
theorem length_le_intersperse (texts : List Bytes) :
    texts.length ≤ (texts.intersperse (utf8 ",")).flatten.length + 1 := by
  induction texts with
  | nil => exact Nat.zero_le _
  | cons t texts ih =>
    cases texts with
    | nil => exact Nat.le_add_left ..
    | cons t' texts =>
      have comma : (utf8 ",").length = 1 := by decide
      rw [List.intersperse_cons_cons, List.flatten_cons, List.flatten_cons, List.length_append,
        List.length_append, comma, List.length_cons]
      omega

/-- Texts with commas between them begin with the first of them. -/
theorem exists_intersperse_eq (t : Bytes) (texts : List Bytes) :
    ∃ more, ((t :: texts).intersperse (utf8 ",")).flatten = t ++ more := by
  cases texts with
  | nil => exact ⟨[], by simp⟩
  | cons t' texts => exact ⟨_, by rw [List.intersperse_cons_cons, List.flatten_cons]⟩

/-- The bytes that an array and an object are closed with. -/
def Closes (b : UInt8) : Prop := b = 93 ∨ b = 125

theorem Closes.apart {close : UInt8} (closes : Closes close) :
    isSpace close = false ∧ close ≠ 44 ∧ close ≠ quote := by
  obtain rfl | rfl := closes <;> decide

theorem Closes.stops {close : UInt8} (closes : Closes close) (rest : Bytes) :
    Stops (close :: rest) := by
  rintro b ⟨⟩
  exact .inr closes

theorem stops_comma (rest : Bytes) : Stops (44 :: rest) := by
  rintro b ⟨⟩
  exact .inl rfl

section Items

variable {α : Type} {item? : Bytes → Option (α × Bytes)} {close : UInt8}

/-- The last item is followed by the byte that closes. -/
theorem items?_last (closes : Closes close) {text rest : Bytes} {a : α}
    (read : ∀ rest, Stops rest → item? (text ++ rest) = some (a, rest)) (steps : Nat) :
    items? item? close (steps + 1) (text ++ close :: rest) = some ([a], rest) := by
  rw [items?, read _ (closes.stops rest)]
  dsimp only
  rw [skip_cons closes.apart.1]
  exact if_pos rfl

/-- Any other item is followed by a comma and by more items. -/
theorem items?_next (closes : Closes close) {text rest : Bytes} {a : α}
    (read : ∀ rest, Stops rest → item? (text ++ rest) = some (a, rest)) (steps : Nat) :
    items? item? close (steps + 1) (text ++ 44 :: rest)
      = (items? item? close steps rest).map (fun read => (a :: read.1, read.2)) := by
  rw [items?, read _ (stops_comma rest)]
  dsimp only
  rw [skip_cons (by decide)]
  dsimp only
  rw [if_neg closes.apart.2.1.symm, if_pos rfl]

/-- **Items are read one after the other**, up to the byte that closes them. -/
theorem items?_intersperse (closes : Closes close) (rest : Bytes) {items : List (Bytes × α)}
    (some_item : items ≠ [])
    (read : ∀ i ∈ items, ∀ rest, Stops rest → item? (i.1 ++ rest) = some (i.2, rest)) :
    ∀ steps, items.length ≤ steps →
      items? item? close steps
          (((items.map Prod.fst).intersperse (utf8 ",")).flatten ++ close :: rest)
        = some (items.map Prod.snd, rest) := by
  induction items with
  | nil => exact absurd rfl some_item
  | cons i items ih =>
    intro steps enough
    obtain ⟨steps, rfl⟩ :=
      Nat.exists_eq_add_one_of_ne_zero (Nat.ne_of_gt (Nat.zero_lt_of_lt enough))
    have first := read i List.mem_cons_self
    cases items with
    | nil =>
      rw [List.map_singleton, List.map_singleton, List.intersperse_singleton,
        List.flatten_singleton, items?_last closes first]
    | cons j items =>
      have others := ih (List.cons_ne_nil _ _) (fun i mem => read i (List.mem_cons_of_mem _ mem))
        steps (Nat.le_of_succ_le_succ enough)
      have comma : utf8 "," = [44] := by decide
      rw [List.map_cons, List.map_cons, List.intersperse_cons_cons, List.flatten_cons,
        List.flatten_cons, List.append_assoc, List.append_assoc, comma, List.singleton_append,
        items?_next closes first, ← comma, ← List.map_cons, others]
      rfl

/-- **Items are read between an opening and a closing byte**, if there are any,
when each of them begins with a quote. -/
theorem enclosed?_intersperse (closes : Closes close) (rest : Bytes) (items : List (Bytes × α))
    (opens : ∀ i ∈ items, ∃ more, i.1 = quote :: more)
    (read : ∀ i ∈ items, ∀ rest, Stops rest → item? (i.1 ++ rest) = some (i.2, rest)) :
    enclosed? item? close (((items.map Prod.fst).intersperse (utf8 ",")).flatten ++ close :: rest)
      = some (items.map Prod.snd, rest) := by
  obtain ⟨tight, -, no_quote⟩ := closes.apart
  cases items with
  | nil => simp [enclosed?, skip_cons tight]
  | cons i items =>
    have enough : (i :: items).length
        ≤ ((((i :: items).map Prod.fst).intersperse (utf8 ",")).flatten
          ++ close :: rest).length := by
      have short := length_le_intersperse ((i :: items).map Prod.fst)
      rw [List.length_map] at short
      rw [List.length_append]
      exact Nat.le_trans short (Nat.add_le_add_left (Nat.le_add_left ..) _)
    have inner := items?_intersperse closes rest (List.cons_ne_nil i items) read _ enough
    obtain ⟨others, joined⟩ := exists_intersperse_eq i.1 (items.map Prod.fst)
    obtain ⟨more, begins⟩ := opens i List.mem_cons_self
    rw [List.map_cons, joined, begins, List.cons_append, List.cons_append] at inner ⊢
    rw [enclosed?, skip_cons (by decide)]
    dsimp only
    rw [if_neg no_quote.symm, inner]

end Items

/-- A member is written from its quote on. -/
theorem member_eq (name : String) (text : Bytes) :
    member name text = quote :: (escape (utf8 name) ++ quote :: 58 :: text) := by
  rw [member, List.append_assoc, quoted_append]
  rfl

/-- **A member is read** as its name and what is read as its value. -/
theorem member?_member {α : Type} {value? : Bytes → Option (α × Bytes)} {text rest : Bytes} {v : α}
    (name : String) (read : value? (text ++ rest) = some (v, rest)) :
    member? value? (member name text ++ rest) = some ((utf8 name, v), rest) := by
  rw [member_eq, List.cons_append, List.append_assoc, List.cons_append, List.cons_append, member?,
    skip_cons (by decide)]
  dsimp only
  rw [if_pos rfl, string?_escape]
  dsimp only
  rw [skip_cons (by decide)]
  dsimp only
  rw [if_pos rfl, read]
  rfl

theorem two_le_length_object (members : List Bytes) : 2 ≤ (object members).length := by
  have braces : (utf8 "\x7b").length = 1 ∧ (utf8 "\x7d").length = 1 := by decide
  rw [object, List.length_append, List.length_append, braces.1, braces.2]
  omega

/-- **An object is read** as its members, whatever they are called and whatever
is read of each. -/
theorem isRead_object {depth : Nat} {members : List (String × Bytes × Value)}
    (read : ∀ m ∈ members, IsRead depth m.2.1 m.2.2) :
    IsRead (depth + 1) (object (members.map (fun m => member m.1 m.2.1)))
      (.object (members.map (fun m => (utf8 m.1, m.2.2)))) := by
  intro more rest _
  have braces : utf8 "\x7b" = [123] ∧ utf8 "\x7d" = [125] := by decide
  have opens : ∀ i ∈ members.map (fun m => (member m.1 m.2.1, (utf8 m.1, m.2.2))),
      ∃ more, i.1 = quote :: more := by
    rw [List.forall_mem_map]
    exact fun m _ => ⟨_, member_eq m.1 m.2.1⟩
  have each : ∀ i ∈ members.map (fun m => (member m.1 m.2.1, (utf8 m.1, m.2.2))),
      ∀ rest, Stops rest → member? (value? (depth + more)) (i.1 ++ rest) = some (i.2, rest) := by
    rw [List.forall_mem_map]
    exact fun m mem rest stops => member?_member m.1 (read m mem more rest stops)
  have inner := enclosed?_intersperse (.inr rfl) rest _ opens each
  rw [List.map_map, List.map_map, Function.comp_def, Function.comp_def] at inner
  rw [object, braces.1, braces.2, Nat.add_right_comm, value?, List.append_assoc, List.append_assoc,
    List.singleton_append, List.singleton_append, skip_cons (by decide)]
  dsimp only
  rw [if_neg (by decide), if_neg (by decide), if_pos rfl, inner]
  rfl

/-! ## What may be kept while writing -/

/-- The bytes of a text of characters, in UTF-8. -/
def IsUtf8 (text : Bytes) : Prop := ∃ chars : List Char, text = chars.flatMap String.utf8EncodeChar

/-- No byte of a text is a control byte. -/
def Printable (text : Bytes) : Prop := ∀ b ∈ text, 32 ≤ b

/-- **A property of texts that is kept while writing**: texts of printable ASCII
have it, and so has one text after another if both have. -/
structure Kept (P : Bytes → Prop) : Prop where
  plain {text : Bytes} (ascii : text.all isPlain = true) : P text
  append {first second : Bytes} (left : P first) (right : P second) : P (first ++ second)

theorem isPlain_iff {b : UInt8} : isPlain b = true ↔ 32 ≤ b ∧ b < 128 := by
  rw [isPlain, Bool.and_eq_true, decide_eq_true_eq, decide_eq_true_eq]

theorem kept_printable : Kept Printable where
  plain ascii b mem := (isPlain_iff.mp (List.all_eq_true.mp ascii b mem)).1
  append left right b mem := (List.mem_append.mp mem).elim (left b) (right b)

theorem kept_isUtf8 : Kept IsUtf8 where
  plain {text} ascii := by
    have every : ∀ n < 128, String.utf8EncodeChar (Char.ofNat n) = [UInt8.ofNat n] := by decide
    refine ⟨text.map (fun b => Char.ofNat b.toNat), ?_⟩
    induction text with
    | nil => rfl
    | cons b text ih =>
      rw [List.all_cons, Bool.and_eq_true, isPlain_iff] at ascii
      have small : b.toNat < 128 := UInt8.lt_iff_toNat_lt.mp ascii.1.2
      rw [List.map_cons, List.flatMap_cons, every b.toNat small, UInt8.ofNat_toNat, ← ih ascii.2]
      rfl
  append := by
    rintro _ _ ⟨chars, rfl⟩ ⟨more, rfl⟩
    exact ⟨chars ++ more, List.flatMap_append.symm⟩

/-- What stands in a string for an ASCII character is printable ASCII. -/
theorem Kept.escapeByte {P : Bytes → Prop} (kept : Kept P) {b : UInt8} (ascii : b < 128) :
    P (escapeByte b) := by
  refine kept.plain ?_
  obtain ⟨same, -, -, printable⟩ | ⟨-, code, escape, plain, -⟩ := escapeByte_cases b
  · rw [same]
    exact List.all_eq_true.mpr (List.forall_mem_singleton.mpr (isPlain_iff.mpr ⟨printable, ascii⟩))
  · rw [escape, List.all_cons, plain]
    rfl

/-- Any other byte stands in a string as it is. -/
theorem escapeByte_of_high {b : UInt8} (high : 128 ≤ b) : escapeByte b = [b] := by
  obtain ⟨same, -⟩ | ⟨ascii, -⟩ := escapeByte_cases b
  · exact same
  · exact absurd ascii (UInt8.not_lt.mpr high)

/-- A numeral stands in a string as it is. -/
theorem escape_decimal (n : Nat) : escape (decimal n) = decimal n := by
  have every : ∀ n < 58, 48 ≤ n → escapeByte (UInt8.ofNat n) = [UInt8.ofNat n] := by decide
  refine (List.flatMap_congr (fun b mem => ?_)).trans (List.flatMap_singleton' _)
  have digit := Numeral.isDigit_of_mem_decimal n b mem
  rw [Numeral.isDigit, Bool.and_eq_true, decide_eq_true_eq, decide_eq_true_eq] at digit
  have same := every b.toNat (Nat.lt_succ_of_le (UInt8.le_iff_toNat_le.mp digit.2))
    (UInt8.le_iff_toNat_le.mp digit.1)
  rwa [UInt8.ofNat_toNat] at same

/-- **What is written as a string has no control bytes.** -/
theorem printable_escape (text : Bytes) : Printable (escape text) := by
  intro c mem
  obtain ⟨b, -, mem⟩ := List.mem_flatMap.mp mem
  by_cases ascii : b < 128
  · exact kept_printable.escapeByte ascii c mem
  · have high := UInt8.not_lt.mp ascii
    rw [escapeByte_of_high high, List.mem_singleton] at mem
    exact mem ▸ UInt8.le_trans (by decide) high

/-- The bytes of a character are one that is ASCII, or they are all high. -/
theorem utf8EncodeChar_cases (c : Char) :
    (∃ b, b < 128 ∧ String.utf8EncodeChar c = [b]) ∨ ∀ b ∈ String.utf8EncodeChar c, 128 ≤ b := by
  unfold String.utf8EncodeChar
  simp only
  split
  · next small =>
    refine .inl ⟨_, ?_, rfl⟩
    rw [UInt8.lt_iff_toNat_lt, UInt8.toNat_ofNat']
    exact Nat.lt_of_le_of_lt (Nat.mod_le ..) (Nat.lt_succ_of_le small)
  · refine .inr ?_
    split
    · simp [UInt8.le_iff_toNat_le]
      omega
    · split
      · simp [UInt8.le_iff_toNat_le]
        omega
      · simp [UInt8.le_iff_toNat_le]
        omega

/-- **What is UTF-8 is written as UTF-8.** -/
theorem IsUtf8.escape {text : Bytes} (valid : IsUtf8 text) : IsUtf8 (escape text) := by
  obtain ⟨chars, rfl⟩ := valid
  induction chars with
  | nil => exact ⟨[], rfl⟩
  | cons c chars ih =>
    rw [List.flatMap_cons, Json.escape, List.flatMap_append, ← Json.escape, ← Json.escape]
    refine kept_isUtf8.append ?_ ih
    obtain ⟨b, ascii, eq⟩ | high := utf8EncodeChar_cases c
    · rw [eq, Json.escape, List.flatMap_singleton]
      exact kept_isUtf8.escapeByte ascii
    · refine ⟨[c], ?_⟩
      rw [List.flatMap_singleton, Json.escape,
        List.flatMap_congr fun b mem => escapeByte_of_high (high b mem), List.flatMap_singleton']

section Kept

variable {P : Bytes → Prop} (kept : Kept P)

include kept

theorem Kept.quoted {text : Bytes} (inside : P (escape text)) : P (quoted text) :=
  kept.append (kept.append (kept.plain (by decide)) inside) (kept.plain (by decide))

theorem Kept.decimal (n : Nat) : P (decimal n) := by
  refine kept.plain (List.all_eq_true.mpr fun b mem => isPlain_iff.mpr ?_)
  have digit := Numeral.isDigit_of_mem_decimal n b mem
  rw [Numeral.isDigit, Bool.and_eq_true, decide_eq_true_eq, decide_eq_true_eq] at digit
  exact ⟨UInt8.le_trans (by decide) digit.1, UInt8.lt_of_le_of_lt digit.2 (by decide)⟩

theorem Kept.member {name : String} {text : Bytes} (inside : P (escape (utf8 name)))
    (value : P text) : P (member name text) :=
  kept.append (kept.append (kept.quoted inside) (kept.plain (by decide))) value

/-- **An object has what its members have.** -/
theorem Kept.object {members : List Bytes} (each : ∀ m ∈ members, P m) : P (object members) := by
  have inner : P (members.intersperse (utf8 ",")).flatten := by
    induction members with
    | nil => exact kept.plain (by decide)
    | cons m members ih =>
      have first := each m List.mem_cons_self
      have others := ih (fun m mem => each m (List.mem_cons_of_mem _ mem))
      cases members with
      | nil => rwa [List.intersperse_singleton, List.flatten_singleton]
      | cons m' members =>
        rw [List.intersperse_cons_cons, List.flatten_cons, List.flatten_cons]
        exact kept.append first (kept.append (kept.plain (by decide)) others)
  exact kept.append (kept.append (kept.plain (by decide)) inner) (kept.plain (by decide))

end Kept

end AdvisoryStore.Json
