import AdvisoryStore.Inspection

/-!
# What an escaped key spells

A target that asks for a lock has the key written out, with percent escapes
where the writer chose to use them. Here this is a relation between texts and
keys (`Percent.Spells`): byte by byte a key is spelled by the byte itself,
unless that is reserved, or by an escape. Undoing the escapes reads a text as
the one key that it spells (`Percent.decode_eq_some_iff`), and refuses it
exactly when somewhere in it a percent sign is not followed by two hexadecimal
digits (`Percent.decode_eq_none_iff`).

A key may hold any bytes, a question mark among them, and a question mark ends
the part of a target that is looked at. It has to be escaped for that reason,
while the percent sign has to be for its own. With these two reserved every
key but the empty one can be asked for, and the answer is the one for that key
(`Store.lock_inspection`).
-/

namespace AdvisoryStore

namespace Percent

/-- The hexadecimal digits in order, in lower case and in upper case. -/
def numerals : List Bytes := [utf8 "0123456789abcdef", utf8 "0123456789ABCDEF"]

/-- **A byte is the hexadecimal digit of a value**, in either case. -/
def IsDigit (b : UInt8) (value : Nat) : Prop := ∃ row ∈ numerals, row[value]? = some b

instance (b : UInt8) (value : Nat) : Decidable (IsDigit b value) := by
  unfold IsDigit
  infer_instance

/-- **A text spells a key**: each byte of the key stands for itself, unless it
is reserved, or is escaped by a percent sign and two hexadecimal digits. -/
inductive Spells (reserved : List UInt8) : Bytes → Bytes → Prop
  | nil : Spells reserved [] []
  | plain {b : UInt8} {text key : Bytes} (free : b ∉ reserved) (rest : Spells reserved text key) :
      Spells reserved (b :: text) (b :: key)
  | escaped {high low b : UInt8} {text key : Bytes} (first : IsDigit high (b.toNat / 16))
      (second : IsDigit low (b.toNat % 16)) (rest : Spells reserved text key) :
      Spells reserved (sign :: high :: low :: text) (b :: key)

/-- Two hexadecimal digits stand at the beginning of a text. -/
def OpensWithDigits (text : Bytes) : Prop :=
  ∃ high low rest h l, text = high :: low :: rest ∧ IsDigit high h ∧ IsDigit low l

/-- **A text is broken**: read from left to right, escape by escape and byte by
byte, it comes to a percent sign that is not followed by two hexadecimal
digits. -/
inductive Broken : Bytes → Prop
  | here {text : Bytes} (cut : ¬ OpensWithDigits text) : Broken (sign :: text)
  | plain {b : UInt8} {text : Bytes} (unsigned : b ≠ sign) (rest : Broken text) :
      Broken (b :: text)
  | escaped {high low : UInt8} {h l : Nat} {text : Bytes} (first : IsDigit high h)
      (second : IsDigit low l) (rest : Broken text) : Broken (sign :: high :: low :: text)

/-! ## Digits -/

theorem IsDigit.lt {b : UInt8} {n : Nat} (digit : IsDigit b n) : n < 16 := by
  have sixteen : ∀ row ∈ numerals, row.length = 16 := by decide
  obtain ⟨row, mem, found⟩ := digit
  have lt := (List.getElem?_eq_some_iff.mp found).1
  rwa [sixteen row mem] at lt

/-- **The digits that are read are those that there are.** -/
theorem digit?_eq_some_iff {b v : UInt8} : digit? b = some v ↔ IsDigit b v.toNat := by
  have read : ∀ n < 256,
      (digit? (UInt8.ofNat n)).all (fun v => IsDigit (UInt8.ofNat n) v.toNat) = true := by
    decide +kernel
  have written : ∀ n < 16, ∀ row ∈ numerals,
      row[n]?.all (fun b => digit? b = some (UInt8.ofNat n)) = true := by
    decide
  constructor
  · intro digit
    have shown := read b.toNat b.toNat_lt
    rw [UInt8.ofNat_toNat, digit, Option.all_some] at shown
    exact of_decide_eq_true shown
  · intro digit
    have lt := digit.lt
    obtain ⟨row, mem, found⟩ := digit
    have shown := written v.toNat lt row mem
    rw [found, Option.all_some, UInt8.ofNat_toNat] at shown
    exact of_decide_eq_true shown

theorem IsDigit.read {b : UInt8} {n : Nat} (digit : IsDigit b n) :
    digit? b = some (UInt8.ofNat n) := by
  have lt := digit.lt
  have same : (UInt8.ofNat n).toNat = n := by
    rw [UInt8.toNat_ofNat']
    omega
  exact digit?_eq_some_iff.mpr (by rwa [same])

/-- **Two digits denote a byte.** -/
theorem pair?_eq_some_iff {high low b : UInt8} :
    pair? high low = some b ↔ IsDigit high (b.toNat / 16) ∧ IsDigit low (b.toNat % 16) := by
  have joined : ∀ h < 16, ∀ l < 16, (16 * UInt8.ofNat h + UInt8.ofNat l).toNat = 16 * h + l := by
    decide
  constructor
  · intro pair
    unfold pair? at pair
    split at pair
    · next h l high_digit low_digit =>
      cases pair
      rw [digit?_eq_some_iff] at high_digit low_digit
      have sum := joined h.toNat high_digit.lt l.toNat low_digit.lt
      rw [UInt8.ofNat_toNat, UInt8.ofNat_toNat] at sum
      have low_lt := low_digit.lt
      have quotient : (16 * h + l).toNat / 16 = h.toNat := by omega
      have remainder : (16 * h + l).toNat % 16 = l.toNat := by omega
      rw [quotient, remainder]
      exact ⟨high_digit, low_digit⟩
    · cases pair
  · rintro ⟨high_digit, low_digit⟩
    have sum := joined _ high_digit.lt _ low_digit.lt
    rw [pair?, high_digit.read, low_digit.read]
    refine congrArg some (UInt8.toNat_inj.mp (sum.trans ?_))
    omega

/-- What denotes no byte is not two digits. -/
theorem pair?_eq_none_iff {high low : UInt8} :
    pair? high low = none ↔ ∀ h l, ¬ (IsDigit high h ∧ IsDigit low l) := by
  constructor
  · rintro pair h l ⟨high_digit, low_digit⟩
    rw [pair?, high_digit.read, low_digit.read] at pair
    cases pair
  · intro other
    cases pair : pair? high low with
    | none => rfl
    | some b =>
      obtain digits := pair?_eq_some_iff.mp pair
      exact absurd digits (other _ _)

/-! ## Undoing the escapes -/

theorem decode_cons_of_ne {b : UInt8} (unsigned : b ≠ sign) (text : Bytes) :
    decode (b :: text) = (decode text).map (b :: ·) := by
  match text with
  | _ :: _ :: _ => rw [decode, if_neg unsigned]
  | [] | [_] => simp [decode, unsigned]

theorem decode_escape {high low b : UInt8} (pair : pair? high low = some b) (text : Bytes) :
    decode (sign :: high :: low :: text) = (decode text).map (b :: ·) := by
  rw [decode, if_pos rfl, pair]

theorem decode_of_cut {text : Bytes} (cut : ¬ OpensWithDigits text) :
    decode (sign :: text) = none := by
  match text with
  | [] | [_] => simp [decode]
  | high :: low :: rest =>
    have none_denoted : pair? high low = none :=
      pair?_eq_none_iff.mpr (fun h l digits => cut ⟨high, low, rest, h, l, rfl, digits⟩)
    rw [decode, if_pos rfl, none_denoted]

/-- **A text is read as the key that it spells**, with the percent sign
reserved. -/
theorem decode_eq_some_iff {text key : Bytes} :
    decode text = some key ↔ Spells [sign] text key := by
  constructor
  · intro decoded
    fun_induction decode text generalizing key with
    | case1 =>
      cases decoded
      exact .nil
    | case2 high low rest byte pair ih =>
      obtain ⟨tail, read, rfl⟩ := Option.map_eq_some_iff.mp decoded
      obtain ⟨first, second⟩ := pair?_eq_some_iff.mp pair
      exact .escaped first second (ih read)
    | case4 b high low rest unsigned ih =>
      obtain ⟨tail, read, rfl⟩ := Option.map_eq_some_iff.mp decoded
      exact .plain (mt List.mem_singleton.mp unsigned) (ih read)
    | case6 b rest short unsigned ih =>
      obtain ⟨tail, read, rfl⟩ := Option.map_eq_some_iff.mp decoded
      exact .plain (mt List.mem_singleton.mp unsigned) (ih read)
    | case3 | case5 => cases decoded
  · intro spells
    induction spells with
    | nil => rfl
    | plain free rest ih =>
      rw [decode_cons_of_ne (fun eq => free (List.mem_singleton.mpr eq)), ih, Option.map_some]
    | escaped first second rest ih =>
      rw [decode_escape (pair?_eq_some_iff.mpr ⟨first, second⟩), ih, Option.map_some]

/-- **A text is refused when it is broken**, and only then. -/
theorem decode_eq_none_iff {text : Bytes} : decode text = none ↔ Broken text := by
  constructor
  · intro refused
    fun_induction decode text with
    | case1 => cases refused
    | case2 high low rest byte pair ih =>
      obtain ⟨first, second⟩ := pair?_eq_some_iff.mp pair
      exact .escaped first second (ih (Option.map_eq_none_iff.mp refused))
    | case3 high low rest pair =>
      refine .here ?_
      rintro ⟨_, _, _, h, l, ⟨⟩, digits⟩
      exact pair?_eq_none_iff.mp pair h l digits
    | case4 b high low rest unsigned ih =>
      exact .plain unsigned (ih (Option.map_eq_none_iff.mp refused))
    | case5 rest short =>
      refine .here ?_
      rintro ⟨high, low, more, _, _, rfl, _⟩
      exact short high low more rfl
    | case6 b rest short unsigned ih =>
      exact .plain unsigned (ih (Option.map_eq_none_iff.mp refused))
  · intro broken
    induction broken with
    | here cut => exact decode_of_cut cut
    | plain unsigned rest ih => rw [decode_cons_of_ne unsigned, ih, Option.map_none]
    | @escaped high low h l text first second rest ih =>
      cases pair : pair? high low with
      | none => exact absurd ⟨first, second⟩ (pair?_eq_none_iff.mp pair h l)
      | some b => rw [decode_escape pair, ih, Option.map_none]

/-! ## Texts within a target -/

/-- Where more is reserved, less may stand for itself. -/
theorem Spells.mono {reserved fewer : List UInt8} {text key : Bytes}
    (spells : Spells reserved text key) (sub : fewer ⊆ reserved) : Spells fewer text key := by
  induction spells with
  | nil => exact .nil
  | plain free _ ih => exact .plain (fun mem => free (sub mem)) ih
  | escaped first second _ ih => exact .escaped first second ih

/-- A text that spells a key without the use of a reserved byte holds it
nowhere, unless escapes are written with it. -/
theorem Spells.not_mem {reserved : List UInt8} {text key : Bytes}
    (spells : Spells reserved text key) {b : UInt8} (mem : b ∈ reserved) (unsigned : b ≠ sign)
    (no_digit : ∀ n, ¬ IsDigit b n) : b ∉ text := by
  intro inside
  induction spells with
  | nil => cases inside
  | plain free _ ih =>
    obtain rfl | inside := List.mem_cons.mp inside
    · exact free mem
    · exact ih inside
  | escaped first second _ ih =>
    simp only [List.mem_cons] at inside
    obtain same | rfl | rfl | inside := inside
    · exact unsigned same
    · exact no_digit _ first
    · exact no_digit _ second
    · exact ih inside

/-- **Every key can be spelled**, whatever is reserved. -/
theorem exists_spells (reserved : List UInt8) (key : Bytes) : ∃ text, Spells reserved text key := by
  have digit : ∀ n < 16, ∃ row ∈ numerals, row[n]?.isSome := by decide
  have exists_digit {n : Nat} (lt : n < 16) : ∃ b, IsDigit b n := by
    obtain ⟨row, mem, found⟩ := digit n lt
    obtain ⟨b, at_row⟩ := Option.isSome_iff_exists.mp found
    exact ⟨b, row, mem, at_row⟩
  induction key with
  | nil => exact ⟨[], .nil⟩
  | cons b key ih =>
    obtain ⟨text, rest⟩ := ih
    have lt := b.toNat_lt
    obtain ⟨high, first⟩ := exists_digit (n := b.toNat / 16) (by omega)
    obtain ⟨low, second⟩ := exists_digit (n := b.toNat % 16) (by omega)
    exact ⟨sign :: high :: low :: text, .escaped first second rest⟩

/-- Only the empty text spells the empty key. -/
theorem Spells.ne_nil {reserved : List UInt8} {text key : Bytes}
    (spells : Spells reserved text key) (some_key : key ≠ []) : text ≠ [] := by
  cases spells with
  | nil => exact absurd rfl some_key
  | plain | escaped => exact List.cons_ne_nil _ _

end Percent

/-- The byte that ends what is looked at of a target. -/
def queryMark : UInt8 := 63

/-- A key whose question marks are escaped ends where the query begins. -/
theorem Percent.Spells.takeWhile_append {reserved : List UInt8} {text key query : Bytes}
    (spells : Spells reserved text key) (escapes : queryMark ∈ reserved)
    (ends : query = [] ∨ query.head? = some queryMark) :
    (text ++ query).takeWhile (· ≠ queryMark) = text := by
  have no_digit (n : Nat) : ¬ IsDigit queryMark n := by
    have none_below : ∀ n < 16, ¬ IsDigit queryMark n := by decide
    exact fun digit => none_below n digit.lt digit
  have unmarked : ∀ b ∈ text, decide (b ≠ queryMark) = true := by
    intro b mem
    refine decide_eq_true ?_
    rintro rfl
    exact spells.not_mem escapes (by decide) no_digit mem
  have cut : query.takeWhile (· ≠ queryMark) = [] := by
    obtain rfl | begins := ends
    · rfl
    · obtain ⟨more, rfl⟩ := List.head?_eq_some_iff.mp begins
      rfl
  rw [List.takeWhile_append_of_pos unmarked, cut, List.append_nil]

/-- A request to look at the lock that a target names after the path of locks. -/
def Request.forLock (rest : Bytes) (version : Nat) (keepAlive : Bool) : Request where
  method := utf8 "GET"
  target := lockPath ++ rest
  version
  keepAlive

/-- **What follows the path of a lock is the key**, up to the first question
mark. -/
theorem Target.ofBytes_lockPath {rest : Bytes} (some_key : rest.takeWhile (· ≠ queryMark) ≠ []) :
    Target.ofBytes (lockPath ++ rest) = .lock (rest.takeWhile (· ≠ queryMark)) := by
  have unmarked : ∀ b ∈ lockPath, decide (b ≠ queryMark) = true :=
    List.all_eq_true.mp (by decide)
  have path : withoutQuery (lockPath ++ rest) = lockPath ++ rest.takeWhile (· ≠ queryMark) :=
    List.takeWhile_append_of_pos unmarked
  have apart (other : Bytes) (no_lock : ¬ lockPath <+: other) :
      lockPath ++ rest.takeWhile (· ≠ queryMark) ≠ other := by
    rintro rfl
    exact no_lock (List.prefix_append ..)
  have longer : lockPath.length < (lockPath ++ rest.takeWhile (· ≠ queryMark)).length := by
    rw [List.length_append]
    exact Nat.lt_add_of_pos_right (List.length_pos_iff.mpr some_key)
  have begins : lockPath.isPrefixOf (lockPath ++ rest.takeWhile (· ≠ queryMark)) = true :=
    List.isPrefixOf_iff_prefix.mpr (List.prefix_append ..)
  rw [ofBytes, path, if_neg, if_neg, if_pos ⟨begins, longer⟩, List.drop_left]
  · exact apart _ (by decide)
  · exact fun either =>
      either.elim (apart _ (by decide)) (apart _ (by decide))

namespace Store

/-- Looking does not depend on what was counted. -/
theorem answer_inspectLock_note (s : Store) (happened : List Happening) (now : Instant)
    (key : Bytes) (version : Nat) (keepAlive : Bool) :
    ((s.note happened).inspectLock now key version keepAlive).answer
      = (s.inspectLock now key version keepAlive).answer := by
  have same : ((s.note happened).look now key).answer = (s.look now key).answer := rfl
  unfold inspectLock
  generalize (s.note happened).look now key = noted at same
  generalize s.look now key = looked at same
  obtain ⟨_, _, held⟩ := noted
  obtain ⟨_, _, _⟩ := looked
  cases same
  cases held <;> rfl

/-- The answer about a lock is that there is one, or that there is none. -/
theorem status_inspectLock (s : Store) (now : Instant) (key : Bytes) (version : Nat)
    (keepAlive : Bool) : (s.inspectLock now key version keepAlive).answer.status = 200
      ∨ (s.inspectLock now key version keepAlive).answer.status = 404 := by
  unfold inspectLock
  split
  · exact .inr rfl
  · exact .inl rfl

/-- **A request for a lock is answered for the key that is read**, if one is. -/
theorem answer_serve_forLock (s : Store) (now : Instant) {rest : Bytes} (version : Nat)
    (keepAlive : Bool) (some_key : rest.takeWhile (· ≠ queryMark) ≠ []) :
    (s.serve now (.forLock rest version keepAlive)).answer
      = match Percent.decode (rest.takeWhile (· ≠ queryMark)) with
        | none =>
          .text version keepAlive 400 Response.plainText (utf8 "malformed key escape")
        | some key => (s.inspectLock now key version keepAlive).answer := by
  have asks : Target.ofBytes (Request.forLock rest version keepAlive).target
      = .lock (rest.takeWhile (· ≠ queryMark)) := Target.ofBytes_lockPath some_key
  have gets : (Request.forLock rest version keepAlive).method = utf8 "GET" := rfl
  rw [serve, if_pos gets]
  simp only [asks, answer]
  cases Percent.decode (rest.takeWhile (· ≠ queryMark)) with
  | none => rfl
  | some key => exact answer_inspectLock_note ..

/-- **A lock can be looked at under every key**, and under no other key than
the one that is spelled.

Every key but the empty one has a spelling in which percent signs and question
marks are escaped, and with each of them, whatever else is escaped in it and
whatever query follows, a request is answered as one who asks for the key is.
On the other side, whatever stands after the path of locks and before the first
question mark, if anything does: the request is bad exactly if that is broken,
and otherwise there is one key that it spells, for which it is answered. -/
theorem lock_inspection (s : Store) (now : Instant) (version : Nat) (keepAlive : Bool) :
    (∀ key, ∃ escaped, Percent.Spells [Percent.sign, queryMark] escaped key)
      ∧ (∀ key escaped query, key ≠ [] →
        Percent.Spells [Percent.sign, queryMark] escaped key →
        (query = [] ∨ query.head? = some queryMark) →
        (s.serve now (.forLock (escaped ++ query) version keepAlive)).answer
          = (s.inspectLock now key version keepAlive).answer)
      ∧ ∀ rest, rest.takeWhile (· ≠ queryMark) ≠ [] →
        ((s.serve now (.forLock rest version keepAlive)).answer.status = 400
            ↔ Percent.Broken (rest.takeWhile (· ≠ queryMark)))
          ∧ (¬ Percent.Broken (rest.takeWhile (· ≠ queryMark)) →
            ∃ key, (∀ other,
                Percent.Spells [Percent.sign] (rest.takeWhile (· ≠ queryMark)) other
                  ↔ other = key)
              ∧ (s.serve now (.forLock rest version keepAlive)).answer
                = (s.inspectLock now key version keepAlive).answer) := by
  refine ⟨Percent.exists_spells _, fun key escaped query some_key spells ends => ?_,
    fun rest some_text => ?_⟩
  · have cut := spells.takeWhile_append (by simp) ends
    have read : Percent.decode escaped = some key :=
      Percent.decode_eq_some_iff.mpr (spells.mono (by simp))
    rw [answer_serve_forLock s now version keepAlive (by rw [cut]; exact spells.ne_nil some_key),
      cut, read]
  · rw [answer_serve_forLock s now version keepAlive some_text, ← Percent.decode_eq_none_iff]
    generalize rest.takeWhile (· ≠ queryMark) = escaped
    simp only [← Percent.decode_eq_some_iff]
    cases Percent.decode escaped with
    | none => exact ⟨iff_of_true rfl rfl, fun some_key => absurd rfl some_key⟩
    | some key =>
      refine ⟨iff_of_false ?_ nofun, fun _ => ⟨key, fun other => ?_, rfl⟩⟩
      · obtain found | absent := s.status_inspectLock now key version keepAlive
        · simp [found]
        · simp [absent]
      · rw [Option.some_inj, eq_comm]

/-- A key of a percent sign, a question mark, a zero byte and one that is no
text, and a target that breaks off in the middle of an escape. -/
theorem lock_inspection_of_awkward :
    Percent.Spells [Percent.sign, queryMark] (utf8 "%25%3f%00" ++ [200]) [37, 63, 0, 200]
      ∧ (Store.serve default 0 (.forLock (utf8 "%25%3f%00" ++ [200] ++ utf8 "?q=%") 11 true)).answer
        = (Store.inspectLock default 0 [37, 63, 0, 200] 11 true).answer
      ∧ Percent.Broken (utf8 "a%2")
      ∧ (Store.serve default 0 (.forLock (utf8 "a%2") 11 true)).answer.status = 400 := by
  have spells : Percent.Spells [Percent.sign, queryMark] (utf8 "%25%3f%00" ++ [200])
      [37, 63, 0, 200] := by
    refine .escaped ?_ ?_ (.escaped ?_ ?_ (.escaped ?_ ?_ (.plain ?_ .nil)))
    all_goals decide
  have broken : Percent.Broken (utf8 "a%2") := Percent.decode_eq_none_iff.mp (by decide)
  obtain ⟨-, same, bad⟩ := lock_inspection default 0 11 true
  refine ⟨spells, same _ _ _ (by decide) spells (.inr (by decide)), broken, ?_⟩
  exact (bad (utf8 "a%2") (by decide)).1.mpr broken

end Store

end AdvisoryStore
