import AdvisoryStore.Inspection
import AdvisoryStore.Locks.View
import AdvisoryStore.Proofs.JsonReading

/-!
# What an inspection tells of a hold

Whoever asks for the lock of a key is answered with a JSON text if the key is
held, and is told that there is nothing if it is not. The text is read here, by
the reader of `Json.read?`, as an object with three members: the key, the
holder, and the whole milliseconds that remain until the deadline
(`Hold.read?_toJson`).

Key and holder are any bytes, and both stand in the middle of the text. That
reading gives them back, byte for byte, says that nothing in them can end the
string they stand in, so that two answers are the same text only if they tell
the same (`Store.inspection_read`).
-/

namespace AdvisoryStore

/-- Until an instant that has not passed, whole milliseconds are what the
nanoseconds come to, rounded down. -/
theorem Duration.wholeMilliseconds_of_nonneg {d : Duration} (nonneg : 0 ≤ d) :
    (wholeMilliseconds d : Int) = d / perMillisecond := by
  rw [wholeMilliseconds, Int.tdiv_eq_ediv_of_nonneg nonneg]
  exact Int.toNat_of_nonneg (Int.ediv_nonneg nonneg (Int.natCast_nonneg _))

namespace Hold

/-- **What remains of a hold**, in whole milliseconds, or null if it has no
deadline. A millisecond that has begun is not counted. -/
def remaining (h : Hold) (now : Instant) : Json.Value :=
  match h.deadline with
  | none => .null
  | some deadline => .number ((deadline - now) / Duration.perMillisecond) 0

/-- **What is told of a hold**: three members, in this order. -/
def toValue (h : Hold) (now : Instant) (key : Bytes) : Json.Value :=
  .object
    [(utf8 "key", .string key), (utf8 "holder", .string h.holder),
      (utf8 "expires_in_ms", h.remaining now)]

/-- What is told differs with the key, the holder and what remains. -/
theorem toValue_inj {h h' : Hold} {now now' : Instant} {key key' : Bytes}
    (same : h.toValue now key = h'.toValue now' key') :
    key = key' ∧ h.holder = h'.holder ∧ h.remaining now = h'.remaining now' := by
  simpa [toValue] using same

/-- What is written of the time that remains. -/
def remainder (h : Hold) (now : Instant) : Bytes :=
  match h.deadline with
  | none => utf8 "null"
  | some deadline => decimal (Duration.wholeMilliseconds (deadline - now))

/-- The members of a hold: their names, what is written of them, and what that
is read as. -/
def members (h : Hold) (now : Instant) (key : Bytes) : List (String × Bytes × Json.Value) :=
  [("key", Json.quoted key, .string key), ("holder", Json.quoted h.holder, .string h.holder),
    ("expires_in_ms", h.remainder now, h.remaining now)]

theorem toJson_eq (h : Hold) (now : Instant) (key : Bytes) :
    h.toJson now key = Json.object ((h.members now key).map (fun m => Json.member m.1 m.2.1)) :=
  rfl

variable {h : Hold} {now : Instant}

/-- As long as a hold lasts, what is written of the time that remains is read as that. -/
theorem isRead_remainder (lasting : h.expired now = false) :
    Json.IsRead 1 (h.remainder now) (h.remaining now) := by
  have ahead := expired_eq_false_iff.mp lasting
  unfold remainder remaining
  cases limit : h.deadline with
  | none => exact Json.isRead_null
  | some deadline =>
    dsimp only
    rw [← Duration.wholeMilliseconds_of_nonneg (Int.sub_nonneg_of_le (ahead deadline limit))]
    exact Json.isRead_decimal _

/-- **A hold that lasts is read as what is to be told of it**, whatever bytes its
key and its holder are. -/
theorem read?_toJson (lasting : h.expired now = false) (key : Bytes) :
    Json.read? (h.toJson now key) = some (h.toValue now key) := by
  have each : ∀ m ∈ h.members now key, Json.IsRead 1 m.2.1 m.2.2 := by
    simp only [members, List.forall_mem_cons]
    exact ⟨Json.isRead_quoted key, Json.isRead_quoted h.holder, isRead_remainder lasting, nofun⟩
  rw [toJson_eq]
  exact (Json.isRead_object each).read? (Json.two_le_length_object _)

/-- What key and holder have as strings, all of the text has. -/
theorem kept_toJson {P : Bytes → Prop} (kept : Json.Kept P) {key : Bytes}
    (of_key : P (Json.escape key)) (of_holder : P (Json.escape h.holder)) :
    P (h.toJson now key) := by
  have number : P (h.remainder now) := by
    unfold remainder
    cases h.deadline with
    | none =>
      have null : (utf8 "null").all Json.isPlain = true := by decide
      exact kept.plain null
    | some deadline => exact kept.decimal _
  rw [toJson_eq]
  refine kept.object (List.forall_mem_map.mpr ?_)
  simp only [members, List.forall_mem_cons]
  exact ⟨kept.member (kept.plain (by decide)) (kept.quoted of_key),
    kept.member (kept.plain (by decide)) (kept.quoted of_holder),
    kept.member (kept.plain (by decide)) number, nofun⟩

end Hold

namespace Store

/-- A key that is held is answered for with its hold, and any other with
nothing. -/
theorem answer_inspectLock (s : Store) (now : Instant) (key : Bytes) (version : Nat)
    (keepAlive : Bool) :
    (s.inspectLock now key version keepAlive).answer
      = match s.locks.live? now key with
        | none => .notFound version keepAlive
        | some h =>
          { Response.text version keepAlive 200 Response.json (h.toJson now key) with
            cacheControl := some (utf8 "no-cache") } := by
  have answer : (s.look now key).answer = s.locks.live? now key := Locks.answer_consult ..
  unfold inspectLock
  rw [← answer]
  generalize s.look now key = looked
  obtain ⟨_, _, _ | h⟩ := looked <;> rfl

/-- The body of the answer is the hold, which lasts. -/
theorem body_inspectLock {s : Store} {now : Instant} {key : Bytes} {h : Hold}
    (live : s.locks.live? now key = some h) (version : Nat) (keepAlive : Bool) :
    (s.inspectLock now key version keepAlive).answer.body = h.toJson now key
      ∧ h.expired now = false := by
  rw [answer_inspectLock, live]
  exact ⟨rfl, (Locks.live?_eq_some_iff.mp live).2⟩

/-- **What is read in the answer about a lock.** The status says whether the key is
held. If it is, the body is a JSON text with these members and no others: the key
and the holder, byte for byte, and the whole milliseconds until the deadline,
which are never negative, or null if there is none.

No byte of the body is a control byte, and it is UTF-8 if key and holder are. Two
answers, of whatever stores at whatever times, have the same body only if they
tell of the same key, the same holder and the same time that remains. -/
theorem inspection_read (s : Store) (now : Instant) (key : Bytes) (version : Nat)
    (keepAlive : Bool) :
    ((s.inspectLock now key version keepAlive).answer.status = 200
        ↔ ∃ h, s.locks.live? now key = some h)
      ∧ ∀ h, s.locks.live? now key = some h →
        Json.read? (s.inspectLock now key version keepAlive).answer.body
            = some (.object
              [(utf8 "key", .string key), (utf8 "holder", .string h.holder),
                (utf8 "expires_in_ms", h.remaining now)])
          ∧ (∀ deadline, h.deadline = some deadline →
            0 ≤ (deadline - now) / Duration.perMillisecond)
          ∧ Json.Printable (s.inspectLock now key version keepAlive).answer.body
          ∧ (Json.IsUtf8 key → Json.IsUtf8 h.holder →
            Json.IsUtf8 (s.inspectLock now key version keepAlive).answer.body)
          ∧ ∀ (s' : Store) (now' : Instant) (key' : Bytes) (version' : Nat) (keepAlive' : Bool)
              (h' : Hold), s'.locks.live? now' key' = some h' →
            (s'.inspectLock now' key' version' keepAlive').answer.body
              = (s.inspectLock now key version keepAlive).answer.body →
            key' = key ∧ h'.holder = h.holder ∧ h'.remaining now' = h.remaining now := by
  refine ⟨?_, fun h live => ?_⟩
  · rw [answer_inspectLock]
    cases s.locks.live? now key with
    | none => exact iff_of_false (by decide : (404 : Nat) ≠ 200) nofun
    | some h => exact iff_of_true rfl ⟨h, rfl⟩
  · obtain ⟨body, lasting⟩ := body_inspectLock live version keepAlive
    rw [body]
    refine ⟨h.read?_toJson lasting key, fun deadline limit => ?_,
      Hold.kept_toJson Json.kept_printable (Json.printable_escape key)
        (Json.printable_escape h.holder),
      fun key_utf8 holder_utf8 =>
        Hold.kept_toJson Json.kept_isUtf8 key_utf8.escape holder_utf8.escape,
      fun s' now' key' version' keepAlive' h' live' same => ?_⟩
    · have ahead := Hold.expired_eq_false_iff.mp lasting deadline limit
      exact Int.ediv_nonneg (Int.sub_nonneg_of_le ahead) (Int.natCast_nonneg _)
    · obtain ⟨body', lasting'⟩ := body_inspectLock live' version' keepAlive'
      have read' := Hold.read?_toJson lasting' key'
      rw [← body', same, Hold.read?_toJson lasting key, Option.some.injEq] at read'
      obtain ⟨keys, holders, times⟩ := Hold.toValue_inj read'
      exact ⟨keys.symm, holders.symm, times.symm⟩

/-- A key of a quote, a backslash, a line feed and a byte that is no text, held by
one that is called like the end of an object, with one millisecond left and all but
one nanosecond of another. -/
theorem inspection_read_of_awkward :
    let request : LockRequest :=
      { key := [34, 92, 10, 200], holder := [0, 34, 125], hold := some 2999999, giveUp := none,
        claimant := .caller }
    Json.read? (Store.inspectLock (Store.attempt default 0 request false).after 1000000
        request.key 11 true).answer.body
      = some (.object
        [(utf8 "key", .string [34, 92, 10, 200]), (utf8 "holder", .string [0, 34, 125]),
          (utf8 "expires_in_ms", .number 1 0)]) := by
  intro request
  have live : (Store.attempt default 0 request false).after.locks.live? 1000000 request.key
      = some ⟨[0, 34, 125], 0, some 2999999, 0⟩ := by decide
  exact ((inspection_read _ 1000000 request.key 11 true).2 _ live).1

end Store

end AdvisoryStore
