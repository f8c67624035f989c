import AdvisoryStore.Exposition
import AdvisoryStore.Json
import AdvisoryStore.Percent
import AdvisoryStore.Store

/-!
# Inspecting a store by request

A store answers requests about its health, its counters and the lock of a
key. A request is answered from its method and its target, without what
follows the first question mark; version and keep-alive are handed back as
they came.

The key of a lock is what stands behind `/locks/`, with its percent
escapes undone. Escaping is what makes every key that is not empty
reachable, whatever bytes it holds.
-/

namespace AdvisoryStore

/-- **A request**, as far as it is looked at. -/
structure Request where
  method : Bytes
  target : Bytes
  /-- The HTTP version, 11 for 1.1. -/
  version : Nat
  keepAlive : Bool
  deriving DecidableEq, Repr, Inhabited

/-- **A response**, as far as it is decided here. -/
structure Response where
  status : Nat
  contentType : Option Bytes
  cacheControl : Option Bytes
  keepAlive : Bool
  version : Nat
  body : Bytes
  deriving DecidableEq, Repr, Inhabited

/-- **What a target asks for.** -/
inductive Target
  | health
  | metrics
  /-- The lock of a key, which is still escaped. -/
  | lock (escaped : Bytes)
  | unknown
  deriving DecidableEq, Repr

/-- A target without its query. -/
def withoutQuery (target : Bytes) : Bytes := target.takeWhile (· ≠ 63)

/-- What stands before the key of a lock. -/
def lockPath : Bytes := utf8 "/locks/"

/-- **What a target asks for.** -/
def Target.ofBytes (target : Bytes) : Target :=
  let path := withoutQuery target
  if path = utf8 "/" ∨ path = utf8 "/health" then .health
  else if path = utf8 "/metrics" then .metrics
  else if lockPath.isPrefixOf path ∧ lockPath.length < path.length then
    .lock (path.drop lockPath.length)
  else .unknown

/-- The topic that a target is counted under. -/
def Target.topic : Target → Topic
  | health => .health
  | metrics => .metrics
  | lock _ => .locks
  | unknown => .other

namespace Response

/-- The type of a plain text. -/
def plainText : Bytes := utf8 "text/plain; charset=utf-8"

/-- The type of the counters' exposition. -/
def expositionText : Bytes := utf8 "text/plain; version=0.0.4"

/-- The type of a JSON text. -/
def json : Bytes := utf8 "application/json"

/-- A response with a body of some type. -/
def text (version : Nat) (keepAlive : Bool) (status : Nat) (contentType body : Bytes) :
    Response :=
  { status, contentType := some contentType, cacheControl := none, keepAlive, version, body }

/-- A response that there is nothing. -/
def notFound (version : Nat) (keepAlive : Bool) : Response :=
  { status := 404, contentType := none, cacheControl := none, keepAlive, version, body := [] }

end Response

/-- **A hold as a JSON object**: key, holder, and the whole milliseconds
until its deadline, or null if it has none. -/
def Hold.toJson (h : Hold) (now : Instant) (key : Bytes) : Bytes :=
  Json.object
    [Json.member "key" (Json.quoted key), Json.member "holder" (Json.quoted h.holder),
      Json.member "expires_in_ms"
        (match h.deadline with
        | none => utf8 "null"
        | some deadline => decimal (Duration.wholeMilliseconds (deadline - now)))]

namespace Store

/-- **Answers with the hold of a key**, or that there is none. -/
def inspectLock (s : Store) (now : Instant) (key : Bytes) (version : Nat) (keepAlive : Bool) :
    Outcome Store Response :=
  match s.look now key with
  | ⟨s, happened, none⟩ => ⟨s, happened, .notFound version keepAlive⟩
  | ⟨s, happened, some h⟩ =>
    ⟨s, happened,
      { Response.text version keepAlive 200 Response.json (h.toJson now key) with
        cacheControl := some (utf8 "no-cache") }⟩

/-- Answers a `GET` request by what its target asks for. -/
def answer (s : Store) (now : Instant) (r : Request) : Target → Outcome Store Response
  | .health =>
    ⟨s, [], .text r.version r.keepAlive 200 Response.plainText (utf8 "record-store-service")⟩
  | .metrics =>
    ⟨s, [],
      .text r.version r.keepAlive 200 Response.expositionText (Exposition.render s.counters)⟩
  | .lock escaped =>
    match Percent.decode escaped with
    | none =>
      ⟨s, [], .text r.version r.keepAlive 400 Response.plainText (utf8 "malformed key escape")⟩
    | some key => s.inspectLock now key r.version r.keepAlive
  | .unknown => ⟨s, [], .notFound r.version r.keepAlive⟩

/-- **Answers a request.** Any method but `GET` is refused, whatever the
target. The request is counted before it is answered, so that the counters
it may ask for include itself. -/
def serve (s : Store) (now : Instant) (r : Request) : Outcome Store Response :=
  if r.method = utf8 "GET" then
    let target := Target.ofBytes r.target
    let answered := (s.note [.served target.topic]).answer now r target
    { answered with happened := .served target.topic :: answered.happened }
  else
    s.noting [.served .other] (.text r.version r.keepAlive 405 Response.plainText [])

end Store

end AdvisoryStore
