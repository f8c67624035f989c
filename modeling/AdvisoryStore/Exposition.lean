import AdvisoryStore.Bytes
import AdvisoryStore.Counter

/-!
# The exposition of the counters

The counters are published as text in **families**. A family opens with a
line that names it and says that it counts, and then has one line per
counter: the family's name, perhaps a label that tells the counters of the
family apart, and the value.

The families are data. What is written is read off `families`, and so is
the order of the counters in the text, which is that of `Counter.all`.
-/

namespace AdvisoryStore.Exposition

/-- One line of a family: the label that tells it apart, and what it counts. -/
structure Series where
  /-- The label's name and value, if the line has one. -/
  label : Option (String × String)
  /-- What the line reports. -/
  counter : Counter

/-- **Counters published under one name.** -/
structure Family where
  /-- The name. -/
  name : String
  /-- The lines, in order. -/
  series : List Series

/-- A line without a label. -/
def plain (c : Counter) : Series := ⟨none, c⟩

/-- A line with a label. -/
def labelled (name value : String) (c : Counter) : Series := ⟨some (name, value), c⟩

/-- What is published. -/
def families : List Family :=
  [⟨"http_requests_total",
      [plain .requests, labelled "route" "health" .healthRequests,
        labelled "route" "metrics" .metricsRequests, labelled "route" "locks" .lockRequests,
        labelled "route" "other" .otherRequests]⟩,
    ⟨"record_reads_total",
      [plain .reads, labelled "result" "hit" .hits, labelled "result" "miss" .misses]⟩,
    ⟨"record_writes_total", [plain .writes]⟩,
    ⟨"record_write_conflicts_total", [plain .conflicts]⟩,
    ⟨"lock_acquisitions_total",
      [labelled "mode" "immediate" .acquiredAtOnce, labelled "mode" "reentrant" .reentered,
        labelled "mode" "after_wait" .acquiredAfterWait]⟩,
    ⟨"lock_acquire_timeouts_total", [plain .acquireTimeouts]⟩,
    ⟨"lock_expired_reclaimed_total", [plain .expiredReclaimed]⟩,
    ⟨"lock_releases_total",
      [labelled "status" "ok" .releases, labelled "status" "not_holder" .releasesRefused]⟩,
    ⟨"lock_waits_total", [plain .waits, labelled "status" "timeout" .waitTimeouts]⟩]

/-- The byte that ends every line of the text. -/
def newline : Bytes := utf8 "\n"

/-- A label as it stands behind a name. -/
def Series.labelText (s : Series) : Bytes :=
  match s.label with
  | none => []
  | some (name, value) => utf8 "\x7b" ++ utf8 name ++ utf8 "=\"" ++ utf8 value ++ utf8 "\"\x7d"

/-- A counter's line. -/
def Series.line (s : Series) (family : String) (cs : Counters) : Bytes :=
  utf8 family ++ s.labelText ++ utf8 " " ++ decimal (cs.get s.counter).toNat ++ newline

/-- A family's opening line. -/
def Family.opening (f : Family) : Bytes :=
  utf8 "# TYPE " ++ utf8 f.name ++ utf8 " counter" ++ newline

/-- A family's lines. -/
def Family.text (f : Family) (cs : Counters) : Bytes :=
  f.opening ++ f.series.flatMap (fun s => s.line f.name cs)

/-- **The exposition.** -/
def render (cs : Counters) : Bytes := families.flatMap (fun f => f.text cs)

end AdvisoryStore.Exposition
