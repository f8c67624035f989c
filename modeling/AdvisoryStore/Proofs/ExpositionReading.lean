import Mathlib.Data.List.DropRight
import AdvisoryStore.Exposition
import AdvisoryStore.KeyMap
import AdvisoryStore.Numeral

/-!
# Reading the exposition

The exposition is text for another program to read, and it is read here as such
a program reads it. The text is cut at its line feeds. A line that opens with a
number sign says something about the lines behind it; any other is a **sample**,
a name up to the last blank of the line and a numeral behind it
(`Exposition.samples`).

The nineteen counters go through three lists on the way: they are counted one by
one, written in the order of `families`, and read in the order of `Counter.all`.
What holds the three together is one equation, that the samples of the
exposition are the published names with the numerals of their counters
(`Exposition.samples_render`). From it the counters are read back, all at once by
their places (`read?_render`) or one by one by their names (`value?_render`).
-/

namespace AdvisoryStore

namespace Counters

/-- The values in the order of the report are the values by place. -/
theorem toList_eq (cs : Counters) : cs.toList = cs.values.toList := by
  have places : Counter.all.map Counter.index = List.finRange Counter.count := by decide
  calc cs.toList
      = (Counter.all.map Counter.index).map (fun place => cs.values[place.val]) := by
        rw [List.map_map]
        rfl
    _ = cs.values.toList := by
        rw [places]
        exact List.ext_getElem (by simp) (by simp)

/-- Counting starts from nothing. -/
theorem get_bumpAll_zero (counted : List Counter) (c : Counter) :
    ((zero.bumpAll counted).get c).toNat = counted.count c % Numeral.wordSize := by
  rw [get_bumpAll, get_zero, UInt64.zero_add]
  exact UInt64.toNat_ofNat

end Counters

namespace Exposition

/-! ## Lines and samples -/

/-- The byte that ends a line. -/
def feed : UInt8 := 10

/-- The byte that opens a line about other lines. -/
def sign : UInt8 := 35

/-- The byte that stands between a name and its numeral. -/
def blank : UInt8 := 32

/-- The lines of a text: what stands before each of its line feeds. -/
def lines (text : Bytes) : List Bytes := (text.splitOn feed).dropLast

/-- **A line is a sample** if it does not open with a number sign. -/
def isSample (line : Bytes) : Bool := line.head? ≠ some sign

/-- A line cut at its last blank: what stands before it, and what behind. -/
def cut (line : Bytes) : Bytes × Bytes :=
  ((line.rdropWhile (· ≠ blank)).dropLast, line.rtakeWhile (· ≠ blank))

/-- **The samples of a text**: the names and the numerals, in order. -/
def samples (text : Bytes) : List (Bytes × Bytes) := ((lines text).filter isSample).map cut

/-- The counters with these values, in the order of the report. -/
def ofValues? (values : List Nat) : Option Counters :=
  if enough : (values.map UInt64.ofNat).length = Counter.count then
    some ⟨⟨(values.map UInt64.ofNat).toArray, enough⟩⟩
  else none

/-- **Reads all the counters**, one sample after another. -/
def read? (text : Bytes) : Option Counters :=
  ((samples text).mapM (fun sample => Numeral.read? sample.2)).bind ofValues?

/-- **Reads one counter**, by the name of its sample. -/
def value? (text name : Bytes) : Option Nat :=
  ((samples text).lookup name).bind Numeral.read?

/-- Values that were listed are put back in their places. -/
theorem ofValues?_toList (cs : Counters) : ofValues? (cs.toList.map UInt64.toNat) = some cs := by
  have values : (cs.toList.map UInt64.toNat).map UInt64.ofNat = cs.values.toList := by
    rw [List.map_map, cs.toList_eq]
    exact (List.map_congr_left fun v _ => UInt64.ofNat_toNat).trans (List.map_id _)
  rw [ofValues?, dif_pos (by rw [values]; exact cs.values.length_toList)]
  simp only [values]
  rfl

/-- Rows that hold no line feed are the lines of the text made of them. -/
theorem lines_flatMap (rows : List Bytes) (clean : ∀ row ∈ rows, feed ∉ row) :
    lines (rows.flatMap (· ++ [feed])) = rows := by
  have split : (rows.flatMap (· ++ [feed])).splitOn feed = rows ++ [[]] := by
    induction rows with
    | nil => rfl
    | cons row rows ih =>
      obtain ⟨first, others⟩ := List.forall_mem_cons.mp clean
      have whole : row.splitOnP (· == feed) = [row] :=
        List.splitOnP_eq_singleton fun b mem => beq_false_of_ne fun eq => first (eq ▸ mem)
      rw [List.splitOn_eq_splitOnP] at ih ⊢
      rw [List.flatMap_cons, List.append_assoc, List.singleton_append,
        List.splitOnP_append_cons (p := (· == feed)) _ _ (beq_self_eq_true feed), whole, ih others,
        List.singleton_append, List.cons_append]
  rw [lines, split, List.dropLast_concat]

/-- A line is cut where no blank follows. -/
theorem cut_of_blank (name : Bytes) {numeral : Bytes} (clean : blank ∉ numeral) :
    cut (name ++ blank :: numeral) = (name, numeral) := by
  have behind : ∀ b ∈ numeral.reverse, decide (b ≠ blank) = true := fun b mem =>
    decide_eq_true fun eq => clean (eq ▸ List.mem_reverse.mp mem)
  have turned :
      (name ++ blank :: numeral).reverse = numeral.reverse ++ (blank :: name.reverse) := by
    simp
  unfold cut List.rdropWhile List.rtakeWhile
  rw [turned, List.dropWhile_append_of_pos behind, List.takeWhile_append_of_pos behind]
  simp

/-! ## What is published -/

/-- The name of a sample: that of its family, and its label. -/
def Series.name (s : Series) (family : String) : Bytes := utf8 family ++ s.labelText

/-- A family's opening line, without what ends it. -/
def Family.head (f : Family) : Bytes := utf8 "# TYPE " ++ utf8 f.name ++ utf8 " counter"

/-- **The layout of the exposition**: how each line begins, and the counter that
ends it, if one does. -/
def layout : List (Bytes × Option Counter) :=
  families.flatMap fun f => (f.head, none) :: f.series.map fun s => (s.name f.name, some s.counter)

/-- A line of the layout, without what ends it. -/
def row (cs : Counters) : Bytes × Option Counter → Bytes
  | (text, none) => text
  | (name, some c) => name ++ blank :: decimal (cs.get c).toNat

/-- **What is published**: the names of the samples, and the counters behind them. -/
def published : List (Bytes × Counter) := layout.filterMap fun entry => entry.2.map (entry.1, ·)

/-- The rows of the layout, one below the other, are the exposition. -/
theorem render_eq (cs : Counters) : render cs = (layout.map (row cs)).flatMap (· ++ [feed]) := by
  rw [render, layout, List.map_flatMap, List.flatMap_assoc]
  refine List.flatMap_congr fun f _ => ?_
  rw [Family.text, List.map_cons, List.map_map, List.flatMap_cons, List.flatMap_map]
  refine congrArg (f.opening ++ ·) (List.flatMap_congr fun s _ => ?_)
  simp only [Series.line, Series.name, row, Function.comp_apply, List.append_assoc]
  rfl

/-- **The counters are published in their order.** -/
theorem published_counters : published.map Prod.snd = Counter.all := rfl

/-- **No two samples have one name.** -/
theorem published_names_nodup : (published.map Prod.fst).Nodup := by
  decide +kernel

/-- What a line begins with holds no line feed, and tells whether it is a sample. -/
theorem layout_plain :
    ∀ entry ∈ layout, feed ∉ entry.1 ∧ entry.1 ≠ [] ∧ isSample entry.1 = entry.2.isSome := by
  decide +kernel

/-- A line opens as what it begins with. -/
theorem isSample_append {front : Bytes} (some_byte : front ≠ []) (rest : Bytes) :
    isSample (front ++ rest) = isSample front := by
  obtain ⟨b, front, rfl⟩ := List.exists_cons_of_ne_nil some_byte
  rfl

/-- A numeral holds nothing but digits. -/
theorem notMem_decimal {b : UInt8} (other : Numeral.isDigit b = false) (n : Nat) :
    b ∉ decimal n := fun mem => by
  rw [Numeral.isDigit_of_mem_decimal n b mem] at other
  cases other

/-! ## Reading what is rendered -/

/-- **The lines of the exposition are its rows.** -/
theorem lines_render (cs : Counters) : lines (render cs) = layout.map (row cs) := by
  rw [render_eq]
  refine lines_flatMap _ fun line mem => ?_
  obtain ⟨⟨front, counter⟩, among, rfl⟩ := List.mem_map.mp mem
  obtain ⟨clean, -, -⟩ := layout_plain _ among
  cases counter with
  | none => exact clean
  | some c =>
    rw [row, List.mem_append, List.mem_cons]
    rintro (inName | atBlank | inNumeral)
    · exact clean inName
    · exact absurd atBlank (by decide)
    · exact notMem_decimal (by decide) _ inNumeral

/-- **The samples of the exposition** are the published names with the numerals
of their counters. -/
theorem samples_render (cs : Counters) :
    samples (render cs) = published.map fun entry => (entry.1, decimal (cs.get entry.2).toNat) := by
  rw [samples, lines_render, published]
  -- line by line, whatever the layout is
  have plain := layout_plain
  generalize layout = entries at plain ⊢
  induction entries with
  | nil => rfl
  | cons entry entries ih =>
    obtain ⟨front, counter⟩ := entry
    obtain ⟨⟨-, some_byte, kind⟩, others⟩ := List.forall_mem_cons.mp plain
    cases counter with
    | none =>
      have comment : ¬isSample (row cs (front, none)) = true := by
        rw [row, kind]
        exact Bool.false_ne_true
      rw [List.map_cons, List.filter_cons_of_neg comment, ih others]
      rfl
    | some c =>
      have sample : isSample (row cs (front, some c)) = true := by
        rw [row, isSample_append some_byte, kind]
        rfl
      rw [List.map_cons, List.filter_cons_of_pos sample, List.map_cons, ih others, row,
        cut_of_blank _ (notMem_decimal (by decide) _)]
      rfl

/-- What is read by its name is the counter behind it. -/
theorem value?_render (cs : Counters) {name : Bytes} {c : Counter}
    (entry : (name, c) ∈ published) : value? (render cs) name = some (cs.get c).toNat := by
  have apart : ((samples (render cs)).map Prod.fst).Nodup := by
    rw [samples_render, List.map_map]
    exact published_names_nodup
  have sample : (name, decimal (cs.get c).toNat) ∈ samples (render cs) := by
    rw [samples_render]
    exact List.mem_map_of_mem entry
  have found : (samples (render cs)).lookup name = some (decimal (cs.get c).toNat) :=
    (KeyMap.get?_eq_some_iff (m := ⟨samples (render cs), apart⟩)).mpr sample
  rw [value?, found]
  exact Numeral.read?_decimal (cs.get c).toNat_lt

/-- **The counters are read back.** -/
theorem read?_render (cs : Counters) : read? (render cs) = some cs := by
  have numerals : (samples (render cs)).mapM (fun sample => Numeral.read? sample.2)
      = some (cs.toList.map UInt64.toNat) := by
    have each : (fun sample : Bytes × Bytes => Numeral.read? sample.2)
          ∘ (fun entry : Bytes × Counter => (entry.1, decimal (cs.get entry.2).toNat))
        = fun entry => pure (cs.get entry.2).toNat :=
      funext fun entry => Numeral.read?_decimal (cs.get entry.2).toNat_lt
    rw [samples_render, List.mapM_map, each, List.mapM_pure, Counters.toList, List.map_map,
      ← published_counters, List.map_map]
    rfl
  rw [read?, numerals]
  exact ofValues?_toList cs

/-- **Texts that are the same tell of the same counters.** -/
theorem render_inj {cs cs' : Counters} : render cs = render cs' ↔ cs = cs' := by
  refine ⟨fun same => ?_, congrArg render⟩
  have read := read?_render cs
  rw [same, read?_render] at read
  exact (Option.some.inj read).symm

/-! ## One counter among the others -/

/-- Every counter ends a line, and no other line. -/
theorem layout_split (c : Counter) :
    ∃ name before after, (name, c) ∈ published
      ∧ layout = before ++ (name, some c) :: after
      ∧ (∀ entry ∈ before, entry.2 ≠ some c) ∧ ∀ entry ∈ after, entry.2 ≠ some c := by
  have every : ∀ c ∈ Counter.all, (layout.map Prod.snd).count (some c) = 1 := by decide +kernel
  have once := every c (List.mem_of_getElem? (Counter.all_getElem?_index c))
  have mem : some c ∈ layout.map Prod.snd := List.count_pos_iff.mp (by omega)
  obtain ⟨⟨name, counter⟩, among, rfl⟩ := List.mem_map.mp mem
  obtain ⟨before, after, split⟩ := List.append_of_mem among
  have others : (before.map Prod.snd).count (some c) = 0
      ∧ (after.map Prod.snd).count (some c) = 0 := by
    rw [split, List.map_append, List.map_cons, List.count_append, List.count_cons_self] at once
    omega
  refine ⟨name, before, after, List.mem_filterMap.mpr ⟨_, among, rfl⟩, split, ?_, ?_⟩
  · exact fun entry mem eq =>
      List.count_eq_zero.mp others.1 (eq ▸ List.mem_map_of_mem mem)
  · exact fun entry mem eq =>
      List.count_eq_zero.mp others.2 (eq ▸ List.mem_map_of_mem mem)

/-- **A counter shows in its own numeral and nowhere else.** The text before the
numeral and the text behind it are made without looking at the counter. -/
theorem render_of_others (cs : Counters) (c : Counter) :
    ∃ name before after, (name, c) ∈ published
      ∧ ∀ cs' : Counters, (∀ d ≠ c, cs'.get d = cs.get d) →
        render cs' = before ++ name ++ blank :: decimal (cs'.get c).toNat ++ feed :: after := by
  obtain ⟨name, before, after, mem, split, apart⟩ := layout_split c
  refine ⟨name, (before.map (row cs)).flatMap (· ++ [feed]),
    (after.map (row cs)).flatMap (· ++ [feed]), mem, fun cs' same => ?_⟩
  have rows : ∀ entries : List (Bytes × Option Counter), (∀ entry ∈ entries, entry.2 ≠ some c) →
      entries.map (row cs') = entries.map (row cs) := fun entries other =>
    List.map_congr_left fun entry mem => by
      obtain ⟨front, _ | d⟩ := entry
      · rfl
      · rw [row, row, same d fun eq => other _ mem (congrArg some eq)]
  rw [render_eq, split, List.map_append, List.map_cons, rows before apart.1, rows after apart.2,
    List.flatMap_append, List.flatMap_cons, row]
  simp only [List.append_assoc, List.cons_append, List.nil_append]

/-! ## The exposition of what has been counted -/

/-- The names under which the counters are published that a caller may ask for
one by one. -/
def highlighted : List Bytes :=
  ["record_reads_total\x7bresult=\"hit\"\x7d", "record_writes_total", "lock_acquire_timeouts_total",
    "lock_releases_total\x7bstatus=\"not_holder\"\x7d"].map utf8

/-- **The exposition of what has been counted.** Whatever was counted, in whatever
order, the samples of the text are nineteen, under nineteen names, and end in the
numerals of how often each of the nineteen things was counted, modulo the size of
a word. Counting one of them on changes nothing in the text but its own numeral.
The counters are read back from the text, so that it is the text of no others, and
what a caller may ask for one by one is what the text says under its name. -/
theorem exposition_of_counted (counted : List Counter) :
    let cs := Counters.zero.bumpAll counted
    (samples (render cs)
        = published.map (fun (name, c) => (name, decimal (counted.count c % Numeral.wordSize)))
      ∧ published.map Prod.snd = Counter.all ∧ Counter.all.length = 19
      ∧ (published.map Prod.fst).Nodup)
    ∧ (∀ c, ∃ name before after, (name, c) ∈ published
      ∧ ∀ n, render (Counters.zero.bumpAll (counted ++ List.replicate n c))
        = before ++ name ++ blank :: decimal ((counted.count c + n) % Numeral.wordSize)
          ++ feed :: after)
    ∧ read? (render cs) = some cs
    ∧ (∀ cs' : Counters, render cs = render cs' ↔ cs = cs')
    ∧ highlighted.map (value? (render cs)) = cs.highlights.map (fun v => some v.toNat) := by
  intro cs
  refine ⟨⟨?_, published_counters, rfl, published_names_nodup⟩, fun c => ?_, read?_render cs,
    fun _ => render_inj, ?_⟩
  · rw [samples_render]
    exact List.map_congr_left fun entry _ => by rw [Counters.get_bumpAll_zero]
  · obtain ⟨name, before, after, mem, shown⟩ := render_of_others cs c
    refine ⟨name, before, after, mem, fun n => ?_⟩
    have others : ∀ d ≠ c,
        (Counters.zero.bumpAll (counted ++ List.replicate n c)).get d = cs.get d :=
      fun d other => by
        rw [Counters.get_bumpAll, Counters.get_bumpAll, List.count_append, List.count_replicate,
          if_neg (by simpa using Ne.symm other), Nat.add_zero]
    rw [shown _ others, Counters.get_bumpAll_zero, List.count_append, List.count_replicate_self]
  · simp only [highlighted, Counters.highlights, List.map_cons, List.map_nil, List.cons.injEq,
      and_true]
    refine ⟨value?_render cs ?_, value?_render cs ?_, value?_render cs ?_, value?_render cs ?_⟩
      <;> decide +kernel

end Exposition

end AdvisoryStore
