import TableRouting.Proofs.Metrics.Samples

/-!
# What the exported text says

The exported text is made of one part for each counter and one for the tables of each kind.
Read line by line, it gives the samples of the metrics, one for each counter and one for each
table, unless some table has a line break in its name.  Read as a whole it always says what
the metrics are, since a quote within the name of a table is escaped: metrics that differ are
exported as texts that differ.
-/

namespace TableRouting.Metrics

/-! ## Parts of the text -/

/-- A counter that is exported as one sample. -/
structure Scalar where
  name : String
  help : String
  value : UInt64

namespace Scalar

def lines (scalar : Scalar) : List String := scalarLines scalar.name scalar.help scalar.value

def sample (scalar : Scalar) : Sample := .scalar scalar.name scalar.value.toNat

end Scalar

def scalars (metrics : Metrics) : List Scalar :=
  [⟨"tabsink_batches_total", "Batches handed to the sink", metrics.batches⟩,
    ⟨"tabsink_empty_batches_total", "Empty batches", metrics.emptyBatches⟩,
    ⟨"tabsink_fatal_batches_total", "Batches rolled back on a fatal error",
      metrics.fatalBatches⟩,
    ⟨"tabsink_records_written_total", "Records committed", metrics.written⟩,
    ⟨"tabsink_records_errored_total", "Records routed to the error handler", metrics.errored⟩,
    ⟨"tabsink_records_discarded_total", "Records dropped by the unsupported-operation policy",
      metrics.discarded⟩]

def cacheScalars (cache : CacheStatistics) : List Scalar :=
  [⟨"tabsink_writer_cache_hits_total", "Writer cache hits", cache.hits⟩,
    ⟨"tabsink_writer_cache_misses_total", "Writer cache misses", cache.misses⟩,
    ⟨"tabsink_writer_constructions_total", "Writers constructed", cache.constructions⟩,
    ⟨"tabsink_writer_construction_failures_total", "Writer constructions that failed",
      cache.constructionFailures⟩,
    ⟨"tabsink_writer_evictions_total", "Writers evicted to stay within capacity",
      cache.evictions⟩,
    ⟨"tabsink_writer_expirations_total", "Writers released after their TTL", cache.expirations⟩,
    ⟨"tabsink_writer_cache_sweeps_total", "Writer cache maintenance sweeps", cache.sweeps⟩]

/-- The tables for which records were written, each with their number. -/
def writtenLines (metrics : Metrics) : List String :=
  labeledLines "tabsink_table_records_written" "Records committed per table"
    metrics.tableWritten.toList

def erroredLines (metrics : Metrics) : List String :=
  labeledLines "tabsink_table_records_errored" "Records routed to the error handler per table"
    metrics.tableErrored.toList

theorem exportLines_eq (metrics : Metrics) (cache : CacheStatistics) :
    metrics.exportLines cache = metrics.scalars.flatMap Scalar.lines ++
      (metrics.writtenLines ++ (metrics.erroredLines ++
        (cacheScalars cache).flatMap Scalar.lines)) := by
  simp only [exportLines, scalars, cacheScalars, List.flatMap_cons, List.flatMap_nil,
    List.append_assoc, List.append_nil]
  rfl

theorem named_scalars (metrics : Metrics) :
    ∀ scalar ∈ metrics.scalars, Named scalar.name scalar.help := by
  simp only [scalars, List.forall_mem_cons]
  exact ⟨.ofList rfl, .ofList rfl, .ofList rfl, .ofList rfl, .ofList rfl, .ofList rfl,
    List.forall_mem_nil _⟩

theorem named_cacheScalars (cache : CacheStatistics) :
    ∀ scalar ∈ cacheScalars cache, Named scalar.name scalar.help := by
  simp only [cacheScalars, List.forall_mem_cons]
  exact ⟨.ofList rfl, .ofList rfl, .ofList rfl, .ofList rfl, .ofList rfl, .ofList rfl,
    .ofList rfl, List.forall_mem_nil _⟩

theorem named_written : Named "tabsink_table_records_written" "Records committed per table" :=
  .ofList rfl

theorem named_errored :
    Named "tabsink_table_records_errored" "Records routed to the error handler per table" :=
  .ofList rfl

/-! ## Reading line by line -/

def tableSamples (name : String) (counters : Std.TreeMap String UInt64) : List Sample :=
  counters.toList.map fun (table, value) => .ofTable name table value.toNat

def samples (metrics : Metrics) (cache : CacheStatistics) : List Sample :=
  metrics.scalars.map Scalar.sample ++
    (tableSamples "tabsink_table_records_written" metrics.tableWritten ++
      (tableSamples "tabsink_table_records_errored" metrics.tableErrored ++
        (cacheScalars cache).map Scalar.sample))

theorem readWritten_scalars {scalars : List Scalar}
    (hnamed : ∀ scalar ∈ scalars, Named scalar.name scalar.help) (rest : List String) :
    readWritten (scalars.flatMap Scalar.lines ++ rest) =
      (readWritten rest).map (scalars.map Scalar.sample ++ ·) := by
  induction scalars with
  | nil => simp
  | cons scalar scalars ih =>
      obtain ⟨hfirst, hnamed⟩ := List.forall_mem_cons.mp hnamed
      rw [List.flatMap_cons, List.append_assoc, Scalar.lines, hfirst.readWritten_scalarLines,
        ih hnamed, Option.map_map]
      rfl

/-- No table of the counters has a line break in its name. -/
def Unbroken (counters : Std.TreeMap String UInt64) : Prop :=
  ∀ table ∈ counters, '\n' ∉ table.toList

variable {name help : String} {counters : Std.TreeMap String UInt64}

theorem unbroken_iff : Unbroken counters ↔ ∀ pair ∈ counters.toList, '\n' ∉ pair.1.toList := by
  simp only [Unbroken, ← Std.TreeMap.mem_keys, ← Std.TreeMap.map_fst_toList_eq_keys,
    List.forall_mem_map]

theorem readWritten_labeledLines (hnamed : Named name help) (hplain : Unbroken counters)
    (rest : List String) :
    readWritten (labeledLines name help counters.toList ++ rest) =
      (readWritten rest).map (tableSamples name counters ++ ·) := by
  rw [labeledLines, List.append_assoc, List.append_assoc, hnamed.readWritten_heading,
    hnamed.readWritten_tables (unbroken_iff.mp hplain), List.singleton_append, readWritten_empty]
  rfl

theorem readWritten_labeledLines_broken (hnamed : Named name help) (hbroken : ¬ Unbroken counters)
    (rest : List String) :
    readWritten (labeledLines name help counters.toList ++ rest) = none := by
  have hbreak : ∃ pair ∈ counters.toList, '\n' ∈ pair.1.toList := by
    simpa [unbroken_iff] using hbroken
  rw [labeledLines, List.append_assoc, List.append_assoc, hnamed.readWritten_heading,
    hnamed.readWritten_tables_broken hbreak]

/-- The exported text is read back if no table has a line break in its name. -/
theorem readSamples_exportText {metrics : Metrics} (hwritten : Unbroken metrics.tableWritten)
    (herrored : Unbroken metrics.tableErrored) (cache : CacheStatistics) :
    readSamples (metrics.exportText cache) = some (metrics.samples cache) := by
  have hcache : readWritten ((cacheScalars cache).flatMap Scalar.lines) =
      some ((cacheScalars cache).map Scalar.sample) := by
    have hread := readWritten_scalars (named_cacheScalars cache) []
    rwa [List.append_nil, readWritten_nil, Option.map_some, List.append_nil] at hread
  rw [exportText, readSamples_join, exportLines_eq, readWritten_scalars (named_scalars metrics),
    writtenLines, readWritten_labeledLines named_written hwritten, erroredLines,
    readWritten_labeledLines named_errored herrored, hcache]
  rfl

/-- It is not read back if some table has a line break in its name. -/
theorem readSamples_exportText_broken {metrics : Metrics}
    (hbroken : ¬ (Unbroken metrics.tableWritten ∧ Unbroken metrics.tableErrored))
    (cache : CacheStatistics) : readSamples (metrics.exportText cache) = none := by
  rw [exportText, readSamples_join, exportLines_eq, readWritten_scalars (named_scalars metrics),
    writtenLines]
  by_cases hwritten : Unbroken metrics.tableWritten
  · have herrored : ¬ Unbroken metrics.tableErrored := fun herrored => hbroken ⟨hwritten, herrored⟩
    rw [readWritten_labeledLines named_written hwritten, erroredLines,
      readWritten_labeledLines_broken named_errored herrored]
    rfl
  · rw [readWritten_labeledLines_broken named_written hwritten]
    rfl

/-! ## Reading the text as a whole -/

/-- A number in decimal digits ends where its line does. -/
theorem digits_inj {value other : UInt64} {after rest : List Char}
    (hsame : Nat.toDigits 10 value.toNat ++ '\n' :: after =
      Nat.toDigits 10 other.toNat ++ '\n' :: rest) : value = other ∧ after = rest := by
  obtain ⟨hdigits, hafter⟩ := Text.append_cons_inj (lineBreak_not_mem_toDigits value.toNat)
    (lineBreak_not_mem_toDigits other.toNat) hsame
  refine ⟨UInt64.toNat_inj.mp ?_, hafter⟩
  calc
    value.toNat = Nat.ofDigitChars 10 (Nat.toDigits 10 value.toNat) 0 :=
      Nat.ofDigitChars_ten_toDigits.symm
    _ = Nat.ofDigitChars 10 (Nat.toDigits 10 other.toNat) 0 := by rw [hdigits]
    _ = other.toNat := Nat.ofDigitChars_ten_toDigits

theorem scalarLines_inj {value other : UInt64} {after rest : List Char}
    (hsame : textOf (scalarLines name help value) ++ after =
      textOf (scalarLines name help other) ++ rest) : value = other ∧ after = rest := by
  have htext (value : UInt64) (rest : List Char) :
      textOf (scalarLines name help value) ++ rest = textOf (heading name help) ++
        (name.toList ++ ' ' :: (Nat.toDigits 10 value.toNat ++ '\n' :: '\n' :: rest)) := by
    simp [scalarLines_eq, textOf]
  rw [htext, htext] at hsame
  have hline := List.append_cancel_left (List.append_cancel_left hsame)
  obtain ⟨hvalue, hafter⟩ := digits_inj (List.cons_eq_cons.mp hline).2
  exact ⟨hvalue, (List.cons_eq_cons.mp hafter).2⟩

theorem Scalar.lines_inj {scalar other : Scalar} (hname : scalar.name = other.name)
    (hhelp : scalar.help = other.help) {after rest : List Char}
    (hsame : textOf scalar.lines ++ after = textOf other.lines ++ rest) :
    scalar = other ∧ after = rest := by
  obtain ⟨name, help, value⟩ := scalar
  obtain ⟨_, _, otherValue⟩ := other
  obtain rfl : name = _ := hname
  obtain rfl : help = _ := hhelp
  obtain ⟨hvalue, hafter⟩ : value = otherValue ∧ after = rest := scalarLines_inj hsame
  rw [hvalue]
  exact ⟨rfl, hafter⟩

/-- Counters with the same names are told apart by their values. -/
theorem scalars_inj {scalars others : List Scalar}
    (hnames : scalars.map (fun scalar => (scalar.name, scalar.help)) =
      others.map fun scalar => (scalar.name, scalar.help)) {after rest : List Char}
    (hsame : textOf (scalars.flatMap Scalar.lines) ++ after =
      textOf (others.flatMap Scalar.lines) ++ rest) : scalars = others ∧ after = rest := by
  induction scalars generalizing others with
  | nil =>
      obtain rfl : others = [] := List.map_eq_nil_iff.mp hnames.symm
      exact ⟨rfl, hsame⟩
  | cons scalar scalars ih =>
      obtain ⟨other, others, rfl, hfirst, hlater⟩ := List.map_eq_cons_iff.mp hnames.symm
      obtain ⟨hname, hhelp⟩ := Prod.mk.inj hfirst
      rw [List.flatMap_cons, List.flatMap_cons, textOf_append, textOf_append, List.append_assoc,
        List.append_assoc] at hsame
      obtain ⟨rfl, hrest⟩ := Scalar.lines_inj hname.symm hhelp.symm hsame
      obtain ⟨rfl, hafter⟩ := ih hlater.symm hrest
      exact ⟨rfl, hafter⟩

theorem textOf_sampleLine (name table : String) (value : UInt64) (rest : List String) :
    textOf (sampleLine name table value :: rest) =
      name.toList ++ (labelOpening ++ (escapeLabel table.toList ++
        '"' :: '}' :: ' ' :: (Nat.toDigits 10 value.toNat ++ '\n' :: textOf rest))) := by
  rw [textOf_cons, toList_sampleLine]
  simp only [List.append_assoc, List.cons_append]

/-- The line of a sample is not the empty line that ends the samples. -/
theorem Named.textOf_sampleLine_ne (hnamed : Named name help) (table : String) (value : UInt64)
    (lines : List String) (after rest : List Char) :
    textOf (sampleLine name table value :: lines) ++ after ≠ '\n' :: rest := by
  intro hsame
  rw [textOf_sampleLine, List.append_assoc] at hsame
  have hbegins := hnamed.begins
  have hline := hnamed.line
  cases hname : name.toList with
  | nil =>
      rw [hname] at hbegins
      exact Bool.false_ne_true hbegins
  | cons c later =>
      rw [hname] at hsame hline
      have hfirst : c = '\n' := (List.cons_eq_cons.mp hsame).1
      exact hline (hfirst ▸ List.mem_cons_self)

/-- The samples of tables are told apart, whatever the names of the tables are. -/
theorem Named.tables_inj (hnamed : Named name help) {values others : List (String × UInt64)}
    {after rest : List Char}
    (hsame : textOf (values.map fun (table, value) => sampleLine name table value) ++
        '\n' :: after =
      textOf (others.map fun (table, value) => sampleLine name table value) ++ '\n' :: rest) :
    values = others ∧ after = rest := by
  induction values generalizing others with
  | nil =>
      cases others with
      | nil => exact ⟨rfl, (List.cons_eq_cons.mp hsame).2⟩
      | cons other others => exact absurd hsame.symm (hnamed.textOf_sampleLine_ne _ _ _ _ _)
  | cons pair values ih =>
      cases others with
      | nil => exact absurd hsame (hnamed.textOf_sampleLine_ne _ _ _ _ _)
      | cons other others =>
          obtain ⟨table, value⟩ := pair
          obtain ⟨otherTable, otherValue⟩ := other
          simp only [List.map_cons, textOf_sampleLine, List.append_assoc, List.cons_append] at hsame
          -- What a label is and what follows it can be read off, so both agree.
          have hlabel := congrArg readLabel
            (List.append_cancel_left (List.append_cancel_left hsame))
          rw [readLabel_escapeLabel, readLabel_escapeLabel] at hlabel
          obtain ⟨htable, hdigits⟩ := Prod.mk.inj (Option.some.inj hlabel)
          obtain ⟨rfl, hrest⟩ :=
            digits_inj (List.cons_eq_cons.mp (List.cons_eq_cons.mp hdigits).2).2
          obtain ⟨rfl, hafter⟩ := ih hrest
          rw [String.toList_inj.mp htable]
          exact ⟨rfl, hafter⟩

theorem labeledLines_inj (hnamed : Named name help) {values others : List (String × UInt64)}
    {after rest : List Char}
    (hsame : textOf (labeledLines name help values) ++ after =
      textOf (labeledLines name help others) ++ rest) : values = others ∧ after = rest := by
  have htext (values : List (String × UInt64)) (rest : List Char) :
      textOf (labeledLines name help values) ++ rest = textOf (heading name help) ++
        (textOf (values.map fun (table, value) => sampleLine name table value) ++
          '\n' :: rest) := by
    simp only [labeledLines, textOf_append, List.append_assoc]
    rfl
  rw [htext, htext] at hsame
  exact hnamed.tables_inj (List.append_cancel_left hsame)

/-- The lines of the tables say what the counters of the tables are. -/
theorem tableLines_inj (hnamed : Named name help) {values others : List (String × UInt64)}
    (hsame : textOf (labeledLines name help values) = textOf (labeledLines name help others)) :
    values = others := by
  have hfollowed : textOf (labeledLines name help values) ++ [] =
      textOf (labeledLines name help others) ++ [] := by
    rw [hsame]
  exact (labeledLines_inj hnamed hfollowed).1

/-- Metrics and a cache that are exported alike. -/
structure Alike (metrics other : Metrics) (cache otherCache : CacheStatistics) : Prop where
  scalars : metrics.scalars = other.scalars
  written : metrics.tableWritten.toList = other.tableWritten.toList
  errored : metrics.tableErrored.toList = other.tableErrored.toList
  cache : cacheScalars cache = cacheScalars otherCache

/-- The exported text says what the metrics are. -/
theorem exportText_inj {metrics other : Metrics} {cache otherCache : CacheStatistics}
    (hsame : metrics.exportText cache = other.exportText otherCache) :
    Alike metrics other cache otherCache := by
  have htext := congrArg String.toList hsame
  simp only [exportText, toList_join, exportLines_eq, textOf_append] at htext
  obtain ⟨hscalars, htables⟩ := scalars_inj (by rfl) htext
  obtain ⟨hwritten, hothers⟩ := labeledLines_inj named_written htables
  obtain ⟨herrored, hrest⟩ := labeledLines_inj named_errored hothers
  have hcache : textOf ((cacheScalars cache).flatMap Scalar.lines) ++ [] =
      textOf ((cacheScalars otherCache).flatMap Scalar.lines) ++ [] := by
    rw [hrest]
  exact ⟨hscalars, hwritten, herrored, (scalars_inj (by rfl) hcache).1⟩

end TableRouting.Metrics
