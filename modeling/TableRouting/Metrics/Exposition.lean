import TableRouting.Cache.Statistics
import TableRouting.Metrics.Basic

/-!
# Metrics as text

The metrics are exported in the Prometheus text format: for each metric a help
line, a type line, its samples and an empty line. A table is a label; in a label
a backslash and a quote are escaped.
-/

namespace TableRouting.Metrics

def escapeLabel (label : List Char) : List Char :=
  label.flatMap fun c =>
    if c = '\\' then ['\\', '\\'] else if c = '"' then ['\\', '"'] else [c]

/-- The lines before the samples of a metric. -/
def heading (name help : String) : List String :=
  [s!"# HELP {name} {help}", s!"# TYPE {name} counter"]

def scalarLines (name help : String) (value : UInt64) : List String :=
  let shown := value.toNat
  heading name help ++ [s!"{name} {shown}", ""]

def sampleLine (name table : String) (value : UInt64) : String :=
  name ++ "\x7btable=\"" ++ String.ofList (escapeLabel table.toList) ++ "\"\x7d " ++
    toString value.toNat

def labeledLines (name help : String) (values : List (String × UInt64)) : List String :=
  heading name help ++ values.map (fun (table, value) => sampleLine name table value) ++ [""]

def exportLines (metrics : Metrics) (cache : CacheStatistics) : List String :=
  scalarLines "tabsink_batches_total" "Batches handed to the sink" metrics.batches ++
  scalarLines "tabsink_empty_batches_total" "Empty batches" metrics.emptyBatches ++
  scalarLines "tabsink_fatal_batches_total" "Batches rolled back on a fatal error"
    metrics.fatalBatches ++
  scalarLines "tabsink_records_written_total" "Records committed" metrics.written ++
  scalarLines "tabsink_records_errored_total" "Records routed to the error handler"
    metrics.errored ++
  scalarLines "tabsink_records_discarded_total"
    "Records dropped by the unsupported-operation policy" metrics.discarded ++
  labeledLines "tabsink_table_records_written" "Records committed per table"
    metrics.tableWritten.toList ++
  labeledLines "tabsink_table_records_errored" "Records routed to the error handler per table"
    metrics.tableErrored.toList ++
  scalarLines "tabsink_writer_cache_hits_total" "Writer cache hits" cache.hits ++
  scalarLines "tabsink_writer_cache_misses_total" "Writer cache misses" cache.misses ++
  scalarLines "tabsink_writer_constructions_total" "Writers constructed" cache.constructions ++
  scalarLines "tabsink_writer_construction_failures_total" "Writer constructions that failed"
    cache.constructionFailures ++
  scalarLines "tabsink_writer_evictions_total" "Writers evicted to stay within capacity"
    cache.evictions ++
  scalarLines "tabsink_writer_expirations_total" "Writers released after their TTL"
    cache.expirations ++
  scalarLines "tabsink_writer_cache_sweeps_total" "Writer cache maintenance sweeps" cache.sweeps

/-- The exported text; every line ends with a newline. -/
def exportText (metrics : Metrics) (cache : CacheStatistics) : String :=
  String.join ((metrics.exportLines cache).map (· ++ "\n"))

end TableRouting.Metrics
