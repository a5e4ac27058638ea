import Std.Data.TreeMap

/-!
# Sink metrics

Counters of batches and records, in total and per table. They are 64-bit words
and wrap. A table gets a counter with its first count that is not zero.
-/

namespace TableRouting

/-- Counters of one sink. -/
structure Metrics where
  /-- Batches handed to the sink, empty ones included. -/
  batches : UInt64 := 0
  emptyBatches : UInt64 := 0
  /-- Batches that failed and were rolled back. -/
  fatalBatches : UInt64 := 0
  written : UInt64 := 0
  errored : UInt64 := 0
  discarded : UInt64 := 0
  /-- Records written per table. -/
  tableWritten : Std.TreeMap String UInt64 := {}
  /-- Records errored per table. -/
  tableErrored : Std.TreeMap String UInt64 := {}
  deriving Repr

namespace Metrics

def addTo (counters : Std.TreeMap String UInt64) (table : String) (count : UInt64) :
    Std.TreeMap String UInt64 :=
  if count = 0 then counters else counters.insert table (counters.getD table 0 + count)

def addBatch (metrics : Metrics) (written errored discarded : UInt64) : Metrics :=
  { metrics with
    batches := metrics.batches + 1
    written := metrics.written + written
    errored := metrics.errored + errored
    discarded := metrics.discarded + discarded }

def addEmptyBatch (metrics : Metrics) : Metrics :=
  { metrics with batches := metrics.batches + 1, emptyBatches := metrics.emptyBatches + 1 }

def addFatalBatch (metrics : Metrics) : Metrics :=
  { metrics with batches := metrics.batches + 1, fatalBatches := metrics.fatalBatches + 1 }

def addTableWritten (metrics : Metrics) (table : String) (count : UInt64) : Metrics :=
  { metrics with tableWritten := addTo metrics.tableWritten table count }

def addTableErrored (metrics : Metrics) (table : String) (count : UInt64) : Metrics :=
  { metrics with tableErrored := addTo metrics.tableErrored table count }

def writtenTo (metrics : Metrics) (table : String) : UInt64 :=
  metrics.tableWritten.getD table 0

def erroredIn (metrics : Metrics) (table : String) : UInt64 :=
  metrics.tableErrored.getD table 0

/-- Adding to a table's counter adds to what is read back, and to no other counter. -/
theorem getD_addTo (counters : Std.TreeMap String UInt64) (table other : String)
    (count : UInt64) :
    (addTo counters table count).getD other 0 =
      counters.getD other 0 + if table = other then count else 0 := by
  by_cases h : count = 0
  · simp [addTo, h]
  · by_cases ht : table = other
    · subst ht
      simp [addTo, h]
    · simp [addTo, h, ht, Std.TreeMap.getD_insert]

end Metrics

end TableRouting
