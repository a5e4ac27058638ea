/-!
# Batch outcomes

What became of a committed batch: in total, and per table in the order in which
the tables first appeared.
-/

namespace TableRouting

structure TableOutcome where
  table : String
  written : Nat := 0
  errored : Nat := 0
  discarded : Nat := 0
  deriving DecidableEq, Repr

/-- What became of a committed batch. -/
structure WriteOutcome where
  written : Nat := 0
  /-- Records that failed, those without a table included. -/
  errored : Nat := 0
  discarded : Nat := 0
  tables : List TableOutcome := []
  deriving DecidableEq, Repr

namespace WriteOutcome

def table? (outcome : WriteOutcome) (name : String) : Option TableOutcome :=
  outcome.tables.find? fun t => t.table = name

/-- The outcome of a batch whose tables fared like this. Records without a table
count as errored. -/
def ofTables (unresolved : Nat) (tables : List TableOutcome) : WriteOutcome where
  written := (tables.map TableOutcome.written).foldr (· + ·) 0
  errored := unresolved + (tables.map TableOutcome.errored).foldr (· + ·) 0
  discarded := (tables.map TableOutcome.discarded).foldr (· + ·) 0
  tables

end WriteOutcome

end TableRouting
