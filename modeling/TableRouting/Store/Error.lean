/-!
# Failures of a store

What a store reports when it cannot do what it is asked, with the part of the
work that failed as the cause and a free text for the detail.
-/

namespace TableRouting

/-- A failure reported by a store. -/
inductive StoreError where
  /-- A connection cannot be obtained or used. -/
  | connection (detail : String)
  /-- A statement failed. -/
  | statement (detail : String)
  /-- A record violates the column mapping. -/
  | constraint (detail : String)
  /-- The operation cannot be applied to the record. -/
  | unsupportedOperation (detail : String)
  /-- A commit failed. -/
  | commit (detail : String)
  /-- A rollback failed. -/
  | rollback (detail : String)
  /-- The writer of this table was released before. -/
  | writerClosed (table : String)
  deriving DecidableEq, Repr

def StoreError.message : StoreError → String
  | .connection detail => s!"Connection error: {detail}"
  | .statement detail => s!"Statement failed: {detail}"
  | .constraint detail => s!"Constraint violation: {detail}"
  | .unsupportedOperation detail => s!"Unsupported operation: {detail}"
  | .commit detail => s!"Commit failed: {detail}"
  | .rollback detail => s!"Rollback failed: {detail}"
  | .writerClosed table => s!"Writer for table '{table}' is closed"

/-- A writer could not be built. -/
structure ConstructionError where
  table : String
  detail : String
  deriving DecidableEq, Repr

def ConstructionError.message : ConstructionError → String
  | ⟨table, detail⟩ => s!"Failed to create writer for table '{table}': {detail}"

/-- A resource could not be released. -/
inductive ReleaseError where
  | writer (table detail : String)
  | dataSource (detail : String)
  deriving DecidableEq, Repr

def ReleaseError.message : ReleaseError → String
  | .writer table detail => s!"Failed to close writer for table '{table}': {detail}"
  | .dataSource detail => s!"Failed to close data source: {detail}"

end TableRouting
