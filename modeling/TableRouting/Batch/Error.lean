import TableRouting.Store.Error

/-!
# Failures of batches

A batch that fails is rolled back as a whole. The error says at which stage it
failed and, where the store is to blame, why.
-/

namespace TableRouting

/-- Why a batch was rolled back. -/
inductive WriteError where
  /-- The store failed while the group of a table was written. -/
  | store (table : String) (source : StoreError)
  /-- The writer of a table could not be built. -/
  | construction (source : ConstructionError)
  /-- The commit failed. -/
  | commit (source : StoreError)
  /-- No connection could be obtained or used. -/
  | connection (source : StoreError)
  /-- The error policy stopped the run at a record. -/
  | stopPipeline (recordId detail : String)
  deriving DecidableEq, Repr

namespace WriteError

def message : WriteError → String
  | .store table source =>
    let detail := source.message
    s!"Write to table '{table}' failed: {detail}"
  | .construction source => source.message
  | .commit source =>
    let detail := source.message
    s!"Commit failed: {detail}"
  | .connection source =>
    let detail := source.message
    s!"Could not obtain connection: {detail}"
  | .stopPipeline recordId detail => s!"Pipeline stopped on record '{recordId}': {detail}"

def store? : WriteError → Option StoreError
  | .store _ source => some source
  | .commit source => some source
  | .connection source => some source
  | .construction _ => none
  | .stopPipeline _ _ => none

end WriteError

end TableRouting
