import TableRouting.Cache.Workshop
import TableRouting.Record
import TableRouting.Store.Spec

/-!
# Stores

The sink writes through a store: a source of connections, one per batch, and
writers, one per table. A connection is a transaction with savepoints. Each
operation is an effect in `m`; connections `κ` and writers `ω` are values that the
operations take and give back.
-/

namespace TableRouting

structure Store (m : Type → Type) (κ ω : Type) extends Workshop (CacheT ω m) ω where
  /-- Obtain a connection for one batch. -/
  connect : m (Except StoreError κ)
  /-- Mark the current point of the transaction. -/
  savepoint : κ → m (Except StoreError Nat × κ)
  /-- Discard what was written after a savepoint. -/
  rollbackTo : Nat → κ → m (Except StoreError Unit × κ)
  /-- Make everything written durable. -/
  commit : κ → m (Except StoreError Unit × κ)
  /-- Discard everything written since the last commit. -/
  rollback : κ → m (Except StoreError Unit × κ)
  /-- Write a group of records. The answer is a report, or a failure of the whole
  group; what was written before such a failure is still on the connection. -/
  write : ω → List Record → κ → m (Except StoreError WriteReport × ω × κ)
  /-- Release the source of connections. -/
  closeSource : m (Except StoreError Unit)

end TableRouting
