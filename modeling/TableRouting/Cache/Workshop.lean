import TableRouting.Cache.Basic

/-!
# Working with a writer cache

The steps of a writer cache put together with the building and closing of writers
that happens between them. Building and closing are effects of the outside world,
which may itself call into the cache; so they run in a monad that carries the
cache as its state. They may also break off: in a monad with exceptions that keep
the state, whatever was to follow is left out, and the cache stays as the last
step left it.
-/

namespace TableRouting

/-- Computations with a writer cache over the effects `m`. -/
abbrev CacheT (ω : Type) (m : Type → Type) := StateT (WriterCache ω) m

/-- How a construction ended. -/
inductive Construction (ω : Type) where
  | built (writer : ω)
  | refused (error : ConstructionError)
  /-- The construction broke off without an answer. -/
  | panicked

/-- What a writer cache needs from the outside: the time, and how writers are
built and closed. The effects `n` carry the cache, as `CacheT ω m` does. -/
structure Workshop (n : Type → Type) (ω : Type) where
  now : n Nat
  create : String → n (Construction ω)
  close : ω → n (Except StoreError Unit × ω)

/-- Why a lookup gave no writer. -/
inductive Unavailable where
  | construction (error : ConstructionError)
  /-- The construction that this lookup began broke off. -/
  | panicked
  /-- The flight that this lookup joined has not ended. A lookup made from within
  a construction of the same table would wait for itself. -/
  | unfinished
  deriving DecidableEq, Repr

namespace Workshop

variable {n : Type → Type} [Monad n] {ω : Type} [MonadStateOf (WriterCache ω) n]
  (workshop : Workshop n ω)

def step {α : Type} (f : WriterCache ω → α × WriterCache ω) : n α := modifyGet f

/-- Close the writer of a handle. False if it was closed before. -/
def closeHandle (id : Nat) : n (Except ReleaseError Bool) := do
  match ← step (·.beginClose id) with
  | none => pure (.ok false)
  | some writer =>
    let (result, writer) ← workshop.close writer
    modify (·.modifyHandle id fun h => { h with writer })
    match result with
    | .ok () => pure (.ok true)
    | .error e =>
      let table := (((← getThe (WriterCache ω)).handle? id).map WriterHandle.table).getD ""
      pure (.error (.writer table e.message))

/-- Close the writers of handles that left the cache. Returns how many were
open; a writer whose closing failed counts as closed. -/
def release : List Nat → n Nat
  | [] => pure 0
  | id :: rest => do
    let closed ← workshop.closeHandle id
    let more ← release rest
    match closed with
    | .ok false => pure more
    | _ => pure (more + 1)

/-- End a flight whose construction returned, hand its outcome to the callers that
joined it, and close the writers that had to leave the cache. -/
def complete (table : String) (flight : Nat) (built : Except ConstructionError ω) :
    n (Except Unavailable Nat) := do
  let now ← workshop.now
  let (outcome, released) ← step fun cache =>
    let (outcome, released, cache) := cache.finish table flight built now
    ((outcome, released), cache)
  modify (·.publish flight outcome)
  let _ ← workshop.release released
  pure (outcome.mapError .construction)

def breakOff (table : String) (flight : Nat) : n (Except Unavailable Nat) := do
  modify (·.abandon table flight)
  modify (·.publish flight (.error (WriterCache.brokenError table)))
  pure (.error .panicked)

/-- Get the writer of a table, building it on first use. -/
def get (table : String) : n (Except Unavailable Nat) := do
  let now ← workshop.now
  match ← step fun cache : WriterCache ω => cache.lookup table now with
  | .hit handle => pure (.ok handle)
  | .join flight =>
    match (← getThe (WriterCache ω)).outcome? flight with
    | some outcome => pure (outcome.mapError .construction)
    | none => pure (.error .unfinished)
  | .build flight expired =>
    let _ ← workshop.release expired.toList
    match ← workshop.create table with
    | .built writer => workshop.complete table flight (.ok writer)
    | .refused e => workshop.complete table flight (.error e)
    | .panicked => breakOff (ω := ω) table flight

/-- Close every expired writer. Returns how many left the cache. -/
def cleanUp : n Nat := do
  let now ← workshop.now
  let released ← step fun cache : WriterCache ω => cache.sweep now
  let _ ← workshop.release released
  pure released.length

/-- Close every cached writer. Returns how many were closed. -/
def invalidateAll : n Nat := do
  workshop.release (← step (ω := ω) WriterCache.invalidate)

def withWriter {α : Type} (id : Nat) (use : ω → n (α × ω)) : n (Except StoreError α) := do
  match (← getThe (WriterCache ω)).handle? id with
  | none => pure (.error (.writerClosed ""))
  | some handle =>
    if handle.closed then pure (.error (.writerClosed handle.table))
    else
      let (result, writer) ← use handle.writer
      modify (·.modifyHandle id fun h => { h with writer })
      pure (.ok result)

end Workshop

end TableRouting
