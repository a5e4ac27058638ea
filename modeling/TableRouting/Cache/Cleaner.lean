import TableRouting.Cache.Workshop

/-!
# Rate-limited maintenance

There is no background sweeper. A caller with nothing else to do asks the cleaner
for maintenance, and the cleaner turns that into a sweep at most once per
interval, measured from its creation.
-/

namespace TableRouting

/-- A limiter of sweeps. -/
structure Cleaner where
  interval : Nat
  /-- The time of the last sweep, or of the creation. -/
  lastSweep : Nat
  attempts : UInt64 := 0
  sweeps : UInt64 := 0
  deriving DecidableEq, Repr

namespace Cleaner

def start (interval now : Nat) : Cleaner := { interval, lastSweep := now }

/-- Ask for maintenance at a time: whether a sweep is due, and the cleaner after
the question. -/
def attempt (cleaner : Cleaner) (now : Nat) : Bool × Cleaner :=
  let cleaner := { cleaner with attempts := cleaner.attempts + 1 }
  if now - cleaner.lastSweep < cleaner.interval then (false, cleaner)
  else (true, { cleaner with lastSweep := now, sweeps := cleaner.sweeps + 1 })

/-- Sweep the cache if a sweep is due. Returns the number of writers removed, or
none when there was no sweep. -/
def maintain {n : Type → Type} [Monad n] {ω : Type} [MonadStateOf (WriterCache ω) n]
    (workshop : Workshop n ω) (cleaner : Cleaner) : n (Option Nat × Cleaner) := do
  let (due, cleaner) := cleaner.attempt (← workshop.now)
  if due then
    let removed ← workshop.cleanUp
    pure (some removed, cleaner)
  else pure (none, cleaner)

end Cleaner

end TableRouting
