import TableRouting.Decimal.Fixed

/-!
# Cache statistics

Counters of what happened to a writer cache. They are 64-bit words and wrap.
-/

namespace TableRouting

structure CacheStatistics where
  /-- Lookups served by a cached writer or by a construction under way. -/
  hits : UInt64 := 0
  /-- Lookups that began a construction. -/
  misses : UInt64 := 0
  /-- Writers built. -/
  constructions : UInt64 := 0
  /-- Constructions that failed. -/
  constructionFailures : UInt64 := 0
  /-- Writers removed to stay within the capacity. -/
  evictions : UInt64 := 0
  /-- Writers removed because they were unused for too long. -/
  expirations : UInt64 := 0
  /-- Writers removed by an invalidation. -/
  invalidations : UInt64 := 0
  /-- Sweeps made. -/
  sweeps : UInt64 := 0
  deriving DecidableEq, Repr

def CacheStatistics.named (statistics : CacheStatistics) : List (String × UInt64) :=
  [("hits", statistics.hits), ("misses", statistics.misses),
    ("constructions", statistics.constructions),
    ("construction_failures", statistics.constructionFailures),
    ("evictions", statistics.evictions), ("expirations", statistics.expirations),
    ("invalidations", statistics.invalidations), ("sweeps", statistics.sweeps)]

/-- The share of lookups that were hits; zero before the first lookup. -/
def CacheStatistics.hitRate (statistics : CacheStatistics) : Float :=
  let total := statistics.hits + statistics.misses
  if total = 0 then 0 else statistics.hits.toFloat / total.toFloat

def CacheStatistics.hitRateText (statistics : CacheStatistics) : String :=
  Decimal.fixed 6 statistics.hitRate.toBits

end TableRouting
