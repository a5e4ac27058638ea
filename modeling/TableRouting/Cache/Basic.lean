import Std.Data.HashMap
import TableRouting.Cache.AccessList
import TableRouting.Cache.Statistics
import TableRouting.Store.Error

/-!
# Writer caches

Writers are built lazily, one per table, and kept in a bounded cache. The map
sends a table to its entry in the access list, or marks it as being built. Each
construction is a numbered *flight*; callers that ask for a table in flight join
the flight and share its outcome.

Every function here is one atomic step: it is what happens while the cache's lock
is held. Building and closing writers happens between the steps. A step that
takes writers out of the cache returns their handles, and whoever made the step
closes them afterwards.
-/

namespace TableRouting

/-- Sizes and times of a writer cache. Times are in milliseconds. -/
structure CacheLimits where
  /-- The most writers cached; zero counts as one. -/
  capacity : Nat := 500
  /-- How long a writer may go unused. -/
  ttl : Nat := 3600000
  /-- The least time between two sweeps. -/
  cleanupInterval : Nat := 600000
  deriving DecidableEq, Repr

/-- A writer that was built. Its state is kept after it was closed. -/
structure WriterHandle (ω : Type) where
  table : String
  writer : ω
  closed : Bool := false

/-- A cached writer: its table, the number of its handle, and when it was last
used. -/
structure CacheEntry where
  table : String
  handle : Nat
  lastAccess : Nat
  deriving DecidableEq, Repr

/-- What the map says about a table. -/
inductive CacheSlot where
  /-- The writer is cached, in this slot of the access list. -/
  | ready (slot : Nat)
  /-- The writer is being built by this flight. -/
  | loading (flight : Nat)
  deriving DecidableEq, Repr

/-- What a flight hands to the callers that joined it. -/
abbrev FlightOutcome := Except ConstructionError Nat

/-- A cache of writers. Handles are numbered from one, flights from zero. -/
structure WriterCache (ω : Type) where
  limits : CacheLimits := {}
  slots : Std.HashMap String CacheSlot := {}
  order : AccessList CacheEntry := {}
  /-- Every writer built, in the order of their numbers. -/
  handles : Array (WriterHandle ω) := #[]
  /-- Every flight begun, with its outcome once it has one. -/
  flights : Array (Option FlightOutcome) := #[]
  statistics : CacheStatistics := {}

namespace WriterCache

variable {ω : Type}

inductive Lookup where
  /-- The writer is cached. -/
  | hit (handle : Nat)
  /-- The writer is being built; its flight is joined. -/
  | join (flight : Nat)
  /-- The caller has to build the writer, as a new flight. A writer that was
  cached but went unused for too long is to be closed first. -/
  | build (flight : Nat) (expired : Option Nat)
  deriving DecidableEq, Repr

def isExpired (cache : WriterCache ω) (entry : CacheEntry) (now : Nat) : Bool :=
  cache.limits.ttl ≤ now - entry.lastAccess

def count (cache : WriterCache ω) (f : CacheStatistics → CacheStatistics) : WriterCache ω :=
  { cache with statistics := f cache.statistics }

def beginFlight (cache : WriterCache ω) (table : String) : Nat × WriterCache ω :=
  let flight := cache.flights.size
  (flight,
    { cache with
      flights := cache.flights.push none
      slots := cache.slots.insert table (.loading flight) }.count
        fun s => { s with misses := s.misses + 1 })

def lookup (cache : WriterCache ω) (table : String) (now : Nat) : Lookup × WriterCache ω :=
  match cache.slots[table]? with
  | some (.loading flight) =>
    (.join flight, cache.count fun s => { s with hits := s.hits + 1 })
  | none =>
    let (flight, cache) := cache.beginFlight table
    (.build flight none, cache)
  | some (.ready slot) =>
    match cache.order.get? slot with
    | none =>
      let (flight, cache) := cache.beginFlight table
      (.build flight none, cache)
    | some entry =>
      if cache.isExpired entry now then
        let (_, order) := cache.order.remove slot
        let cache := { cache with order }.count fun s => { s with expirations := s.expirations + 1 }
        let (flight, cache) := cache.beginFlight table
        (.build flight (some entry.handle), cache)
      else
        let order := (cache.order.modify slot fun e => { e with lastAccess := now }).touch slot
        (.hit entry.handle, { cache with order }.count fun s => { s with hits := s.hits + 1 })

def popOldest (cache : WriterCache ω) : Option CacheEntry × WriterCache ω :=
  match cache.order.popBack with
  | (none, order) => (none, { cache with order })
  | (some entry, order) =>
    (some entry, { cache with order, slots := cache.slots.erase entry.table })

/-- Take out expired entries from the back, at most `fuel` of them. Access order
puts the entries unused for longest at the back. -/
def evictExpiredUpTo (now : Nat) : Nat → WriterCache ω → List Nat × WriterCache ω
  | 0, cache => ([], cache)
  | fuel + 1, cache =>
    match cache.order.back? with
    | none => ([], cache)
    | some (_, entry) =>
      if cache.isExpired entry now then
        match cache.popOldest with
        | (none, cache) => ([], cache)
        | (some entry, cache) =>
          let cache := cache.count fun s => { s with expirations := s.expirations + 1 }
          let (released, cache) := evictExpiredUpTo now fuel cache
          (entry.handle :: released, cache)
      else ([], cache)

def evictExpired (cache : WriterCache ω) (now : Nat) : List Nat × WriterCache ω :=
  evictExpiredUpTo now cache.order.size cache

/-- Take out entries from the back, at most `fuel` of them, until there is room
for one more. -/
def evictToCapacityUpTo : Nat → WriterCache ω → List Nat × WriterCache ω
  | 0, cache => ([], cache)
  | fuel + 1, cache =>
    if max cache.limits.capacity 1 ≤ cache.order.size then
      match cache.popOldest with
      | (none, cache) => ([], cache)
      | (some entry, cache) =>
        let cache := cache.count fun s => { s with evictions := s.evictions + 1 }
        let (released, cache) := evictToCapacityUpTo fuel cache
        (entry.handle :: released, cache)
    else ([], cache)

def evictToCapacity (cache : WriterCache ω) : List Nat × WriterCache ω :=
  evictToCapacityUpTo cache.order.size cache

/-- A flight still has the mark of its table. An invalidation takes the mark
away, and the flight is then detached. -/
def isCurrent (cache : WriterCache ω) (table : String) (flight : Nat) : Bool :=
  cache.slots[table]? == some (.loading flight)

def addHandle (cache : WriterCache ω) (table : String) (writer : ω) : Nat × WriterCache ω :=
  let cache := { cache with handles := cache.handles.push { table, writer } }.count
    fun s => { s with constructions := s.constructions + 1 }
  (cache.handles.size, cache)

/-- The failure of callers whose flight was detached. -/
def detachedError (table : String) : ConstructionError :=
  ⟨table, "writer cache was invalidated during construction"⟩

/-- End a flight whose construction returned. A writer enters the cache if the
flight is still current; else its handle is among those to be closed. -/
def finish (cache : WriterCache ω) (table : String) (flight : Nat)
    (built : Except ConstructionError ω) (now : Nat) :
    FlightOutcome × List Nat × WriterCache ω :=
  let current := cache.isCurrent table flight
  match built with
  | .error e =>
    let cache := if current then { cache with slots := cache.slots.erase table } else cache
    (.error e, [], cache.count fun s =>
      { s with constructionFailures := s.constructionFailures + 1 })
  | .ok writer =>
    let (handle, cache) := cache.addHandle table writer
    if current then
      let (expired, cache) := cache.evictExpired now
      let (evicted, cache) := cache.evictToCapacity
      let (slot, order) := cache.order.push ⟨table, handle, now⟩
      (.ok handle, expired ++ evicted,
        { cache with order, slots := cache.slots.insert table (.ready slot) })
    else (.error (detachedError table), [handle], cache)

/-- The failure of callers whose flight broke off. -/
def brokenError (table : String) : ConstructionError :=
  ⟨table, "writer construction panicked"⟩

def abandon (cache : WriterCache ω) (table : String) (flight : Nat) : WriterCache ω :=
  if cache.isCurrent table flight then { cache with slots := cache.slots.erase table } else cache

def publish (cache : WriterCache ω) (flight : Nat) (outcome : FlightOutcome) : WriterCache ω :=
  { cache with flights := cache.flights.setIfInBounds flight (some outcome) }

def outcome? (cache : WriterCache ω) (flight : Nat) : Option FlightOutcome :=
  (cache.flights[flight]?).join

def sweep (cache : WriterCache ω) (now : Nat) : List Nat × WriterCache ω :=
  let (released, cache) := cache.evictExpired now
  (released, cache.count fun s => { s with sweeps := s.sweeps + 1 })

def invalidate (cache : WriterCache ω) : List Nat × WriterCache ω :=
  let (entries, order) := cache.order.drain
  (entries.map CacheEntry.handle,
    { cache with order, slots := {} }.count fun s =>
      { s with invalidations := s.invalidations + UInt64.ofNat entries.length })

/-- A writer of the table is cached. Does not count as an access. -/
def contains (cache : WriterCache ω) (table : String) : Bool :=
  match cache.slots[table]? with
  | some (.ready _) => true
  | _ => false

def size (cache : WriterCache ω) : Nat := cache.order.size

def tables (cache : WriterCache ω) : List String := cache.order.toList.map CacheEntry.table

def handle? (cache : WriterCache ω) (id : Nat) : Option (WriterHandle ω) :=
  if id = 0 then none else cache.handles[id - 1]?

def modifyHandle (cache : WriterCache ω) (id : Nat) (f : WriterHandle ω → WriterHandle ω) :
    WriterCache ω :=
  if id = 0 then cache else { cache with handles := cache.handles.modify (id - 1) f }

/-- Mark a handle as closed. Returns its writer unless it was closed before. -/
def beginClose (cache : WriterCache ω) (id : Nat) : Option ω × WriterCache ω :=
  match cache.handle? id with
  | some handle =>
    if handle.closed then (none, cache)
    else (some handle.writer, cache.modifyHandle id fun h => { h with closed := true })
  | none => (none, cache)

end WriterCache

end TableRouting
