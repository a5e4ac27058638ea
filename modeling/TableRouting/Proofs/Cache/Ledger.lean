import Mathlib.Algebra.BigOperators.Group.Finset.Basic
import TableRouting.Proofs.Cache.Detachment

/-!
# What a cache has counted

The counters of a cache are words that wrap.  A tally counts the same things
without bound.  Each step of a shared cache is one entry in the tally, and the
entries add up: a lookup is a hit or a miss, a miss leads to a construction that
succeeds, fails or panics, and every writer that was built is cached, has left the
cache for one reason, or never entered it.
-/

namespace TableRouting

variable {ω : Type}

/-- How often each of the things happened that a cache counts. -/
structure Tally where
  hits : Nat := 0
  misses : Nat := 0
  constructions : Nat := 0
  failures : Nat := 0
  evictions : Nat := 0
  expirations : Nat := 0
  invalidations : Nat := 0
  sweeps : Nat := 0

namespace Tally

/-- The counters of a cache in which this happened. -/
def statistics (tally : Tally) : CacheStatistics where
  hits := .ofNat tally.hits
  misses := .ofNat tally.misses
  constructions := .ofNat tally.constructions
  constructionFailures := .ofNat tally.failures
  evictions := .ofNat tally.evictions
  expirations := .ofNat tally.expirations
  invalidations := .ofNat tally.invalidations
  sweeps := .ofNat tally.sweeps

def look (tally : Tally) : WriterCache.Lookup → Tally
  | .hit _ => { tally with hits := tally.hits + 1 }
  | .join _ => { tally with hits := tally.hits + 1 }
  | .build _ expired =>
    { tally with
      misses := tally.misses + 1
      expirations := tally.expirations + expired.toList.length }

def expire (tally : Tally) (entries : Nat) : Tally :=
  { tally with expirations := tally.expirations + entries }

def evict (tally : Tally) (entries : Nat) : Tally :=
  { tally with evictions := tally.evictions + entries }

def build (tally : Tally) : Tally :=
  { tally with constructions := tally.constructions + 1 }

def sweep (tally : Tally) (entries : Nat) : Tally :=
  { tally.expire entries with sweeps := tally.sweeps + 1 }

def invalidate (tally : Tally) (entries : Nat) : Tally :=
  { tally with invalidations := tally.invalidations + entries }

def fail (tally : Tally) : Tally :=
  { tally with failures := tally.failures + 1 }

end Tally

namespace WriterCache

variable {cache : WriterCache ω} {tally : Tally}

/-- The counters of a cache are those of a tally. -/
def Tallied (cache : WriterCache ω) (tally : Tally) : Prop :=
  cache.statistics = tally.statistics

theorem Tallied.popOldest (htallied : cache.Tallied tally) : cache.popOldest.2.Tallied tally := by
  rw [WriterCache.popOldest]
  split <;> exact htallied

theorem Tallied.modifyHandle (htallied : cache.Tallied tally) (id : Nat)
    (f : WriterHandle ω → WriterHandle ω) : (cache.modifyHandle id f).Tallied tally := by
  rw [WriterCache.modifyHandle]
  split <;> exact htallied

theorem Tallied.abandon (htallied : cache.Tallied tally) (table : String) (flight : Nat) :
    (cache.abandon table flight).Tallied tally := by
  rw [WriterCache.abandon]
  split <;> exact htallied

theorem Tallied.lookup (htallied : cache.Tallied tally) (table : String) (now : Nat) :
    (cache.lookup table now).2.Tallied (tally.look (cache.lookup table now).1) := by
  rw [Tallied] at htallied ⊢
  rw [WriterCache.lookup]
  split
  · simp [count, htallied, Tally.look, Tally.statistics]
  · simp [beginFlight, count, htallied, Tally.look, Tally.statistics]
  · split
    · simp [beginFlight, count, htallied, Tally.look, Tally.statistics]
    · split
      · simp [beginFlight, count, htallied, Tally.look, Tally.statistics]
      · simp [count, htallied, Tally.look, Tally.statistics]

theorem Tallied.count_expire (htallied : cache.Tallied tally) :
    (cache.count fun s => { s with expirations := s.expirations + 1 }).Tallied
      (tally.expire 1) := by
  rw [Tallied] at htallied ⊢
  simp [count, htallied, Tally.expire, Tally.statistics]

theorem Tallied.count_evict (htallied : cache.Tallied tally) :
    (cache.count fun s => { s with evictions := s.evictions + 1 }).Tallied (tally.evict 1) := by
  rw [Tallied] at htallied ⊢
  simp [count, htallied, Tally.evict, Tally.statistics]

theorem Tallied.evictExpiredUpTo (htallied : cache.Tallied tally) (now fuel : Nat) :
    (evictExpiredUpTo now fuel cache).2.Tallied
      (tally.expire (evictExpiredUpTo now fuel cache).1.length) := by
  induction fuel generalizing cache tally with
  | zero => exact htallied
  | succ fuel ih =>
      rw [WriterCache.evictExpiredUpTo]
      split
      · exact htallied
      · split
        · have hpopped := htallied.popOldest
          split
          · rename_i hpop
            rwa [hpop] at hpopped
          · rename_i hpop
            rw [hpop] at hpopped
            have hrest := ih (Tallied.count_expire hpopped)
            rwa [Tally.expire, Tally.expire, Nat.add_assoc, Nat.add_comm 1] at hrest
        · exact htallied

theorem Tallied.evictExpired (htallied : cache.Tallied tally) (now : Nat) :
    (cache.evictExpired now).2.Tallied (tally.expire (cache.evictExpired now).1.length) :=
  htallied.evictExpiredUpTo now cache.order.size

theorem Tallied.evictToCapacityUpTo (htallied : cache.Tallied tally) (fuel : Nat) :
    (evictToCapacityUpTo fuel cache).2.Tallied
      (tally.evict (evictToCapacityUpTo fuel cache).1.length) := by
  induction fuel generalizing cache tally with
  | zero => exact htallied
  | succ fuel ih =>
      rw [WriterCache.evictToCapacityUpTo]
      split
      · have hpopped := htallied.popOldest
        split
        · rename_i hpop
          rwa [hpop] at hpopped
        · rename_i hpop
          rw [hpop] at hpopped
          have hrest := ih (Tallied.count_evict hpopped)
          rwa [Tally.evict, Tally.evict, Nat.add_assoc, Nat.add_comm 1] at hrest
      · exact htallied

theorem Tallied.evictToCapacity (htallied : cache.Tallied tally) :
    cache.evictToCapacity.2.Tallied (tally.evict cache.evictToCapacity.1.length) :=
  htallied.evictToCapacityUpTo cache.order.size

theorem Tallied.sweep (htallied : cache.Tallied tally) (now : Nat) :
    (cache.sweep now).2.Tallied (tally.sweep (cache.sweep now).1.length) := by
  have hexpired := htallied.evictExpired now
  rw [Tallied] at hexpired ⊢
  simp [WriterCache.sweep, count, hexpired, Tally.expire, Tally.sweep, Tally.statistics]

theorem Tallied.invalidate (htallied : cache.Tallied tally) :
    cache.invalidate.2.Tallied (tally.invalidate cache.invalidate.1.length) := by
  rw [Tallied] at htallied ⊢
  simp [WriterCache.invalidate, count, htallied, Tally.invalidate, Tally.statistics]

theorem Tallied.addHandle (htallied : cache.Tallied tally) (table : String) (writer : ω) :
    (cache.addHandle table writer).2.Tallied tally.build := by
  rw [Tallied] at htallied ⊢
  simp [WriterCache.addHandle, count, htallied, Tally.build, Tally.statistics]

/-- A flight that fails is counted as such. -/
theorem Tallied.finish_error (htallied : cache.Tallied tally) (table : String) (flight : Nat)
    (error : ConstructionError) (now : Nat) :
    (cache.finish table flight (.error error) now).2.2.Tallied tally.fail := by
  rw [Tallied] at htallied ⊢
  simp only [WriterCache.finish, count]
  split <;> simp [htallied, Tally.fail, Tally.statistics]

/-- A writer that enters the cache takes the place of those that leave it. -/
theorem Tallied.finish_current (htallied : cache.Tallied tally) {table : String} {flight : Nat}
    (hcurrent : cache.isCurrent table flight = true) (writer : ω) (now : Nat) :
    ∃ expired evicted,
      expired + evicted = (cache.finish table flight (.ok writer) now).2.1.length ∧
        (cache.finish table flight (.ok writer) now).2.2.Tallied
          ((tally.build.expire expired).evict evicted) := by
  have hevicted := ((htallied.addHandle table writer).evictExpired now).evictToCapacity
  simp only [WriterCache.finish, hcurrent, if_true]
  exact ⟨_, _, List.length_append.symm, hevicted⟩

end WriterCache

namespace CallEvent

def isGet : CallEvent ω → Bool
  | looked _ _ _ => true
  | _ => false

def isPanic : CallEvent ω → Bool
  | delivered _ _ _ .panicked => true
  | _ => false

def isStray : CallEvent ω → Bool
  | ended _ _ _ (some _) (.error _) => true
  | _ => false

def isSweep : CallEvent ω → Bool
  | swept _ _ => true
  | _ => false

end CallEvent

/-- The construction that an errand is to bring about. -/
def Errand.pending : Errand → Nat
  | build _ _ => 1
  | answer _ => 0

/-- The construction that a caller is to bring about, if it has not panicked. -/
def Activity.pending : Activity ω → Nat
  | releasing _ errand => errand.pending
  | closing _ _ errand => errand.pending
  | building _ _ => 1
  | ending _ _ (.built _) => 1
  | ending _ _ (.refused _) => 1
  | _ => 0

namespace SharedCache

variable {outside : Outside ω} {limits : CacheLimits} {shared after : SharedCache ω}
  {events : List (CallEvent ω)} {event : CallEvent ω} {caller : Nat} {tally next : Tally}

/-- A step of a shared cache as an entry in its tally. -/
structure Entry (shared : SharedCache ω) (event : CallEvent ω) (after : SharedCache ω)
    (tally next : Tally) : Prop where
  counted : after.cache.Tallied next
  gets : next.hits + next.misses =
    tally.hits + tally.misses + [event].countP CallEvent.isGet
  begun : ∃ caller, (∀ other, other ≠ caller → after.callers other = shared.callers other) ∧
    next.misses + tally.constructions + tally.failures + (shared.callers caller).pending =
      tally.misses + next.constructions + next.failures + [event].countP CallEvent.isPanic +
        (after.callers caller).pending
  built : next.constructions + tally.evictions + tally.expirations + tally.invalidations +
      shared.cache.contents.cached.length =
    tally.constructions + next.evictions + next.expirations + next.invalidations +
      after.cache.contents.cached.length + [event].countP CallEvent.isStray
  sweeps : next.sweeps = tally.sweeps + [event].countP CallEvent.isSweep

/-- The entry of a step that a caller makes. -/
theorem Entry.put {activity : Activity ω} {cache : WriterCache ω}
    (hcounted : cache.Tallied next)
    (hgets : next.hits + next.misses =
      tally.hits + tally.misses + [event].countP CallEvent.isGet)
    (hbegun : next.misses + tally.constructions + tally.failures +
        (shared.callers caller).pending =
      tally.misses + next.constructions + next.failures + [event].countP CallEvent.isPanic +
        activity.pending)
    (hbuilt : next.constructions + tally.evictions + tally.expirations + tally.invalidations +
        shared.cache.contents.cached.length =
      tally.constructions + next.evictions + next.expirations + next.invalidations +
        cache.contents.cached.length + [event].countP CallEvent.isStray)
    (hsweeps : next.sweeps = tally.sweeps + [event].countP CallEvent.isSweep) :
    Entry shared event (shared.put caller activity cache) tally next where
  counted := hcounted
  gets := hgets
  begun := ⟨caller, fun _ hother => callers_put_of_ne hother .., by rwa [callers_put_self]⟩
  built := hbuilt
  sweeps := hsweeps

theorem Entry.lock (hentry : Entry shared event after tally next) (id : Nat)
    (holder : Option Nat) : Entry shared event (after.lock id holder) tally next where
  counted := hentry.counted
  gets := hentry.gets
  begun := hentry.begun
  built := hentry.built
  sweeps := hentry.sweeps

/-- The entry of a step that is not counted. -/
theorem Entry.still {activity : Activity ω} {cache : WriterCache ω} (hcounted : cache.Tallied tally)
    (hquiet : event.isGet = false ∧ event.isPanic = false ∧ event.isStray = false ∧
      event.isSweep = false)
    (hpending : activity.pending = (shared.callers caller).pending)
    (hcached : cache.contents.cached.length = shared.cache.contents.cached.length) :
    Entry shared event (shared.put caller activity cache) tally tally := by
  obtain ⟨hget, hpanic, hstray, hsweep⟩ := hquiet
  apply Entry.put hcounted
  · simp [hget]
  · simp [hpanic, hpending]
  · simp [hstray, hcached]
  · simp [hsweep]

/-- The entry of a lookup. -/
theorem Entry.look (hsound : Sound limits shared) (htallied : shared.cache.Tallied tally)
    (hcaller : shared.callers caller = .idle) (table : String) :
    Entry shared (.looked caller table (shared.cache.lookup table shared.clock).1)
      (shared.put caller (.ofLookup table (shared.cache.lookup table shared.clock).1)
        (shared.cache.lookup table shared.clock).2)
      tally (tally.look (shared.cache.lookup table shared.clock).1) := by
  have hcounted := htallied.lookup table shared.clock
  have hcached := ((hsound.looks table).cached_perm (ω := ω)).length_eq
  rw [List.length_append] at hcached
  have hidle : (shared.callers caller).pending = 0 := by
    rw [hcaller]
    rfl
  generalize (shared.cache.lookup table shared.clock).1 = found at hcounted hcached ⊢
  apply Entry.put hcounted
  · cases found <;> simp [Tally.look, CallEvent.isGet] <;> omega
  · rw [hidle]
    cases found <;>
      simp [Tally.look, CallEvent.isPanic, Activity.ofLookup, Activity.pending, Errand.pending]
    omega
  · cases found <;>
      simp [Tally.look, CallEvent.isStray, Activity.ofLookup, Activity.queue] at hcached ⊢ <;>
      omega
  · cases found <;> simp [Tally.look, CallEvent.isSweep]

/-- The entry of the end of a flight. -/
theorem Entry.finish (hsound : Sound limits shared) (htallied : shared.cache.Tallied tally)
    {table : String} {flight : Nat} {built : Except ConstructionError ω} {outcome : FlightOutcome}
    {released : List Nat} {cache : WriterCache ω}
    (hcaller : shared.callers caller = .ending table flight (.ofResult built))
    (hfinish : shared.cache.finish table flight built shared.clock =
      (outcome, released, cache)) :
    ∃ next, Entry shared (.ended caller table flight (shared.numberFor built) outcome)
      (shared.put caller
        (.publishing flight outcome released (outcome.mapError .construction)) cache)
      tally next := by
  have hcached := (cached_perm_of_finishes (hsound.finishes hfinish)).length_eq
  simp only [List.length_append] at hcached
  cases built with
  | error error =>
      have hcounted := htallied.finish_error table flight error shared.clock
      rw [hfinish] at hcounted
      have hreleased := (hsound.finishes hfinish).released_of_error
      refine ⟨tally.fail, .put hcounted ?_ ?_ ?_ ?_⟩
      · simp [Tally.fail, CallEvent.isGet]
      · simp [hcaller, Tally.fail, CallEvent.isPanic, Activity.pending, Construction.ofResult]
        omega
      · simp [hreleased, numberFor] at hcached
        simp [hcached, numberFor, Tally.fail, CallEvent.isStray]
      · simp [Tally.fail, CallEvent.isSweep]
  | ok writer =>
      have hpending : (shared.callers caller).pending = 1 := by
        rw [hcaller]
        rfl
      simp only [numberFor, Option.toList_some, List.length_singleton] at hcached
      cases hcurrent : shared.cache.isCurrent table flight with
      | true =>
          obtain ⟨expired, evicted, hreleased, hcounted⟩ :=
            htallied.finish_current hcurrent writer shared.clock
          rw [hfinish] at hreleased hcounted
          have hstored : ∃ id, outcome = .ok id := by
            have hfinishes := hsound.finishes hfinish
            generalize cache.contents = contents at hfinishes
            cases hfinishes with
            | stored => exact ⟨_, rfl⟩
            | detached hlost => exact absurd (WriterCache.isCurrent_iff.mp hcurrent) hlost
          obtain ⟨id, rfl⟩ := hstored
          refine ⟨_, .put hcounted ?_ ?_ ?_ ?_⟩
          · simp [Tally.build, Tally.expire, Tally.evict, CallEvent.isGet]
          · rw [hpending]
            simp [Tally.build, Tally.expire, Tally.evict, CallEvent.isPanic, Activity.pending]
            omega
          · simp only at hreleased
            simp [Tally.build, Tally.expire, Tally.evict, CallEvent.isStray]
            omega
          · simp [Tally.build, Tally.expire, Tally.evict, CallEvent.isSweep]
      | false =>
          rw [WriterCache.finish_detached hcurrent] at hfinish
          obtain ⟨rfl, rfl, rfl⟩ := hfinish
          refine ⟨_, .put (htallied.addHandle table writer) ?_ ?_ ?_ ?_⟩
          · simp [Tally.build, CallEvent.isGet]
          · rw [hpending]
            simp [Tally.build, CallEvent.isPanic, Activity.pending]
            omega
          · simp only [List.length_singleton] at hcached
            simp [Tally.build, CallEvent.isStray, numberFor]
            omega
          · simp [Tally.build, CallEvent.isSweep]

/-- The entry of a sweep. -/
theorem Entry.sweep (hsound : Sound limits shared) (htallied : shared.cache.Tallied tally)
    (hcaller : shared.callers caller = .idle) :
    Entry shared (.swept caller (shared.cache.sweep shared.clock).1)
      (shared.put caller (.releasing (shared.cache.sweep shared.clock).1 (.answer none))
        (shared.cache.sweep shared.clock).2)
      tally (tally.sweep (shared.cache.sweep shared.clock).1.length) := by
  obtain ⟨kept, dropped, hevicts⟩ := WriterCache.evicts_sweep shared.clock hsound.linked
  have hcached := (CacheContents.released_perm hevicts.entries).length_eq
  rw [← hevicts.released, List.length_append] at hcached
  have hkept : (shared.cache.sweep shared.clock).2.contents.cached = kept.map (·.2.handle) := by
    rw [hevicts.contents]
    rfl
  apply Entry.put (htallied.sweep shared.clock)
  · simp [Tally.sweep, Tally.expire, CallEvent.isGet]
  · simp [Tally.sweep, Tally.expire, CallEvent.isPanic, hcaller, Activity.pending,
      Errand.pending]
  · rw [hkept, ← hcached]
    simp [Tally.sweep, Tally.expire, CallEvent.isStray]
    omega
  · simp [Tally.sweep, CallEvent.isSweep]

/-- The entry of an invalidation. -/
theorem Entry.invalidate (htallied : shared.cache.Tallied tally)
    (hcaller : shared.callers caller = .idle) :
    Entry shared (.invalidated caller shared.cache.invalidate.1)
      (shared.put caller (.releasing shared.cache.invalidate.1 (.answer none))
        shared.cache.invalidate.2)
      tally (tally.invalidate shared.cache.invalidate.1.length) := by
  apply Entry.put htallied.invalidate
  · simp [Tally.invalidate, CallEvent.isGet]
  · simp [Tally.invalidate, CallEvent.isPanic, hcaller, Activity.pending, Errand.pending]
  · simp [Tally.invalidate, CallEvent.isStray, CacheContents.clear, CacheContents.cached]
    omega
  · simp [Tally.invalidate, CallEvent.isSweep]

theorem Step.entry (hsound : Sound limits shared) (hstep : Step outside shared event after)
    (htallied : shared.cache.Tallied tally) : ∃ next, Entry shared event after tally next := by
  cases hstep with
  | tick hnow | refuse | peek => exact ⟨tally, htallied, rfl, ⟨0, fun _ _ => rfl, rfl⟩, rfl, rfl⟩
  | look hcaller => exact ⟨_, .look hsound htallied hcaller _⟩
  | beginClose hcaller hfree hbegin =>
      obtain ⟨handle, -, -, rfl⟩ := WriterCache.beginClose_some hbegin
      refine ⟨tally, (Entry.still (htallied.modifyHandle ..) ⟨rfl, rfl, rfl, rfl⟩ ?_ ?_).lock _ _⟩
      · rw [hcaller]
        rfl
      · simp
  | endClose hcaller | leave hcaller =>
      refine ⟨tally, (Entry.still (htallied.modifyHandle ..) ⟨rfl, rfl, rfl, rfl⟩ ?_ ?_).lock _ _⟩
      · rw [hcaller]
        rfl
      · simp
  | skip hcaller hfree hbegin =>
      obtain ⟨rfl, -⟩ := WriterCache.beginClose_none hbegin
      refine ⟨tally, .still htallied ⟨rfl, rfl, rfl, rfl⟩ ?_ rfl⟩
      rw [hcaller]
      rfl
  | deliver hcaller hbuilds =>
      rename_i caller table flight construction
      have hpending : (shared.callers caller).pending = 1 := by
        rw [hcaller]
        rfl
      cases construction with
      | built | refused => exact ⟨tally, .still htallied ⟨rfl, rfl, rfl, rfl⟩ hpending.symm rfl⟩
      | panicked =>
          refine ⟨tally, .put htallied rfl ?_ rfl rfl⟩
          rw [hpending]
          simp [CallEvent.isPanic, Activity.pending]
  | finish hcaller hfinish => exact Entry.finish hsound htallied hcaller hfinish
  | abandon hcaller =>
      rename_i caller table flight
      have hcached := (cached_perm_of_finishes
        (shared.cache.finishes_abandon table flight shared.clock)).length_eq
      refine ⟨tally, .still (htallied.abandon table flight) ⟨rfl, rfl, rfl, rfl⟩ ?_ hcached⟩
      rw [hcaller]
      rfl
  | sweep hcaller => exact ⟨_, Entry.sweep hsound htallied hcaller⟩
  | invalidate hcaller => exact ⟨_, Entry.invalidate htallied hcaller⟩
  | enter hcaller =>
      refine ⟨tally, (Entry.still htallied ⟨rfl, rfl, rfl, rfl⟩ ?_ rfl).lock _ _⟩
      rw [hcaller]
      rfl
  | receive hcaller | call hcaller | publish hcaller | answer hcaller =>
      refine ⟨tally, .still htallied ⟨rfl, rfl, rfl, rfl⟩ ?_ rfl⟩
      rw [hcaller]
      rfl

/-- The constructions that callers are to bring about, if nobody else is busy. -/
def pending (shared : SharedCache ω) (busy : Finset Nat) : Nat :=
  ∑ caller ∈ busy, (shared.callers caller).pending

/-- Constructions that are to come about change with the caller that makes a step. -/
theorem pending_insert {busy : Finset Nat}
    (hidle : ∀ other, other ∉ busy → (shared.callers other).pending = 0)
    (hothers : ∀ other, other ≠ caller → after.callers other = shared.callers other) :
    after.pending (insert caller busy) + (shared.callers caller).pending =
      shared.pending busy + (after.callers caller).pending := by
  have hwhole : shared.pending (insert caller busy) = shared.pending busy := by
    by_cases hcaller : caller ∈ busy
    · rw [Finset.insert_eq_of_mem hcaller]
    · rw [pending, pending, Finset.sum_insert hcaller, hidle caller hcaller, Nat.zero_add]
  have hrest : ∑ other ∈ (insert caller busy).erase caller, (after.callers other).pending =
      ∑ other ∈ (insert caller busy).erase caller, (shared.callers other).pending := by
    refine Finset.sum_congr rfl fun other hother => ?_
    rw [hothers other (Finset.ne_of_mem_erase hother)]
  rw [← hwhole, pending, pending,
    ← Finset.add_sum_erase _ _ (Finset.mem_insert_self caller busy), hrest,
    ← Finset.add_sum_erase _ _ (Finset.mem_insert_self caller busy)]
  omega

/-- A tally of all that has happened to a cache, in which things add up. -/
structure Balanced (events : List (CallEvent ω)) (shared : SharedCache ω) (tally : Tally) :
    Prop where
  counted : shared.cache.Tallied tally
  gets : tally.hits + tally.misses = events.countP CallEvent.isGet
  begun : ∃ busy : Finset Nat,
    (∀ caller, caller ∉ busy → (shared.callers caller).pending = 0) ∧
      tally.misses = tally.constructions + tally.failures + events.countP CallEvent.isPanic +
        shared.pending busy
  built : tally.constructions =
    shared.cache.contents.cached.length + tally.evictions + tally.expirations +
      tally.invalidations + events.countP CallEvent.isStray
  sweeps : tally.sweeps = events.countP CallEvent.isSweep

theorem Balanced.start (limits : CacheLimits) (clock : Nat) :
    Balanced [] (start (ω := ω) limits clock) {} where
  counted := rfl
  gets := rfl
  begun := ⟨∅, fun _ _ => rfl, rfl⟩
  built := by simp [SharedCache.start, WriterCache.contents_empty, CacheContents.cached]
  sweeps := rfl

/-- An entry keeps a tally balanced. -/
theorem Balanced.enter (hbalanced : Balanced events shared tally)
    (hentry : Entry shared event after tally next) : Balanced (events ++ [event]) after next := by
  obtain ⟨-, hgets, ⟨busy, hidle, hbegun⟩, hbuilt, hsweeps⟩ := hbalanced
  obtain ⟨hcounted, hget, ⟨caller, hothers, hbegin⟩, hbuild, hsweep⟩ := hentry
  constructor
  · exact hcounted
  · rw [List.countP_append, hget, hgets]
  · refine ⟨insert caller busy, ?_, ?_⟩
    · intro other hother
      rw [Finset.mem_insert, not_or] at hother
      rw [hothers other hother.1, hidle other hother.2]
    · have hpending := pending_insert hidle hothers
      rw [List.countP_append]
      omega
  · rw [List.countP_append]
    omega
  · rw [List.countP_append, hsweep, hsweeps]

theorem Run.balanced {clock : Nat} (hrun : Run outside (start limits clock) events shared) :
    ∃ tally, Balanced events shared tally := by
  induction hrun with
  | nil => exact ⟨{}, Balanced.start limits clock⟩
  | step hrun hstep ih =>
      obtain ⟨tally, hbalanced⟩ := ih
      obtain ⟨next, hentry⟩ := hstep.entry hrun.followed.sound hbalanced.counted
      exact ⟨next, hbalanced.enter hentry⟩

end SharedCache

end TableRouting
