import TableRouting.Cache.Basic

/-!
# Shared failures name their table

A caller that joins a flight is handed the failure of the caller that began it.  The failure
is about the table that was asked for: a flight is awaited by one table, and no operation of
the cache gives it to another.
-/

namespace TableRouting.WriterCache

variable {ω : Type} {cache between after : WriterCache ω} {table : String} {flight : Nat}

/-- The writer of a table is being built by a flight. -/
def Awaits (cache : WriterCache ω) (table : String) (flight : Nat) : Prop :=
  cache.slots[table]? = some (.loading flight)

/-- Whoever joins a flight that has failed learns of a failure of the table that was asked
for. -/
def Candid (cache : WriterCache ω) : Prop :=
  ∀ table flight, cache.Awaits table flight → flight < cache.flights.size ∧
    ∀ e, cache.outcome? flight = some (.error e) → e.table = table

theorem candid_empty (limits : CacheLimits) : ({ limits } : WriterCache ω).Candid := by
  intro table flight hawaits
  have hnone : ({} : Std.HashMap String CacheSlot)[table]? = none := Std.HashMap.getElem?_empty
  cases hnone.symm.trans hawaits

/-- What becomes of a cache that is used. -/
structure Continues (cache after : WriterCache ω) : Prop where
  /-- No flight is forgotten. -/
  size_le : cache.flights.size ≤ after.flights.size
  /-- No table comes to await a flight that began before. -/
  awaits : ∀ {table flight}, flight < cache.flights.size → after.Awaits table flight →
    cache.Awaits table flight
  candid : cache.Candid → after.Candid

namespace Continues

theorem refl (cache : WriterCache ω) : Continues cache cache :=
  ⟨Nat.le_refl _, fun _ hawaits => hawaits, id⟩

theorem trans (hfirst : Continues cache between) (hrest : Continues between after) :
    Continues cache after where
  size_le := Nat.le_trans hfirst.size_le hrest.size_le
  awaits hlt hawaits :=
    hfirst.awaits hlt (hrest.awaits (Nat.lt_of_lt_of_le hlt hfirst.size_le) hawaits)
  candid hcandid := hrest.candid (hfirst.candid hcandid)

end Continues

/-- At most, tables cease to await their flights. -/
structure Sheds (cache after : WriterCache ω) : Prop where
  flights_eq : after.flights = cache.flights
  awaits : ∀ {table flight}, after.Awaits table flight → cache.Awaits table flight

namespace Sheds

theorem trans (hfirst : Sheds cache between) (hrest : Sheds between after) :
    Sheds cache after where
  flights_eq := hrest.flights_eq.trans hfirst.flights_eq
  awaits hawaits := hfirst.awaits (hrest.awaits hawaits)

theorem continues (hsheds : Sheds cache after) : Continues cache after where
  size_le := Nat.le_of_eq (congrArg Array.size hsheds.flights_eq).symm
  awaits _ hawaits := hsheds.awaits hawaits
  candid hcandid table flight hawaits := by
    rw [outcome?, hsheds.flights_eq]
    exact hcandid table flight (hsheds.awaits hawaits)

theorem count (hsheds : Sheds cache after) (f : CacheStatistics → CacheStatistics) :
    Sheds cache (after.count f) :=
  ⟨hsheds.flights_eq, hsheds.awaits⟩

/-- A table that is taken out awaits nothing. -/
theorem erase (hsheds : Sheds cache between) (hflights : after.flights = between.flights)
    {table : String} (hslots : after.slots = between.slots.erase table) : Sheds cache after where
  flights_eq := hflights.trans hsheds.flights_eq
  awaits {other _} hawaits := by
    rw [Awaits, hslots, Std.HashMap.getElem?_erase] at hawaits
    split at hawaits
    · cases hawaits
    · exact hsheds.awaits hawaits

/-- A table whose writer is ready awaits nothing. -/
theorem ready (hsheds : Sheds cache between) (hflights : after.flights = between.flights)
    {table : String} {slot : Nat}
    (hslots : after.slots = between.slots.insert table (.ready slot)) : Sheds cache after where
  flights_eq := hflights.trans hsheds.flights_eq
  awaits {other _} hawaits := by
    rw [Awaits, hslots, Std.HashMap.getElem?_insert] at hawaits
    split at hawaits
    · cases hawaits
    · exact hsheds.awaits hawaits

end Sheds

/-- What neither begins nor ends a flight. -/
theorem sheds_of_same (hflights : after.flights = cache.flights)
    (hslots : after.slots = cache.slots) : Sheds cache after where
  flights_eq := hflights
  awaits {other _} hawaits := by rwa [Awaits, hslots] at hawaits

theorem sheds_refl (cache : WriterCache ω) : Sheds cache cache :=
  sheds_of_same rfl rfl

theorem sheds_modifyHandle (cache : WriterCache ω) (id : Nat)
    (f : WriterHandle ω → WriterHandle ω) : Sheds cache (cache.modifyHandle id f) := by
  rw [modifyHandle]
  split
  · exact sheds_refl cache
  · exact sheds_of_same rfl rfl

theorem sheds_beginClose (cache : WriterCache ω) (id : Nat) :
    Sheds cache (cache.beginClose id).2 := by
  rw [beginClose]
  split
  · split
    · exact sheds_refl cache
    · exact sheds_modifyHandle cache id _
  · exact sheds_refl cache

theorem sheds_popOldest (cache : WriterCache ω) : Sheds cache cache.popOldest.2 := by
  rw [popOldest]
  split
  · exact sheds_of_same rfl rfl
  · exact (sheds_refl cache).erase rfl rfl

theorem sheds_evictExpiredUpTo (now fuel : Nat) (cache : WriterCache ω) :
    Sheds cache (evictExpiredUpTo now fuel cache).2 := by
  induction fuel generalizing cache with
  | zero => exact sheds_refl cache
  | succ fuel ih =>
      rw [evictExpiredUpTo]
      split
      · exact sheds_refl cache
      · split
        · have hpopped := sheds_popOldest cache
          cases hpop : cache.popOldest with
          | mk popped rest =>
              rw [hpop] at hpopped
              cases popped with
              | none => exact hpopped
              | some entry =>
                  have hrest := ih (rest.count fun s => { s with expirations := s.expirations + 1 })
                  exact (hpopped.count _).trans hrest
        · exact sheds_refl cache

theorem sheds_evictToCapacityUpTo (fuel : Nat) (cache : WriterCache ω) :
    Sheds cache (evictToCapacityUpTo fuel cache).2 := by
  induction fuel generalizing cache with
  | zero => exact sheds_refl cache
  | succ fuel ih =>
      rw [evictToCapacityUpTo]
      split
      · have hpopped := sheds_popOldest cache
        cases hpop : cache.popOldest with
        | mk popped rest =>
            rw [hpop] at hpopped
            cases popped with
            | none => exact hpopped
            | some entry =>
                have hrest := ih (rest.count fun s => { s with evictions := s.evictions + 1 })
                exact (hpopped.count _).trans hrest
      · exact sheds_refl cache

theorem sheds_sweep (cache : WriterCache ω) (now : Nat) : Sheds cache (cache.sweep now).2 :=
  (sheds_evictExpiredUpTo now _ cache).trans (sheds_of_same rfl rfl)

theorem sheds_abandon (cache : WriterCache ω) (table : String) (flight : Nat) :
    Sheds cache (cache.abandon table flight) := by
  rw [abandon]
  split
  · exact (sheds_refl cache).erase rfl rfl
  · exact sheds_refl cache

theorem sheds_finish (cache : WriterCache ω) (table : String) (flight : Nat)
    (built : Except ConstructionError ω) (now : Nat) :
    Sheds cache (cache.finish table flight built now).2.2 := by
  cases built with
  | error e =>
      simp only [finish]
      split
      · exact (sheds_refl cache).erase rfl rfl
      · exact sheds_of_same rfl rfl
  | ok writer =>
      simp only [finish]
      split
      · have hadded : Sheds cache (cache.addHandle table writer).2 := sheds_of_same rfl rfl
        exact Sheds.ready ((hadded.trans (sheds_evictExpiredUpTo now _ _)).trans
          (sheds_evictToCapacityUpTo _ _)) rfl rfl
      · exact sheds_of_same rfl rfl

/-- The failure with which a flight ends is the one that it met, or names its table. -/
theorem table_of_finish_error {built : Except ConstructionError ω} {now : Nat}
    (hbuilt : ∀ e, built = .error e → e.table = table) {e : ConstructionError}
    (herror : (cache.finish table flight built now).1 = .error e) : e.table = table := by
  cases built with
  | error met =>
      rw [← Except.error.inj herror]
      exact hbuilt met rfl
  | ok writer =>
      simp only [finish] at herror
      split at herror
      · cases herror
      · rw [← Except.error.inj herror]
        rfl

/-- What a lookup of a table finds and leaves. -/
inductive Finds (cache : WriterCache ω) (table : String) : Lookup → WriterCache ω → Prop
  | hit {handle : Nat} {after : WriterCache ω} (hsheds : Sheds cache after) :
      Finds cache table (.hit handle) after
  | join {flight : Nat} {after : WriterCache ω} (hawaits : after.Awaits table flight)
      (hsheds : Sheds cache after) : Finds cache table (.join flight) after
  | build {expired : Option Nat} {after : WriterCache ω}
      (hflights : after.flights = cache.flights.push none)
      (hawaits : ∀ {other flight}, after.Awaits other flight →
        other = table ∧ flight = cache.flights.size ∨ cache.Awaits other flight) :
      Finds cache table (.build cache.flights.size expired) after

theorem finds_beginFlight {start : WriterCache ω} (hflights : start.flights = cache.flights)
    (hslots : start.slots = cache.slots) (table : String) (expired : Option Nat) :
    Finds cache table (.build (start.beginFlight table).1 expired) (start.beginFlight table).2 := by
  have hsize : (start.beginFlight table).1 = cache.flights.size := congrArg Array.size hflights
  rw [hsize]
  apply Finds.build
  · exact congrArg (·.push none) hflights
  · intro other flight hawaits
    change (start.slots.insert table (.loading start.flights.size))[other]? = _ at hawaits
    rw [Std.HashMap.getElem?_insert] at hawaits
    split at hawaits
    · rename_i hsame
      have hloading := CacheSlot.loading.inj (Option.some.inj hawaits)
      exact .inl ⟨(eq_of_beq hsame).symm, by rw [← hloading, hflights]⟩
    · rw [hslots] at hawaits
      exact .inr hawaits

theorem finds_lookup (cache : WriterCache ω) (table : String) (now : Nat) :
    Finds cache table (cache.lookup table now).1 (cache.lookup table now).2 := by
  rw [lookup]
  split
  · rename_i flight hmark
    exact .join hmark (sheds_of_same rfl rfl)
  · exact finds_beginFlight rfl rfl table none
  · rename_i slot hmark
    split
    · exact finds_beginFlight rfl rfl table none
    · rename_i entry hentry
      split
      · let removed : WriterCache ω := { cache with order := (cache.order.remove slot).2 }.count
          fun s => { s with expirations := s.expirations + 1 }
        have hflights : removed.flights = cache.flights := rfl
        have hslots : removed.slots = cache.slots := rfl
        exact finds_beginFlight hflights hslots table (some entry.handle)
      · exact .hit (sheds_of_same rfl rfl)

theorem outcome?_push (flights : Array (Option FlightOutcome)) (flight : Nat) :
    ((flights.push none)[flight]?).join = (flights[flight]?).join := by
  rw [Array.getElem?_push]
  split
  · rename_i hlast
    rw [hlast, Array.getElem?_size]
    rfl
  · rfl

theorem Finds.continues {found : Lookup} (hfinds : Finds cache table found after) :
    Continues cache after := by
  cases hfinds with
  | hit hsheds => exact hsheds.continues
  | join hawaits hsheds => exact hsheds.continues
  | build hflights hawaits =>
      have hsize : after.flights.size = cache.flights.size + 1 := by
        rw [hflights, Array.size_push]
      refine ⟨by omega, fun hlt hafter => ?_, fun hcandid other flight hafter => ?_⟩
      · rcases hawaits hafter with ⟨-, rfl⟩ | hbefore
        · exact absurd hlt (Nat.lt_irrefl _)
        · exact hbefore
      · rw [outcome?, hflights, outcome?_push, Array.size_push]
        rcases hawaits hafter with ⟨rfl, rfl⟩ | hbefore
        · -- A flight that begins has no outcome yet.
          refine ⟨Nat.lt_succ_self _, fun e he => ?_⟩
          rw [Array.getElem?_size] at he
          cases he
        · obtain ⟨hlt, hnames⟩ := hcandid other flight hbefore
          exact ⟨Nat.lt_succ_of_lt hlt, hnames⟩

theorem Finds.awaits (hfinds : Finds cache table (.join flight) after) :
    after.Awaits table flight := by
  cases hfinds with
  | join hawaits hsheds => exact hawaits

/-- No other table awaits a flight that has begun. -/
structure Owns (cache : WriterCache ω) (table : String) (flight : Nat) : Prop where
  begun : flight < cache.flights.size
  alone : ∀ {other}, cache.Awaits other flight → other = table

theorem Owns.continues (howns : cache.Owns table flight) (hcontinues : Continues cache after) :
    after.Owns table flight where
  begun := Nat.lt_of_lt_of_le howns.begun hcontinues.size_le
  alone hawaits := howns.alone (hcontinues.awaits howns.begun hawaits)

/-- A flight that a lookup begins is the flight of the table that was looked up. -/
theorem Finds.owns (hcandid : cache.Candid) {expired : Option Nat}
    (hfinds : Finds cache table (.build flight expired) after) : after.Owns table flight := by
  cases hfinds with
  | build hflights hawaits =>
      refine ⟨by rw [hflights, Array.size_push]; exact Nat.lt_succ_self _, fun hafter => ?_⟩
      rcases hawaits hafter with ⟨rfl, -⟩ | hbefore
      · rfl
      · exact absurd (hcandid _ _ hbefore).1 (Nat.lt_irrefl _)

/-- The outcome of a flight may be shared if its failure names the table. -/
theorem Owns.continues_publish (howns : cache.Owns table flight) {outcome : FlightOutcome}
    (hnames : ∀ e, outcome = .error e → e.table = table) :
    Continues cache (cache.publish flight outcome) where
  size_le := Nat.le_of_eq Array.size_setIfInBounds.symm
  awaits _ hawaits := hawaits
  candid hcandid other awaited hawaits := by
    have hbefore : cache.Awaits other awaited := hawaits
    obtain ⟨hlt, hother⟩ := hcandid other awaited hbefore
    rw [publish, outcome?, Array.size_setIfInBounds, Array.getElem?_setIfInBounds]
    refine ⟨hlt, fun e he => ?_⟩
    split at he
    · rename_i hsame
      subst hsame
      rw [if_pos hlt] at he
      rw [howns.alone hbefore]
      exact hnames e (Option.some.inj he)
    · exact hother e he

end TableRouting.WriterCache
