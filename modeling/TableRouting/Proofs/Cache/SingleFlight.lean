import TableRouting.Proofs.Cache.Flights

/-!
# Constructions that are shared

Callers that ask for the same table at the same time share one construction.  The
mark of a table says which: a construction that is still to end has the mark of its
table until an invalidation detaches it.  Whoever joined a construction gets what
its builder hands out, and the builder hands out one outcome, whatever became of
the construction.
-/

namespace TableRouting

variable {ω : Type}

namespace CacheContents

variable {contents after : CacheContents ω} {table other : String} {flight begun now : Nat}

/-- A lookup gives and takes no mark of a flight that it does not begin. -/
theorem Looks.loading_iff {found : WriterCache.Lookup}
    (hlooks : contents.Looks table now found after)
    (hfound : ∀ expired, found ≠ .build flight expired) :
    after.mark? other = some (.loading flight) ↔ contents.mark? other = some (.loading flight) := by
  have hbegin {expired : Option Nat} {mark : Option CacheSlot}
      (hbuild : found = .build contents.flights.size expired)
      (hmark : contents.mark? table = mark) (hold : mark ≠ some (.loading flight)) :
      Function.update contents.mark? table (some (.loading contents.flights.size)) other =
          some (.loading flight) ↔
        contents.mark? other = some (.loading flight) := by
    have hnew : contents.flights.size ≠ flight := by
      rintro rfl
      exact hfound expired hbuild
    by_cases hother : other = table
    · subst hother
      simp [hmark, hold, hnew]
    · rw [Function.update_of_ne hother]
  cases hlooks with
  | join hmark => exact Iff.rfl
  | build hmark => exact hbegin rfl hmark (by simp)
  | expire hmark hentries hexpired => exact hbegin rfl hmark (by simp)
  | hit hmark hentries hfresh => exact Iff.rfl

/-- The table of a flight that begins has no mark, or its writer has expired. -/
theorem Looks.expired {expired : Option Nat}
    (hlooks : contents.Looks table now (.build flight expired) after) {mark : CacheSlot}
    (hmark : contents.mark? table = some mark) :
    ∃ slot entry, mark = .ready slot ∧ (slot, entry) ∈ contents.entries ∧
      contents.limits.ttl ≤ now - entry.lastAccess := by
  cases hlooks with
  | build hnone => simp [hnone] at hmark
  | expire hready hentries hexpired =>
      rename_i slot entry newer older
      obtain rfl := Option.some.inj (hready.symm.trans hmark)
      exact ⟨slot, entry, rfl, by simp [hentries], hexpired⟩

/-- A flight that fails takes its mark with it. -/
theorem Finishes.mark?_of_error {error : ConstructionError} {outcome : FlightOutcome}
    {released : List Nat}
    (hfinishes : contents.Finishes table flight now (.error error) outcome released after)
    (hmark : contents.mark? table = some (.loading flight)) : after.mark? table = none := by
  cases hfinishes with
  | refused _ => simp [unmark]
  | refusedDetached hdetached => exact absurd hmark hdetached

theorem Finishes.released_of_error {error : ConstructionError} {outcome : FlightOutcome}
    {released : List Nat}
    (hfinishes : contents.Finishes table flight now (.error error) outcome released after) :
    released = [] := by
  cases hfinishes <;> rfl

/-- A table without a mark gets none by the end of a flight. -/
theorem Finishes.mark?_eq_none {built : Except ConstructionError ω} {outcome : FlightOutcome}
    {released : List Nat}
    (hfinishes : contents.Finishes table flight now built outcome released after)
    (hmark : contents.mark? other = none) : after.mark? other = none := by
  have hne (hloading : contents.mark? table = some (.loading flight)) : other ≠ table := by
    rintro rfl
    simp [hmark] at hloading
  cases hfinishes with
  | refused hloading => simp [unmark, hmark, Function.update_apply]
  | refusedDetached hdetached => exact hmark
  | stored hloading hentries hroom hslot => simp [trim, hmark, hne hloading]
  | detached hdetached => exact hmark

/-- A table without a mark gets none by a lookup of another one. -/
theorem Looks.mark?_eq_none {found : WriterCache.Lookup}
    (hlooks : contents.Looks table now found after) (hother : other ≠ table)
    (hmark : contents.mark? other = none) : after.mark? other = none := by
  cases hlooks <;> simp [beginFlight, hmark, hother]

/-- The tables whose entries leave are not being built. -/
theorem Coherent.loading_trim (hcoherent : Coherent contents)
    {kept dropped : List (Nat × CacheEntry)} (hentries : contents.entries = kept ++ dropped) :
    (contents.trim kept dropped).mark? other = some (.loading flight) ↔
      contents.mark? other = some (.loading flight) := by
  simp only [CacheContents.trim]
  split
  · rename_i hdropped
    obtain ⟨⟨slot, entry⟩, hentry, rfl⟩ := List.mem_map.mp hdropped
    have hmem : (slot, entry) ∈ contents.entries := by
      rw [hentries]
      exact List.mem_append_right _ hentry
    simp [(hcoherent.ready _ slot).mpr ⟨entry, hmem, rfl⟩]
  · exact Iff.rfl

/-- The end of a flight gives and takes no mark of another one. -/
theorem Coherent.loading_finishes (hcoherent : Coherent contents)
    {built : Except ConstructionError ω} {outcome : FlightOutcome} {released : List Nat}
    (hfinishes : contents.Finishes table begun now built outcome released after)
    (hflight : flight ≠ begun) :
    after.mark? other = some (.loading flight) ↔ contents.mark? other = some (.loading flight) := by
  have hown (hmark : contents.mark? table = some (.loading begun)) :
      contents.mark? table ≠ some (.loading flight) := by
    simp [hmark, Ne.symm hflight]
  cases hfinishes with
  | refused hmark =>
      by_cases hother : other = table
      · subst hother
        simp [CacheContents.unmark, hown hmark]
      · simp [CacheContents.unmark, hother]
  | refusedDetached hmark => exact Iff.rfl
  | stored hmark hentries hroom hslot =>
      by_cases hother : other = table
      · subst hother
        simp [hown hmark]
      · simp only [Function.update_of_ne hother]
        exact hcoherent.loading_trim hentries
  | detached hmark => exact Iff.rfl

end CacheContents

theorem WriterCache.lookup_of_unmarked {cache : WriterCache ω} {table : String}
    (hmark : cache.contents.mark? table = none) (now : Nat) :
    (cache.lookup table now).1 = .build cache.flights.size none := by
  rw [lookup, show cache.slots[table]? = none from hmark]
  rfl

/-- The flight that an errand is to end, with its table. -/
def Errand.construction? : Errand → Option (String × Nat)
  | build table flight => some (table, flight)
  | answer _ => none

/-- The flight that a caller is still to end, with its table. -/
def Activity.construction? : Activity ω → Option (String × Nat)
  | releasing _ errand => errand.construction?
  | closing _ _ errand => errand.construction?
  | building table flight => some (table, flight)
  | ending table flight _ => some (table, flight)
  | _ => none

theorem Activity.flight?_phase (activity : Activity ω) :
    activity.phase.flight? = activity.construction? := by
  cases activity with
  | releasing released errand => cases errand <;> rfl
  | closing handle rest errand => cases errand <;> rfl
  | _ => rfl

/-- A flight that a caller is to end is in its charge. -/
theorem Activity.duty?_of_construction? {activity : Activity ω} {table : String} {flight : Nat}
    (hconstruction : activity.construction? = some (table, flight)) :
    ∃ duty, activity.duty? = some duty ∧ duty.flight = flight := by
  cases activity with
  | releasing released errand | closing handle rest errand =>
      cases errand with
      | build table flight =>
          obtain ⟨rfl, rfl⟩ := Prod.mk.inj (Option.some.inj hconstruction)
          exact ⟨_, rfl, rfl⟩
      | answer answer => simp [construction?, Errand.construction?] at hconstruction
  | building table flight | ending table flight construction =>
      obtain ⟨rfl, rfl⟩ := Prod.mk.inj (Option.some.inj hconstruction)
      exact ⟨_, rfl, rfl⟩
  | _ => simp [construction?] at hconstruction

namespace CallEvent

def turns? : CallEvent ω → Option Nat
  | looked _ _ (.build flight _) => some flight
  | ended _ _ flight _ _ => some flight
  | _ => none

def invalidates : CallEvent ω → Bool
  | invalidated _ _ => true
  | _ => false

end CallEvent

def Begun (events : List (CallEvent ω)) (flight : Nat) : Prop :=
  ∃ caller table expired, .looked caller table (.build flight expired) ∈ events

/-- The cache was invalidated after a flight began. -/
def Detached (events : List (CallEvent ω)) (flight : Nat) : Prop :=
  ∃ before event, before ++ [event] <+: events ∧ event.invalidates = true ∧ Begun before flight

theorem Detached.begun {events : List (CallEvent ω)} {flight : Nat}
    (hdetached : Detached events flight) : Begun events flight := by
  obtain ⟨before, event, hprefix, -, caller, table, expired, hlooked⟩ := hdetached
  exact ⟨caller, table, expired, hprefix.subset (List.mem_append_left _ hlooked)⟩

theorem detached_concat (events : List (CallEvent ω)) (event : CallEvent ω) (flight : Nat) :
    Detached (events ++ [event]) flight ↔
      Detached events flight ∨ (event.invalidates = true ∧ Begun events flight) := by
  constructor
  · rintro ⟨before, last, hprefix, hlast, hbegun⟩
    rcases List.prefix_concat_iff.mp hprefix with hsame | hold
    · obtain ⟨rfl, hevent⟩ := List.append_inj' hsame rfl
      obtain rfl := (List.cons.inj hevent).1
      exact Or.inr ⟨hlast, hbegun⟩
    · exact Or.inl ⟨before, last, hold, hlast, hbegun⟩
  · rintro (⟨before, last, hprefix, hlast, hbegun⟩ | ⟨hinvalidates, hbegun⟩)
    · exact ⟨before, last, hprefix.trans (List.prefix_append _ _), hlast, hbegun⟩
    · exact ⟨events, event, List.prefix_rfl, hinvalidates, hbegun⟩

/-- What the end of a flight makes of its construction: the number of the writer, if
there is one, and what is handed out. -/
inductive Construction.Concludes (table : String) (detached : Prop) :
    Construction ω → Option Nat → FlightOutcome → Prop
  | stored (writer : ω) (id : Nat) (hcurrent : ¬ detached) :
      Concludes table detached (.built writer) (some id) (.ok id)
  | detached (writer : ω) (id : Nat) (hdetached : detached) :
      Concludes table detached (.built writer) (some id)
        (.error (WriterCache.detachedError table))
  | refused (error : ConstructionError) :
      Concludes table detached (.refused error) none (.error error)
  | panicked :
      Concludes table detached .panicked none (.error (WriterCache.brokenError table))

namespace SharedCache

variable {outside : Outside ω} {limits : CacheLimits} {shared after : SharedCache ω}
  {events : List (CallEvent ω)} {event : CallEvent ω}
  {caller : Nat} {table : String} {flight : Nat}

/-- A caller builds the writer of a table, or is about to. -/
def Constructs (shared : SharedCache ω) (caller : Nat) (table : String) (flight : Nat) : Prop :=
  (shared.callers caller).construction? = some (table, flight)

/-- It is a caller's part to bring a flight to its end and to hand out the outcome. -/
def InCharge (shared : SharedCache ω) (caller flight : Nat) : Prop :=
  ∃ duty, (shared.callers caller).duty? = some duty ∧ duty.flight = flight

/-- A table has neither a fresh writer nor a construction that can be joined. -/
def Vacant (shared : SharedCache ω) (table : String) : Prop :=
  ∀ mark, shared.cache.slots[table]? = some mark → ∃ slot entry, mark = .ready slot ∧
    shared.cache.order.get? slot = some entry ∧
      shared.cache.isExpired entry shared.clock = true

theorem Constructs.phase (hconstructs : shared.Constructs caller table flight) :
    (shared.system.callers caller).flight? = some (table, flight) := by
  rw [← hconstructs, ← Activity.flight?_phase]
  rfl

namespace Sound

/-- A flight is ended by one caller at most. -/
theorem apart (hsound : Sound limits shared) {first second : Nat} {other : String}
    (hfirst : shared.Constructs first table flight)
    (hsecond : shared.Constructs second other flight) : first = second :=
  System.Sound.apart hsound _ _ _ _ _ hfirst.phase hsecond.phase

theorem begun (hsound : Sound limits shared) (hconstructs : shared.Constructs caller table flight) :
    flight < shared.cache.flights.size :=
  System.Sound.begun hsound _ _ _ hconstructs.phase

/-- A mark is that of a construction that is still to end. -/
theorem owned (hsound : Sound limits shared)
    (hmark : shared.cache.contents.mark? table = some (.loading flight)) :
    ∃ caller, shared.Constructs caller table flight := by
  obtain ⟨caller, hcaller⟩ := System.Sound.owned hsound table flight hmark
  refine ⟨caller, ?_⟩
  rw [Constructs, ← Activity.flight?_phase]
  exact hcaller

end Sound

/-- Whoever begins or ends a flight has it to build after or before that. -/
theorem Step.turns (hsound : Sound limits shared) (hstep : Step outside shared event after)
    (hturns : event.turns? = some flight) :
    flight = shared.cache.flights.size ∨
      ∃ caller table, event.caller? = some caller ∧ shared.Constructs caller table flight := by
  cases hstep with
  | look hcaller =>
      rename_i caller table
      have hlooks := hsound.looks table
      cases hfound : (shared.cache.lookup table shared.clock).1 with
      | hit handle => simp [hfound, CallEvent.turns?] at hturns
      | join flight => simp [hfound, CallEvent.turns?] at hturns
      | build begun expired =>
          rw [hfound] at hlooks hturns
          obtain rfl := Option.some.inj hturns
          exact Or.inl hlooks.flight_eq
  | finish hcaller hfinish =>
      obtain rfl := Option.some.inj hturns
      exact Or.inr ⟨_, _, rfl, by rw [Constructs, hcaller]; rfl⟩
  | abandon hcaller =>
      obtain rfl := Option.some.inj hturns
      exact Or.inr ⟨_, _, rfl, by rw [Constructs, hcaller]; rfl⟩
  | _ => simp [CallEvent.turns?] at hturns

/-- A construction that is to end after a step either was so before it, or begins
with it. -/
theorem Step.constructs (hsound : Sound limits shared) (hstep : Step outside shared event after)
    (hconstructs : after.Constructs caller table flight) :
    (shared.Constructs caller table flight ∧ event.turns? ≠ some flight) ∨
      ∃ expired, event = .looked caller table (.build flight expired) := by
  by_cases hcaller : event.caller? = some caller
  · cases hstep with
    | tick hnow => simp [CallEvent.caller?] at hcaller
    | look hidle =>
        obtain rfl := Option.some.inj hcaller
        rename_i table
        rw [Constructs, callers_put_self] at hconstructs
        cases hfound : (shared.cache.lookup table shared.clock).1 with
        | hit handle => simp [hfound, Activity.ofLookup, Activity.construction?] at hconstructs
        | join begun => simp [hfound, Activity.ofLookup, Activity.construction?] at hconstructs
        | build begun expired =>
            rw [hfound] at hconstructs
            obtain ⟨rfl, rfl⟩ := Prod.mk.inj (Option.some.inj hconstructs)
            exact Or.inr ⟨expired, rfl⟩
    | beginClose hbefore | endClose hbefore | skip hbefore | call hbefore | deliver hbefore =>
        obtain rfl := Option.some.inj hcaller
        simp only [Constructs, callers_lock, callers_put_self] at hconstructs
        left
        rw [Constructs, hbefore]
        exact ⟨hconstructs, by simp [CallEvent.turns?]⟩
    | refuse | peek => exact Or.inl ⟨hconstructs, by simp [CallEvent.turns?]⟩
    | _ =>
        obtain rfl := Option.some.inj hcaller
        simp [Constructs, Activity.construction?, Errand.construction?] at hconstructs
  · left
    rw [Constructs, hstep.callers_eq hcaller] at hconstructs
    refine ⟨hconstructs, fun hturns => ?_⟩
    rcases hstep.turns hsound hturns with rfl | ⟨owner, other, howner, hother⟩
    · exact Nat.lt_irrefl _ (hsound.begun hconstructs)
    · obtain rfl := hsound.apart hother hconstructs
      exact hcaller howner

/-- A step that neither invalidates the cache nor begins or ends a flight leaves the
mark of the flight where it is. -/
theorem Step.loading_iff (hsound : Sound limits shared) (hstep : Step outside shared event after)
    (hkeeps : event.invalidates = false) (hturns : event.turns? ≠ some flight) :
    after.cache.contents.mark? table = some (.loading flight) ↔
      shared.cache.contents.mark? table = some (.loading flight) := by
  cases hstep with
  | look hcaller =>
      rename_i caller looked
      refine (hsound.looks looked).loading_iff fun expired hfound => ?_
      rw [hfound] at hturns
      exact hturns rfl
  | beginClose hcaller hfree hbegin =>
      obtain ⟨handle, -, -, rfl⟩ := WriterCache.beginClose_some hbegin
      simp
  | endClose hcaller hhandle hcloses => simp
  | skip hcaller hfree hbegin =>
      obtain ⟨rfl, -⟩ := WriterCache.beginClose_none hbegin
      exact Iff.rfl
  | finish hcaller hfinish =>
      exact hsound.coherent.loading_finishes (hsound.finishes hfinish)
        fun h => hturns (congrArg some h.symm)
  | abandon hcaller =>
      exact hsound.coherent.loading_finishes
        (shared.cache.finishes_abandon _ _ shared.clock) fun h => hturns (congrArg some h.symm)
  | sweep hcaller =>
      obtain ⟨kept, dropped, hevicts⟩ := WriterCache.evicts_sweep shared.clock hsound.linked
      rw [cache_put, hevicts.contents]
      exact hsound.coherent.loading_trim hevicts.entries
  | invalidate hcaller => simp [CallEvent.invalidates] at hkeeps
  | leave hcaller hhandle huses => simp
  | _ => exact Iff.rfl

/-- What a lookup step does. -/
theorem Step.of_looked {found : WriterCache.Lookup}
    (hstep : Step outside shared (.looked caller table found) after) :
    (shared.cache.lookup table shared.clock).1 = found ∧
      after.cache = (shared.cache.lookup table shared.clock).2 := by
  cases hstep with
  | look hcaller => exact ⟨rfl, rfl⟩

theorem Step.looks (hsound : Sound limits shared) {found : WriterCache.Lookup}
    (hstep : Step outside shared (.looked caller table found) after) :
    shared.cache.contents.Looks table shared.clock found after.cache.contents := by
  obtain ⟨rfl, hafter⟩ := hstep.of_looked
  rw [hafter]
  exact hsound.looks table

/-- The mark of a table tells which of its constructions has not been detached. -/
def Marked (events : List (CallEvent ω)) (shared : SharedCache ω) : Prop :=
  ∀ caller table flight, shared.Constructs caller table flight →
    (shared.cache.contents.mark? table = some (.loading flight) ↔ ¬ Detached events flight)

theorem Tracked.begun (htracked : Tracked events shared) {duty : Duty ω}
    (hduty : (shared.callers caller).duty? = some duty) : Begun events duty.flight := by
  obtain ⟨table, expired, rest, hhistory⟩ := (htracked.duties caller duty hduty).2.head
  have hlooked :
      .looked caller table (.build duty.flight expired) ∈ history events duty.flight := by
    rw [hhistory]
    exact List.mem_cons_self
  exact ⟨caller, table, expired, mem_of_mem_history hlooked⟩

/-- A flight with a number that was not yet given has not begun. -/
theorem Tracked.not_begun (htracked : Tracked events shared)
    (hflight : shared.cache.flights.size ≤ flight) : ¬ Begun events flight := by
  rintro ⟨caller, table, expired, hlooked⟩
  have hhistory : _ ∈ history events flight := mem_history rfl hlooked
  rw [htracked.unbegun flight (Array.getElem?_eq_none hflight)] at hhistory
  exact absurd hhistory List.not_mem_nil

theorem Step.mark?_of_invalidates (hstep : Step outside shared event after)
    (hevent : event.invalidates = true) (table : String) :
    after.cache.contents.mark? table = none := by
  cases hstep with
  | invalidate hcaller => simp [CacheContents.clear]
  | _ => simp [CallEvent.invalidates] at hevent

theorem Marked.step (hmarked : Marked events shared) (htracked : Tracked events shared)
    (hsound : Sound limits shared) (hstep : Step outside shared event after) :
    Marked (events ++ [event]) after := by
  intro caller table flight hconstructs
  rw [detached_concat]
  rcases hstep.constructs hsound hconstructs with ⟨hold, hturns⟩ | ⟨expired, rfl⟩
  · cases hevent : event.invalidates with
    | false =>
        rw [hstep.loading_iff hsound hevent hturns, hmarked caller table flight hold]
        simp
    | true =>
        obtain ⟨duty, hduty, rfl⟩ := Activity.duty?_of_construction? hold
        simp [hstep.mark?_of_invalidates hevent, htracked.begun hduty]
  · have hlooks := hstep.looks hsound
    have hnew : ¬ Begun events flight := htracked.not_begun (Nat.le_of_eq hlooks.flight_eq.symm)
    simp [hlooks.begins, CallEvent.invalidates, mt Detached.begun hnew]

/-- A caller that waits does so for a flight that began. -/
theorem Step.waiting (hsound : Sound limits shared) (hstep : Step outside shared event after)
    (hwaiting : after.callers caller = .waiting table flight) :
    shared.callers caller = .waiting table flight ∨ flight < shared.cache.flights.size := by
  by_cases hcaller : event.caller? = some caller
  · right
    cases hstep with
    | look hidle =>
        obtain rfl := Option.some.inj hcaller
        rename_i looked
        have hlooks := hsound.looks looked
        rw [callers_put_self] at hwaiting
        cases hfound : (shared.cache.lookup looked shared.clock).1 with
        | join begun =>
            rw [hfound] at hlooks hwaiting
            obtain ⟨rfl, rfl⟩ := Activity.waiting.inj hwaiting
            exact hsound.coherent.begun _ _ hlooks.joins
        | _ => simp [hfound, Activity.ofLookup] at hwaiting
    | tick hnow => simp [CallEvent.caller?] at hcaller
    | refuse hidle | peek hidle =>
        obtain rfl := Option.some.inj hcaller
        simp [hidle] at hwaiting
    | _ =>
        obtain rfl := Option.some.inj hcaller
        simp at hwaiting
  · left
    rwa [hstep.callers_eq hcaller] at hwaiting

/-- What is known of a cache and its callers from what has happened. -/
structure Followed (limits : CacheLimits) (events : List (CallEvent ω))
    (shared : SharedCache ω) : Prop where
  sound : Sound limits shared
  tracked : Tracked events shared
  marked : Marked events shared
  waiting : ∀ caller table flight, shared.callers caller = .waiting table flight →
    flight < shared.cache.flights.size

theorem Followed.start (limits : CacheLimits) (clock : Nat) :
    Followed limits [] (start (ω := ω) limits clock) where
  sound := Sound.start limits clock
  tracked := Tracked.start limits clock
  marked := by simp [Marked, Constructs, SharedCache.start, Activity.construction?]
  waiting := by simp [SharedCache.start]

theorem Followed.step (hfollowed : Followed limits events shared)
    (hstep : Step outside shared event after) : Followed limits (events ++ [event]) after := by
  obtain ⟨hsound, htracked, hmarked, hwaiting⟩ := hfollowed
  constructor
  · exact hsound.step hstep
  · exact htracked.step hsound hstep
  · exact hmarked.step htracked hsound hstep
  · intro caller table flight hafter
    have hgrows := event.size_flights shared.cache.flights
    rw [← hstep.flights_eq hsound] at hgrows
    rcases hstep.waiting hsound hafter with hbefore | hbegun
    · exact Nat.lt_of_lt_of_le (hwaiting caller table flight hbefore) hgrows
    · exact Nat.lt_of_lt_of_le hbegun hgrows

theorem Run.followed {clock : Nat} (hrun : Run outside (start limits clock) events shared) :
    Followed limits events shared := by
  induction hrun with
  | nil => exact Followed.start limits clock
  | step hrun hstep ih => exact ih.step hstep

/-- A flight that ends without a writer. -/
theorem Step.ends (hsound : Sound limits shared) {outcome : FlightOutcome}
    (hstep : Step outside shared (.ended caller table flight none outcome) after) :
    shared.Constructs caller table flight ∧ ∃ error,
      shared.cache.contents.Finishes table flight shared.clock (.error error) outcome []
        after.cache.contents := by
  generalize hevent : CallEvent.ended caller table flight none outcome = event at hstep
  cases hstep with
  | finish hcaller hfinish =>
      rename_i built other released cache
      obtain ⟨rfl, rfl, rfl, hnumber, rfl⟩ := CallEvent.ended.inj hevent
      have hfinishes := hsound.finishes hfinish
      cases built with
      | ok writer => simp [numberFor] at hnumber
      | error error =>
          obtain rfl := hfinishes.released_of_error
          refine ⟨?_, error, hfinishes⟩
          rw [Constructs, hcaller]
          rfl
  | abandon hcaller =>
      obtain ⟨rfl, rfl, rfl, -, rfl⟩ := CallEvent.ended.inj hevent
      refine ⟨?_, _, shared.cache.finishes_abandon _ _ shared.clock⟩
      rw [Constructs, hcaller]
      rfl
  | _ => cases hevent

/-- A table without a mark gets none but by a lookup. -/
theorem Step.mark?_eq_none (hsound : Sound limits shared) (hstep : Step outside shared event after)
    (hlooked : ∀ caller found, event ≠ .looked caller table found)
    (hmark : shared.cache.contents.mark? table = none) :
    after.cache.contents.mark? table = none := by
  cases hstep with
  | look hcaller =>
      rename_i caller other
      apply (hsound.looks other).mark?_eq_none _ hmark
      rintro rfl
      exact hlooked _ _ rfl
  | beginClose hcaller hfree hbegin =>
      obtain ⟨handle, -, -, rfl⟩ := WriterCache.beginClose_some hbegin
      simpa using hmark
  | endClose hcaller hhandle hcloses => simpa using hmark
  | skip hcaller hfree hbegin =>
      obtain ⟨rfl, -⟩ := WriterCache.beginClose_none hbegin
      exact hmark
  | finish hcaller hfinish => exact (hsound.finishes hfinish).mark?_eq_none hmark
  | abandon hcaller =>
      exact (shared.cache.finishes_abandon _ _ shared.clock).mark?_eq_none hmark
  | sweep hcaller =>
      obtain ⟨kept, dropped, hevicts⟩ := WriterCache.evicts_sweep shared.clock hsound.linked
      simp [hevicts.contents, CacheContents.trim, hmark]
  | invalidate hcaller => simp [CacheContents.clear]
  | leave hcaller hhandle huses => simpa using hmark
  | _ => exact hmark

theorem Run.mark?_eq_none (hsound : Sound limits shared) (hrun : Run outside shared events after)
    (hlooked : ∀ caller found, .looked caller table found ∉ events)
    (hmark : shared.cache.contents.mark? table = none) :
    after.cache.contents.mark? table = none := by
  induction hrun with
  | nil => exact hmark
  | step hrun hstep ih =>
      refine hstep.mark?_eq_none (hsound.run hrun) ?_ (ih ?_)
      · rintro caller found rfl
        exact hlooked caller found (List.mem_append_right _ List.mem_cons_self)
      · exact fun caller found hmem => hlooked caller found (List.mem_append_left _ hmem)

/-- What it means that constructions are shared, in a cache that came about by these
events. -/
structure SingleFlight (outside : Outside ω) (first : SharedCache ω)
    (events : List (CallEvent ω)) (shared : SharedCache ω) : Prop where
  /-- A writer is built once in a flight, and by a caller that found neither a fresh
  writer nor a construction under way. -/
  called : ∀ caller table flight after, Step outside shared (.called caller table flight) after →
    (∀ other found, .called other found flight ∉ events) ∧
      ∃ before rest expired earlier later,
        events = before ++ .looked caller table (.build flight expired) :: rest ∧
          Run outside first before earlier ∧ earlier.Vacant table ∧
          Step outside earlier (.looked caller table (.build flight expired)) later ∧
          Run outside later rest shared
  /-- Of the constructions of a table, one at most has not been detached. -/
  alone : ∀ first second table flight other,
    shared.Constructs first table flight → ¬ Detached events flight →
      shared.Constructs second table other → ¬ Detached events other →
        first = second ∧ flight = other
  /-- A flight that is joined is a construction of the table under way. -/
  joined : ∀ caller table flight after,
    Step outside shared (.looked caller table (.join flight)) after →
      ¬ Detached events flight ∧ ∃ builder, shared.Constructs builder table flight
  /-- What becomes of a construction. -/
  ended : ∀ caller table flight handle outcome after,
    Step outside shared (.ended caller table flight handle outcome) after →
      ∃ construction, .delivered caller table flight construction ∈ events ∧
        construction.Concludes table (Detached events flight) handle outcome
  /-- What is handed out is what became of the construction. -/
  published : ∀ caller flight outcome after,
    Step outside shared (.published caller flight outcome) after →
      ∃ table handle, .ended caller table flight handle outcome ∈ events
  /-- A flight is in the charge of one caller until its outcome was handed out, once. -/
  once : ∀ flight, Begun events flight →
    (events.countP (fun event => event.publishes? = some flight) = 0 ∧
        ∃! caller, shared.InCharge caller flight) ∨
      (events.countP (fun event => event.publishes? = some flight) = 1 ∧
        (∃ outcome, shared.cache.outcome? flight = some outcome) ∧
        ∀ caller, ¬ shared.InCharge caller flight)
  /-- A caller that waits either waits for a caller in charge, or can go on. -/
  waiting : ∀ caller table flight, shared.callers caller = .waiting table flight →
    (∃ builder, shared.InCharge builder flight) ∨
      ∃ outcome, shared.cache.outcome? flight = some outcome
  /-- A caller that waited gets what was handed out. -/
  received : ∀ caller flight outcome after,
    Step outside shared (.received caller flight outcome) after →
      ∃ builder, .published builder flight outcome ∈ events
  /-- A construction that failed leaves nothing, and the next lookup builds anew. -/
  failed : ∀ caller table flight outcome after,
    Step outside shared (.ended caller table flight none outcome) after →
      ¬ Detached events flight →
        after.cache.slots[table]? = none ∧
          (∀ entry ∈ after.cache.order.toList, entry.table ≠ table) ∧
          ∀ rest later, Run outside after rest later →
            (∀ other found, .looked other table found ∉ rest) → ∀ now,
              (later.cache.lookup table now).1 = .build later.cache.flights.size none

namespace Followed

theorem vacant (hfollowed : Followed limits events shared) {expired : Option Nat}
    (hstep : Step outside shared (.looked caller table (.build flight expired)) after) :
    shared.Vacant table := by
  intro mark hmark
  obtain ⟨slot, entry, hready, hentry, hexpired⟩ :=
    (hstep.looks hfollowed.sound).expired hmark
  exact ⟨slot, entry, hready, (hfollowed.sound.linked.live slot entry).mpr hentry,
    decide_eq_true hexpired⟩

/-- Nothing but the lookup of the caller precedes the construction in a flight. -/
theorem called (hfollowed : Followed limits events shared)
    (hstep : Step outside shared (.called caller table flight) after) :
    ∃ expired, history events flight = [.looked caller table (.build flight expired)] := by
  cases hstep with
  | call hcaller =>
      have hduty : (shared.callers caller).duty? = some (.prepare table flight) := by
        rw [hcaller]
        rfl
      exact (hfollowed.tracked.duties caller _ hduty).2.looked

theorem alone (hfollowed : Followed limits events shared) {first second other : Nat}
    (hfirst : shared.Constructs first table flight) (hflight : ¬ Detached events flight)
    (hsecond : shared.Constructs second table other) (hother : ¬ Detached events other) :
    first = second ∧ flight = other := by
  have hmark := (hfollowed.marked first table flight hfirst).mpr hflight
  have hsame := (hfollowed.marked second table other hsecond).mpr hother
  obtain rfl := CacheSlot.loading.inj (Option.some.inj (hmark.symm.trans hsame))
  exact ⟨hfollowed.sound.apart hfirst hsecond, rfl⟩

theorem joined (hfollowed : Followed limits events shared)
    (hstep : Step outside shared (.looked caller table (.join flight)) after) :
    ¬ Detached events flight ∧ ∃ builder, shared.Constructs builder table flight := by
  have hmark := (hstep.looks hfollowed.sound).joins
  obtain ⟨builder, hbuilder⟩ := hfollowed.sound.owned hmark
  exact ⟨(hfollowed.marked builder table flight hbuilder).mp hmark, builder, hbuilder⟩

theorem ended (hfollowed : Followed limits events shared) {handle : Option Nat}
    {outcome : FlightOutcome}
    (hstep : Step outside shared (.ended caller table flight handle outcome) after) :
    ∃ construction, .delivered caller table flight construction ∈ events ∧
      construction.Concludes table (Detached events flight) handle outcome := by
  have hdelivered {construction : Construction ω}
      (hcaller : shared.callers caller = .ending table flight construction) :
      .delivered caller table flight construction ∈ events := by
    have hduty : (shared.callers caller).duty? = some (.conclude table flight construction) := by
      rw [hcaller]
      rfl
    exact mem_of_mem_history (hfollowed.tracked.duties caller _ hduty).2.delivered
  cases hstep with
  | finish hcaller hfinish =>
      rename_i built released cache
      refine ⟨_, hdelivered hcaller, ?_⟩
      have hconstructs : shared.Constructs caller table flight := by
        rw [Constructs, hcaller]
        rfl
      have hmark := hfollowed.marked caller table flight hconstructs
      have hfinishes := hfollowed.sound.finishes hfinish
      generalize cache.contents = contents at hfinishes
      cases hfinishes with
      | refused _ | refusedDetached _ => exact .refused _
      | stored hloading _ _ _ => exact .stored _ _ (hmark.mp hloading)
      | detached hdetached => exact .detached _ _ (not_not.mp (mt hmark.mpr hdetached))
  | abandon hcaller => exact ⟨_, hdelivered hcaller, .panicked⟩

theorem published (hfollowed : Followed limits events shared) {outcome : FlightOutcome}
    (hstep : Step outside shared (.published caller flight outcome) after) :
    ∃ table handle, .ended caller table flight handle outcome ∈ events := by
  cases hstep with
  | publish hcaller =>
      have hduty : (shared.callers caller).duty? = some (.publish flight outcome) := by
        rw [hcaller]
        rfl
      obtain ⟨table, handle, hended⟩ := (hfollowed.tracked.duties caller _ hduty).2.ended
      exact ⟨table, handle, mem_of_mem_history hended⟩

/-- The outcome of a flight is there once it was handed out. -/
theorem concluded (hfollowed : Followed limits events shared) {outcome : FlightOutcome}
    (houtcome : shared.cache.outcome? flight = some outcome) :
    Concluded flight outcome (history events flight) :=
  hfollowed.tracked.concluded flight outcome (Option.join_eq_some_iff.mp houtcome)

theorem received (hfollowed : Followed limits events shared) {outcome : FlightOutcome}
    (hstep : Step outside shared (.received caller flight outcome) after) :
    ∃ builder, .published builder flight outcome ∈ events := by
  cases hstep with
  | receive hcaller houtcome =>
      obtain ⟨builder, hpublished⟩ := (hfollowed.concluded houtcome).published
      exact ⟨builder, mem_of_mem_history hpublished⟩

/-- A flight that began is in somebody's charge, or its outcome is there. -/
theorem charged_or_outcome (hfollowed : Followed limits events shared)
    (hflight : flight < shared.cache.flights.size) :
    (∃ caller, shared.InCharge caller flight) ∨
      ∃ outcome, shared.cache.outcome? flight = some outcome := by
  have hsome := Array.getElem?_eq_getElem hflight
  cases hfound : shared.cache.flights[flight] with
  | none =>
      rw [hfound] at hsome
      exact Or.inl (hfollowed.tracked.charged flight hsome)
  | some outcome =>
      rw [hfound] at hsome
      exact Or.inr ⟨outcome, Option.join_eq_some_iff.mpr hsome⟩

theorem inCharge_unique (hfollowed : Followed limits events shared) {other : Nat}
    (hcaller : shared.InCharge caller flight) (hother : shared.InCharge other flight) :
    other = caller := by
  obtain ⟨duty, hduty, rfl⟩ := hcaller
  obtain ⟨otherDuty, hotherDuty, hsame⟩ := hother
  exact hfollowed.tracked.caller_unique hotherDuty hduty hsame

theorem once (hfollowed : Followed limits events shared) (hbegun : Begun events flight) :
    (events.countP (fun event => event.publishes? = some flight) = 0 ∧
        ∃! caller, shared.InCharge caller flight) ∨
      (events.countP (fun event => event.publishes? = some flight) = 1 ∧
        (∃ outcome, shared.cache.outcome? flight = some outcome) ∧
        ∀ caller, ¬ shared.InCharge caller flight) := by
  have hflight : flight < shared.cache.flights.size := by
    by_contra hle
    exact hfollowed.tracked.not_begun (Nat.le_of_not_lt hle) hbegun
  rw [← countP_publishes_history]
  rcases hfollowed.charged_or_outcome hflight with ⟨caller, hcaller⟩ | ⟨outcome, houtcome⟩
  · left
    refine ⟨?_, caller, hcaller, fun other hother => hfollowed.inCharge_unique hcaller hother⟩
    obtain ⟨duty, hduty, rfl⟩ := hcaller
    exact (hfollowed.tracked.duties caller duty hduty).2.countP_publishes duty.flight
  · right
    refine ⟨?_, ⟨outcome, houtcome⟩, ?_⟩
    · exact (hfollowed.concluded houtcome).countP_publishes
    · rintro caller ⟨duty, hduty, rfl⟩
      have hnone := (hfollowed.tracked.duties caller duty hduty).1
      simp [WriterCache.outcome?, hnone] at houtcome

theorem failed (hfollowed : Followed limits events shared) {outcome : FlightOutcome}
    (hstep : Step outside shared (.ended caller table flight none outcome) after)
    (hcurrent : ¬ Detached events flight) :
    after.cache.slots[table]? = none ∧
      (∀ entry ∈ after.cache.order.toList, entry.table ≠ table) ∧
      ∀ rest later, Run outside after rest later →
        (∀ other found, .looked other table found ∉ rest) → ∀ now,
          (later.cache.lookup table now).1 = .build later.cache.flights.size none := by
  obtain ⟨hconstructs, error, hfinishes⟩ := hstep.ends hfollowed.sound
  have hsound := hfollowed.sound.step hstep
  have hmark := hfinishes.mark?_of_error ((hfollowed.marked _ _ _ hconstructs).mpr hcurrent)
  refine ⟨hmark, ?_, ?_⟩
  · rintro entry hentry rfl
    obtain ⟨⟨slot, found⟩, hfound, rfl⟩ := List.mem_map.mp hentry
    have hready := (hsound.coherent.ready found.table slot).mpr ⟨found, hfound, rfl⟩
    simp [hmark] at hready
  · intro rest later hrun hlooked now
    exact WriterCache.lookup_of_unmarked (hrun.mark?_eq_none hsound hlooked hmark) now

end Followed

/-- Constructions are shared, whatever the callers do and in whatever order. -/
theorem Run.singleFlight {clock : Nat} (hrun : Run outside (start limits clock) events shared) :
    SingleFlight outside (start limits clock) events shared where
  called := by
    intro caller table flight after hstep
    obtain ⟨expired, hhistory⟩ := hrun.followed.called hstep
    constructor
    · intro other found hcalled
      have hmem : _ ∈ history events flight := mem_history rfl hcalled
      simp [hhistory] at hmem
    · have hlooked : .looked caller table (.build flight expired) ∈ history events flight := by
        rw [hhistory]
        exact List.mem_cons_self
      obtain ⟨before, rest, rfl⟩ := List.append_of_mem (mem_of_mem_history hlooked)
      obtain ⟨earlier, later, hbefore, hlook, hafter⟩ := hrun.split
      exact ⟨before, rest, expired, earlier, later, rfl, hbefore, hbefore.followed.vacant hlook,
        hlook, hafter⟩
  alone := fun _ _ _ _ _ hfirst hflight hsecond hother =>
    hrun.followed.alone hfirst hflight hsecond hother
  joined := fun _ _ _ _ => hrun.followed.joined
  ended := fun _ _ _ _ _ _ => hrun.followed.ended
  published := fun _ _ _ _ => hrun.followed.published
  once := fun _ => hrun.followed.once
  waiting := fun caller table flight hwaiting =>
    hrun.followed.charged_or_outcome (hrun.followed.waiting caller table flight hwaiting)
  received := fun _ _ _ _ => hrun.followed.received
  failed := fun _ _ _ _ _ => hrun.followed.failed

/-- Two callers ask for a table, and the construction of its writer breaks off. -/
theorem Run.singleFlight_panicked :
    ∃ (events : List (CallEvent Unit)) (shared : SharedCache Unit),
      Run ⟨fun _ _ => True, fun _ _ => True, fun _ _ => True⟩ (start { capacity := 1 } 0)
          events shared ∧
        .received 1 0 (.error (WriterCache.brokenError "orders")) ∈ events ∧
        SingleFlight ⟨fun _ _ => True, fun _ _ => True, fun _ _ => True⟩
          (start { capacity := 1 } 0) events shared := by
  let outside : Outside Unit := ⟨fun _ _ => True, fun _ _ => True, fun _ _ => True⟩
  have hlooked := Run.nil.step (@Step.look _ outside (start { capacity := 1 } 0) 0 "orders" rfl)
  have hjoined := hlooked.step (@Step.look _ _ _ 1 "orders" rfl)
  have hcalled := hjoined.step (@Step.call _ _ _ 0 "orders" 0 (by
    simp [start, put, Activity.ofLookup, WriterCache.lookup, WriterCache.beginFlight]))
  have hdelivered := hcalled.step (@Step.deliver _ _ _ 0 "orders" 0 .panicked rfl trivial)
  have hended := hdelivered.step (@Step.abandon _ _ _ 0 "orders" 0 rfl)
  have hpublished := hended.step (@Step.publish _ _ _ 0 0 _ _ _ rfl)
  have hreceived := hpublished.step (@Step.receive _ _ _ 1 "orders" 0
    (.error (WriterCache.brokenError "orders"))
    (by simp [start, put, Activity.ofLookup, WriterCache.lookup, WriterCache.beginFlight,
      WriterCache.count])
    (by simp [start, put, WriterCache.lookup, WriterCache.beginFlight, WriterCache.count,
      WriterCache.abandon, WriterCache.isCurrent, WriterCache.publish, WriterCache.outcome?]))
  exact ⟨_, _, hreceived, by simp, hreceived.singleFlight⟩

end SharedCache

end TableRouting
