import TableRouting.Proofs.Cache.Sharing

/-!
# The course of a flight

A flight begins with a lookup that finds neither a fresh writer nor a construction.
The caller that began it closes what expired, builds the writer, tells the cache,
and hands out the outcome, each of them once and in this order.  At every moment a
flight is in the charge of one caller, or its outcome is there for all that joined
it.
-/

namespace TableRouting

variable {ω : Type}

/-- The part that a caller has in a flight. -/
inductive Duty (ω : Type) where
  /-- It closes what expired before it builds. -/
  | prepare (table : String) (flight : Nat)
  | build (table : String) (flight : Nat)
  | conclude (table : String) (flight : Nat) (construction : Construction ω)
  | publish (flight : Nat) (outcome : FlightOutcome)

def Duty.flight : Duty ω → Nat
  | prepare _ flight => flight
  | build _ flight => flight
  | conclude _ flight _ => flight
  | publish flight _ => flight

def Errand.duty? : Errand → Option (Duty ω)
  | build table flight => some (.prepare table flight)
  | answer _ => none

def Activity.duty? : Activity ω → Option (Duty ω)
  | releasing _ errand => errand.duty?
  | closing _ _ errand => errand.duty?
  | building table flight => some (.build table flight)
  | ending table flight construction => some (.conclude table flight construction)
  | publishing flight outcome _ _ => some (.publish flight outcome)
  | _ => none

namespace CallEvent

def flight? : CallEvent ω → Option Nat
  | looked _ _ (.build flight _) => some flight
  | called _ _ flight => some flight
  | delivered _ _ flight _ => some flight
  | ended _ _ flight _ _ => some flight
  | published _ flight _ => some flight
  | _ => none

def publishes? : CallEvent ω → Option Nat
  | published _ flight _ => some flight
  | _ => none

/-- The flights and their outcomes after a step. -/
def flights (before : Array (Option FlightOutcome)) :
    CallEvent ω → Array (Option FlightOutcome)
  | looked _ _ (.build _ _) => before.push none
  | published _ flight outcome => before.setIfInBounds flight (some outcome)
  | _ => before

theorem flights_of_flight?_eq_none {event : CallEvent ω} (hnone : event.flight? = none)
    (before : Array (Option FlightOutcome)) : event.flights before = before := by
  cases event with
  | looked caller table found => cases found <;> simp_all [flight?, flights]
  | published caller flight outcome => simp [flight?] at hnone
  | _ => rfl

theorem size_flights (event : CallEvent ω) (before : Array (Option FlightOutcome)) :
    before.size ≤ (event.flights before).size := by
  cases event with
  | looked caller table found => cases found <;> simp [flights]
  | _ => simp [flights]

end CallEvent

def history (events : List (CallEvent ω)) (flight : Nat) : List (CallEvent ω) :=
  events.filter fun event => event.flight? = some flight

theorem history_concat {event : CallEvent ω} {flight : Nat}
    (hflight : event.flight? = some flight) (events : List (CallEvent ω)) :
    history (events ++ [event]) flight = history events flight ++ [event] := by
  simp [history, hflight]

theorem history_concat_of_ne {event : CallEvent ω} {flight : Nat}
    (hflight : event.flight? ≠ some flight) (events : List (CallEvent ω)) :
    history (events ++ [event]) flight = history events flight := by
  simp [history, hflight]

theorem mem_of_mem_history {event : CallEvent ω} {events : List (CallEvent ω)} {flight : Nat}
    (hevent : event ∈ history events flight) : event ∈ events :=
  List.mem_of_mem_filter hevent

theorem mem_history {event : CallEvent ω} {events : List (CallEvent ω)} {flight : Nat}
    (hflight : event.flight? = some flight) (hevent : event ∈ events) :
    event ∈ history events flight := by
  simp [history, hflight, hevent]

/-- An outcome that is handed out is part of what happens to its flight. -/
theorem countP_publishes_history (events : List (CallEvent ω)) (flight : Nat) :
    (history events flight).countP (fun event => event.publishes? = some flight) =
      events.countP fun event => event.publishes? = some flight := by
  rw [history, List.countP_filter]
  apply List.countP_congr
  intro event _
  cases event <;> simp [CallEvent.publishes?, CallEvent.flight?]

/-- What has happened to a flight when a caller has come to a duty in it. -/
inductive Duty.Traced (caller : Nat) : Duty ω → List (CallEvent ω) → Prop
  | prepare (table : String) (flight : Nat) (expired : Option Nat) :
      Traced caller (.prepare table flight) [.looked caller table (.build flight expired)]
  | build {table : String} {flight : Nat} {events : List (CallEvent ω)}
      (hbefore : Traced caller (.prepare table flight) events) :
      Traced caller (.build table flight) (events ++ [.called caller table flight])
  | conclude {table : String} {flight : Nat} {events : List (CallEvent ω)}
      (hbefore : Traced caller (.build table flight) events) (construction : Construction ω) :
      Traced caller (.conclude table flight construction)
        (events ++ [.delivered caller table flight construction])
  | publish {table : String} {flight : Nat} {construction : Construction ω}
      {events : List (CallEvent ω)}
      (hbefore : Traced caller (.conclude table flight construction) events)
      (handle : Option Nat) (outcome : FlightOutcome) :
      Traced caller (.publish flight outcome)
        (events ++ [.ended caller table flight handle outcome])

/-- What has happened to a flight whose outcome was handed out. -/
inductive Concluded (flight : Nat) (outcome : FlightOutcome) : List (CallEvent ω) → Prop
  | intro {caller : Nat} {events : List (CallEvent ω)}
      (hbefore : Duty.Traced caller (.publish flight outcome) events) :
      Concluded flight outcome (events ++ [.published caller flight outcome])

/-- A flight begins with the lookup of the caller in whose charge it is. -/
theorem Duty.Traced.head {caller : Nat} {duty : Duty ω} {events : List (CallEvent ω)}
    (htraced : duty.Traced caller events) :
    ∃ table expired rest, events = .looked caller table (.build duty.flight expired) :: rest := by
  induction htraced with
  | prepare table flight expired => exact ⟨table, expired, [], rfl⟩
  | build hbefore ih =>
      obtain ⟨table, expired, rest, rfl⟩ := ih
      exact ⟨table, expired, _, rfl⟩
  | conclude hbefore construction ih =>
      obtain ⟨table, expired, rest, rfl⟩ := ih
      exact ⟨table, expired, _, rfl⟩
  | publish hbefore handle outcome ih =>
      obtain ⟨table, expired, rest, rfl⟩ := ih
      exact ⟨table, expired, _, rfl⟩

theorem Duty.Traced.caller_unique {first second : Nat} {duty other : Duty ω}
    {events : List (CallEvent ω)} (hfirst : duty.Traced first events)
    (hsecond : other.Traced second events) : first = second := by
  obtain ⟨table, expired, rest, rfl⟩ := hfirst.head
  obtain ⟨_, _, _, hsame⟩ := hsecond.head
  exact (CallEvent.looked.inj (List.cons.inj hsame).1).1

/-- Who is about to build has done nothing but the lookup that began the flight. -/
theorem Duty.Traced.looked {caller : Nat} {table : String} {flight : Nat}
    {events : List (CallEvent ω)} (htraced : (Duty.prepare table flight).Traced caller events) :
    ∃ expired, events = [.looked caller table (.build flight expired)] := by
  cases htraced with
  | prepare _ _ expired => exact ⟨expired, rfl⟩

/-- Who ends a flight has the construction from the outside. -/
theorem Duty.Traced.delivered {caller : Nat} {table : String} {flight : Nat}
    {construction : Construction ω} {events : List (CallEvent ω)}
    (htraced : (Duty.conclude table flight construction).Traced caller events) :
    .delivered caller table flight construction ∈ events := by
  cases htraced with
  | conclude hbefore _ => simp

/-- Who hands out an outcome has it from the end of the flight. -/
theorem Duty.Traced.ended {caller flight : Nat} {outcome : FlightOutcome}
    {events : List (CallEvent ω)} (htraced : (Duty.publish flight outcome).Traced caller events) :
    ∃ table handle, .ended caller table flight handle outcome ∈ events := by
  cases htraced with
  | publish hbefore handle _ =>
      exact ⟨_, handle, List.mem_append_right _ (List.mem_singleton.mpr rfl)⟩

/-- No outcome was handed out of a flight that is in a caller's charge. -/
theorem Duty.Traced.countP_publishes {caller : Nat} {duty : Duty ω}
    {events : List (CallEvent ω)} (htraced : duty.Traced caller events) (flight : Nat) :
    events.countP (fun event => event.publishes? = some flight) = 0 := by
  induction htraced with
  | prepare table flight expired => rfl
  | build hbefore ih =>
      rw [List.countP_append, ih]
      rfl
  | conclude hbefore construction ih =>
      rw [List.countP_append, ih]
      rfl
  | publish hbefore handle outcome ih =>
      rw [List.countP_append, ih]
      rfl

/-- The outcome of a flight was handed out once. -/
theorem Concluded.countP_publishes {flight : Nat} {outcome : FlightOutcome}
    {events : List (CallEvent ω)} (hconcluded : Concluded flight outcome events) :
    events.countP (fun event => event.publishes? = some flight) = 1 := by
  cases hconcluded with
  | intro hbefore =>
      rw [List.countP_append, hbefore.countP_publishes flight]
      simp [CallEvent.publishes?]

/-- An outcome that is there was handed out. -/
theorem Concluded.published {flight : Nat} {outcome : FlightOutcome}
    {events : List (CallEvent ω)} (hconcluded : Concluded flight outcome events) :
    ∃ caller, .published caller flight outcome ∈ events := by
  cases hconcluded with
  | intro hbefore => exact ⟨_, List.mem_append_right _ (List.mem_singleton.mpr rfl)⟩

theorem CacheContents.Looks.flights_eq {contents after : CacheContents ω} {table : String}
    {now : Nat} {found : WriterCache.Lookup} (hlooks : contents.Looks table now found after)
    (caller : Nat) :
    after.flights =
      (CallEvent.looked caller table found : CallEvent ω).flights contents.flights := by
  cases hlooks <;> rfl

theorem CacheContents.Looks.flight_eq {contents after : CacheContents ω} {table : String}
    {now flight : Nat} {expired : Option Nat}
    (hlooks : contents.Looks table now (.build flight expired) after) :
    flight = contents.flights.size := by
  cases hlooks <;> rfl

theorem WriterCache.flights_modifyHandle (cache : WriterCache ω) (id : Nat)
    (f : WriterHandle ω → WriterHandle ω) : (cache.modifyHandle id f).flights = cache.flights := by
  rw [WriterCache.modifyHandle]
  split <;> rfl

namespace SharedCache

variable {outside : Outside ω} {limits : CacheLimits} {shared after : SharedCache ω}
  {events : List (CallEvent ω)} {event : CallEvent ω}

theorem duty?_put {caller : Nat} {activity : Activity ω}
    (hduty : activity.duty? = (shared.callers caller).duty?) (cache : WriterCache ω)
    (other : Nat) :
    ((shared.put caller activity cache).callers other).duty? = (shared.callers other).duty? := by
  by_cases hother : other = caller
  · subst hother
    rw [callers_put_self, hduty]
  · rw [callers_put_of_ne hother]

/-- A step that is about no flight leaves everybody's duties as they are. -/
theorem Step.duty?_eq (hstep : Step outside shared event after) (hnone : event.flight? = none)
    (other : Nat) : (after.callers other).duty? = (shared.callers other).duty? := by
  cases hstep with
  | tick hnow => rfl
  | look hcaller =>
      apply duty?_put
      rw [hcaller]
      generalize (shared.cache.lookup _ shared.clock).1 = found at hnone
      cases found with
      | hit handle => rfl
      | join flight => rfl
      | build flight expired => simp [CallEvent.flight?] at hnone
  | receive hcaller houtcome =>
      apply duty?_put
      rw [hcaller]
      rfl
  | beginClose hcaller hfree hbegin =>
      rw [callers_lock]
      apply duty?_put
      rw [hcaller]
      rfl
  | endClose hcaller hhandle hcloses =>
      rw [callers_lock]
      apply duty?_put
      rw [hcaller]
      rfl
  | skip hcaller hfree hbegin =>
      apply duty?_put
      rw [hcaller]
      rfl
  | call hcaller => simp [CallEvent.flight?] at hnone
  | deliver hcaller hbuilds => simp [CallEvent.flight?] at hnone
  | finish hcaller hfinish => simp [CallEvent.flight?] at hnone
  | abandon hcaller => simp [CallEvent.flight?] at hnone
  | publish hcaller => simp [CallEvent.flight?] at hnone
  | answer hcaller =>
      apply duty?_put
      rw [hcaller]
      rfl
  | sweep hcaller =>
      apply duty?_put
      rw [hcaller]
      rfl
  | invalidate hcaller =>
      apply duty?_put
      rw [hcaller]
      rfl
  | enter hcaller hfree hhandle hopen =>
      rw [callers_lock]
      apply duty?_put
      rw [hcaller]
      rfl
  | refuse hcaller hfree hhandle hclosed => rfl
  | leave hcaller hhandle huses =>
      rw [callers_lock]
      apply duty?_put
      rw [hcaller]
      rfl
  | peek hcaller => rfl

/-- A step begins the flight that it says, and hands out the outcome that it says. -/
theorem Step.flights_eq (hsound : Sound limits shared)
    (hstep : Step outside shared event after) :
    after.cache.flights = event.flights shared.cache.flights := by
  cases hstep with
  | look hcaller =>
      rename_i caller table
      exact (hsound.looks table).flights_eq caller
  | beginClose hcaller hfree hbegin =>
      obtain ⟨handle, -, -, rfl⟩ := WriterCache.beginClose_some hbegin
      exact WriterCache.flights_modifyHandle ..
  | endClose hcaller hhandle hcloses => exact WriterCache.flights_modifyHandle ..
  | skip hcaller hfree hbegin =>
      obtain ⟨rfl, -⟩ := WriterCache.beginClose_none hbegin
      rfl
  | finish hcaller hfinish => exact (hsound.finishes hfinish).flights_eq
  | abandon hcaller =>
      exact (shared.cache.finishes_abandon _ _ shared.clock).flights_eq
  | sweep hcaller =>
      obtain ⟨kept, dropped, hevicts⟩ := WriterCache.evicts_sweep shared.clock hsound.linked
      exact congrArg CacheContents.flights hevicts.contents
  | leave hcaller hhandle huses => exact WriterCache.flights_modifyHandle ..
  | _ => rfl

/-- What has happened fits the duties of the callers and the outcomes of the flights. -/
structure Tracked (events : List (CallEvent ω)) (shared : SharedCache ω) : Prop where
  unbegun : ∀ flight, shared.cache.flights[flight]? = none → history events flight = []
  duties : ∀ caller duty, (shared.callers caller).duty? = some duty →
    shared.cache.flights[duty.flight]? = some none ∧
      duty.Traced caller (history events duty.flight)
  charged : ∀ flight, shared.cache.flights[flight]? = some none →
    ∃ caller duty, (shared.callers caller).duty? = some duty ∧ duty.flight = flight
  concluded : ∀ flight outcome, shared.cache.flights[flight]? = some (some outcome) →
    Concluded flight outcome (history events flight)

namespace Tracked

theorem start (limits : CacheLimits) (clock : Nat) :
    Tracked [] (start (ω := ω) limits clock) where
  unbegun := fun _ _ => rfl
  duties := by simp [SharedCache.start, Activity.duty?]
  charged := by simp [SharedCache.start]
  concluded := by simp [SharedCache.start]

/-- A flight is in the charge of one caller at most. -/
theorem caller_unique (htracked : Tracked events shared) {first second : Nat}
    {duty other : Duty ω} (hduty : (shared.callers first).duty? = some duty)
    (hother : (shared.callers second).duty? = some other) (hflight : duty.flight = other.flight) :
    first = second := by
  have hfirst := (htracked.duties first duty hduty).2
  have hsecond := (htracked.duties second other hother).2
  rw [hflight] at hfirst
  exact hfirst.caller_unique hsecond

/-- A step about no flight. -/
theorem frame (htracked : Tracked events shared) (hflight : event.flight? = none)
    (hduties : ∀ caller, (after.callers caller).duty? = (shared.callers caller).duty?)
    (hflights : after.cache.flights = shared.cache.flights) :
    Tracked (events ++ [event]) after := by
  have hhistory (flight : Nat) : history (events ++ [event]) flight = history events flight :=
    history_concat_of_ne (by simp [hflight]) events
  constructor
  · intro flight hnone
    rw [hhistory]
    rw [hflights] at hnone
    exact htracked.unbegun flight hnone
  · intro caller duty hduty
    rw [hhistory, hflights]
    rw [hduties] at hduty
    exact htracked.duties caller duty hduty
  · intro flight hcharged
    rw [hflights] at hcharged
    obtain ⟨caller, duty, hduty, hsame⟩ := htracked.charged flight hcharged
    exact ⟨caller, duty, (hduties caller).trans hduty, hsame⟩
  · intro flight outcome hconcluded
    rw [hhistory]
    rw [hflights] at hconcluded
    exact htracked.concluded flight outcome hconcluded

/-- A caller brings its flight forward. -/
theorem advance (htracked : Tracked events shared) {caller : Nat} {duty next : Duty ω}
    {activity : Activity ω} {cache : WriterCache ω}
    (hduty : (shared.callers caller).duty? = some duty) (hnext : activity.duty? = some next)
    (hsame : next.flight = duty.flight) (hflight : event.flight? = some duty.flight)
    (htraced : ∀ before, duty.Traced caller before → next.Traced caller (before ++ [event]))
    (hflights : cache.flights = shared.cache.flights) :
    Tracked (events ++ [event]) (shared.put caller activity cache) := by
  obtain ⟨hpending, hbefore⟩ := htracked.duties caller duty hduty
  have hother {flight : Nat} (hne : flight ≠ duty.flight) :
      history (events ++ [event]) flight = history events flight :=
    history_concat_of_ne (by simpa [hflight] using Ne.symm hne) events
  have hout {flight : Nat} {found : Option (Option FlightOutcome)}
      (hfound : shared.cache.flights[flight]? = found) (hne : found ≠ some none) :
      flight ≠ duty.flight := by
    rintro rfl
    exact hne (hfound.symm.trans hpending)
  constructor
  · intro flight hnone
    rw [cache_put, hflights] at hnone
    rw [hother (hout hnone (by simp))]
    exact htracked.unbegun flight hnone
  · intro other found hfound
    rw [cache_put, hflights]
    by_cases hcaller : other = caller
    · subst hcaller
      rw [callers_put_self, hnext] at hfound
      obtain rfl := Option.some.inj hfound
      rw [hsame, history_concat hflight]
      exact ⟨hpending, htraced _ hbefore⟩
    · rw [callers_put_of_ne hcaller] at hfound
      rw [hother fun h => hcaller (htracked.caller_unique hfound hduty h)]
      exact htracked.duties other found hfound
  · intro flight hcharged
    rw [cache_put, hflights] at hcharged
    obtain ⟨owner, found, hfound, hflight⟩ := htracked.charged flight hcharged
    by_cases hcaller : owner = caller
    · subst hcaller
      rw [hduty] at hfound
      obtain rfl := Option.some.inj hfound
      exact ⟨owner, next, by rw [callers_put_self, hnext], hsame.trans hflight⟩
    · exact ⟨owner, found, by rw [callers_put_of_ne hcaller, hfound], hflight⟩
  · intro flight outcome hconcluded
    rw [cache_put, hflights] at hconcluded
    rw [hother (hout hconcluded (by simp))]
    exact htracked.concluded flight outcome hconcluded

/-- A caller without a duty begins a flight. -/
theorem begin (htracked : Tracked events shared) {caller : Nat} {table : String}
    {expired : Option Nat} {activity : Activity ω} {cache : WriterCache ω}
    (hidle : (shared.callers caller).duty? = none)
    (hduty : activity.duty? = some (.prepare table shared.cache.flights.size))
    (hflights : cache.flights = shared.cache.flights.push none) :
    Tracked (events ++ [.looked caller table (.build shared.cache.flights.size expired)])
      (shared.put caller activity cache) := by
  have hflight : (CallEvent.looked caller table
      (.build shared.cache.flights.size expired) : CallEvent ω).flight? =
      some shared.cache.flights.size := rfl
  have hold {flight : Nat} {found : Option FlightOutcome}
      (hfound : shared.cache.flights[flight]? = some found) :
      flight ≠ shared.cache.flights.size :=
    Nat.ne_of_lt (Array.getElem?_eq_some_iff.mp hfound).1
  have hother {flight : Nat} (hne : flight ≠ shared.cache.flights.size) :
      history (events ++ [.looked caller table (.build shared.cache.flights.size expired)]) flight =
        history events flight :=
    history_concat_of_ne (by simpa [hflight] using Ne.symm hne) events
  constructor
  · intro flight hnone
    rw [cache_put, hflights, Array.getElem?_push] at hnone
    split at hnone
    · simp at hnone
    · rename_i hne
      rw [hother hne]
      exact htracked.unbegun flight hnone
  · intro other found hfound
    rw [cache_put, hflights]
    by_cases hcaller : other = caller
    · subst hcaller
      rw [callers_put_self, hduty] at hfound
      obtain rfl := Option.some.inj hfound
      have hnew := htracked.unbegun shared.cache.flights.size (by simp)
      rw [Duty.flight, history_concat hflight, hnew]
      exact ⟨by simp, .prepare table _ expired⟩
    · rw [callers_put_of_ne hcaller] at hfound
      obtain ⟨hpending, htraced⟩ := htracked.duties other found hfound
      rw [Array.getElem?_push, if_neg (hold hpending), hother (hold hpending)]
      exact ⟨hpending, htraced⟩
  · intro flight hcharged
    rw [cache_put, hflights, Array.getElem?_push] at hcharged
    split at hcharged
    · rename_i hsame
      exact ⟨caller, .prepare table shared.cache.flights.size, by rw [callers_put_self, hduty],
        hsame.symm⟩
    · obtain ⟨owner, found, hfound, hflight⟩ := htracked.charged flight hcharged
      have hcaller : owner ≠ caller := by
        rintro rfl
        rw [hidle] at hfound
        simp at hfound
      exact ⟨owner, found, by rw [callers_put_of_ne hcaller, hfound], hflight⟩
  · intro flight outcome hconcluded
    rw [cache_put, hflights, Array.getElem?_push] at hconcluded
    split at hconcluded
    · simp at hconcluded
    · rename_i hne
      rw [hother hne]
      exact htracked.concluded flight outcome hconcluded

/-- A caller hands out the outcome of its flight. -/
theorem publish (htracked : Tracked events shared) {caller flight : Nat}
    {outcome : FlightOutcome} {activity : Activity ω} {cache : WriterCache ω}
    (hduty : (shared.callers caller).duty? = some (.publish flight outcome))
    (hidle : activity.duty? = none)
    (hflights : cache.flights = shared.cache.flights.setIfInBounds flight (some outcome)) :
    Tracked (events ++ [.published caller flight outcome])
      (shared.put caller activity cache) := by
  obtain ⟨hpending, hbefore⟩ := htracked.duties caller _ hduty
  rw [Duty.flight] at hpending hbefore
  have hother {other : Nat} (hne : other ≠ flight) :
      history (events ++ [.published caller flight outcome]) other = history events other :=
    history_concat_of_ne (by simpa [CallEvent.flight?] using Ne.symm hne) events
  have hstays {other : Nat} (hne : other ≠ flight) :
      cache.flights[other]? = shared.cache.flights[other]? := by
    rw [hflights, Array.getElem?_setIfInBounds_ne (Ne.symm hne)]
  have hset : cache.flights[flight]? = some (some outcome) := by
    rw [hflights, Array.getElem?_setIfInBounds_self_of_lt]
    exact (Array.getElem?_eq_some_iff.mp hpending).1
  have hout {other : Nat} {found : Option (Option FlightOutcome)}
      (hfound : cache.flights[other]? = found) (hne : found ≠ some (some outcome)) :
      other ≠ flight := by
    rintro rfl
    exact hne (hfound.symm.trans hset)
  constructor
  · intro other hnone
    have hne := hout hnone (by simp)
    rw [hother hne]
    rw [cache_put, hstays hne] at hnone
    exact htracked.unbegun other hnone
  · intro owner found hfound
    have hcaller : owner ≠ caller := by
      rintro rfl
      rw [callers_put_self, hidle] at hfound
      simp at hfound
    rw [callers_put_of_ne hcaller] at hfound
    have hne : found.flight ≠ flight := fun h =>
      hcaller (htracked.caller_unique hfound hduty h)
    rw [cache_put, hstays hne, hother hne]
    exact htracked.duties owner found hfound
  · intro other hcharged
    have hne := hout hcharged (by simp)
    rw [cache_put, hstays hne] at hcharged
    obtain ⟨owner, found, hfound, rfl⟩ := htracked.charged other hcharged
    have hcaller : owner ≠ caller := by
      rintro rfl
      rw [hduty] at hfound
      obtain rfl := Option.some.inj hfound
      exact hne rfl
    exact ⟨owner, found, by rw [callers_put_of_ne hcaller, hfound], rfl⟩
  · intro other found hconcluded
    by_cases hne : other = flight
    · subst hne
      obtain rfl := Option.some.inj (Option.some.inj (hset.symm.trans hconcluded))
      rw [history_concat rfl]
      exact .intro hbefore
    · rw [cache_put, hstays hne] at hconcluded
      rw [hother hne]
      exact htracked.concluded other found hconcluded

theorem step (htracked : Tracked events shared) (hsound : Sound limits shared)
    (hstep : Step outside shared event after) : Tracked (events ++ [event]) after := by
  have hflights := hstep.flights_eq hsound
  by_cases hnone : event.flight? = none
  · exact htracked.frame hnone (hstep.duty?_eq hnone)
      (hflights.trans (CallEvent.flights_of_flight?_eq_none hnone _))
  · cases hstep with
    | look hcaller =>
        rename_i caller table
        have hlooks := hsound.looks table
        cases hfound : (shared.cache.lookup table shared.clock).1 with
        | hit handle =>
            rw [hfound] at hnone
            exact absurd rfl hnone
        | join flight =>
            rw [hfound] at hnone
            exact absurd rfl hnone
        | build flight expired =>
            rw [hfound] at hlooks hflights
            obtain rfl : flight = shared.cache.flights.size := hlooks.flight_eq
            apply htracked.begin
            · rw [hcaller]
              rfl
            · rfl
            · exact hflights
    | call hcaller =>
        apply htracked.advance
        · rw [hcaller]
          rfl
        · rfl
        · rfl
        · rfl
        · exact fun before hbefore => .build hbefore
        · exact hflights
    | deliver hcaller hbuilds =>
        rename_i caller table flight construction
        apply htracked.advance
        · rw [hcaller]
          rfl
        · rfl
        · rfl
        · rfl
        · exact fun before hbefore => .conclude hbefore construction
        · exact hflights
    | finish hcaller hfinish =>
        apply htracked.advance
        · rw [hcaller]
          rfl
        · rfl
        · rfl
        · rfl
        · exact fun before hbefore => .publish hbefore _ _
        · exact hflights
    | abandon hcaller =>
        apply htracked.advance
        · rw [hcaller]
          rfl
        · rfl
        · rfl
        · rfl
        · exact fun before hbefore => .publish hbefore _ _
        · exact hflights
    | publish hcaller =>
        apply htracked.publish
        · rw [hcaller]
          rfl
        · rfl
        · exact hflights
    | _ => exact absurd rfl hnone

end Tracked

end SharedCache

end TableRouting
