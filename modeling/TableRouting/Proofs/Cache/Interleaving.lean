import TableRouting.Cache.Workshop
import TableRouting.Proofs.Cache.Coherence

/-!
# Many callers of one cache

Any number of callers use a cache at once.  One caller at a time makes a step:
an atomic step of the cache, the closing of one handle, or the beginning or end
of a use of a writer.  What a construction gives, how long it takes, and what
becomes of a writer that is used or closed, is up to the outside.
-/

namespace TableRouting

/-- What the outside may do to the writers of a cache. -/
structure Outside (ω : Type) where
  builds : String → Construction ω → Prop
  uses : ω → ω → Prop
  closes : ω → ω → Prop

def Construction.ofResult {ω : Type} : Except ConstructionError ω → Construction ω
  | .ok writer => .built writer
  | .error e => .refused e

theorem Construction.ofResult_injective {ω : Type} :
    Function.Injective (ofResult : Except ConstructionError ω → Construction ω) := by
  intro first second hsame
  cases first <;> cases second <;> simp_all [ofResult]

theorem Construction.panicked_ne_ofResult {ω : Type} (result : Except ConstructionError ω) :
    panicked ≠ ofResult result := by
  cases result <;> simp [ofResult]

/-- What a caller of a cache is in the middle of. -/
inductive Phase where
  | idle
  /-- Waiting for the outcome of a flight that it joined. -/
  | waiting (table : String) (flight : Nat)
  /-- Building a writer, once the handles that expired are closed. -/
  | building (table : String) (flight : Nat) (expired : List Nat)
  /-- About to hand out the outcome of its flight. -/
  | publishing (flight : Nat) (outcome : FlightOutcome) (released : List Nat)
  /-- Closing handles that left the cache, before it answers. -/
  | releasing (released : List Nat) (answer : Option FlightOutcome)
  /-- Using the writer of a handle. -/
  | writing (handle : Nat)
  deriving DecidableEq

namespace Phase

def ofLookup (table : String) : WriterCache.Lookup → Phase
  | .hit _ => idle
  | .join flight => waiting table flight
  | .build flight expired => building table flight expired.toList

def flight? : Phase → Option (String × Nat)
  | building table flight _ => some (table, flight)
  | _ => none

/-- The handles that are still to be closed. -/
def released : Phase → List Nat
  | building _ _ expired => expired
  | publishing _ _ released => released
  | releasing released _ => released
  | _ => []

def close? : Phase → Option (Nat × Phase)
  | building table flight (id :: rest) => some (id, building table flight rest)
  | releasing (id :: rest) answer => some (id, releasing rest answer)
  | _ => none

/-- What is closed next is among what is to be closed. -/
theorem close?_eq_some {before phase : Phase} {id : Nat}
    (hclose : before.close? = some (id, phase)) :
    phase.flight? = before.flight? ∧ before.released = id :: phase.released := by
  cases before with
  | building table flight expired =>
      cases expired with
      | nil => simp [close?] at hclose
      | cons first rest =>
          obtain ⟨rfl, rfl⟩ := Prod.mk.inj (Option.some.inj hclose)
          exact ⟨rfl, rfl⟩
  | releasing released answer =>
      cases released with
      | nil => simp [close?] at hclose
      | cons first rest =>
          obtain ⟨rfl, rfl⟩ := Prod.mk.inj (Option.some.inj hclose)
          exact ⟨rfl, rfl⟩
  | idle => simp [close?] at hclose
  | waiting table flight => simp [close?] at hclose
  | publishing flight outcome released => simp [close?] at hclose
  | writing handle => simp [close?] at hclose

end Phase

/-- A cache with its callers, of which all but finitely many are idle. -/
structure System (ω : Type) where
  cache : WriterCache ω
  clock : Nat
  callers : Nat → Phase

/-- What a step of a system is seen as. -/
inductive Event where
  | ticked (now : Nat)
  | looked (caller : Nat) (table : String) (found : WriterCache.Lookup)
  | received (caller flight : Nat) (outcome : FlightOutcome)
  | closed (caller handle : Nat)
  /-- The handle was closed before. -/
  | skipped (caller handle : Nat)
  | finished (caller : Nat) (table : String) (flight : Nat) (outcome : FlightOutcome)
  | panicked (caller : Nat) (table : String) (flight : Nat)
  | published (caller flight : Nat) (outcome : FlightOutcome)
  | answered (caller : Nat) (answer : Option FlightOutcome)
  | swept (caller : Nat) (released : List Nat)
  | invalidated (caller : Nat) (released : List Nat)
  | entered (caller handle : Nat)
  | left (caller handle : Nat)
  | peeked (caller : Nat)

namespace System

variable {ω : Type}

def start (limits : CacheLimits) (clock : Nat) : System ω where
  cache := { limits }
  clock := clock
  callers := fun _ => .idle

def put (system : System ω) (caller : Nat) (phase : Phase) (cache : WriterCache ω) : System ω where
  cache := cache
  clock := system.clock
  callers := Function.update system.callers caller phase

/-- No caller uses the writer of a handle. -/
def IsFree (system : System ω) (id : Nat) : Prop :=
  ∀ caller, system.callers caller ≠ .writing id

/-- One step of a system. -/
inductive Step (outside : Outside ω) (system : System ω) : Event → System ω → Prop
  | tick {now : Nat} (hnow : system.clock ≤ now) :
      Step outside system (.ticked now) { system with clock := now }
  | look {caller : Nat} {table : String} (hphase : system.callers caller = .idle) :
      Step outside system (.looked caller table (system.cache.lookup table system.clock).1)
        (system.put caller (.ofLookup table (system.cache.lookup table system.clock).1)
          (system.cache.lookup table system.clock).2)
  | receive {caller : Nat} {table : String} {flight : Nat} {outcome : FlightOutcome}
      (hphase : system.callers caller = .waiting table flight)
      (houtcome : system.cache.outcome? flight = some outcome) :
      Step outside system (.received caller flight outcome)
        (system.put caller .idle system.cache)
  | close {caller id : Nat} {phase : Phase} {writer closed : ω} {cache : WriterCache ω}
      (hphase : (system.callers caller).close? = some (id, phase))
      (hfree : system.IsFree id)
      (hbegin : system.cache.beginClose id = (some writer, cache))
      (hcloses : outside.closes writer closed) :
      Step outside system (.closed caller id)
        (system.put caller phase (cache.modifyHandle id fun h => { h with writer := closed }))
  | skip {caller id : Nat} {phase : Phase} {cache : WriterCache ω}
      (hphase : (system.callers caller).close? = some (id, phase))
      (hfree : system.IsFree id)
      (hbegin : system.cache.beginClose id = (none, cache)) :
      Step outside system (.skipped caller id) (system.put caller phase cache)
  | finish {caller : Nat} {table : String} {flight : Nat} {built : Except ConstructionError ω}
      {outcome : FlightOutcome} {released : List Nat} {cache : WriterCache ω}
      (hphase : system.callers caller = .building table flight [])
      (hbuilds : outside.builds table (.ofResult built))
      (hfinish : system.cache.finish table flight built system.clock =
        (outcome, released, cache)) :
      Step outside system (.finished caller table flight outcome)
        (system.put caller (.publishing flight outcome released) cache)
  | panic {caller : Nat} {table : String} {flight : Nat}
      (hphase : system.callers caller = .building table flight [])
      (hbuilds : outside.builds table .panicked) :
      Step outside system (.panicked caller table flight)
        (system.put caller (.publishing flight (.error (WriterCache.brokenError table)) [])
          (system.cache.abandon table flight))
  | publish {caller flight : Nat} {outcome : FlightOutcome} {released : List Nat}
      (hphase : system.callers caller = .publishing flight outcome released) :
      Step outside system (.published caller flight outcome)
        (system.put caller (.releasing released (some outcome))
          (system.cache.publish flight outcome))
  | answer {caller : Nat} {answer : Option FlightOutcome}
      (hphase : system.callers caller = .releasing [] answer) :
      Step outside system (.answered caller answer) (system.put caller .idle system.cache)
  | sweep {caller : Nat} (hphase : system.callers caller = .idle) :
      Step outside system (.swept caller (system.cache.sweep system.clock).1)
        (system.put caller (.releasing (system.cache.sweep system.clock).1 none)
          (system.cache.sweep system.clock).2)
  | invalidate {caller : Nat} (hphase : system.callers caller = .idle) :
      Step outside system (.invalidated caller system.cache.invalidate.1)
        (system.put caller (.releasing system.cache.invalidate.1 none)
          system.cache.invalidate.2)
  | enter {caller id : Nat} {handle : WriterHandle ω}
      (hphase : system.callers caller = .idle)
      (hfree : system.IsFree id)
      (hhandle : system.cache.handle? id = some handle)
      (hopen : handle.closed = false) :
      Step outside system (.entered caller id) (system.put caller (.writing id) system.cache)
  | leave {caller id : Nat} {handle : WriterHandle ω} {writer : ω}
      (hphase : system.callers caller = .writing id)
      (hhandle : system.cache.handle? id = some handle)
      (huses : outside.uses handle.writer writer) :
      Step outside system (.left caller id)
        (system.put caller .idle (system.cache.modifyHandle id fun h => { h with writer }))
  | peek {caller : Nat} (hphase : system.callers caller = .idle) :
      Step outside system (.peeked caller) system

/-- The steps that lead from one system to another. -/
inductive Run (outside : Outside ω) (first : System ω) : List Event → System ω → Prop
  | nil : Run outside first [] first
  | step {events : List Event} {event : Event} {system after : System ω}
      (hrun : Run outside first events system) (hstep : Step outside system event after) :
      Run outside first (events ++ [event]) after

/-- A system comes about from an empty cache with these limits. -/
def Reachable (outside : Outside ω) (limits : CacheLimits) (system : System ω) : Prop :=
  ∃ clock events, Run outside (start limits clock) events system

end System

end TableRouting
