import TableRouting.Proofs.Cache.Consistency

/-!
# Callers that work at the same time

A closer look at the callers of one cache.  Building a writer and closing one take
time, in which other callers go on.  Every writer has a lock, and whoever uses or
closes it holds the lock meanwhile.  Only the steps that the cache makes under its
own lock are atomic.

Seen from afar, where the closing of a handle and the end of a construction are
one step each, the callers are those of a `System`; what was shown of the cache
there carries over.
-/

namespace TableRouting

/-- What a caller does once it has closed the handles that it took out. -/
inductive Errand where
  /-- It builds the writer of a table. -/
  | build (table : String) (flight : Nat)
  /-- It returns; a call that only maintains the cache gives no writer. -/
  | answer (answer : Option (Except Unavailable Nat))

/-- What a caller of a shared cache is in the middle of. -/
inductive Activity (ω : Type) where
  | idle
  /-- Waiting for the outcome of a flight that it joined. -/
  | waiting (table : String) (flight : Nat)
  /-- About to close handles that left the cache. -/
  | releasing (released : List Nat) (errand : Errand)
  /-- The writer of a handle is closing, and more handles are to follow. -/
  | closing (handle : Nat) (rest : List Nat) (errand : Errand)
  /-- The writer of a table is being built. -/
  | building (table : String) (flight : Nat)
  /-- The construction is over, and the cache does not know of it yet. -/
  | ending (table : String) (flight : Nat) (construction : Construction ω)
  /-- About to hand out the outcome of its flight. -/
  | publishing (flight : Nat) (outcome : FlightOutcome) (released : List Nat)
      (answer : Except Unavailable Nat)
  /-- Using the writer of a handle. -/
  | writing (handle : Nat)

variable {ω : Type}

def Errand.phase (released : List Nat) : Errand → Phase
  | build table flight => .building table flight released
  | answer _ => .releasing released none

namespace Activity

def ofLookup (table : String) : WriterCache.Lookup → Activity ω
  | .hit _ => idle
  | .join flight => waiting table flight
  | .build flight expired => releasing expired.toList (.build table flight)

/-- What a caller does, seen from afar. -/
def phase : Activity ω → Phase
  | idle => .idle
  | waiting table flight => .waiting table flight
  | releasing released errand => errand.phase released
  | closing _ rest errand => errand.phase rest
  | building table flight => .building table flight []
  | ending table flight _ => .building table flight []
  | publishing flight outcome released _ => .publishing flight outcome released
  | writing handle => .writing handle

def holds? : Activity ω → Option Nat
  | closing handle _ _ => some handle
  | writing handle => some handle
  | _ => none

def queue : Activity ω → List Nat
  | releasing released _ => released
  | closing _ rest _ => rest
  | publishing _ _ released _ => released
  | _ => []

theorem phase_ofLookup (table : String) (found : WriterCache.Lookup) :
    (ofLookup table found : Activity ω).phase = .ofLookup table found := by
  cases found <;> rfl

@[simp]
theorem released_phase (activity : Activity ω) : activity.phase.released = activity.queue := by
  cases activity with
  | releasing released errand => cases errand <;> rfl
  | closing handle rest errand => cases errand <;> rfl
  | _ => rfl

theorem flight?_errand (errand : Errand) (released : List Nat) :
    (errand.phase released).flight? = (errand.phase []).flight? := by
  cases errand <;> rfl

end Activity

/-- What a step of a shared cache is seen as. -/
inductive CallEvent (ω : Type) where
  | ticked (now : Nat)
  | looked (caller : Nat) (table : String) (found : WriterCache.Lookup)
  | received (caller flight : Nat) (outcome : FlightOutcome)
  /-- The writer of a handle is told to close. -/
  | closing (caller handle : Nat)
  | closed (caller handle : Nat) (result : Except StoreError Unit)
  /-- The handle was closed before. -/
  | skipped (caller handle : Nat)
  /-- The construction of a writer begins. -/
  | called (caller : Nat) (table : String) (flight : Nat)
  | delivered (caller : Nat) (table : String) (flight : Nat) (construction : Construction ω)
  /-- The cache has taken notice of a construction, and numbered its writer if
  there is one. -/
  | ended (caller : Nat) (table : String) (flight : Nat) (handle : Option Nat)
      (outcome : FlightOutcome)
  | published (caller flight : Nat) (outcome : FlightOutcome)
  | answered (caller : Nat) (answer : Option (Except Unavailable Nat))
  | swept (caller : Nat) (released : List Nat)
  | invalidated (caller : Nat) (released : List Nat)
  | entered (caller handle : Nat)
  /-- The handle was closed, and its writer was not used. -/
  | refused (caller handle : Nat)
  | left (caller handle : Nat)
  | peeked (caller : Nat)

namespace CallEvent

def caller? : CallEvent ω → Option Nat
  | ticked _ => none
  | looked caller _ _ => some caller
  | received caller _ _ => some caller
  | closing caller _ => some caller
  | closed caller _ _ => some caller
  | skipped caller _ => some caller
  | called caller _ _ => some caller
  | delivered caller _ _ _ => some caller
  | ended caller _ _ _ _ => some caller
  | published caller _ _ => some caller
  | answered caller _ => some caller
  | swept caller _ => some caller
  | invalidated caller _ => some caller
  | entered caller _ => some caller
  | refused caller _ => some caller
  | left caller _ => some caller
  | peeked caller => some caller

end CallEvent

/-- A cache with callers that work at the same time. -/
structure SharedCache (ω : Type) where
  cache : WriterCache ω
  clock : Nat
  callers : Nat → Activity ω
  /-- Who holds the lock of the writer of a handle. -/
  locks : Nat → Option Nat

namespace SharedCache

def start (limits : CacheLimits) (clock : Nat) : SharedCache ω where
  cache := { limits }
  clock := clock
  callers := fun _ => .idle
  locks := fun _ => none

def put (shared : SharedCache ω) (caller : Nat) (activity : Activity ω)
    (cache : WriterCache ω) : SharedCache ω :=
  { shared with cache, callers := Function.update shared.callers caller activity }

/-- The lock of a writer changes hands. -/
def lock (shared : SharedCache ω) (id : Nat) (holder : Option Nat) : SharedCache ω :=
  { shared with locks := Function.update shared.locks id holder }

/-- The number that a writer gets when its construction ends. -/
def numberFor (shared : SharedCache ω) : Except ConstructionError ω → Option Nat
  | .ok _ => some (shared.cache.handles.size + 1)
  | .error _ => none

/-- One step of a shared cache. -/
inductive Step (outside : Outside ω) (shared : SharedCache ω) :
    CallEvent ω → SharedCache ω → Prop
  | tick {now : Nat} (hnow : shared.clock ≤ now) :
      Step outside shared (.ticked now) { shared with clock := now }
  | look {caller : Nat} {table : String} (hcaller : shared.callers caller = .idle) :
      Step outside shared (.looked caller table (shared.cache.lookup table shared.clock).1)
        (shared.put caller (.ofLookup table (shared.cache.lookup table shared.clock).1)
          (shared.cache.lookup table shared.clock).2)
  | receive {caller : Nat} {table : String} {flight : Nat} {outcome : FlightOutcome}
      (hcaller : shared.callers caller = .waiting table flight)
      (houtcome : shared.cache.outcome? flight = some outcome) :
      Step outside shared (.received caller flight outcome)
        (shared.put caller .idle shared.cache)
  | beginClose {caller id : Nat} {rest : List Nat} {errand : Errand} {writer : ω}
      {cache : WriterCache ω} (hcaller : shared.callers caller = .releasing (id :: rest) errand)
      (hfree : shared.locks id = none)
      (hbegin : shared.cache.beginClose id = (some writer, cache)) :
      Step outside shared (.closing caller id)
        ((shared.put caller (.closing id rest errand) cache).lock id (some caller))
  | endClose {caller id : Nat} {rest : List Nat} {errand : Errand} {handle : WriterHandle ω}
      {writer : ω} {result : Except StoreError Unit}
      (hcaller : shared.callers caller = .closing id rest errand)
      (hhandle : shared.cache.handle? id = some handle)
      (hcloses : outside.closes handle.writer writer) :
      Step outside shared (.closed caller id result)
        ((shared.put caller (.releasing rest errand)
          (shared.cache.modifyHandle id fun h => { h with writer })).lock id none)
  | skip {caller id : Nat} {rest : List Nat} {errand : Errand} {cache : WriterCache ω}
      (hcaller : shared.callers caller = .releasing (id :: rest) errand)
      (hfree : shared.locks id = none)
      (hbegin : shared.cache.beginClose id = (none, cache)) :
      Step outside shared (.skipped caller id)
        (shared.put caller (.releasing rest errand) cache)
  | call {caller : Nat} {table : String} {flight : Nat}
      (hcaller : shared.callers caller = .releasing [] (.build table flight)) :
      Step outside shared (.called caller table flight)
        (shared.put caller (.building table flight) shared.cache)
  | deliver {caller : Nat} {table : String} {flight : Nat} {construction : Construction ω}
      (hcaller : shared.callers caller = .building table flight)
      (hbuilds : outside.builds table construction) :
      Step outside shared (.delivered caller table flight construction)
        (shared.put caller (.ending table flight construction) shared.cache)
  | finish {caller : Nat} {table : String} {flight : Nat} {built : Except ConstructionError ω}
      {outcome : FlightOutcome} {released : List Nat} {cache : WriterCache ω}
      (hcaller : shared.callers caller = .ending table flight (.ofResult built))
      (hfinish : shared.cache.finish table flight built shared.clock =
        (outcome, released, cache)) :
      Step outside shared (.ended caller table flight (shared.numberFor built) outcome)
        (shared.put caller
          (.publishing flight outcome released (outcome.mapError .construction)) cache)
  | abandon {caller : Nat} {table : String} {flight : Nat}
      (hcaller : shared.callers caller = .ending table flight .panicked) :
      Step outside shared
        (.ended caller table flight none (.error (WriterCache.brokenError table)))
        (shared.put caller
          (.publishing flight (.error (WriterCache.brokenError table)) [] (.error .panicked))
          (shared.cache.abandon table flight))
  | publish {caller flight : Nat} {outcome : FlightOutcome} {released : List Nat}
      {answer : Except Unavailable Nat}
      (hcaller : shared.callers caller = .publishing flight outcome released answer) :
      Step outside shared (.published caller flight outcome)
        (shared.put caller (.releasing released (.answer (some answer)))
          (shared.cache.publish flight outcome))
  | answer {caller : Nat} {answer : Option (Except Unavailable Nat)}
      (hcaller : shared.callers caller = .releasing [] (.answer answer)) :
      Step outside shared (.answered caller answer) (shared.put caller .idle shared.cache)
  | sweep {caller : Nat} (hcaller : shared.callers caller = .idle) :
      Step outside shared (.swept caller (shared.cache.sweep shared.clock).1)
        (shared.put caller (.releasing (shared.cache.sweep shared.clock).1 (.answer none))
          (shared.cache.sweep shared.clock).2)
  | invalidate {caller : Nat} (hcaller : shared.callers caller = .idle) :
      Step outside shared (.invalidated caller shared.cache.invalidate.1)
        (shared.put caller (.releasing shared.cache.invalidate.1 (.answer none))
          shared.cache.invalidate.2)
  | enter {caller id : Nat} {handle : WriterHandle ω}
      (hcaller : shared.callers caller = .idle) (hfree : shared.locks id = none)
      (hhandle : shared.cache.handle? id = some handle) (hopen : handle.closed = false) :
      Step outside shared (.entered caller id)
        ((shared.put caller (.writing id) shared.cache).lock id (some caller))
  | refuse {caller id : Nat} {handle : WriterHandle ω}
      (hcaller : shared.callers caller = .idle) (hfree : shared.locks id = none)
      (hhandle : shared.cache.handle? id = some handle) (hclosed : handle.closed = true) :
      Step outside shared (.refused caller id) shared
  | leave {caller id : Nat} {handle : WriterHandle ω} {writer : ω}
      (hcaller : shared.callers caller = .writing id)
      (hhandle : shared.cache.handle? id = some handle)
      (huses : outside.uses handle.writer writer) :
      Step outside shared (.left caller id)
        ((shared.put caller .idle
          (shared.cache.modifyHandle id fun h => { h with writer })).lock id none)
  | peek {caller : Nat} (hcaller : shared.callers caller = .idle) :
      Step outside shared (.peeked caller) shared

/-- The steps that lead from one shared cache to another. -/
inductive Run (outside : Outside ω) (first : SharedCache ω) :
    List (CallEvent ω) → SharedCache ω → Prop
  | nil : Run outside first [] first
  | step {events : List (CallEvent ω)} {event : CallEvent ω} {shared after : SharedCache ω}
      (hrun : Run outside first events shared) (hstep : Step outside shared event after) :
      Run outside first (events ++ [event]) after

variable {outside : Outside ω} {limits : CacheLimits} {first shared after : SharedCache ω}
  {events before : List (CallEvent ω)} {event : CallEvent ω}

/-- A run comes by each of its steps. -/
theorem Run.split {rest : List (CallEvent ω)}
    (hrun : Run outside first (before ++ event :: rest) shared) :
    ∃ earlier later, Run outside first before earlier ∧ Step outside earlier event later ∧
      Run outside later rest shared := by
  generalize hevents : before ++ event :: rest = events at hrun
  induction hrun generalizing rest with
  | nil => simp at hevents
  | step hrun hstep ih =>
      rcases List.eq_nil_or_concat' rest with rfl | ⟨front, last, rfl⟩
      · obtain ⟨rfl, hlast⟩ := List.append_inj' hevents rfl
        obtain rfl := (List.cons.inj hlast).1
        exact ⟨_, _, hrun, hstep, .nil⟩
      · rw [← List.cons_append, ← List.append_assoc] at hevents
        obtain ⟨hfront, hlast⟩ := List.append_inj' hevents rfl
        obtain rfl := (List.cons.inj hlast).1
        obtain ⟨earlier, later, hbefore, hevent, hafter⟩ := ih hfront
        exact ⟨earlier, later, hbefore, hevent, hafter.step hstep⟩

@[simp]
theorem callers_put_self (shared : SharedCache ω) (caller : Nat) (activity : Activity ω)
    (cache : WriterCache ω) : (shared.put caller activity cache).callers caller = activity :=
  Function.update_self ..

theorem callers_put_of_ne {other caller : Nat} (hother : other ≠ caller)
    (shared : SharedCache ω) (activity : Activity ω) (cache : WriterCache ω) :
    (shared.put caller activity cache).callers other = shared.callers other :=
  Function.update_of_ne hother ..

@[simp]
theorem cache_put (shared : SharedCache ω) (caller : Nat) (activity : Activity ω)
    (cache : WriterCache ω) : (shared.put caller activity cache).cache = cache := rfl

@[simp]
theorem locks_put (shared : SharedCache ω) (caller : Nat) (activity : Activity ω)
    (cache : WriterCache ω) : (shared.put caller activity cache).locks = shared.locks := rfl

@[simp]
theorem callers_lock (shared : SharedCache ω) (id : Nat) (holder : Option Nat) :
    (shared.lock id holder).callers = shared.callers := rfl

@[simp]
theorem cache_lock (shared : SharedCache ω) (id : Nat) (holder : Option Nat) :
    (shared.lock id holder).cache = shared.cache := rfl

/-- A shared cache, seen from afar. -/
def system (shared : SharedCache ω) : System ω where
  cache := shared.cache
  clock := shared.clock
  callers := fun caller => (shared.callers caller).phase

@[simp]
theorem system_put (shared : SharedCache ω) (caller : Nat) (activity : Activity ω)
    (cache : WriterCache ω) :
    (shared.put caller activity cache).system =
      shared.system.put caller activity.phase cache := by
  simp only [system, put, System.put, System.mk.injEq, true_and]
  funext other
  exact Function.apply_update (fun _ => Activity.phase) shared.callers caller activity other

/-- The shared cache and its callers hold together, seen from afar. -/
def Sound (limits : CacheLimits) (shared : SharedCache ω) : Prop :=
  shared.system.Sound limits

theorem Sound.start (limits : CacheLimits) (clock : Nat) :
    Sound limits (start (ω := ω) limits clock) :=
  System.Sound.start limits clock

namespace Sound

theorem linked (hsound : Sound limits shared) : shared.cache.Linked :=
  System.Sound.linked hsound

theorem coherent (hsound : Sound limits shared) : shared.cache.contents.Coherent :=
  System.Sound.coherent hsound

/-- What a lookup finds and leaves. -/
theorem looks (hsound : Sound limits shared) (table : String) :
    shared.cache.contents.Looks table shared.clock (shared.cache.lookup table shared.clock).1
      (shared.cache.lookup table shared.clock).2.contents :=
  (WriterCache.looks_lookup hsound.linked hsound.coherent.live table shared.clock).1

/-- What the end of a flight finds and leaves. -/
theorem finishes (hsound : Sound limits shared) {table : String} {flight : Nat}
    {built : Except ConstructionError ω} {outcome : FlightOutcome} {released : List Nat}
    {cache : WriterCache ω}
    (hfinish : shared.cache.finish table flight built shared.clock = (outcome, released, cache)) :
    shared.cache.contents.Finishes table flight shared.clock built outcome released
      cache.contents := by
  have hfinishes := (WriterCache.finishes_finish hsound.linked table flight built shared.clock).1
  rwa [hfinish] at hfinishes

/-- A handle that is to be closed is not cached. -/
theorem not_cached (hsound : Sound limits shared) {caller id : Nat}
    (hid : id ∈ (shared.callers caller).queue) : id ∉ shared.cache.contents.cached := by
  rw [← Activity.released_phase] at hid
  exact (System.Sound.released hsound caller id hid).1

variable {caller : Nat} {activity : Activity ω}

/-- The cache stays as it is. -/
theorem keep (hsound : Sound limits shared)
    (hflight : activity.phase.flight? = (shared.callers caller).phase.flight?)
    (hqueue : activity.queue ⊆ (shared.callers caller).queue) :
    Sound limits (shared.put caller activity shared.cache) := by
  rw [Sound, system_put]
  refine System.Sound.keep hsound hflight ?_
  simpa [system] using hqueue

/-- A handle changes that is not cached, or stays open. -/
theorem modifyHandle (hsound : Sound limits shared) {id : Nat}
    {f : WriterHandle ω → WriterHandle ω} (htable : ∀ handle, (f handle).table = handle.table)
    (hclosed : id ∈ shared.cache.contents.cached → ∀ handle, (f handle).closed = handle.closed)
    (hflight : activity.phase.flight? = (shared.callers caller).phase.flight?)
    (hqueue : activity.queue ⊆ (shared.callers caller).queue) :
    Sound limits (shared.put caller activity (shared.cache.modifyHandle id f)) := by
  rw [Sound, system_put]
  refine System.Sound.modifyHandle hsound htable hclosed hflight ?_
  simpa [system] using hqueue

theorem step (hsound : Sound limits shared)
    (hstep : Step outside shared event after) : Sound limits after := by
  cases hstep with
  | tick hnow => exact { hsound with }
  | look hcaller =>
      rename_i caller table
      obtain ⟨hlooks, hlinked⟩ :=
        WriterCache.looks_lookup hsound.linked hsound.coherent.live table shared.clock
      rw [Sound, system_put, Activity.phase_ofLookup]
      apply System.Sound.put hsound hlooks.limits_eq hlinked (hsound.coherent.looks hlooks)
      apply System.Harmless.of_looks hsound.coherent _ hlooks
      simp [system, hcaller, Activity.phase, Phase.flight?]
  | receive hcaller houtcome =>
      apply hsound.keep
      · rw [hcaller]
        rfl
      · exact List.nil_subset _
  | beginClose hcaller hfree hbegin =>
      rename_i caller id rest errand writer cache
      have hid : id ∈ (shared.callers caller).queue := by
        rw [hcaller]
        exact List.mem_cons_self
      obtain ⟨handle, -, -, rfl⟩ := WriterCache.beginClose_some hbegin
      apply hsound.modifyHandle
      · exact fun _ => rfl
      · exact fun hmem => absurd hmem (hsound.not_cached hid)
      · rw [hcaller]
        exact (Activity.flight?_errand errand rest).trans
          (Activity.flight?_errand errand (id :: rest)).symm
      · rw [hcaller]
        exact List.subset_cons_self _ _
  | endClose hcaller hhandle hcloses =>
      apply hsound.modifyHandle
      · exact fun _ => rfl
      · exact fun _ _ => rfl
      · rw [hcaller]
        rfl
      · rw [hcaller]
        exact List.Subset.refl _
  | skip hcaller hfree hbegin =>
      rename_i caller id rest errand cache
      obtain ⟨rfl, -⟩ := WriterCache.beginClose_none hbegin
      apply hsound.keep
      · rw [hcaller]
        exact (Activity.flight?_errand errand rest).trans
          (Activity.flight?_errand errand (id :: rest)).symm
      · rw [hcaller]
        exact List.subset_cons_self _ _
  | call hcaller =>
      apply hsound.keep
      · rw [hcaller]
        rfl
      · exact List.nil_subset _
  | deliver hcaller hbuilds =>
      apply hsound.keep
      · rw [hcaller]
        rfl
      · exact List.nil_subset _
  | finish hcaller hfinish =>
      rw [Sound, system_put]
      apply System.Sound.finish hsound _ _ hfinish
      simp [system, hcaller, Activity.phase, Phase.flight?]
  | abandon hcaller =>
      rw [Sound, system_put]
      apply System.Sound.abandon hsound
      simp [system, hcaller, Activity.phase, Phase.flight?]
  | publish hcaller =>
      rw [Sound, system_put]
      apply System.Sound.publish hsound
      · simp [system, hcaller, Activity.phase, Errand.phase, Phase.flight?]
      · simp [system, hcaller, Activity.queue]
  | answer hcaller =>
      apply hsound.keep
      · rw [hcaller]
        rfl
      · exact List.nil_subset _
  | sweep hcaller =>
      obtain ⟨kept, dropped, hevicts⟩ := WriterCache.evicts_sweep shared.clock hsound.linked
      rw [Sound, system_put]
      apply System.Sound.evicts hsound hevicts
      simp [system, hcaller, Activity.phase, Phase.flight?]
  | invalidate hcaller =>
      rw [Sound, system_put]
      apply System.Sound.invalidate hsound
      simp [system, hcaller, Activity.phase, Phase.flight?]
  | enter hcaller hfree hhandle hopen =>
      apply hsound.keep
      · rw [hcaller]
        rfl
      · exact List.nil_subset _
  | refuse hcaller hfree hhandle hclosed => exact hsound
  | leave hcaller hhandle huses =>
      apply hsound.modifyHandle
      · exact fun _ => rfl
      · exact fun _ _ => rfl
      · rw [hcaller]
        rfl
      · exact List.nil_subset _
  | peek hcaller => exact hsound

theorem run (hsound : Sound limits shared)
    (hrun : Run outside shared events after) : Sound limits after := by
  induction hrun with
  | nil => exact hsound
  | step hrun hstep ih => exact ih.step hstep

end Sound

/-- A step changes nothing for the callers that do not make it. -/
theorem Step.callers_eq (hstep : Step outside shared event after)
    {other : Nat} (hother : event.caller? ≠ some other) :
    after.callers other = shared.callers other := by
  cases hstep with
  | tick hnow => rfl
  | refuse hcaller hfree hhandle hclosed => rfl
  | peek hcaller => rfl
  | _ => exact Function.update_of_ne (fun h => hother (congrArg some h.symm)) ..

end SharedCache

end TableRouting
