import Mathlib.Data.UInt
import Mathlib.Tactic.Abel
import TableRouting.Proofs.Cache.Ledger

/-!
# Reading the counters of a cache

Not all is counted while the lock of the cache is held.  Who joins a construction,
sweeps or invalidates gives the lock back first, and counts before it does anything
else.  Until then the counters are behind.  When no call is in progress nothing is
owed, and what the counters say adds up.
-/

namespace TableRouting

variable {ω : Type}

namespace CacheStatistics

/-- Two readings of the counters, counter by counter. -/
def combine (f : UInt64 → UInt64 → UInt64) (first second : CacheStatistics) :
    CacheStatistics where
  hits := f first.hits second.hits
  misses := f first.misses second.misses
  constructions := f first.constructions second.constructions
  constructionFailures := f first.constructionFailures second.constructionFailures
  evictions := f first.evictions second.evictions
  expirations := f first.expirations second.expirations
  invalidations := f first.invalidations second.invalidations
  sweeps := f first.sweeps second.sweeps

instance : Zero CacheStatistics := ⟨{}⟩

instance : Add CacheStatistics := ⟨combine (· + ·)⟩

instance : Neg CacheStatistics := ⟨combine (· - ·) 0⟩

instance : Sub CacheStatistics := ⟨combine (· - ·)⟩

theorem zero_def : (0 : CacheStatistics) = {} := rfl

theorem add_def (first second : CacheStatistics) :
    first + second = combine (· + ·) first second := rfl

theorem neg_def (statistics : CacheStatistics) :
    -statistics = combine (· - ·) 0 statistics := rfl

theorem sub_def (first second : CacheStatistics) :
    first - second = combine (· - ·) first second := rfl

instance : AddCommGroup CacheStatistics where
  nsmul := nsmulRec
  zsmul := zsmulRec
  add_assoc := by simp [add_def, combine, add_assoc]
  add_comm := by simp [add_def, combine, add_comm]
  zero_add := by simp [add_def, zero_def, combine]
  add_zero := by simp [add_def, zero_def, combine]
  neg_add_cancel := by simp [add_def, neg_def, zero_def, combine]
  sub_eq_add_neg := by simp [sub_def, add_def, neg_def, zero_def, combine, sub_eq_add_neg]

end CacheStatistics

theorem WriterCache.flights_abandon (cache : WriterCache ω) (table : String) (flight : Nat) :
    (cache.abandon table flight).flights = cache.flights := by
  rw [abandon]
  split <;> rfl

/-- The outcome of a flight is there when it has been published. -/
theorem WriterCache.outcome?_publish {cache : WriterCache ω} {flight : Nat}
    (hflight : flight < cache.flights.size) (outcome : FlightOutcome) :
    (cache.publish flight outcome).outcome? flight = some outcome := by
  simp [outcome?, publish, hflight]

/-- What a step leaves to be counted once its caller has given the lock of the cache
back. -/
def CallEvent.owes : CallEvent ω → List (Nat × CacheStatistics)
  | looked caller _ (.join _) => [(caller, { hits := 1 })]
  | swept caller _ => [(caller, { sweeps := 1 })]
  | invalidated caller released => [(caller, { invalidations := .ofNat released.length })]
  | _ => []

/-- A shared cache with counters that anybody may read. -/
structure CountedCache (ω : Type) where
  shared : SharedCache ω
  /-- What the counters say. -/
  shown : CacheStatistics
  /-- What callers have still to count. -/
  owed : List (Nat × CacheStatistics)

namespace CountedCache

def start (limits : CacheLimits) (clock : Nat) : CountedCache ω where
  shared := .start limits clock
  shown := 0
  owed := []

/-- All that is still to be counted. -/
def owing (owed : List (Nat × CacheStatistics)) : CacheStatistics :=
  (owed.map Prod.snd).sum

/-- One step: a caller that owes nothing makes a step of the shared cache, or one that
owes something counts it. -/
inductive Step (outside : Outside ω) (counted : CountedCache ω) :
    Option (CallEvent ω) → CountedCache ω → Prop
  | act {event : CallEvent ω} {after : SharedCache ω}
      (hfree : ∀ caller, event.caller? = some caller → caller ∉ counted.owed.map Prod.fst)
      (hstep : SharedCache.Step outside counted.shared event after) :
      Step outside counted (some event)
        { shared := after
          shown := counted.shown +
            (after.cache.statistics - counted.shared.cache.statistics - owing event.owes)
          owed := event.owes ++ counted.owed }
  | post {caller : Nat} {late : CacheStatistics} {before rest : List (Nat × CacheStatistics)}
      (howed : counted.owed = before ++ (caller, late) :: rest) :
      Step outside counted none
        { counted with shown := counted.shown + late, owed := before ++ rest }

/-- The steps that lead from one cache to another, with those of the shared cache. -/
inductive Run (outside : Outside ω) (first : CountedCache ω) :
    List (CallEvent ω) → CountedCache ω → Prop
  | nil : Run outside first [] first
  | step {events : List (CallEvent ω)} {event? : Option (CallEvent ω)}
      {counted after : CountedCache ω} (hrun : Run outside first events counted)
      (hstep : Step outside counted event? after) :
      Run outside first (events ++ event?.toList) after

variable {outside : Outside ω} {limits : CacheLimits} {first counted after : CountedCache ω}
  {events : List (CallEvent ω)} {event? : Option (CallEvent ω)}

/-- Late counting makes no difference to what the callers do. -/
theorem Run.shared (hrun : Run outside first events counted) :
    SharedCache.Run outside first.shared events counted.shared := by
  induction hrun with
  | nil => exact .nil
  | step hrun hstep ih =>
      cases hstep with
      | act hfree hstep => exact ih.step hstep
      | post howed => rwa [Option.toList_none, List.append_nil]

theorem owing_append (front back : List (Nat × CacheStatistics)) :
    owing (front ++ back) = owing front + owing back := by
  rw [owing, List.map_append, List.sum_append, owing, owing]

theorem owing_cons (caller : Nat) (late : CacheStatistics)
    (rest : List (Nat × CacheStatistics)) :
    owing ((caller, late) :: rest) = late + owing rest := by
  rw [owing, List.map_cons, List.sum_cons, owing]

/-- What the counters say is what happened, but for what is owed, and who owes something
is in the middle of a call. -/
structure Behind (counted : CountedCache ω) : Prop where
  complete : counted.shown + owing counted.owed = counted.shared.cache.statistics
  busy : ∀ caller ∈ counted.owed.map Prod.fst, counted.shared.callers caller ≠ .idle

theorem Behind.start (limits : CacheLimits) (clock : Nat) :
    Behind (start (ω := ω) limits clock) where
  complete := rfl
  busy := by simp [CountedCache.start]

/-- Who leaves something to be counted is in the middle of a call. -/
theorem busy_of_owes {shared later : SharedCache ω} {event : CallEvent ω}
    (hstep : SharedCache.Step outside shared event later) {caller : Nat}
    (howes : caller ∈ event.owes.map Prod.fst) :
    event.caller? = some caller ∧ later.callers caller ≠ .idle := by
  cases hstep with
  | look hcaller =>
      rename_i who table
      cases hfound : (shared.cache.lookup table shared.clock).1 with
      | join flight =>
          rw [hfound] at howes
          obtain rfl := List.mem_singleton.mp howes
          simp [CallEvent.caller?, Activity.ofLookup]
      | _ => simp [hfound, CallEvent.owes] at howes
  | sweep hcaller | invalidate hcaller =>
      obtain rfl := List.mem_singleton.mp howes
      simp [CallEvent.caller?]
  | _ => simp [CallEvent.owes] at howes

theorem Behind.step (hbehind : Behind counted) (hstep : Step outside counted event? after) :
    Behind after := by
  obtain ⟨hcomplete, hbusy⟩ := hbehind
  cases hstep with
  | act hfree hstep =>
      rename_i event later
      constructor
      · simp only [owing_append, ← hcomplete]
        abel
      · intro caller howed
        rw [List.map_append, List.mem_append] at howed
        rcases howed with hnew | hold
        · exact (busy_of_owes hstep hnew).2
        · have hother : event.caller? ≠ some caller := fun h => hfree caller h hold
          rw [hstep.callers_eq hother]
          exact hbusy caller hold
  | post howed =>
      rename_i caller late before rest
      rw [howed] at hcomplete hbusy
      constructor
      · simp only [← hcomplete, owing_append, owing_cons]
        abel
      · intro other hother
        apply hbusy other
        rw [List.map_append, List.mem_append] at hother
        rw [List.map_append, List.mem_append]
        exact hother.imp_right (List.mem_cons_of_mem _)

theorem Run.behind {clock : Nat} (hrun : Run outside (start limits clock) events counted) :
    Behind counted := by
  induction hrun with
  | nil => exact Behind.start limits clock
  | step hrun hstep ih => exact ih.step hstep

/-- When no call is in progress, nothing is owed. -/
theorem Behind.settled (hbehind : Behind counted)
    (hidle : ∀ caller, counted.shared.callers caller = .idle) :
    counted.owed = [] ∧ counted.shown = counted.shared.cache.statistics := by
  have howed : counted.owed = [] := by
    rw [List.eq_nil_iff_forall_not_mem]
    rintro ⟨caller, late⟩ hmem
    exact hbehind.busy caller (List.mem_map_of_mem hmem) (hidle caller)
  have hcomplete := hbehind.complete
  rw [howed] at hcomplete
  exact ⟨howed, (add_zero _).symm.trans hcomplete⟩

/-- What it means that the counters of a cache add up, when this has happened to it. -/
structure Balances (events : List (CallEvent ω)) (counted : CountedCache ω) : Prop where
  gets : counted.shown.hits.toNat + counted.shown.misses.toNat = events.countP CallEvent.isGet
  misses : counted.shown.misses.toNat =
    counted.shown.constructions.toNat + counted.shown.constructionFailures.toNat +
      events.countP CallEvent.isPanic
  constructions : counted.shown.constructions.toNat =
    counted.shared.cache.size + counted.shown.evictions.toNat +
      counted.shown.expirations.toNat + counted.shown.invalidations.toNat +
        events.countP CallEvent.isStray
  /-- The writers that nobody gets are those of the constructions that were detached. -/
  stray : ∀ caller table flight id outcome,
    .ended caller table flight (some id) outcome ∈ events →
      ((CallEvent.ended caller table flight (some id) outcome : CallEvent ω).isStray = true ↔
        Severed events flight)
  sweeps : counted.shown.sweeps.toNat = events.countP CallEvent.isSweep

/-- A writer that nobody gets was built by a construction that was detached. -/
theorem Run.stray {clock : Nat} (hrun : Run outside (start limits clock) events counted)
    {caller flight id : Nat} {table : String} {outcome : FlightOutcome}
    (hended : .ended caller table flight (some id) outcome ∈ events) :
    (CallEvent.ended caller table flight (some id) outcome : CallEvent ω).isStray = true ↔
      Severed events flight := by
  obtain ⟨construction, -, hconcludes⟩ := hrun.shared.concludes hended
  cases hconcludes with
  | stored writer id hcurrent => simp [CallEvent.isStray, hcurrent]
  | detached writer id hdetached => simp [CallEvent.isStray, hdetached]

/-- The counters add up whenever no call is in progress, whatever the callers have done
and in whatever order. -/
theorem Run.balances {clock : Nat} (hrun : Run outside (start limits clock) events counted)
    (hidle : ∀ caller, counted.shared.callers caller = .idle)
    (hgets : events.countP CallEvent.isGet < 2 ^ 64)
    (hsweeps : events.countP CallEvent.isSweep < 2 ^ 64) : Balances events counted := by
  obtain ⟨tally, hbalanced⟩ := hrun.shared.balanced
  obtain ⟨hcounted, hget, ⟨busy, -, hbegun⟩, hbuilt, hsweep⟩ := hbalanced
  have hpending : counted.shared.pending busy = 0 := by
    refine Finset.sum_eq_zero fun caller _ => ?_
    rw [hidle caller]
    rfl
  have hsize : counted.shared.cache.size = counted.shared.cache.contents.cached.length :=
    hrun.shared.followed.sound.linked.size_eq
  have hword {n : Nat} (hn : n < 2 ^ 64) : (UInt64.ofNat n).toNat = n := by
    rw [UInt64.toNat_ofNat', Nat.mod_eq_of_lt hn]
  rw [hpending] at hbegun
  have hshown : counted.shown = tally.statistics := (hrun.behind.settled hidle).2.trans hcounted
  constructor
  · simp only [hshown, Tally.statistics]
    rw [hword (by omega), hword (by omega), hget]
  · simp only [hshown, Tally.statistics]
    rw [hword (by omega), hword (by omega), hword (by omega)]
    omega
  · simp only [hshown, Tally.statistics]
    rw [hword (by omega), hword (by omega), hword (by omega), hword (by omega)]
    omega
  · exact fun _ _ _ _ _ => hrun.stray
  · simp only [hshown, Tally.statistics]
    rw [hword (by omega), hsweep]

/-- A construction that is joined panics, and the cache is swept. -/
theorem Run.balances_panicked :
    ∃ (events : List (CallEvent Unit)) (counted : CountedCache Unit),
      Run ⟨fun _ _ => True, fun _ _ => True, fun _ _ => True⟩ (start { capacity := 1 } 0)
          events counted ∧
        .looked 1 "orders" (.join 0) ∈ events ∧ .swept 2 [] ∈ events ∧
        (∀ caller, counted.shared.callers caller = .idle) ∧
        events.countP CallEvent.isGet < 2 ^ 64 ∧ events.countP CallEvent.isSweep < 2 ^ 64 ∧
        Balances events counted := by
  let outside : Outside Unit := ⟨fun _ _ => True, fun _ _ => True, fun _ _ => True⟩
  let empty : CountedCache Unit := start { capacity := 1 } 0
  have hnothing : Run outside empty [] empty := .nil
  have hbegun := hnothing.step (.act (by simp [empty, start])
    (@SharedCache.Step.look_unmarked _ outside _ 0 "orders" rfl (by
      simp [empty, start, SharedCache.start])))
  have hjoined := hbegun.step (.act (by simp [empty, start, CallEvent.owes])
    (@SharedCache.Step.look_loading _ _ _ 1 0 "orders" rfl (by
      simp [empty, start, SharedCache.start, WriterCache.beginFlight, WriterCache.count])))
  have hcounted := hjoined.step (@Step.post _ _ _ 1 { hits := 1 } [] _ rfl)
  have hswept := hcounted.step (.act (by simp [empty, start, CallEvent.owes])
    (@SharedCache.Step.sweep _ _ _ 2 rfl))
  have hadded := hswept.step (@Step.post _ _ _ 2 { sweeps := 1 } [] _ rfl)
  have hreturned := hadded.step (.act (by simp [empty, start, CallEvent.owes])
    (@SharedCache.Step.answer _ _ _ 2 none rfl))
  have hcalled := hreturned.step (.act (by simp [empty, start, CallEvent.owes])
    (@SharedCache.Step.call _ _ _ 0 "orders" 0 rfl))
  have hdelivered := hcalled.step (.act (by simp [empty, start, CallEvent.owes])
    (@SharedCache.Step.deliver _ _ _ 0 "orders" 0 .panicked rfl trivial))
  have hended := hdelivered.step (.act (by simp [empty, start, CallEvent.owes])
    (@SharedCache.Step.abandon _ _ _ 0 "orders" 0 rfl))
  have hpublished := hended.step (.act (by simp [empty, start, CallEvent.owes])
    (@SharedCache.Step.publish _ _ _ 0 0 _ _ _ rfl))
  have hanswered := hpublished.step (.act (by simp [empty, start, CallEvent.owes])
    (@SharedCache.Step.answer _ _ _ 0 _ rfl))
  have hreceived := hanswered.step (.act (by simp [empty, start, CallEvent.owes])
    (@SharedCache.Step.receive _ _ _ 1 "orders" 0 (.error (WriterCache.brokenError "orders")) rfl
      (WriterCache.outcome?_publish (by
        rw [SharedCache.cache_put, WriterCache.flights_abandon]
        exact Nat.zero_lt_one) _)))
  refine ⟨_, _, hreceived, by simp, ?_, ?hidle, ?hgets, ?hsweeps,
    hreceived.balances ?hidle ?hgets ?hsweeps⟩
  · simp [WriterCache.sweep, WriterCache.evictExpired, WriterCache.evictExpiredUpTo, empty,
      start, SharedCache.start, WriterCache.beginFlight, WriterCache.count]
  · intro caller
    by_cases hfirst : caller = 0 <;> by_cases hsecond : caller = 1 <;>
      by_cases hthird : caller = 2 <;>
      simp [SharedCache.put, SharedCache.start, empty, start, hfirst, hsecond, hthird]
  · simp [CallEvent.isGet, List.countP_cons]
  · simp [CallEvent.isSweep, List.countP_cons]

end CountedCache

end TableRouting
