import TableRouting.Proofs.Cache.Supply

/-!
# Callers that are alone

The steps of callers that work at the same time are those of a workshop, cut where others may
come in between.  A lookup and a sweep that the workshop carries out while nobody else is in
the cache are runs of these steps: the caller is given the same answer, and the same cache is
left behind.

The outside may take its time for whatever it does, but its clock does not go back, and it
does not call into the cache itself.
-/

namespace TableRouting

variable {m : Type → Type} [Monad m] {σ ω : Type}

namespace Workshop

section

variable (workshop : Workshop (CacheT ω m) ω) (table : String)

/-- What a lookup comes to, given what was found in the cache and once what had expired is
closed. -/
def settle : WriterCache.Lookup → CacheT ω m (Except Unavailable Nat)
  | .hit handle => pure (.ok handle)
  | .join flight => do
    match (← getThe (WriterCache ω)).outcome? flight with
    | some outcome => pure (outcome.mapError .construction)
    | none => pure (.error .unfinished)
  | .build flight _ => do
    match ← workshop.create table with
    | .built writer => workshop.complete table flight (.ok writer)
    | .refused e => workshop.complete table flight (.error e)
    | .panicked => breakOff (ω := ω) table flight

end

theorem bind_run {α β : Type} {x : CacheT ω (StateM σ) α} {f : α → CacheT ω (StateM σ) β}
    (cache : WriterCache ω) (world : σ) :
    (x >>= f) cache world = f (x cache world).1.1 (x cache world).1.2 (x cache world).2 := rfl

theorem step_run {α : Type} (f : WriterCache ω → α × WriterCache ω) (cache : WriterCache ω)
    (world : σ) : (step f : CacheT ω (StateM σ) α) cache world = (f cache, world) := rfl

variable (workshop : Workshop (CacheT ω (StateM σ)) ω)

/-- What closing a handle comes to: nothing if it was closed before. -/
theorem closeHandle_run (id : Nat) (cache : WriterCache ω) (world : σ) :
    (cache.beginClose id = (none, cache) ∧
        workshop.closeHandle id cache world = ((.ok false, cache), world)) ∨
      ∃ handle answer,
        let marked := cache.modifyHandle id fun h => { h with closed := true }
        let ended := workshop.close handle.writer marked world
        cache.contents.handle? id = some handle ∧
        cache.beginClose id = (some handle.writer, marked) ∧ answer ≠ .ok false ∧
        workshop.closeHandle id cache world =
          ((answer, ended.1.2.modifyHandle id fun h => { h with writer := ended.1.1.2 }),
            ended.2) := by
  rw [closeHandle, bind_run, step_run]
  rcases cache.beginClose_cases id with ⟨hskip, -⟩ | ⟨handle, hhandle, -, hbegin⟩
  · left
    rw [hskip]
    exact ⟨rfl, rfl⟩
  · right
    refine ⟨handle, ?_⟩
    simp only [hbegin, bind_run]
    generalize workshop.close handle.writer _ world = ended
    obtain ⟨⟨⟨result, writer⟩, between⟩, later⟩ := ended
    cases result with
    | ok done => exact ⟨.ok true, hhandle, trivial, by simp, rfl⟩
    | error e => exact ⟨.error _, hhandle, trivial, by simp, rfl⟩

/-- Closing the handles of a list, one after the other. -/
theorem release_cons_run (id : Nat) (rest : List Nat) (cache : WriterCache ω) (world : σ) :
    let closed := workshop.closeHandle id cache world
    let ended := workshop.release (id :: rest) cache world
    let remaining := workshop.release rest closed.1.2 closed.2
    ended.1.2 = remaining.1.2 ∧ ended.2 = remaining.2 := by
  rw [release, bind_run, bind_run]
  generalize workshop.closeHandle id cache world = closed
  obtain ⟨⟨answer, between⟩, later⟩ := closed
  cases answer with
  | error e => exact ⟨rfl, rfl⟩
  | ok done => cases done <;> exact ⟨rfl, rfl⟩

theorem complete_run {table : String} {flight now : Nat} {built : Except ConstructionError ω}
    {cache : WriterCache ω} {world later : σ}
    (hnow : workshop.now cache world = ((now, cache), later)) :
    workshop.complete table flight built cache world =
      let finished := cache.finish table flight built now
      let ended := workshop.release finished.2.1 (finished.2.2.publish flight finished.1) later
      ((finished.1.mapError .construction, ended.1.2), ended.2) := by
  rw [complete, bind_run, hnow]
  rfl

theorem breakOff_run (table : String) (flight : Nat) (cache : WriterCache ω) (world : σ) :
    (breakOff (ω := ω) table flight : CacheT ω (StateM σ) (Except Unavailable Nat)) cache world =
      ((.error .panicked,
        (cache.abandon table flight).publish flight (.error (WriterCache.brokenError table))),
        world) := rfl

theorem withWriter_run {α : Type} {id : Nat} {use : ω → CacheT ω (StateM σ) (α × ω)}
    {cache : WriterCache ω} {handle : WriterHandle ω} (hhandle : cache.handle? id = some handle)
    (world : σ) :
    withWriter id use cache world =
      if handle.closed then ((.error (.writerClosed handle.table), cache), world)
      else
        let used := use handle.writer cache world
        ((.ok used.1.1.1, used.1.2.modifyHandle id fun h => { h with writer := used.1.1.2 }),
          used.2) := by
  have hget : (getThe (WriterCache ω) : CacheT ω (StateM σ) (WriterCache ω)) cache world =
      ((cache, cache), world) := rfl
  rw [withWriter, bind_run, hget]
  simp only [hhandle]
  split <;> rfl

/-- The outside of a workshop does what it may do, leaves the cache alone, and has a clock
that does not go back. -/
structure Obeys (outside : Outside ω) (time : σ → Nat) : Prop where
  now : ∀ cache world, ∃ later, workshop.now cache world = ((time later, cache), later) ∧
    time world ≤ time later
  create : ∀ table cache world, ∃ construction later,
    workshop.create table cache world = ((construction, cache), later) ∧
      outside.builds table construction ∧ time world ≤ time later
  close : ∀ writer cache world, ∃ result written later,
    workshop.close writer cache world = (((result, written), cache), later) ∧
      outside.closes writer written ∧ time world ≤ time later

end Workshop

namespace SharedCache

variable {outside : Outside ω} {limits : CacheLimits} {shared : SharedCache ω}
  {activity : Activity ω} {caller : Nat} {time : σ → Nat}
  {workshop : Workshop (CacheT ω (StateM σ)) ω}

/-- Nobody is in the cache. -/
structure Still (shared : SharedCache ω) : Prop where
  idle : ∀ caller, shared.callers caller = .idle
  free : ∀ id, shared.locks id = none

/-- One caller is in the middle of something, and nobody else is in the cache. -/
structure Busy (shared : SharedCache ω) (caller : Nat) (activity : Activity ω) : Prop where
  callers : shared.callers = Function.update (fun _ => .idle) caller activity
  free : ∀ id, shared.locks id = none

theorem Still.busy (hstill : shared.Still) (caller : Nat) : shared.Busy caller .idle where
  callers := by
    funext other
    rw [hstill.idle, Function.update_eq_self_iff.mpr rfl]
  free := hstill.free

namespace Busy

theorem caller_eq (hbusy : shared.Busy caller activity) : shared.callers caller = activity := by
  rw [hbusy.callers, Function.update_self]

theorem put (hbusy : shared.Busy caller activity) (next : Activity ω) (cache : WriterCache ω) :
    (shared.put caller next cache).Busy caller next where
  callers := by rw [SharedCache.put, hbusy.callers, Function.update_idem]
  free := hbusy.free

theorem tick (hbusy : shared.Busy caller activity) (now : Nat) :
    { shared with clock := now }.Busy caller activity :=
  ⟨hbusy.callers, hbusy.free⟩

theorem still (hbusy : shared.Busy caller .idle) : shared.Still where
  idle other := by
    rw [hbusy.callers]
    by_cases hother : other = caller <;> simp [hother]
  free := hbusy.free

end Busy

/-- A caller that is alone gets to something else, with a cache and a world. -/
def Reaches (outside : Outside ω) (time : σ → Nat) (shared : SharedCache ω) (caller : Nat)
    (next : Activity ω) (cache : WriterCache ω) (world : σ) : Prop :=
  ∃ events after, Run outside shared events after ∧ after.Busy caller next ∧
    after.cache = cache ∧ after.clock ≤ time world

theorem Reaches.bind {next last : Activity ω} {cache final : WriterCache ω} {world later : σ}
    (hreaches : Reaches outside time shared caller next cache world)
    (hmore : ∀ between : SharedCache ω, between.Busy caller next → between.cache = cache →
      between.clock ≤ time world → Reaches outside time between caller last final later) :
    Reaches outside time shared caller last final later := by
  obtain ⟨events, between, hrun, hbetween, hcache, hclock⟩ := hreaches
  obtain ⟨more, after, hafter, hrest⟩ := hmore between hbetween hcache hclock
  exact ⟨events ++ more, after, hrun.append hafter, hrest⟩

/-- A caller that is alone passes over a handle that was closed before. -/
theorem Busy.skip {id : Nat} {rest : List Nat} {errand : Errand} {world : σ}
    (hbusy : shared.Busy caller (.releasing (id :: rest) errand))
    (hclock : shared.clock ≤ time world)
    (hbegin : shared.cache.beginClose id = (none, shared.cache)) :
    Reaches outside time shared caller (.releasing rest errand) shared.cache world :=
  ⟨_, _, Run.nil.step (.skip hbusy.caller_eq (hbusy.free id) hbegin), hbusy.put _ _, rfl, hclock⟩

/-- A caller that is alone closes the writer of a handle. -/
theorem Busy.close {id : Nat} {rest : List Nat} {errand : Errand} {handle : WriterHandle ω}
    {writer : ω} {world : σ} (hbusy : shared.Busy caller (.releasing (id :: rest) errand))
    (hclock : shared.clock ≤ time world)
    (hhandle : shared.cache.contents.handle? id = some handle)
    (hbegin : shared.cache.beginClose id =
      (some handle.writer, shared.cache.modifyHandle id fun h => { h with closed := true }))
    (hcloses : outside.closes handle.writer writer) :
    Reaches outside time shared caller (.releasing rest errand)
      ((shared.cache.modifyHandle id fun h => { h with closed := true }).modifyHandle id
        fun h => { h with writer }) world := by
  have hnothing : Run outside shared [] shared := .nil
  have hbegun := hnothing.step (.beginClose hbusy.caller_eq (hbusy.free id) hbegin)
  have hended := hbegun.step (@Step.endClose _ outside _ caller id rest errand
    { handle with closed := true } writer (.ok ()) (by simp) ?_ hcloses)
  · refine ⟨_, _, hended, ⟨?_, ?_⟩, rfl, hclock⟩
    · simp [SharedCache.put, SharedCache.lock, hbusy.callers]
    · intro other
      by_cases hother : other = id <;> simp [SharedCache.put, SharedCache.lock, hother, hbusy.free]
  · rw [cache_lock, cache_put, WriterCache.handle?_eq, WriterCache.contents_modifyHandle,
      CacheContents.handle?_modifyHandle, if_pos rfl, hhandle]
    rfl

section

variable (hobeys : workshop.Obeys outside time)
include hobeys

/-- A caller that is alone closes the handles that it took out. -/
theorem reaches_release {handles : List Nat} {errand : Errand} {world : σ}
    (hbusy : shared.Busy caller (.releasing handles errand)) (hclock : shared.clock ≤ time world) :
    let ended := workshop.release handles shared.cache world
    Reaches outside time shared caller (.releasing [] errand) ended.1.2 ended.2 := by
  induction handles generalizing shared world with
  | nil => exact ⟨[], shared, .nil, hbusy, rfl, hclock⟩
  | cons id rest ih =>
      obtain ⟨hcache, hworld⟩ := workshop.release_cons_run id rest shared.cache world
      simp only [hcache, hworld]
      rcases workshop.closeHandle_run id shared.cache world with ⟨hbegin, hclose⟩ |
        ⟨handle, answer, hhandle, hbegin, -, hclose⟩
      · rw [hclose]
        apply (hbusy.skip hclock hbegin).bind
        rintro between hbetween hsame htime
        rw [← hsame]
        exact ih hbetween htime
      · obtain ⟨result, written, later, hended, hcloses, hlater⟩ := hobeys.close handle.writer
          (shared.cache.modifyHandle id fun h => { h with closed := true }) world
        rw [hclose, hended]
        apply (hbusy.close (Nat.le_trans hclock hlater) hhandle hbegin hcloses).bind
        rintro between hbetween hsame htime
        rw [← hsame]
        exact ih hbetween htime

/-- A caller that is alone ends the flight of a construction that has returned. -/
theorem reaches_complete {table : String} {flight : Nat} {built : Except ConstructionError ω}
    {world : σ} (hbusy : shared.Busy caller (.ending table flight (.ofResult built)))
    (hclock : shared.clock ≤ time world) :
    let ended := workshop.complete table flight built shared.cache world
    Reaches outside time shared caller (.releasing [] (.answer (some ended.1.1))) ended.1.2
      ended.2 := by
  obtain ⟨later, hnow, hlater⟩ := hobeys.now shared.cache world
  rw [workshop.complete_run hnow]
  rcases hfinish : shared.cache.finish table flight built (time later) with
    ⟨outcome, released, cache⟩
  have hnothing : Run outside shared [] shared := .nil
  have hticked := hnothing.step (.tick (Nat.le_trans hclock hlater))
  have hfinished := hticked.step (.finish hbusy.caller_eq hfinish)
  have hpublished := hfinished.step (.publish (callers_put_self ..))
  have hreached : Reaches outside time shared caller
      (.releasing released (.answer (some (outcome.mapError .construction))))
      (cache.publish flight outcome) later :=
    ⟨_, _, hpublished, ((hbusy.tick _).put _ _).put _ _, rfl, Nat.le_refl _⟩
  apply hreached.bind
  intro between hbetween hsame htime
  simp only
  rw [← hsame]
  exact reaches_release hobeys hbetween htime

omit hobeys in
/-- A caller that is alone ends the flight of a construction that broke off. -/
theorem reaches_breakOff {table : String} {flight : Nat} {world : σ}
    (hbusy : shared.Busy caller (.ending table flight .panicked))
    (hclock : shared.clock ≤ time world) :
    let ended := (Workshop.breakOff (ω := ω) table flight :
      CacheT ω (StateM σ) (Except Unavailable Nat)) shared.cache world
    Reaches outside time shared caller (.releasing [] (.answer (some ended.1.1))) ended.1.2
      ended.2 := by
  rw [Workshop.breakOff_run]
  have hnothing : Run outside shared [] shared := .nil
  have habandoned := hnothing.step (.abandon hbusy.caller_eq)
  have hpublished := habandoned.step (.publish (callers_put_self ..))
  exact ⟨_, _, hpublished, (hbusy.put _ _).put _ _, rfl, hclock⟩

/-- A caller that is alone builds the writer of a table, and ends its flight. -/
theorem reaches_settle {table : String} {flight : Nat} (expired : Option Nat) {world : σ}
    (hbusy : shared.Busy caller (.releasing [] (.build table flight)))
    (hclock : shared.clock ≤ time world) :
    let ended := workshop.settle table (.build flight expired) shared.cache world
    Reaches outside time shared caller (.releasing [] (.answer (some ended.1.1))) ended.1.2
      ended.2 := by
  obtain ⟨construction, later, hcreate, hbuilds, hlater⟩ :=
    hobeys.create table shared.cache world
  have hnothing : Run outside shared [] shared := .nil
  have hcalled := hnothing.step (.call hbusy.caller_eq)
  have hdelivered := hcalled.step (.deliver (callers_put_self ..) hbuilds)
  have hreached : Reaches outside time shared caller (.ending table flight construction)
      shared.cache later :=
    ⟨_, _, hdelivered, (hbusy.put _ _).put _ _, rfl, Nat.le_trans hclock hlater⟩
  apply hreached.bind
  intro between hbetween hsame htime
  rw [Workshop.settle, Workshop.bind_run, hcreate, ← hsame]
  cases construction with
  | built writer => exact reaches_complete hobeys hbetween htime
  | refused e => exact reaches_complete hobeys hbetween htime
  | panicked => exact reaches_breakOff hbetween htime

end

/-- Where nobody is in the cache, no flight is joined. -/
theorem Still.not_join (hstill : shared.Still) (hsound : shared.Sound limits) (table : String)
    (flight : Nat) : (shared.cache.lookup table shared.clock).1 ≠ .join flight := by
  intro hjoin
  have hlooks := hsound.looks table
  rw [hjoin] at hlooks
  obtain ⟨caller, hflight⟩ := System.Sound.owned hsound table flight hlooks.joins
  simp [system, hstill.idle, Activity.phase, Phase.flight?] at hflight

/-- A lookup that is carried out while nobody is in the cache is a run of steps, in which the
caller is given what the lookup answers. -/
theorem exists_run_get (hobeys : workshop.Obeys outside time) (hsound : shared.Sound limits)
    (hstill : shared.Still) (caller : Nat) (table : String) {world : σ}
    (hclock : shared.clock ≤ time world) :
    let ended := workshop.get table shared.cache world
    ∃ events event after, Run outside shared (events ++ [event]) after ∧
      event.caller? = some caller ∧ event.gives? = some ended.1.1 ∧ after.Still ∧
      after.cache = ended.1.2 ∧ after.clock ≤ time ended.2 := by
  obtain ⟨later, hnow, hlater⟩ := hobeys.now shared.cache world
  have hnothing : Run outside shared [] shared := .nil
  have hticked := hnothing.step (.tick (Nat.le_trans hclock hlater))
  have hbusy := (hstill.busy caller).tick (time later)
  have hnojoin := hbusy.still.not_join (hsound.run hticked) table
  have hlooked := hticked.step (@Step.look _ outside _ caller table hbusy.caller_eq)
  rw [Workshop.get, Workshop.bind_run, hnow]
  simp only [Workshop.bind_run, Workshop.step_run]
  rcases hfound : shared.cache.lookup table (time later) with ⟨found, cache⟩
  simp only [hfound] at hlooked hnojoin
  cases found with
  | hit handle =>
      exact ⟨_, _, _, hlooked, rfl, rfl, (hbusy.put _ _).still, rfl, Nat.le_refl _⟩
  | join flight => exact absurd rfl (hnojoin flight)
  | build flight expired =>
      have hreached : Reaches outside time shared caller
          (.releasing expired.toList (.build table flight)) cache later :=
        ⟨_, _, hlooked, hbusy.put _ _, rfl, Nat.le_refl _⟩
      have hreleased := hreached.bind fun between hbetween hsame htime =>
        hsame ▸ reaches_release hobeys hbetween htime
      have hsettled := hreleased.bind fun between hbetween hsame htime =>
        hsame ▸ reaches_settle hobeys expired hbetween htime
      obtain ⟨events, after, hrun, hafter, hcache, hlast⟩ := hsettled
      exact ⟨events, _, _, hrun.step (.answer hafter.caller_eq), rfl, rfl, (hafter.put _ _).still,
        hcache, hlast⟩

/-- A sweep that is carried out while nobody is in the cache is a run of steps. -/
theorem exists_run_cleanUp (hobeys : workshop.Obeys outside time) (hstill : shared.Still)
    (caller : Nat) {world : σ} (hclock : shared.clock ≤ time world) :
    let ended := workshop.cleanUp shared.cache world
    ∃ now released events after,
      Run outside shared ([.ticked now, .swept caller released] ++ events ++
        [.answered caller none]) after ∧
      released.length = ended.1.1 ∧ after.Still ∧ after.cache = ended.1.2 ∧
      after.clock ≤ time ended.2 := by
  obtain ⟨later, hnow, hlater⟩ := hobeys.now shared.cache world
  have hnothing : Run outside shared [] shared := .nil
  have hticked := hnothing.step (.tick (Nat.le_trans hclock hlater))
  have hbusy := (hstill.busy caller).tick (time later)
  have hswept := hticked.step (@Step.sweep _ outside _ caller hbusy.caller_eq)
  rw [Workshop.cleanUp, Workshop.bind_run, hnow]
  simp only [Workshop.bind_run, Workshop.step_run]
  obtain ⟨events, after, hrun, hafter, hcache, hlast⟩ :=
    reaches_release hobeys (hbusy.put _ _) (Nat.le_refl (time later))
  exact ⟨time later, _, events, _, (hswept.append hrun).step (.answer hafter.caller_eq), rfl,
    (hafter.put _ _).still, hcache, hlast⟩

/-- A writer that is used while nobody is in the cache is entered and left, or refuses. -/
theorem exists_run_withWriter {α : Type} {use : ω → CacheT ω (StateM σ) (α × ω)}
    (huse : ∀ writer cache world, ∃ result written later,
      use writer cache world = (((result, written), cache), later) ∧
        outside.uses writer written ∧ time world ≤ time later)
    (hstill : shared.Still) (caller : Nat) {id : Nat} {handle : WriterHandle ω}
    (hhandle : shared.cache.handle? id = some handle) {world : σ}
    (hclock : shared.clock ≤ time world) :
    let ended := Workshop.withWriter id use shared.cache world
    ∃ events after, Run outside shared events after ∧
      (events = [.entered caller id, .left caller id] ∧ (∃ result, ended.1.1 = .ok result) ∨
        events = [.refused caller id] ∧ ended.1.1 = .error (.writerClosed handle.table)) ∧
      after.Still ∧ after.cache = ended.1.2 ∧ after.clock ≤ time ended.2 := by
  rw [Workshop.withWriter_run hhandle]
  cases hclosed : handle.closed with
  | true =>
      exact ⟨_, shared,
        Run.nil.step (.refuse (hstill.idle caller) (hstill.free id) hhandle hclosed),
        .inr ⟨rfl, rfl⟩, hstill, rfl, hclock⟩
  | false =>
      obtain ⟨result, written, later, hused, huses, hlater⟩ := huse handle.writer shared.cache world
      have hnothing : Run outside shared [] shared := .nil
      have hentered := hnothing.step (.enter (hstill.idle caller) (hstill.free id) hhandle hclosed)
      have hleft := hentered.step
        (.leave (callers_put_self shared caller _ shared.cache) hhandle huses)
      simp only [hused]
      refine ⟨_, _, hleft, .inl ⟨rfl, result, rfl⟩, ⟨?_, ?_⟩, rfl, Nat.le_trans hclock hlater⟩
      · intro other
        by_cases hother : other = caller <;> simp [put, lock, hother, hstill.idle]
      · intro other
        by_cases hother : other = id <;> simp [put, lock, hother, hstill.free]

end SharedCache

end TableRouting
