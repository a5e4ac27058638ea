import TableRouting.Proofs.Cache.Release
import TableRouting.Proofs.Cache.SingleFlight

/-!
# Constructions cut off by an invalidation

An invalidation takes the mark of every construction that is under way.  Later
lookups of the table begin flights of their own, and several constructions of one
table may then run side by side.  The one that lost its mark ends for itself: the
map and the access list are as if it had not ended, its writer goes to nobody but
who built it, to be closed, and those who wait for it are told that it failed.
-/

namespace TableRouting

variable {ω : Type}

/-- The cache was invalidated after a flight began and before it ended. -/
def Severed (events : List (CallEvent ω)) (flight : Nat) : Prop :=
  ∃ before event, before ++ [event] <+: events ∧ event.invalidates = true ∧
    Begun before flight ∧
      ∀ caller table handle outcome, .ended caller table flight handle outcome ∉ before

/-- A step may rearrange the map and the access list, unless it is the end of a given
flight. -/
def CallEvent.rearranges (flight : Nat) : CallEvent ω → Bool
  | looked _ _ _ => true
  | swept _ _ => true
  | invalidated _ _ => true
  | ended _ _ other _ _ => other ≠ flight
  | _ => false

def Errand.answer? : Errand → Option (Except Unavailable Nat)
  | build _ _ => none
  | answer given => given

/-- What a caller will answer once it has closed its handles. -/
def Activity.answer? : Activity ω → Option (Except Unavailable Nat)
  | releasing _ errand => errand.answer?
  | closing _ _ errand => errand.answer?
  | _ => none

theorem Severed.mono {before events : List (CallEvent ω)} {flight : Nat}
    (hsevered : Severed before flight) (hinitial : before <+: events) : Severed events flight := by
  obtain ⟨first, event, hfirst, hevent, hbegun, hopen⟩ := hsevered
  exact ⟨first, event, hfirst.trans hinitial, hevent, hbegun, hopen⟩

theorem severed_concat (events : List (CallEvent ω)) (event : CallEvent ω) (flight : Nat) :
    Severed (events ++ [event]) flight ↔ Severed events flight ∨
      (event.invalidates = true ∧ Begun events flight ∧
        ∀ caller table handle outcome, .ended caller table flight handle outcome ∉ events) := by
  constructor
  · rintro ⟨before, last, hinitial, hlast, hbegun, hopen⟩
    rcases List.prefix_concat_iff.mp hinitial with hsame | hold
    · obtain ⟨rfl, hevent⟩ := List.append_inj' hsame rfl
      obtain rfl := (List.cons.inj hevent).1
      exact Or.inr ⟨hlast, hbegun, hopen⟩
    · exact Or.inl ⟨before, last, hold, hlast, hbegun, hopen⟩
  · rintro (hsevered | ⟨hinvalidates, hbegun, hopen⟩)
    · exact hsevered.mono (List.prefix_append _ _)
    · exact ⟨events, event, List.prefix_rfl, hinvalidates, hbegun, hopen⟩

/-- What comes after the end of a flight does not sever it. -/
theorem severed_append_ended {before : List (CallEvent ω)} {flight : Nat}
    (hopen : ∀ caller table handle outcome,
      .ended caller table flight handle outcome ∉ before)
    (caller : Nat) (table : String) (handle : Option Nat) (outcome : FlightOutcome)
    (rest : List (CallEvent ω)) :
    Severed (before ++ .ended caller table flight handle outcome :: rest) flight ↔
      Detached before flight := by
  constructor
  · rintro ⟨first, event, hinitial, hevent, hbegun, hpending⟩
    have hend : before ++ [.ended caller table flight handle outcome] <+:
        before ++ .ended caller table flight handle outcome :: rest := ⟨rest, by simp⟩
    have hdistinct : first ++ [event] ≠
        before ++ [.ended caller table flight handle outcome] := by
      intro hsame
      obtain rfl := (List.cons.inj (List.append_inj' hsame rfl).2).1
      simp [CallEvent.invalidates] at hevent
    rcases List.prefix_or_prefix_of_prefix hinitial hend with hearlier | hlater
    · rcases List.prefix_concat_iff.mp hearlier with hsame | hbefore
      · exact absurd hsame hdistinct
      · exact ⟨first, event, hbefore, hevent, hbegun⟩
    · rcases List.prefix_concat_iff.mp hlater with hsame | hfirst
      · exact absurd hsame.symm hdistinct
      · exact absurd (hfirst.subset (by simp)) (hpending caller table handle outcome)
  · rintro ⟨first, event, hinitial, hevent, hbegun⟩
    refine ⟨first, event, hinitial.trans (List.prefix_append _ _), hevent, hbegun, ?_⟩
    intro caller table handle outcome hended
    exact hopen caller table handle outcome (hinitial.subset (List.mem_append_left _ hended))

/-- The steps of a flight are those of the caller in whose charge it is. -/
theorem Duty.Traced.caller?_eq {caller : Nat} {duty : Duty ω} {events : List (CallEvent ω)}
    (htraced : duty.Traced caller events) {event : CallEvent ω} (hevent : event ∈ events) :
    event.caller? = some caller := by
  induction htraced with
  | prepare table flight expired =>
      obtain rfl := List.mem_singleton.mp hevent
      rfl
  | build hbefore ih | conclude hbefore construction ih | publish hbefore handle outcome ih =>
      rcases List.mem_append.mp hevent with hold | hnew
      · exact ih hold
      · obtain rfl := List.mem_singleton.mp hnew
        rfl

theorem Concluded.exists_caller {flight : Nat} {outcome : FlightOutcome}
    {events : List (CallEvent ω)} (hconcluded : Concluded flight outcome events) :
    ∃ caller, ∀ event ∈ events, event.caller? = some caller := by
  cases hconcluded with
  | @intro caller before hbefore =>
      refine ⟨caller, fun event hevent => ?_⟩
      rcases List.mem_append.mp hevent with hold | hnew
      · exact hbefore.caller?_eq hold
      · obtain rfl := List.mem_singleton.mp hnew
        rfl

/-- A writer that a lookup finds is cached. -/
theorem CacheContents.Looks.mem_cached {contents after : CacheContents ω} {table : String}
    {now id : Nat} (hlooks : contents.Looks table now (.hit id) after) :
    id ∈ contents.cached := by
  cases hlooks with
  | hit hmark hentries hfresh => simp [cached, hentries]

namespace WriterCache

variable {cache : WriterCache ω} {table : String} {flight : Nat}

theorem keeps_modifyHandle (cache : WriterCache ω) (id : Nat)
    (f : WriterHandle ω → WriterHandle ω) :
    (cache.modifyHandle id f).slots = cache.slots ∧
      (cache.modifyHandle id f).order = cache.order := by
  rw [modifyHandle]
  split <;> exact ⟨rfl, rfl⟩

/-- A flight that lost its mark leaves the map and the access list alone when it ends. -/
theorem keeps_of_finish {built : Except ConstructionError ω} {outcome : FlightOutcome}
    {released : List Nat} {now : Nat} {after : WriterCache ω}
    (hlost : cache.isCurrent table flight = false)
    (hfinish : cache.finish table flight built now = (outcome, released, after)) :
    after.slots = cache.slots ∧ after.order = cache.order := by
  cases built with
  | ok writer =>
      rw [finish_detached hlost] at hfinish
      obtain ⟨rfl, rfl, rfl⟩ := hfinish
      exact ⟨rfl, rfl⟩
  | error error =>
      simp only [finish, hlost, Bool.false_eq_true, if_false] at hfinish
      obtain ⟨rfl, rfl, rfl⟩ := hfinish
      exact ⟨rfl, rfl⟩

end WriterCache

namespace SharedCache

variable {outside : Outside ω} {limits : CacheLimits} {first shared after : SharedCache ω}
  {events before rest : List (CallEvent ω)} {event : CallEvent ω}
  {caller flight id : Nat} {table : String} {handle : Option Nat} {outcome : FlightOutcome}

/-- A step on the way of a run with these events. -/
structure Along (outside : Outside ω) (first : SharedCache ω) (events before : List (CallEvent ω))
    (earlier : SharedCache ω) (event : CallEvent ω) (later : SharedCache ω) : Prop where
  course : before ++ [event] <+: events
  run : Run outside first before earlier
  step : Step outside earlier event later

/-- Each event of a run is that of a step on its way. -/
theorem Run.along (hrun : Run outside first events shared) (hevent : event ∈ events) :
    ∃ before earlier later, Along outside first events before earlier event later := by
  obtain ⟨before, rest, rfl⟩ := List.append_of_mem hevent
  obtain ⟨earlier, later, hbefore, hstep, -⟩ := hrun.split
  exact ⟨before, earlier, later, ⟨rest, by simp⟩, hbefore, hstep⟩

/-- The events of a flight are all of one caller. -/
theorem Tracked.exists_caller (htracked : Tracked events shared) (flight : Nat) :
    ∃ caller, ∀ event ∈ history events flight, event.caller? = some caller := by
  cases hfound : shared.cache.flights[flight]? with
  | none => exact ⟨0, by simp [htracked.unbegun flight hfound]⟩
  | some published =>
      cases published with
      | none =>
          obtain ⟨caller, duty, hduty, rfl⟩ := htracked.charged flight hfound
          exact ⟨caller, fun _ => (htracked.duties caller duty hduty).2.caller?_eq⟩
      | some outcome => exact (htracked.concluded flight outcome hfound).exists_caller

theorem Tracked.caller?_eq (htracked : Tracked events shared) {other : CallEvent ω}
    (hevent : event ∈ events) (hother : other ∈ events) (hflight : event.flight? = some flight)
    (hsame : other.flight? = some flight) : event.caller? = other.caller? := by
  obtain ⟨caller, hcaller⟩ := htracked.exists_caller flight
  rw [hcaller event (mem_history hflight hevent), hcaller other (mem_history hsame hother)]

/-- A flight that ends has not ended before. -/
theorem Followed.open (hfollowed : Followed limits events shared)
    (hstep : Step outside shared (.ended caller table flight handle outcome) after)
    (other : Nat) (place : String) (number : Option Nat) (earlier : FlightOutcome) :
    .ended other place flight number earlier ∉ events := by
  obtain ⟨construction, hcaller⟩ := hstep.ending_of_ended
  have hduty : (shared.callers caller).duty? = some (.conclude table flight construction) := by
    rw [hcaller]
    rfl
  intro hended
  exact (hfollowed.tracked.duties caller _ hduty).2.not_ended (mem_history rfl hended)

/-- What becomes of a construction depends on whether it was severed. -/
theorem Run.concludes {clock : Nat} (hrun : Run outside (start limits clock) events shared)
    (hended : .ended caller table flight handle outcome ∈ events) :
    ∃ construction, .delivered caller table flight construction ∈ events ∧
      construction.Concludes table (Severed events flight) handle outcome := by
  obtain ⟨before, rest, rfl⟩ := List.append_of_mem hended
  obtain ⟨earlier, later, hbefore, hstep, -⟩ := hrun.split
  obtain ⟨construction, hdelivered, hconcludes⟩ := hbefore.followed.ended hstep
  rw [← severed_append_ended (hbefore.followed.open hstep) caller table handle outcome rest]
    at hconcludes
  exact ⟨construction, List.mem_append_left _ hdelivered, hconcludes⟩

/-- A flight that has ended was severed by then, or is not at all. -/
theorem Run.severed_of_ended {clock : Nat} (hrun : Run outside (start limits clock) before shared)
    (hended : .ended caller table flight handle outcome ∈ before) (hinitial : before <+: events)
    (hsevered : Severed events flight) : Severed before flight := by
  obtain ⟨front, back, rfl⟩ := List.append_of_mem hended
  obtain ⟨rest, rfl⟩ := hinitial
  obtain ⟨earlier, later, hfront, hstep, -⟩ := hrun.split
  rw [List.append_assoc, List.cons_append] at hsevered
  rw [severed_append_ended (hfront.followed.open hstep)] at hsevered ⊢
  exact hsevered

/-- A severed flight has lost its mark when it ends. -/
theorem Run.detached_of_severed {clock : Nat}
    (hrun : Run outside (start limits clock) before shared)
    (hstep : Step outside shared (.ended caller table flight handle outcome) after)
    (hcourse : before ++ [.ended caller table flight handle outcome] <+: events)
    (hsevered : Severed events flight) : Detached before flight := by
  have hended : .ended caller table flight handle outcome ∈
      before ++ [.ended caller table flight handle outcome] :=
    List.mem_append_right _ (List.mem_singleton_self _)
  have hthen := (hrun.step hstep).severed_of_ended hended hcourse hsevered
  exact (severed_append_ended (hrun.followed.open hstep) ..).mp hthen

/-- The end of a severed construction is a failure. -/
theorem Run.ended_of_severed {clock : Nat}
    (hrun : Run outside (start limits clock) events shared) (hsevered : Severed events flight)
    (hended : .ended caller table flight handle outcome ∈ events) :
    ∃ error, outcome = .error error := by
  obtain ⟨construction, -, hconcludes⟩ := hrun.concludes hended
  cases hconcludes with
  | stored writer id hcurrent => exact absurd hsevered hcurrent
  | detached | refused | panicked => exact ⟨_, rfl⟩

/-- What is handed out is how the flight ended. -/
theorem Run.ended_of_published {clock : Nat}
    (hrun : Run outside (start limits clock) events shared)
    (hpublished : .published caller flight outcome ∈ events) :
    ∃ table handle, .ended caller table flight handle outcome ∈ events := by
  obtain ⟨before, earlier, later, hcourse, hbefore, hstep⟩ := hrun.along hpublished
  obtain ⟨table, handle, hended⟩ := hbefore.followed.published hstep
  exact ⟨table, handle, hcourse.subset (List.mem_append_left _ hended)⟩

/-- What a caller receives is how the flight ended. -/
theorem Run.ended_of_received {clock : Nat}
    (hrun : Run outside (start limits clock) events shared)
    (hreceived : .received caller flight outcome ∈ events) :
    ∃ builder table handle, .ended builder table flight handle outcome ∈ events := by
  obtain ⟨before, earlier, later, hcourse, hbefore, hstep⟩ := hrun.along hreceived
  obtain ⟨builder, hpublished⟩ := hbefore.followed.received hstep
  obtain ⟨table, handle, hended⟩ := hbefore.ended_of_published hpublished
  exact ⟨builder, table, handle, hcourse.subset (List.mem_append_left _ hended)⟩

/-- A caller gives up a handle that it is to close by closing it. -/
theorem Step.mem_queue (hcustody : Custody shared) (hstep : Step outside shared event after)
    (hid : id ∈ (shared.callers caller).queue) :
    id ∈ (after.callers caller).queue ∨ id ∈ event.retired := by
  by_cases hcaller : event.caller? = some caller
  · cases hstep with
    | tick hnow => simp [CallEvent.caller?] at hcaller
    | beginClose hbefore hfree hbegin =>
        obtain rfl := Option.some.inj hcaller
        rw [hbefore] at hid
        rw [callers_lock, callers_put_self]
        exact (List.mem_cons.mp hid).symm.imp_right List.mem_singleton.mpr
    | endClose hbefore | publish hbefore =>
        obtain rfl := Option.some.inj hcaller
        rw [hbefore] at hid
        left
        simp only [callers_lock, callers_put_self]
        exact hid
    | skip hbefore hfree hbegin =>
        -- What is in a queue is open, so there is nothing to skip.
        obtain rfl := Option.some.inj hcaller
        rename_i caller skipped rest errand cache
        obtain ⟨-, hclosed⟩ := WriterCache.beginClose_none hbegin
        have hopen : shared.closed? skipped = some false := by
          have hqueued : skipped ∈ (shared.callers caller).queue := by
            rw [hbefore]
            exact List.mem_cons_self
          exact hcustody.queued hqueued
        obtain ⟨handle, hhandle, hfalse⟩ := Option.map_eq_some_iff.mp hopen
        simp [hclosed handle hhandle] at hfalse
    | look hbefore | receive hbefore | call hbefore | deliver hbefore | finish hbefore
    | abandon hbefore | answer hbefore | sweep hbefore | invalidate hbefore | enter hbefore
    | refuse hbefore | leave hbefore | peek hbefore =>
        obtain rfl := Option.some.inj hcaller
        simp [hbefore, Activity.queue] at hid
  · left
    rwa [hstep.callers_eq hcaller]

/-- Who ends a detached flight finds that it has lost its mark. -/
theorem Followed.isCurrent_of_detached (hfollowed : Followed limits events shared)
    {construction : Construction ω}
    (hcaller : shared.callers caller = .ending table flight construction)
    (hdetached : Detached events flight) : shared.cache.isCurrent table flight = false := by
  have hconstructs : shared.Constructs caller table flight := by
    rw [Constructs, hcaller]
    rfl
  rw [Bool.eq_false_iff, Ne, WriterCache.isCurrent_iff,
    hfollowed.marked caller table flight hconstructs]
  exact not_not.mpr hdetached

/-- The writer of a flight without a mark goes to who built it. -/
theorem Step.queue_of_detached (hfollowed : Followed limits events shared)
    (hstep : Step outside shared (.ended caller table flight (some id) outcome) after)
    (hdetached : Detached events flight) : id ∈ (after.callers caller).queue := by
  generalize hevent : CallEvent.ended caller table flight (some id) outcome = event at hstep
  cases hstep with
  | finish hcaller hfinish =>
      rename_i built ending released cache
      obtain ⟨rfl, rfl, rfl, hnumber, rfl⟩ := CallEvent.ended.inj hevent
      cases built with
      | error error => simp [numberFor] at hnumber
      | ok writer =>
          obtain rfl := Option.some.inj hnumber
          have hlost := hfollowed.isCurrent_of_detached hcaller hdetached
          rw [WriterCache.finish_detached hlost] at hfinish
          obtain ⟨-, rfl, -⟩ := hfinish
          rw [callers_put_self, WriterCache.addHandle_fst]
          exact List.mem_singleton_self _
  | _ => cases hevent

/-- The writer of a severed flight is closed, or in the queue of who built it. -/
theorem Run.parted {clock : Nat} (hrun : Run outside (start limits clock) events shared)
    (hended : .ended caller table flight (some id) outcome ∈ events)
    (hsevered : Severed events flight) :
    shared.closed? id = some true ∨ id ∈ (shared.callers caller).queue := by
  induction hrun with
  | nil => simp at hended
  | @step events event shared after hrun hstep ih =>
      have haccounted := hrun.accounted
      rcases List.mem_append.mp hended with hold | hnew
      · have hbefore := hrun.severed_of_ended hold (List.prefix_append _ _) hsevered
        rcases ih hold hbefore with hclosed | hqueue
        · exact Or.inl (hstep.closed?_of_closed haccounted.sound hclosed)
        · rcases hstep.mem_queue haccounted.custody hqueue with hkept | hretired
          · exact Or.inr hkept
          · left
            rw [hstep.closed?_eq haccounted.sound, CallEvent.closed?, if_pos hretired]
      · obtain rfl := List.mem_singleton.mp hnew
        rw [severed_append_ended (hrun.followed.open hstep)] at hsevered
        exact Or.inr (hstep.queue_of_detached hrun.followed hsevered)

/-- Every handle belongs to a flight. -/
theorem Run.numbered_of_closed? {clock : Nat}
    (hrun : Run outside (start limits clock) events shared) (hhandle : shared.closed? id ≠ none) :
    ∃ flight, Numbered events flight id := by
  induction hrun with
  | nil =>
      simp [closed?, SharedCache.start, WriterCache.contents_empty, CacheContents.handle?]
        at hhandle
  | @step events event shared after hrun hstep ih =>
      rw [hstep.closed?_eq hrun.accounted.sound, CallEvent.closed?] at hhandle
      split at hhandle
      · rename_i hretired
        obtain ⟨hopen, -⟩ := hstep.of_retired hretired
        obtain ⟨flight, hnumbered⟩ := ih (by simp [hopen])
        exact ⟨flight, numbered_concat.mpr (Or.inl hnumbered)⟩
      · split at hhandle
        · rename_i hnumbered
          cases event with
          | ended caller table flight handle outcome =>
              obtain rfl := Option.mem_toList.mp hnumbered
              exact ⟨flight, numbered_concat.mpr (Or.inr ⟨caller, table, outcome, rfl⟩)⟩
          | _ => simp [CallEvent.numbered] at hnumbered
        · obtain ⟨flight, hnumbered⟩ := ih hhandle
          exact ⟨flight, numbered_concat.mpr (Or.inl hnumbered)⟩

/-- The writer of a severed flight is at no time cached. -/
theorem Run.not_cached_of_severed {clock : Nat} {earlier : SharedCache ω}
    (hrun : Run outside (start limits clock) events shared) (hsevered : Severed events flight)
    (hnumbered : Numbered events flight id) (hinitial : before <+: events)
    (hbefore : Run outside (start limits clock) before earlier) :
    id ∉ earlier.cache.contents.cached := by
  intro hcached
  have hopen := hbefore.accounted.open_of_cached hcached
  have hhandle : earlier.closed? id ≠ none := by simp [hopen]
  obtain ⟨other, who, place, result, hended⟩ := hbefore.numbered_of_closed? hhandle
  obtain rfl : other = flight :=
    hrun.accounted.numbering.flight_unique other flight id
      ⟨who, place, result, hinitial.subset hended⟩ hnumbered
  rcases hbefore.parted hended (hbefore.severed_of_ended hended hinitial hsevered) with
    hclosed | hqueue
  · simp [hopen] at hclosed
  · exact hbefore.accounted.sound.not_cached hqueue hcached

/-- Callers answer with a writer only when they have handed it out. -/
structure Honest (events : List (CallEvent ω)) (shared : SharedCache ω) : Prop where
  publishing : ∀ caller flight outcome released id,
    shared.callers caller = .publishing flight outcome released (.ok id) → outcome = .ok id
  answering : ∀ caller id, (shared.callers caller).answer? = some (.ok id) →
    ∃ flight, .published caller flight (.ok id) ∈ events

theorem Step.publishing (hstep : Step outside shared event after) {released : List Nat}
    (hpublishing : after.callers caller = .publishing flight outcome released (.ok id)) :
    shared.callers caller = .publishing flight outcome released (.ok id) ∨ outcome = .ok id := by
  by_cases hcaller : event.caller? = some caller
  · cases hstep with
    | tick hnow => simp [CallEvent.caller?] at hcaller
    | look hidle =>
        obtain rfl := Option.some.inj hcaller
        rw [callers_put_self] at hpublishing
        generalize (shared.cache.lookup _ shared.clock).1 = found at hpublishing
        cases found <;> simp [Activity.ofLookup] at hpublishing
    | finish hending hfinish =>
        obtain rfl := Option.some.inj hcaller
        rename_i built ended out cache
        rw [callers_put_self] at hpublishing
        obtain ⟨rfl, rfl, rfl, hanswer⟩ := Activity.publishing.inj hpublishing
        cases ended with
        | error error => simp [Except.mapError] at hanswer
        | ok number =>
            obtain rfl := Except.ok.inj hanswer
            exact Or.inr rfl
    | refuse hidle | peek hidle =>
        obtain rfl := Option.some.inj hcaller
        simp [hidle] at hpublishing
    | _ =>
        obtain rfl := Option.some.inj hcaller
        simp at hpublishing
  · left
    rwa [hstep.callers_eq hcaller] at hpublishing

/-- A caller comes to its answer by handing out the outcome of its flight. -/
theorem Step.answering (hstep : Step outside shared event after)
    (hanswer : (after.callers caller).answer? = some (.ok id)) :
    (shared.callers caller).answer? = some (.ok id) ∨
      ∃ flight outcome released,
        shared.callers caller = .publishing flight outcome released (.ok id) ∧
          event = .published caller flight outcome := by
  by_cases hcaller : event.caller? = some caller
  · cases hstep with
    | tick hnow => simp [CallEvent.caller?] at hcaller
    | look hidle =>
        obtain rfl := Option.some.inj hcaller
        rw [callers_put_self] at hanswer
        generalize (shared.cache.lookup _ shared.clock).1 = found at hanswer
        cases found <;> simp [Activity.ofLookup, Activity.answer?, Errand.answer?] at hanswer
    | beginClose hbefore | endClose hbefore | skip hbefore =>
        obtain rfl := Option.some.inj hcaller
        simp only [callers_lock, callers_put_self] at hanswer
        left
        rw [hbefore]
        exact hanswer
    | publish hbefore =>
        obtain rfl := Option.some.inj hcaller
        rw [callers_put_self] at hanswer
        obtain rfl := Option.some.inj hanswer
        exact Or.inr ⟨_, _, _, hbefore, rfl⟩
    | refuse | peek => exact Or.inl hanswer
    | _ =>
        obtain rfl := Option.some.inj hcaller
        simp [Activity.answer?, Errand.answer?] at hanswer
  · left
    rwa [hstep.callers_eq hcaller] at hanswer

theorem Honest.step (hhonest : Honest events shared) (hstep : Step outside shared event after) :
    Honest (events ++ [event]) after where
  publishing := by
    intro caller flight outcome released id hpublishing
    rcases hstep.publishing hpublishing with hbefore | hsame
    · exact hhonest.publishing caller flight outcome released id hbefore
    · exact hsame
  answering := by
    intro caller id hanswer
    rcases hstep.answering hanswer with hbefore | ⟨flight, outcome, released, hpublishing, rfl⟩
    · obtain ⟨flight, hpublished⟩ := hhonest.answering caller id hbefore
      exact ⟨flight, List.mem_append_left _ hpublished⟩
    · obtain rfl := hhonest.publishing caller flight outcome released id hpublishing
      exact ⟨flight, by simp⟩

theorem Run.honest {clock : Nat} (hrun : Run outside (start limits clock) events shared) :
    Honest events shared := by
  induction hrun with
  | nil => exact ⟨by simp [SharedCache.start], by simp [SharedCache.start, Activity.answer?]⟩
  | step hrun hstep ih => exact ih.step hstep

/-- An answer with a writer is how a flight ended. -/
theorem Run.ended_of_answered {clock : Nat}
    (hrun : Run outside (start limits clock) events shared)
    (hanswered : .answered caller (some (.ok id)) ∈ events) :
    ∃ builder table flight handle,
      .ended builder table flight handle (.ok id) ∈ events := by
  obtain ⟨before, earlier, later, hcourse, hbefore, hstep⟩ := hrun.along hanswered
  have hanswer : (earlier.callers caller).answer? = some (.ok id) := by
    cases hstep with
    | answer hcaller =>
        rw [hcaller]
        rfl
  obtain ⟨flight, hpublished⟩ := hbefore.honest.answering caller id hanswer
  obtain ⟨table, handle, hended⟩ := hbefore.ended_of_published hpublished
  exact ⟨caller, table, flight, handle, hcourse.subset (List.mem_append_left _ hended)⟩

/-- No severed flight ends with a writer that anybody gets. -/
theorem Run.not_ended_of_severed {clock other builder : Nat} {place : String}
    {number : Option Nat}
    (hrun : Run outside (start limits clock) events shared) (hsevered : Severed events flight)
    (hnumbered : Numbered events flight id) :
    .ended builder place other number (.ok id) ∉ events := by
  intro hended
  obtain ⟨construction, -, hconcludes⟩ := hrun.concludes hended
  cases hconcludes with
  | stored writer id hcurrent =>
      obtain rfl := hrun.accounted.numbering.flight_unique other flight id
        ⟨builder, place, _, hended⟩ hnumbered
      exact hcurrent hsevered

/-- A caller that waits does nothing but receive what it waits for. -/
theorem Run.received_of_waiting (hrun : Run outside first events shared)
    (hwaiting : first.callers caller = .waiting table flight) :
    (events.find? (fun event => event.caller? = some caller) = none ∧
        shared.callers caller = .waiting table flight) ∨
      ∃ outcome, events.find? (fun event => event.caller? = some caller) =
        some (.received caller flight outcome) := by
  induction hrun with
  | nil => exact Or.inl ⟨rfl, hwaiting⟩
  | @step events event shared after hrun hstep ih =>
      rw [List.find?_append]
      rcases ih with ⟨hnone, hbefore⟩ | ⟨outcome, hfound⟩
      · rw [hnone, Option.none_or]
        by_cases hcaller : event.caller? = some caller
        · right
          cases hstep with
          | tick hnow => simp [CallEvent.caller?] at hcaller
          | receive hreceive houtcome =>
              obtain rfl := Option.some.inj hcaller
              rename_i outcome
              obtain ⟨-, rfl⟩ := Activity.waiting.inj (hbefore.symm.trans hreceive)
              exact ⟨outcome, by simp [CallEvent.caller?]⟩
          | look hother | beginClose hother | endClose hother | skip hother | call hother
          | deliver hother | finish hother | abandon hother | publish hother | answer hother
          | sweep hother | invalidate hother | enter hother | refuse hother | leave hother
          | peek hother =>
              obtain rfl := Option.some.inj hcaller
              simp [hbefore] at hother
        · left
          rw [hstep.callers_eq hcaller]
          exact ⟨by simp [hcaller], hbefore⟩
      · exact Or.inr ⟨outcome, by rw [hfound, Option.some_or]⟩

/-- Who joins a flight waits for it. -/
theorem Step.waiting_of_joined (hstep : Step outside shared
    (.looked caller table (.join flight)) after) :
    after.callers caller = .waiting table flight := by
  generalize hevent : CallEvent.looked caller table (.join flight) = event at hstep
  cases hstep with
  | look hcaller =>
      obtain ⟨rfl, rfl, hfound⟩ := CallEvent.looked.inj hevent
      rw [callers_put_self, ← hfound]
      rfl
  | _ => cases hevent

/-- Who joined a flight is still waiting, or the next that it did was to receive how the
flight ended. -/
theorem Run.joined {clock : Nat}
    (hrun : Run outside (start limits clock)
      (before ++ .looked caller table (.join flight) :: rest) shared) :
    (rest.find? (fun event => event.caller? = some caller) = none ∧
        shared.callers caller = .waiting table flight) ∨
      ∃ outcome builder place handle,
        rest.find? (fun event => event.caller? = some caller) =
          some (.received caller flight outcome) ∧
        .ended builder place flight handle outcome ∈
          before ++ .looked caller table (.join flight) :: rest := by
  obtain ⟨earlier, later, -, hstep, hrest⟩ := hrun.split
  rcases hrest.received_of_waiting hstep.waiting_of_joined with hwaits | ⟨outcome, hfound⟩
  · exact Or.inl hwaits
  · have hreceived : .received caller flight outcome ∈
        before ++ .looked caller table (.join flight) :: rest :=
      List.mem_append_right _ (List.mem_cons_of_mem _ (List.mem_of_find?_eq_some hfound))
    obtain ⟨builder, place, handle, hended⟩ := hrun.ended_of_received hreceived
    exact Or.inr ⟨outcome, builder, place, handle, hfound, hended⟩

/-- A step leaves the map and the access list as they are, unless it is a lookup, a
sweep, an invalidation or the end of a flight that has its mark. -/
theorem Step.keeps (hfollowed : Followed limits events shared)
    (hstep : Step outside shared event after) (hevent : event.rearranges flight = false)
    (hdetached : event.turns? = some flight → Detached events flight) :
    after.cache.slots = shared.cache.slots ∧ after.cache.order = shared.cache.order := by
  cases hstep with
  | look | sweep | invalidate => simp [CallEvent.rearranges] at hevent
  | finish hcaller hfinish =>
      rename_i caller table ended built outcome released cache
      obtain rfl : ended = flight := by simpa [CallEvent.rearranges] using hevent
      have hlost := hfollowed.isCurrent_of_detached hcaller (hdetached rfl)
      exact WriterCache.keeps_of_finish hlost hfinish
  | abandon hcaller =>
      rename_i caller table ended
      obtain rfl : ended = flight := by simpa [CallEvent.rearranges] using hevent
      have hlost := hfollowed.isCurrent_of_detached hcaller (hdetached rfl)
      simp [WriterCache.abandon, hlost]
  | beginClose hcaller hfree hbegin =>
      obtain ⟨handle, -, -, rfl⟩ := WriterCache.beginClose_some hbegin
      exact WriterCache.keeps_modifyHandle ..
  | skip hcaller hfree hbegin =>
      obtain ⟨rfl, -⟩ := WriterCache.beginClose_none hbegin
      exact ⟨rfl, rfl⟩
  | endClose | leave => exact WriterCache.keeps_modifyHandle ..
  | _ => exact ⟨rfl, rfl⟩

/-- What it means that a construction cut off by an invalidation disturbs nothing, in a
run with these events. -/
structure Undisturbed (outside : Outside ω) (first : SharedCache ω)
    (events : List (CallEvent ω)) (flight : Nat) (shared : SharedCache ω) : Prop where
  /-- The end of the construction, and all that follows from it, leaves the map with its
  marks and the access list alone. -/
  kept : ∀ before earlier event later, Along outside first events before earlier event later →
    event.rearranges flight = false →
      later.cache.slots = earlier.cache.slots ∧ later.cache.order = earlier.cache.order
  /-- However the construction ends, it is a failure, and no flight has an outcome by it. -/
  ended : ∀ before earlier caller table handle outcome later,
    Along outside first events before earlier (.ended caller table flight handle outcome) later →
      later.cache.flights = earlier.cache.flights ∧
        ∃ construction, .delivered caller table flight construction ∈ before ∧
          construction.Concludes table True handle outcome
  /-- Its outcome is that of no other flight. -/
  published : ∀ before earlier caller outcome later,
    Along outside first events before earlier (.published caller flight outcome) later →
      ∀ other, other ≠ flight → later.cache.outcome? other = earlier.cache.outcome? other
  /-- Its writer is at no time cached, and nobody gets it. -/
  unseen : ∀ id, Numbered events flight id →
    (∀ before earlier, before <+: events → Run outside first before earlier →
        id ∉ earlier.cache.contents.cached) ∧
      (∀ caller table, .looked caller table (.hit id) ∉ events) ∧
      (∀ caller other, .received caller other (.ok id) ∉ events) ∧
      ∀ caller, .answered caller (some (.ok id)) ∉ events
  /-- Its writer is closed once, by who built it. -/
  closed : ∀ caller table writer, .delivered caller table flight (.built writer) ∈ events →
    shared.callers caller = .idle → ∃ id, Numbered events flight id ∧ closings events id = 1
  /-- And it is never closed a second time. -/
  once : ∀ id, closings events id ≤ 1
  /-- Who joined the construction gets a failure. -/
  joined : ∀ before caller table rest,
    events = before ++ .looked caller table (.join flight) :: rest →
      (rest.find? (fun event => event.caller? = some caller) = none ∧
          shared.callers caller = .waiting table flight) ∨
        ∃ error, rest.find? (fun event => event.caller? = some caller) =
          some (.received caller flight (.error error))
  /-- Who joined another one gets what became of that. -/
  others : ∀ other before caller table rest,
    events = before ++ .looked caller table (.join other) :: rest →
      (rest.find? (fun event => event.caller? = some caller) = none ∧
          shared.callers caller = .waiting table other) ∨
        ∃ outcome builder place handle construction,
          rest.find? (fun event => event.caller? = some caller) =
              some (.received caller other outcome) ∧
            .ended builder place other handle outcome ∈ events ∧
            .delivered builder place other construction ∈ events ∧
            construction.Concludes place (Severed events other) handle outcome

/-- The writer of a severed flight has been closed when who built it is done. -/
theorem Run.closed_of_severed {clock : Nat} {writer : ω}
    (hrun : Run outside (start limits clock) events shared) (hsevered : Severed events flight)
    (hdelivered : .delivered caller table flight (.built writer) ∈ events)
    (hidle : shared.callers caller = .idle) :
    ∃ id, Numbered events flight id ∧ closings events id = 1 := by
  have haccounted := hrun.accounted
  have hbuilder {event : CallEvent ω} (hevent : event ∈ events)
      (hflight : event.flight? = some flight) : event.caller? = some caller :=
    haccounted.tracked.caller?_eq hevent hdelivered hflight rfl
  rcases haccounted.numbering.built flight ⟨caller, table, writer, hdelivered⟩ with
    ⟨other, place, held, hother⟩ | ⟨id, other, place, outcome, hended⟩
  · -- Who holds a construction has been handed it.
    have hduty : (shared.callers other).duty? = some (.conclude place flight (.built held)) := by
      rw [hother]
      rfl
    have hheld := mem_of_mem_history (haccounted.tracked.duties other _ hduty).2.delivered
    obtain rfl := Option.some.inj (hbuilder hheld rfl)
    simp [hidle] at hother
  · obtain rfl := Option.some.inj (hbuilder hended rfl)
    refine ⟨id, ⟨other, place, outcome, hended⟩, ?_⟩
    rcases hrun.parted hended hsevered with hclosed | hqueue
    · simp [haccounted.counted, hclosed]
    · simp [hidle, Activity.queue] at hqueue

/-- A construction that an invalidation cuts off disturbs nothing, whatever the callers
do and in whatever order. -/
theorem Run.undisturbed {clock : Nat} (hrun : Run outside (start limits clock) events shared)
    (hsevered : Severed events flight) :
    Undisturbed outside (start limits clock) events flight shared where
  kept := by
    rintro before earlier event later ⟨hcourse, hbefore, hstep⟩ hevent
    refine hstep.keeps hbefore.followed hevent fun hturns => ?_
    cases event with
    | ended caller table other handle outcome =>
        obtain rfl := Option.some.inj hturns
        exact hbefore.detached_of_severed hstep hcourse hsevered
    | looked => simp [CallEvent.rearranges] at hevent
    | _ => simp [CallEvent.turns?] at hturns
  ended := by
    rintro before earlier caller table handle outcome later ⟨hcourse, hbefore, hstep⟩
    have hdetached := hbefore.detached_of_severed hstep hcourse hsevered
    obtain ⟨construction, hdelivered, hconcludes⟩ := hbefore.followed.ended hstep
    rw [eq_true hdetached] at hconcludes
    exact ⟨hstep.flights_eq hbefore.followed.sound, construction, hdelivered, hconcludes⟩
  published := by
    rintro before earlier caller outcome later ⟨hcourse, hbefore, hstep⟩ other hother
    have hflights := hstep.flights_eq hbefore.followed.sound
    rw [WriterCache.outcome?, hflights, CallEvent.flights,
      Array.getElem?_setIfInBounds_ne hother.symm, WriterCache.outcome?]
  unseen := by
    intro id hnumbered
    refine ⟨fun before earlier => hrun.not_cached_of_severed hsevered hnumbered, ?_, ?_, ?_⟩
    · intro caller table hlooked
      obtain ⟨before, earlier, later, hcourse, hbefore, hstep⟩ := hrun.along hlooked
      exact hrun.not_cached_of_severed hsevered hnumbered
        ((List.prefix_append _ _).trans hcourse) hbefore
        (hstep.looks hbefore.followed.sound).mem_cached
    · intro caller other hreceived
      obtain ⟨builder, place, handle, hended⟩ := hrun.ended_of_received hreceived
      exact hrun.not_ended_of_severed hsevered hnumbered hended
    · intro caller hanswered
      obtain ⟨builder, place, other, handle, hended⟩ := hrun.ended_of_answered hanswered
      exact hrun.not_ended_of_severed hsevered hnumbered hended
  closed := fun _ _ _ => hrun.closed_of_severed hsevered
  once := hrun.releasedOnce.once
  joined := by
    rintro before caller table rest rfl
    refine hrun.joined.imp_right ?_
    rintro ⟨outcome, builder, place, handle, hfound, hended⟩
    obtain ⟨error, rfl⟩ := hrun.ended_of_severed hsevered hended
    exact ⟨error, hfound⟩
  others := by
    rintro other before caller table rest rfl
    refine hrun.joined.imp_right ?_
    rintro ⟨outcome, builder, place, handle, hfound, hended⟩
    obtain ⟨construction, hdelivered, hconcludes⟩ := hrun.concludes hended
    exact ⟨outcome, builder, place, handle, construction, hfound, hended, hdelivered, hconcludes⟩

/-- A lookup of a table without a mark begins a flight. -/
theorem Step.look_unmarked (hcaller : shared.callers caller = .idle)
    (hmark : shared.cache.slots[table]? = none) :
    Step outside shared (.looked caller table (.build shared.cache.flights.size none))
      (shared.put caller (.releasing [] (.build table shared.cache.flights.size))
        (shared.cache.beginFlight table).2) := by
  have hlookup : shared.cache.lookup table shared.clock =
      (.build shared.cache.flights.size none, (shared.cache.beginFlight table).2) := by
    rw [WriterCache.lookup, hmark]
    rfl
  have hlook := @Step.look _ outside shared caller table hcaller
  rwa [hlookup] at hlook

/-- A lookup of a table that is being built joins its flight. -/
theorem Step.look_loading (hcaller : shared.callers caller = .idle)
    (hmark : shared.cache.slots[table]? = some (.loading flight)) :
    Step outside shared (.looked caller table (.join flight))
      (shared.put caller (.waiting table flight)
        (shared.cache.count fun s => { s with hits := s.hits + 1 })) := by
  have hlookup : shared.cache.lookup table shared.clock =
      (.join flight, shared.cache.count fun s => { s with hits := s.hits + 1 }) := by
    rw [WriterCache.lookup, hmark]
  have hlook := @Step.look _ outside shared caller table hcaller
  rwa [hlookup] at hlook

/-- A construction is cut off and joined, and another one of its table has begun and has
been joined when it ends. -/
theorem Run.undisturbed_overlapping :
    ∃ (events : List (CallEvent Unit)) (shared : SharedCache Unit),
      Run ⟨fun _ _ => True, fun _ _ => True, fun _ _ => True⟩ (start { capacity := 1 } 0)
          events shared ∧
        Severed events 0 ∧
        .looked 3 "orders" (.join 1) ∈ events ∧
        .received 2 0 (.error (WriterCache.detachedError "orders")) ∈ events ∧
        .closed 0 1 (.ok ()) ∈ events ∧
        Undisturbed ⟨fun _ _ => True, fun _ _ => True, fun _ _ => True⟩
          (start { capacity := 1 } 0) events 0 shared := by
  let outside : Outside Unit := ⟨fun _ _ => True, fun _ _ => True, fun _ _ => True⟩
  let empty : SharedCache Unit := start { capacity := 1 } 0
  -- Caller 0 builds, caller 2 joins it, and caller 4 invalidates the cache.
  have hbegun := Run.nil.step (@Step.look_unmarked _ outside empty 0 "orders" rfl (by
    simp [empty, start]))
  have hjoined := hbegun.step (@Step.look_loading _ _ _ 2 0 "orders" rfl (by
    simp [empty, start, WriterCache.beginFlight, WriterCache.count]))
  have hcalled := hjoined.step (@Step.call _ _ _ 0 "orders" 0 rfl)
  have hinvalidated := hcalled.step (@Step.invalidate _ _ _ 4 rfl)
  -- Caller 1 builds anew, and caller 3 joins it.
  have hagain := hinvalidated.step (@Step.look_unmarked _ _ _ 1 "orders" rfl (by
    simp [WriterCache.invalidate, WriterCache.count]))
  have hfollowing := hagain.step (@Step.look_loading _ _ _ 3 1 "orders" rfl (by
    simp [empty, start, WriterCache.beginFlight, WriterCache.invalidate, WriterCache.count]))
  -- The writer of caller 0 comes late.
  have hdelivered := hfollowing.step (@Step.deliver _ _ _ 0 "orders" 0 (.built ()) rfl trivial)
  have hended := hdelivered.step (@Step.finish _ _ _ 0 "orders" 0 (.ok ()) _ _ _ rfl
    (WriterCache.finish_detached (by simp [WriterCache.isCurrent, WriterCache.beginFlight,
      WriterCache.invalidate, WriterCache.count]) () _))
  have hpublished := hended.step (@Step.publish _ _ _ 0 0 _ _ _ rfl)
  have hreceived := hpublished.step (@Step.receive _ _ _ 2 "orders" 0
    (.error (WriterCache.detachedError "orders")) rfl rfl)
  have hclosing := hreceived.step (@Step.beginClose _ _ _ 0 1 _ _ () _ rfl rfl rfl)
  have hclosed := hclosing.step (@Step.endClose _ _ _ 0 1 _ _ _ () (.ok ()) rfl rfl trivial)
  refine ⟨_, _, hclosed, ?hsevered, by simp [empty, start], by simp, by simp,
    hclosed.undisturbed ?hsevered⟩
  simp only [severed_concat]
  simp [CallEvent.invalidates, Begun, empty, start]

end SharedCache

end TableRouting
