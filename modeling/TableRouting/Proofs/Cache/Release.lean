import TableRouting.Proofs.Cache.Custody
import TableRouting.Proofs.Cache.Flights

/-!
# The release of writers

Every writer that was built is in one place: the construction that is still to end
has it, it is cached, one caller is to close it, or it is closed.  No writer is
closed twice, and none is forgotten: when all callers are idle, what is not cached
was closed.
-/

namespace TableRouting

variable {ω : Type}

/-- The writer of a flight was built. -/
def Built (events : List (CallEvent ω)) (flight : Nat) : Prop :=
  ∃ caller table writer, .delivered caller table flight (.built writer) ∈ events

def Numbered (events : List (CallEvent ω)) (flight id : Nat) : Prop :=
  ∃ caller table outcome, .ended caller table flight (some id) outcome ∈ events

/-- Where a writer may be. -/
inductive Place where
  /-- Its construction has still to end. -/
  | held
  | cached (id : Nat)
  /-- A caller is to close it. -/
  | queued (caller id : Nat)
  | closed (id : Nat)

/-- The end of a flight that was detached. -/
theorem WriterCache.finish_detached {cache : WriterCache ω} {table : String} {flight : Nat}
    (hdetached : cache.isCurrent table flight = false) (writer : ω) (now : Nat) :
    cache.finish table flight (.ok writer) now =
      (.error (detachedError table), [(cache.addHandle table writer).1],
        (cache.addHandle table writer).2) := by
  rw [finish, hdetached]
  rfl

/-- A flight that has begun is the current one of its table. -/
theorem WriterCache.isCurrent_beginFlight (cache : WriterCache ω) (table : String) :
    (cache.beginFlight table).2.isCurrent table cache.flights.size = true := by
  simp [isCurrent, beginFlight, count]

/-- The first writer enters a cache in which there is none. -/
theorem WriterCache.finish_first {cache : WriterCache ω} {table : String} {flight : Nat}
    (hcurrent : cache.isCurrent table flight = true) (horder : cache.order = {}) (writer : ω)
    (now : Nat) :
    cache.finish table flight (.ok writer) now =
      (.ok (cache.addHandle table writer).1, [],
        { (cache.addHandle table writer).2 with
          order := (AccessList.push {} ⟨table, (cache.addHandle table writer).1, now⟩).2
          slots := cache.slots.insert table (.ready 0) }) := by
  obtain ⟨limits, slots, order, handles, flights, statistics⟩ := cache
  obtain rfl := horder
  rw [finish, hcurrent]
  rfl

/-- A flight that is still to end has given no number. -/
theorem Duty.Traced.not_ended {caller : Nat} {table : String} {flight : Nat}
    {construction : Construction ω} {events : List (CallEvent ω)}
    (htraced : (Duty.conclude table flight construction).Traced caller events)
    {other : Nat} {place : String} {ended : Nat} {handle : Option Nat} {outcome : FlightOutcome} :
    .ended other place ended handle outcome ∉ events := by
  cases htraced with
  | conclude hbuild _ =>
      cases hbuild with
      | build hprepare =>
          obtain ⟨expired, rfl⟩ := hprepare.looked
          simp

namespace SharedCache

variable {outside : Outside ω} {limits : CacheLimits} {shared after : SharedCache ω}
  {events : List (CallEvent ω)} {event : CallEvent ω} {flight other id : Nat}

/-- A construction that is still to end has the writer of a flight. -/
def Held (shared : SharedCache ω) (flight : Nat) : Prop :=
  ∃ caller table writer, shared.callers caller = .ending table flight (.built writer)

/-- The writer of a flight is at a place. -/
def At (events : List (CallEvent ω)) (shared : SharedCache ω) (flight : Nat) : Place → Prop
  | .held => Held shared flight
  | .cached id =>
      Numbered events flight id ∧ id ∈ shared.cache.contents.cached ∧
        shared.closed? id = some false
  | .queued caller id =>
      Numbered events flight id ∧ id ∈ (shared.callers caller).queue ∧
        shared.closed? id = some false
  | .closed id => Numbered events flight id ∧ shared.closed? id = some true

/-- A writer that was built is held by its construction until it gets a number, and
a number is given once. -/
structure Numbering (events : List (CallEvent ω)) (shared : SharedCache ω) : Prop where
  handle : ∀ flight id, Numbered events flight id → shared.closed? id ≠ none
  flight_unique : ∀ flight other id, Numbered events flight id → Numbered events other id →
    flight = other
  id_unique : ∀ flight id other, Numbered events flight id → Numbered events flight other →
    id = other
  built : ∀ flight, Built events flight → Held shared flight ∨ ∃ id, Numbered events flight id

theorem Numbering.start (limits : CacheLimits) (clock : Nat) :
    Numbering [] (start (ω := ω) limits clock) where
  handle := by simp [Numbered]
  flight_unique := by simp [Numbered]
  id_unique := by simp [Numbered]
  built := by simp [Built]

theorem numbered_concat :
    Numbered (events ++ [event]) flight id ↔ Numbered events flight id ∨
      ∃ caller table outcome, event = .ended caller table flight (some id) outcome := by
  simp only [Numbered, List.mem_append, List.mem_singleton, exists_or]
  refine or_congr Iff.rfl ?_
  simp only [eq_comm]

/-- A construction that is still to end has given its writer no number. -/
theorem Tracked.not_numbered (htracked : Tracked events shared) {caller : Nat} {table : String}
    {construction : Construction ω}
    (hcaller : shared.callers caller = .ending table flight construction) :
    ¬ Numbered events flight id := by
  have hduty : (shared.callers caller).duty? = some (.conclude table flight construction) := by
    rw [hcaller]
    rfl
  have htraced := (htracked.duties caller _ hduty).2
  rw [Duty.flight] at htraced
  rintro ⟨who, place, outcome, hended⟩
  exact htraced.not_ended (mem_history rfl hended)

/-- A construction gives up its writer only when the flight ends. -/
theorem Step.held (hstep : Step outside shared event after) (hheld : Held shared flight) :
    Held after flight ∨
      ∃ caller table id outcome, event = .ended caller table flight (some id) outcome := by
  obtain ⟨caller, table, writer, hending⟩ := hheld
  by_cases hcaller : event.caller? = some caller
  · right
    cases hstep with
    | tick hnow => simp [CallEvent.caller?] at hcaller
    | finish hbefore hfinish =>
        obtain rfl := Option.some.inj hcaller
        rename_i built outcome released cache
        obtain ⟨rfl, rfl, hbuilt⟩ := Activity.ending.inj (hending.symm.trans hbefore)
        obtain rfl : .ok writer = built := Construction.ofResult_injective hbuilt
        exact ⟨_, _, _, _, rfl⟩
    | look hbefore | receive hbefore | beginClose hbefore | endClose hbefore | skip hbefore
    | call hbefore | deliver hbefore | abandon hbefore | publish hbefore | answer hbefore
    | sweep hbefore | invalidate hbefore | enter hbefore | refuse hbefore | leave hbefore
    | peek hbefore =>
        obtain rfl := Option.some.inj hcaller
        simp [hending] at hbefore
  · left
    refine ⟨caller, table, writer, ?_⟩
    rw [hstep.callers_eq hcaller, hending]

theorem Step.held_of_delivered {caller : Nat} {table : String} {writer : ω}
    (hstep : Step outside shared (.delivered caller table flight (.built writer)) after) :
    Held after flight := by
  cases hstep with
  | deliver hcaller hbuilds => exact ⟨caller, table, writer, callers_put_self ..⟩

/-- Who ends a flight has its construction. -/
theorem Step.ending_of_ended {caller : Nat} {table : String} {handle : Option Nat}
    {outcome : FlightOutcome}
    (hstep : Step outside shared (.ended caller table flight handle outcome) after) :
    ∃ construction, shared.callers caller = .ending table flight construction := by
  cases hstep with
  | finish hcaller hfinish => exact ⟨_, hcaller⟩
  | abandon hcaller => exact ⟨_, hcaller⟩

theorem Numbering.step (hnumbering : Numbering events shared) (htracked : Tracked events shared)
    (hsound : Sound limits shared) (hstep : Step outside shared event after) :
    Numbering (events ++ [event]) after := by
  -- The flight whose end gives a number had none, and nobody had the number.
  have hfresh {caller : Nat} {table : String} {ended id : Nat} {outcome : FlightOutcome}
      (hevent : event = .ended caller table ended (some id) outcome) :
      (∀ other, ¬ Numbered events other id) ∧ ∀ other, ¬ Numbered events ended other := by
    subst hevent
    constructor
    · intro other hnumbered
      exact hnumbering.handle other id hnumbered
        (hstep.closed?_of_numbered (List.mem_singleton.mpr rfl))
    · intro other
      obtain ⟨construction, hcaller⟩ := hstep.ending_of_ended
      exact htracked.not_numbered hcaller
  constructor
  · intro flight id hnumbered
    rw [hstep.closed?_eq hsound, CallEvent.closed?]
    rcases numbered_concat.mp hnumbered with hold | ⟨caller, table, outcome, rfl⟩
    · split
      · simp
      · split
        · simp
        · exact hnumbering.handle flight id hold
    · simp [CallEvent.retired, CallEvent.numbered]
  · intro flight other id hnumbered hother
    rcases numbered_concat.mp hnumbered with hold | ⟨caller, table, outcome, hevent⟩
    · rcases numbered_concat.mp hother with hotherOld | ⟨caller, table, outcome, hevent⟩
      · exact hnumbering.flight_unique flight other id hold hotherOld
      · exact absurd hold ((hfresh hevent).1 flight)
    · rcases numbered_concat.mp hother with hotherOld | ⟨_, _, _, hsame⟩
      · exact absurd hotherOld ((hfresh hevent).1 other)
      · exact (CallEvent.ended.inj (hevent.symm.trans hsame)).2.2.1
  · intro flight id other hnumbered hother
    rcases numbered_concat.mp hnumbered with hold | ⟨caller, table, outcome, hevent⟩
    · rcases numbered_concat.mp hother with hotherOld | ⟨caller, table, outcome, hevent⟩
      · exact hnumbering.id_unique flight id other hold hotherOld
      · exact absurd hold ((hfresh hevent).2 id)
    · rcases numbered_concat.mp hother with hotherOld | ⟨_, _, _, hsame⟩
      · exact absurd hotherOld ((hfresh hevent).2 other)
      · exact Option.some.inj (CallEvent.ended.inj (hevent.symm.trans hsame)).2.2.2.1
  · rintro flight ⟨caller, table, writer, hdelivered⟩
    rcases List.mem_append.mp hdelivered with hold | hnew
    · rcases hnumbering.built flight ⟨caller, table, writer, hold⟩ with hheld | ⟨id, hnumbered⟩
      · rcases hstep.held hheld with hafter | ⟨who, place, id, outcome, hevent⟩
        · exact Or.inl hafter
        · exact Or.inr ⟨id, numbered_concat.mpr (Or.inr ⟨who, place, outcome, hevent⟩)⟩
      · exact Or.inr ⟨id, numbered_concat.mpr (Or.inl hnumbered)⟩
    · obtain rfl := List.mem_singleton.mp hnew
      exact Or.inl hstep.held_of_delivered

/-- What is known of the writers of a cache from what has happened. -/
structure Accounted (limits : CacheLimits) (events : List (CallEvent ω))
    (shared : SharedCache ω) : Prop where
  sound : Sound limits shared
  tracked : Tracked events shared
  custody : Custody shared
  guarded : Guarded shared
  numbering : Numbering events shared
  counted : ∀ id, closings events id = if shared.closed? id = some true then 1 else 0

theorem Run.accounted {clock : Nat} (hrun : Run outside (start limits clock) events shared) :
    Accounted limits events shared := by
  induction hrun with
  | nil =>
      exact ⟨.start limits clock, .start limits clock, .start limits clock, .start limits clock,
        .start limits clock, fun id => by simp [closings, closed?, SharedCache.start,
          WriterCache.contents_empty, CacheContents.handle?]⟩
  | step hrun hstep ih =>
      obtain ⟨hsound, htracked, hcustody, hguarded, hnumbering, hclosings⟩ := ih
      exact ⟨hsound.step hstep, htracked.step hsound hstep, hcustody.step hsound hstep,
        hguarded.step hsound hstep, hnumbering.step htracked hsound hstep,
        closings_step hsound hclosings hstep⟩

/-- What it means that writers are released once, in a cache that came about by these
events. -/
structure ReleasedOnce (outside : Outside ω) (events : List (CallEvent ω))
    (shared : SharedCache ω) : Prop where
  /-- A writer that was built is in one place. -/
  place : ∀ flight, Built events flight → ∃! place, At events shared flight place
  once : ∀ id, closings events id ≤ 1
  /-- A writer that is told to close is neither cached nor used, and was not closed. -/
  closing : ∀ caller id after, Step outside shared (.closing caller id) after →
    closings events id = 0 ∧ id ∉ shared.cache.contents.cached ∧
      ∀ other, shared.callers other ≠ .writing id
  /-- Nor is it while it closes. -/
  closes : ∀ caller id rest errand, shared.callers caller = .closing id rest errand →
    id ∉ shared.cache.contents.cached ∧ ∀ other, shared.callers other ≠ .writing id
  /-- A writer that is used was not closed. -/
  writing : ∀ caller id, shared.callers caller = .writing id → closings events id = 0
  /-- When all calls have returned, what is not cached was closed. -/
  settled : (∀ caller, shared.callers caller = .idle) → ∀ flight, Built events flight →
    ∃ id, Numbered events flight id ∧
      ((id ∈ shared.cache.contents.cached ∧ closings events id = 0) ∨
        (id ∉ shared.cache.contents.cached ∧ closings events id = 1))

namespace Accounted

theorem open_of_cached (haccounted : Accounted limits events shared)
    (hid : id ∈ shared.cache.contents.cached) : shared.closed? id = some false :=
  (haccounted.custody.kept id).mpr (Or.inl hid)

theorem not_cached_of_closed (haccounted : Accounted limits events shared)
    (hclosed : shared.closed? id = some true) : id ∉ shared.cache.contents.cached := by
  intro hid
  simp [haccounted.open_of_cached hid] at hclosed

theorem exists_place (haccounted : Accounted limits events shared) (hbuilt : Built events flight) :
    ∃ place, At events shared flight place := by
  rcases haccounted.numbering.built flight hbuilt with hheld | ⟨id, hnumbered⟩
  · exact ⟨.held, hheld⟩
  · obtain ⟨closed, hclosed⟩ :=
      Option.ne_none_iff_exists'.mp (haccounted.numbering.handle flight id hnumbered)
    cases closed with
    | true => exact ⟨.closed id, hnumbered, hclosed⟩
    | false =>
        rcases (haccounted.custody.kept id).mp hclosed with hcached | ⟨caller, hqueue⟩
        · exact ⟨.cached id, hnumbered, hcached, hclosed⟩
        · exact ⟨.queued caller id, hnumbered, hqueue, hclosed⟩

/-- A writer is in no two places. -/
theorem place_unique (haccounted : Accounted limits events shared) {first second : Place}
    (hfirst : At events shared flight first) (hsecond : At events shared flight second) :
    first = second := by
  have hheld {id : Nat} (hheld : Held shared flight) : ¬ Numbered events flight id := by
    obtain ⟨caller, table, writer, hcaller⟩ := hheld
    exact haccounted.tracked.not_numbered hcaller
  have hsame {id other : Nat} (hid : Numbered events flight id)
      (hother : Numbered events flight other) : id = other :=
    haccounted.numbering.id_unique flight id other hid hother
  have hclosed {id : Nat} (hopen : shared.closed? id = some false) :
      shared.closed? id ≠ some true := by
    simp [hopen]
  cases first with
  | held =>
      cases second with
      | held => rfl
      | cached id | queued caller id | closed id => exact absurd hsecond.1 (hheld hfirst)
  | cached id =>
      cases second with
      | held => exact absurd hfirst.1 (hheld hsecond)
      | cached other => rw [hsame hfirst.1 hsecond.1]
      | queued caller other =>
          obtain rfl := hsame hfirst.1 hsecond.1
          exact absurd hfirst.2.1 (haccounted.sound.not_cached hsecond.2.1)
      | closed other =>
          obtain rfl := hsame hfirst.1 hsecond.1
          exact absurd hsecond.2 (hclosed hfirst.2.2)
  | queued caller id =>
      cases second with
      | held => exact absurd hfirst.1 (hheld hsecond)
      | cached other =>
          obtain rfl := hsame hfirst.1 hsecond.1
          exact absurd hsecond.2.1 (haccounted.sound.not_cached hfirst.2.1)
      | queued owner other =>
          obtain rfl := hsame hfirst.1 hsecond.1
          rw [haccounted.custody.apart caller owner id hfirst.2.1 hsecond.2.1]
      | closed other =>
          obtain rfl := hsame hfirst.1 hsecond.1
          exact absurd hsecond.2 (hclosed hfirst.2.2)
  | closed id =>
      cases second with
      | held => exact absurd hfirst.1 (hheld hsecond)
      | cached other | queued caller other =>
          obtain rfl := hsame hfirst.1 hsecond.1
          exact absurd hfirst.2 (hclosed hsecond.2.2)
      | closed other => rw [hsame hfirst.1 hsecond.1]

theorem settled (haccounted : Accounted limits events shared)
    (hidle : ∀ caller, shared.callers caller = .idle) (hbuilt : Built events flight) :
    ∃ id, Numbered events flight id ∧
      ((id ∈ shared.cache.contents.cached ∧ closings events id = 0) ∨
        (id ∉ shared.cache.contents.cached ∧ closings events id = 1)) := by
  obtain ⟨place, hplace⟩ := haccounted.exists_place hbuilt
  cases place with
  | held =>
      obtain ⟨caller, table, writer, hcaller⟩ := hplace
      simp [hidle caller] at hcaller
  | cached id =>
      obtain ⟨hnumbered, hcached, hopen⟩ := hplace
      exact ⟨id, hnumbered, Or.inl ⟨hcached, by simp [haccounted.counted, hopen]⟩⟩
  | queued caller id =>
      obtain ⟨-, hqueue, -⟩ := hplace
      rw [hidle caller] at hqueue
      exact absurd hqueue List.not_mem_nil
  | closed id =>
      obtain ⟨hnumbered, hclosed⟩ := hplace
      exact ⟨id, hnumbered, Or.inr ⟨haccounted.not_cached_of_closed hclosed,
        by simp [haccounted.counted, hclosed]⟩⟩

end Accounted

/-- Writers are released once, whatever the callers do and in whatever order. -/
theorem Run.releasedOnce {clock : Nat} (hrun : Run outside (start limits clock) events shared) :
    ReleasedOnce outside events shared where
  place := by
    intro flight hbuilt
    obtain ⟨place, hplace⟩ := hrun.accounted.exists_place hbuilt
    exact ⟨place, hplace, fun other hother => hrun.accounted.place_unique hother hplace⟩
  once := by
    intro id
    rw [hrun.accounted.counted]
    split <;> simp
  closing := by
    intro caller id after hstep
    obtain ⟨hopen, hfree, owner, hqueue⟩ := hstep.of_retired (List.mem_singleton.mpr rfl)
    refine ⟨by simp [hrun.accounted.counted, hopen], hrun.accounted.sound.not_cached hqueue, ?_⟩
    intro other hwriting
    simp [hrun.accounted.guarded.lock_eq hwriting] at hfree
  closes := by
    intro caller id rest errand hcaller
    have hclosed := hrun.accounted.guarded.closing caller id rest errand hcaller
    refine ⟨hrun.accounted.not_cached_of_closed hclosed, fun other hwriting => ?_⟩
    simp [hrun.accounted.guarded.writing other id hwriting] at hclosed
  writing := by
    intro caller id hwriting
    simp [hrun.accounted.counted, hrun.accounted.guarded.writing caller id hwriting]
  settled := fun hidle _ => hrun.accounted.settled hidle

/-- A writer is built while the cache is invalidated, and fails to close. -/
theorem Run.releasedOnce_detached :
    ∃ (events : List (CallEvent Unit)) (shared : SharedCache Unit),
      Run ⟨fun _ _ => True, fun _ _ => True, fun _ _ => True⟩ (start { capacity := 1 } 0)
          events shared ∧
        .closed 0 1 (.error (.writerClosed "orders")) ∈ events ∧
        (∀ caller, shared.callers caller = .idle) ∧ Built events 0 ∧
        ReleasedOnce ⟨fun _ _ => True, fun _ _ => True, fun _ _ => True⟩ events shared := by
  let outside : Outside Unit := ⟨fun _ _ => True, fun _ _ => True, fun _ _ => True⟩
  let empty : SharedCache Unit := start { capacity := 1 } 0
  have hlookup : empty.cache.lookup "orders" 0 =
      (.build 0 none, (empty.cache.beginFlight "orders").2) := by
    simp [empty, start, WriterCache.lookup, WriterCache.beginFlight]
  have hlooked : Run outside empty [.looked 0 "orders" (.build 0 none)]
      (empty.put 0 (.releasing [] (.build "orders" 0)) (empty.cache.beginFlight "orders").2) := by
    have hlook := Run.nil.step (@Step.look _ outside empty 0 "orders" rfl)
    rwa [show empty.clock = 0 from rfl, hlookup] at hlook
  have hcalled := hlooked.step (@Step.call _ _ _ 0 "orders" 0 rfl)
  have hdelivered := hcalled.step (@Step.deliver _ _ _ 0 "orders" 0 (.built ()) rfl trivial)
  have hinvalidated := hdelivered.step (@Step.invalidate _ _ _ 1 rfl)
  have hended := hinvalidated.step (@Step.finish _ _ _ 0 "orders" 0 (.ok ()) _ _ _ rfl
    (WriterCache.finish_detached (by simp [WriterCache.isCurrent, WriterCache.invalidate,
      WriterCache.count]) () _))
  have hpublished := hended.step (@Step.publish _ _ _ 0 0 _ _ _ rfl)
  have hclosing := hpublished.step (@Step.beginClose _ _ _ 0 1 _ _ () _ rfl rfl rfl)
  have hclosed := hclosing.step (@Step.endClose _ _ _ 0 1 _ _ _ ()
    (.error (.writerClosed "orders")) rfl rfl trivial)
  have hanswered := hclosed.step (@Step.answer _ _ _ 0 _ rfl)
  have hdone := hanswered.step (@Step.answer _ _ _ 1 _ rfl)
  refine ⟨_, _, hdone, by simp, ?_, ⟨0, "orders", (), by simp⟩, hdone.releasedOnce⟩
  intro caller
  by_cases hfirst : caller = 0 <;> by_cases hsecond : caller = 1 <;>
    simp [put, lock, empty, start, hfirst, hsecond]

end SharedCache

end TableRouting
