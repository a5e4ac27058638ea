import TableRouting.Proofs.Cache.Bindings
import TableRouting.Proofs.Cache.Detachment

/-!
# What a lookup gives

A caller that asks for the writer of a table is given a writer that was cached for the
table at a moment since then, or a failure of a flight that has ended since then.  Between
that moment and the use of the writer others may have taken it out of the cache and closed
it; the caller itself has not.
-/

namespace TableRouting

variable {ω : Type}

namespace CallEvent

/-- What a step gives to a caller that asked for a writer. -/
def gives? : CallEvent ω → Option (Except Unavailable Nat)
  | looked _ _ (.hit handle) => some (.ok handle)
  | received _ _ outcome => some (outcome.mapError .construction)
  | answered _ answer => answer
  | _ => none

/-- A step may change which writers are cached. -/
def restocks : CallEvent ω → Bool
  | looked _ _ _ => true
  | ended _ _ _ _ _ => true
  | swept _ _ => true
  | invalidated _ _ => true
  | _ => false

end CallEvent

/-- What a caller that is done with its flight will answer. -/
def Activity.prospect? : Activity ω → Option (Except Unavailable Nat)
  | publishing _ _ _ answer => some answer
  | releasing _ errand => errand.answer?
  | closing _ _ errand => errand.answer?
  | _ => none

/-- A flight that is still to end has not ended before. -/
theorem Duty.Traced.open {caller : Nat} {duty : Duty ω} {events : List (CallEvent ω)}
    (htraced : duty.Traced caller events)
    (hduty : ∀ flight outcome, duty ≠ .publish flight outcome) {other : Nat} {place : String}
    {ended : Nat} {handle : Option Nat} {outcome : FlightOutcome} :
    .ended other place ended handle outcome ∉ events := by
  induction htraced with
  | prepare table flight expired => simp
  | build hbefore ih | conclude hbefore construction ih => simpa using ih (by simp)
  | publish hbefore handle outcome ih => exact absurd rfl (hduty _ _)

/-- A caller that is to end a flight has nothing to hand out yet. -/
theorem Activity.duty?_ne_publish {activity : Activity ω} {table : String} {flight : Nat}
    (hconstruction : activity.construction? = some (table, flight)) {duty : Duty ω}
    (hduty : activity.duty? = some duty) (other : Nat) (outcome : FlightOutcome) :
    duty ≠ .publish other outcome := by
  rintro rfl
  cases activity with
  | releasing released errand | closing handle rest errand =>
      cases errand <;> simp [duty?, Errand.duty?] at hduty
  | publishing flight outcome released answer => simp [construction?] at hconstruction
  | _ => simp [duty?] at hduty

namespace SharedCache

variable {outside : Outside ω} {limits : CacheLimits} {first shared after : SharedCache ω}
  {events before rest : List (CallEvent ω)} {event : CallEvent ω}
  {caller flight id : Nat} {table : String} {answer : Except Unavailable Nat}

theorem Run.append {between : SharedCache ω} (hbefore : Run outside first before between)
    (hrest : Run outside between rest shared) : Run outside first (before ++ rest) shared := by
  induction hrest with
  | nil => rwa [List.append_nil]
  | step hrun hstep ih =>
      rw [← List.append_assoc]
      exact ih.step hstep

/-- A caller comes to answer what it is to answer, and changes nothing in the cache until
then. -/
theorem Step.prospect (hstep : Step outside shared event after)
    (hprospect : (shared.callers caller).prospect? = some answer) :
    ((after.callers caller).prospect? = some answer ∧
        (event.caller? = some caller → event.restocks = false)) ∨
      event = .answered caller (some answer) := by
  by_cases hcaller : event.caller? = some caller
  · cases hstep with
    | tick hnow => simp [CallEvent.caller?] at hcaller
    | beginClose hbusy | endClose hbusy | skip hbusy | publish hbusy =>
        obtain rfl := Option.some.inj hcaller
        rw [hbusy] at hprospect
        left
        simp only [callers_lock, callers_put_self]
        exact ⟨hprospect, fun _ => rfl⟩
    | answer hbusy =>
        obtain rfl := Option.some.inj hcaller
        rw [hbusy] at hprospect
        obtain rfl : _ = some answer := hprospect
        exact Or.inr rfl
    | call hbusy =>
        obtain rfl := Option.some.inj hcaller
        rw [hbusy] at hprospect
        exact absurd hprospect.symm (Option.some_ne_none answer)
    | look hother | receive hother | deliver hother | finish hother | abandon hother
    | sweep hother | invalidate hother | enter hother | refuse hother | leave hother
    | peek hother =>
        obtain rfl := Option.some.inj hcaller
        simp [hother, Activity.prospect?] at hprospect
  · left
    rw [hstep.callers_eq hcaller]
    exact ⟨hprospect, fun hmine => absurd hmine hcaller⟩

/-- Who has not yet been given anything is still to answer what it was to answer. -/
theorem Run.prospect (hrun : Run outside first events shared)
    (hprospect : (first.callers caller).prospect? = some answer)
    (hquiet : ∀ event ∈ events, event.caller? = some caller → event.gives? = none) :
    (shared.callers caller).prospect? = some answer ∧
      ∀ event ∈ events, event.caller? = some caller → event.restocks = false := by
  induction hrun with
  | nil => exact ⟨hprospect, by simp⟩
  | @step events event shared after hrun hstep ih =>
      obtain ⟨hbefore, hkept⟩ := ih fun event hevent => hquiet event (List.mem_append_left _ hevent)
      rcases hstep.prospect hbefore with ⟨hafter, hkeeps⟩ | rfl
      · refine ⟨hafter, fun other hother => ?_⟩
        rcases List.mem_append.mp hother with hold | hnew
        · exact hkept other hold
        · rwa [List.mem_singleton.mp hnew]
      · exact absurd (hquiet _ (List.mem_append_right _ (List.mem_singleton_self _)) rfl)
          (Option.some_ne_none answer)

/-- A construction goes on until its builder ends it. -/
theorem Step.constructs_or_ended (hstep : Step outside shared event after)
    (hconstructs : shared.Constructs caller table flight) :
    after.Constructs caller table flight ∨
      ∃ handle outcome, event = .ended caller table flight handle outcome := by
  rw [Constructs] at hconstructs
  by_cases hcaller : event.caller? = some caller
  · cases hstep with
    | tick hnow => simp [CallEvent.caller?] at hcaller
    | beginClose hbusy | endClose hbusy | skip hbusy | call hbusy | deliver hbusy =>
        obtain rfl := Option.some.inj hcaller
        rw [hbusy] at hconstructs
        left
        simp only [Constructs, callers_lock, callers_put_self]
        exact hconstructs
    | finish hbusy | abandon hbusy =>
        obtain rfl := Option.some.inj hcaller
        rw [hbusy] at hconstructs
        obtain ⟨rfl, rfl⟩ := Prod.mk.inj (Option.some.inj hconstructs)
        exact Or.inr ⟨_, _, rfl⟩
    | look hother | receive hother | publish hother | answer hother | sweep hother
    | invalidate hother | enter hother | refuse hother | leave hother | peek hother =>
        obtain rfl := Option.some.inj hcaller
        simp [hother, Activity.construction?, Errand.construction?] at hconstructs
  · left
    rwa [Constructs, hstep.callers_eq hcaller]

theorem Run.constructs_or_ended (hrun : Run outside first events shared)
    (hconstructs : first.Constructs caller table flight) :
    shared.Constructs caller table flight ∨
      ∃ handle outcome, .ended caller table flight handle outcome ∈ events := by
  induction hrun with
  | nil => exact Or.inl hconstructs
  | step hrun hstep ih =>
      rcases ih with hbefore | ⟨handle, outcome, hended⟩
      · refine (hstep.constructs_or_ended hbefore).imp_right ?_
        rintro ⟨handle, outcome, rfl⟩
        exact ⟨handle, outcome, by simp⟩
      · exact Or.inr ⟨handle, outcome, List.mem_append_left _ hended⟩

/-- A flight that is being built has not ended. -/
theorem Followed.not_ended (hfollowed : Followed limits events shared)
    (hconstructs : shared.Constructs caller table flight) (other : Nat) (place : String)
    (handle : Option Nat) (outcome : FlightOutcome) :
    .ended other place flight handle outcome ∉ events := by
  obtain ⟨duty, hduty, rfl⟩ := Activity.duty?_of_construction? hconstructs
  intro hended
  exact (hfollowed.tracked.duties caller duty hduty).2.open
    (Activity.duty?_ne_publish hconstructs hduty) (mem_history rfl hended)

/-- Who ends a flight is to answer what has become of it. -/
theorem Step.prospect_of_ended {handle : Option Nat} {outcome : FlightOutcome}
    (hstep : Step outside shared (.ended caller table flight handle outcome) after) :
    shared.Constructs caller table flight ∧
      ((after.callers caller).prospect? = some (outcome.mapError .construction) ∨
        (after.callers caller).prospect? = some (.error .panicked) ∧
          shared.callers caller = .ending table flight .panicked) := by
  generalize hevent : CallEvent.ended caller table flight handle outcome = event at hstep
  cases hstep with
  | finish hcaller hfinish =>
      obtain ⟨rfl, rfl, rfl, -, rfl⟩ := CallEvent.ended.inj hevent
      rw [Constructs, hcaller, callers_put_self]
      exact ⟨rfl, Or.inl rfl⟩
  | abandon hcaller =>
      obtain ⟨rfl, rfl, rfl, -, rfl⟩ := CallEvent.ended.inj hevent
      rw [Constructs, hcaller, callers_put_self]
      exact ⟨rfl, Or.inr ⟨rfl, rfl⟩⟩
  | _ => cases hevent

/-- What a caller goes on to after a lookup. -/
theorem Step.callers_of_looked {found : WriterCache.Lookup}
    (hstep : Step outside shared (.looked caller table found) after) :
    after.callers caller = .ofLookup table found := by
  generalize hevent : CallEvent.looked caller table found = event at hstep
  cases hstep with
  | look hcaller =>
      obtain ⟨rfl, rfl, rfl⟩ := CallEvent.looked.inj hevent
      exact callers_put_self ..
  | _ => cases hevent

/-- Who is given something has found a writer, has waited for a flight, or answers. -/
inductive Given (shared : SharedCache ω) (caller : Nat) :
    CallEvent ω → Except Unavailable Nat → Prop
  | found {table : String} {id : Nat} (hcaller : shared.callers caller = .idle) :
      Given shared caller (.looked caller table (.hit id)) (.ok id)
  | received {table : String} {flight : Nat} {outcome : FlightOutcome}
      (hcaller : shared.callers caller = .waiting table flight) :
      Given shared caller (.received caller flight outcome) (outcome.mapError .construction)
  | answered {answer : Except Unavailable Nat}
      (hcaller : shared.callers caller = .releasing [] (.answer (some answer))) :
      Given shared caller (.answered caller (some answer)) answer

theorem Step.given (hstep : Step outside shared event after)
    (hcaller : event.caller? = some caller) (hgives : event.gives? = some answer) :
    Given shared caller event answer := by
  cases hstep with
  | look hidle =>
      obtain rfl := Option.some.inj hcaller
      generalize (shared.cache.lookup _ shared.clock).1 = found at hgives
      cases found with
      | hit id =>
          obtain rfl := Option.some.inj hgives
          exact .found hidle
      | join flight | build flight expired => simp [CallEvent.gives?] at hgives
  | receive hwaiting houtcome =>
      obtain rfl := Option.some.inj hcaller
      obtain rfl := Option.some.inj hgives
      exact .received hwaiting
  | answer hbusy =>
      obtain rfl := Option.some.inj hcaller
      obtain rfl : _ = some answer := hgives
      exact .answered hbusy
  | _ => simp [CallEvent.gives?] at hgives

/-- What was given to a caller that did not find a writer is what became of a flight that
has ended since, and the caller has taken nothing out of the cache since then. -/
inductive Supplied (outside : Outside ω) (first : SharedCache ω) (caller : Nat)
    (table : String) (shared : SharedCache ω) :
    List (CallEvent ω) → Except Unavailable Nat → Prop
  | intro {before rest : List (CallEvent ω)} {builder flight : Nat} {handle : Option Nat}
      {outcome : FlightOutcome} {earlier later : SharedCache ω} {answer : Except Unavailable Nat}
      (hbefore : Run outside first before earlier)
      (hended : Step outside earlier (.ended builder table flight handle outcome) later)
      (hrest : Run outside later rest shared)
      (hkept : ∀ event ∈ rest, event.caller? = some caller → event.restocks = false)
      (hanswer : answer = outcome.mapError .construction ∨
        answer = .error .panicked ∧ .delivered caller table flight .panicked ∈ before) :
      Supplied outside first caller table shared
        (before ++ .ended builder table flight handle outcome :: rest) answer

/-- A construction that is to end was delivered after its flight had begun. -/
theorem Run.delivered_of_ending {clock : Nat} {earlier later : SharedCache ω}
    {expired : Option Nat} {construction : Construction ω}
    (hbefore : Run outside (start limits clock) before earlier)
    (hlook : Step outside earlier (.looked caller table (.build flight expired)) later)
    (hrest : Run outside later rest shared)
    (hending : shared.callers caller = .ending table flight construction) :
    .delivered caller table flight construction ∈ rest := by
  have hduty : (shared.callers caller).duty? = some (.conclude table flight construction) := by
    rw [hending]
    rfl
  have hall := ((hbefore.step hlook).append hrest).followed
  have hdelivered := mem_of_mem_history (hall.tracked.duties caller _ hduty).2.delivered
  have hnew : history before flight = [] := by
    apply hbefore.followed.tracked.unbegun
    rw [(hlook.looks hbefore.followed.sound).flight_eq]
    exact Array.getElem?_size
  rw [List.append_assoc] at hdelivered
  rcases List.mem_append.mp hdelivered with hold | hnow
  · have hmem : _ ∈ history before flight := mem_history rfl hold
    simp [hnew] at hmem
  · simpa using hnow

section

variable {clock : Nat} {earlier later : SharedCache ω} {since : List (CallEvent ω)}
  {expired : Option Nat}
  (hbefore : Run outside (start limits clock) before earlier)
  (hsince : Run outside later since shared)
  (hquiet : ∀ event ∈ since, event.caller? = some caller → event.gives? = none)
include hbefore hsince hquiet

/-- Who built a writer itself. -/
theorem Run.supplied_of_built
    (hlook : Step outside earlier (.looked caller table (.build flight expired)) later)
    (hgiven : Given shared caller event answer) :
    Supplied outside later caller table shared since answer := by
  have hconstructs : later.Constructs caller table flight := by
    rw [Constructs, hlook.callers_of_looked]
    rfl
  rcases hsince.constructs_or_ended hconstructs with hstill | ⟨handle, outcome, hended⟩
  · -- Who builds is given nothing.
    rw [Constructs] at hstill
    cases hgiven with
    | found hcaller | received hcaller | answered hcaller =>
        simp [hcaller, Activity.construction?, Errand.construction?] at hstill
  · obtain ⟨front, back, rfl⟩ := List.append_of_mem hended
    obtain ⟨atEnd, done, hfront, hend, hback⟩ := hsince.split
    obtain ⟨-, hprospect⟩ := hend.prospect_of_ended
    have hquietly (event : CallEvent ω) (hevent : event ∈ back) :=
      hquiet event (List.mem_append_right _ (List.mem_cons_of_mem _ hevent))
    have hanswer {given : Except Unavailable Nat}
        (hgoes : (done.callers caller).prospect? = some given) :
        given = answer ∧ ∀ event ∈ back, event.caller? = some caller → event.restocks = false := by
      obtain ⟨hgoes, hkept⟩ := hback.prospect hgoes hquietly
      refine ⟨?_, hkept⟩
      cases hgiven with
      | found hcaller | received hcaller => simp [hcaller, Activity.prospect?] at hgoes
      | answered hcaller =>
          rw [hcaller] at hgoes
          exact (Option.some.inj hgoes).symm
    rcases hprospect with hgoes | ⟨hgoes, hpanicked⟩
    · obtain ⟨rfl, hkept⟩ := hanswer hgoes
      exact .intro hfront hend hback hkept (Or.inl rfl)
    · obtain ⟨rfl, hkept⟩ := hanswer hgoes
      exact .intro hfront hend hback hkept
        (Or.inr ⟨rfl, hbefore.delivered_of_ending hlook hfront hpanicked⟩)

/-- Who joined a flight. -/
theorem Run.supplied_of_joined
    (hlook : Step outside earlier (.looked caller table (.join flight)) later)
    (hstep : Step outside shared event after) (hgiven : Given shared caller event answer) :
    Supplied outside later caller table shared since answer := by
  obtain ⟨-, builder, hbuilder⟩ := hbefore.followed.joined hlook
  -- The caller has waited all along.
  obtain ⟨hidle, hwaiting⟩ : since.find? (fun event => event.caller? = some caller) = none ∧
      shared.callers caller = .waiting table flight := by
    rcases hsince.received_of_waiting hlook.waiting_of_joined with hwaits | ⟨outcome, hfound⟩
    · exact hwaits
    · have hnone := hquiet _ (List.mem_of_find?_eq_some hfound) rfl
      simp [CallEvent.gives?] at hnone
  have hnothing (event : CallEvent ω) (hevent : event ∈ since) : event.caller? ≠ some caller := by
    simpa using List.find?_eq_none.mp hidle event hevent
  cases hgiven with
  | found hcaller | answered hcaller => simp [hwaiting] at hcaller
  | @received place other outcome hcaller =>
      obtain ⟨rfl, rfl⟩ := Activity.waiting.inj (hwaiting.symm.trans hcaller)
      have hall := ((hbefore.step hlook).append hsince).step hstep
      obtain ⟨ender, place, handle, hended⟩ :=
        hall.ended_of_received (List.mem_append_right _ (List.mem_singleton_self _))
      have hopen := hbefore.followed.not_ended hbuilder ender place handle outcome
      have hmem : .ended ender place flight handle outcome ∈ since := by simpa [hopen] using hended
      obtain ⟨front, back, rfl⟩ := List.append_of_mem hmem
      obtain ⟨atEnd, done, hfront, hend, hback⟩ := hsince.split
      -- Its builder has gone on building until then.
      have hsofar := ((hbefore.step hlook).append hfront).followed
      have hstill : atEnd.Constructs builder table flight := by
        rcases hlook.constructs_or_ended hbuilder with hlater | ⟨_, _, hnot⟩
        · refine (hfront.constructs_or_ended hlater).resolve_right ?_
          rintro ⟨number, result, hearlier⟩
          exact hsofar.open hend builder table number result (List.mem_append_right _ hearlier)
        · cases hnot
      have hends := hend.prospect_of_ended.1
      obtain rfl := hsofar.sound.apart hends hstill
      obtain ⟨rfl, -⟩ := Prod.mk.inj (Option.some.inj (hends.symm.trans hstill))
      refine .intro hfront hend hback (fun event hevent hcaller => ?_) (Or.inl rfl)
      apply absurd hcaller
      exact hnothing event (List.mem_append_right _ (List.mem_cons_of_mem _ hevent))

/-- Who did not find a writer is given what became of a flight that has ended since. -/
theorem Run.supplied {found : WriterCache.Lookup}
    (hlook : Step outside earlier (.looked caller table found) later)
    (hfound : ∀ id, found ≠ .hit id) (hstep : Step outside shared event after)
    (hcaller : event.caller? = some caller) (hgives : event.gives? = some answer) :
    Supplied outside later caller table shared since answer := by
  cases found with
  | hit id => exact absurd rfl (hfound id)
  | join flight =>
      exact hbefore.supplied_of_joined hsince hquiet hlook hstep (hstep.given hcaller hgives)
  | build flight expired =>
      exact hbefore.supplied_of_built hsince hquiet hlook (hstep.given hcaller hgives)

end

theorem Run.closed?_of_closed (hsound : Sound limits first)
    (hrun : Run outside first events shared) (hclosed : first.closed? id = some true) :
    shared.closed? id = some true := by
  induction hrun with
  | nil => exact hclosed
  | step hrun hstep ih => exact hstep.closed?_of_closed (hsound.run hrun) ih

/-- A writer was cached for a table at a moment since, and a caller has taken nothing out of
the cache from then on. -/
inductive Stocked (outside : Outside ω) (first : SharedCache ω) (caller : Nat) (table : String)
    (id : Nat) : List (CallEvent ω) → SharedCache ω → Prop
  | intro {before rest : List (CallEvent ω)} {moment shared : SharedCache ω}
      (hbefore : Run outside first before moment) (hrest : Run outside moment rest shared)
      (hcached : id ∈ moment.cache.contents.cached)
      (hbound : moment.cache.contents.IsBound id table)
      (hkept : ∀ event ∈ rest, event.caller? = some caller → event.restocks = false) :
      Stocked outside first caller table id (before ++ rest) shared

namespace Stocked

theorem of_hit (hsound : Sound limits shared)
    (hlook : Step outside shared (.looked caller table (.hit id)) after) :
    Stocked outside after caller table id [] after := by
  obtain ⟨hcached, hopen⟩ := hlook.of_hit hsound
  exact .intro .nil .nil hcached (hlook.isBound hsound hopen.isBound) (by simp)

theorem of_supplied (hsound : Sound limits first)
    (hsupplied : Supplied outside first caller table shared events (.ok id)) :
    Stocked outside first caller table id events shared := by
  cases hsupplied with
  | @intro before rest builder flight handle outcome earlier later _ hbefore hended hrest hkept
      hanswer =>
      obtain rfl : outcome = .ok id := by
        rcases hanswer with hanswer | ⟨hanswer, -⟩
        · cases outcome with
          | error error => cases hanswer
          | ok number => rw [Except.ok.inj hanswer]
        · cases hanswer
      obtain ⟨hcached, hopen⟩ := hended.of_ended (hsound.run hbefore)
      have hstocked := Stocked.intro (hbefore.step hended) hrest hcached hopen.isBound hkept
      rwa [List.append_assoc] at hstocked

theorem step (hstocked : Stocked outside first caller table id events shared)
    (hstep : Step outside shared event after)
    (hkeeps : event.caller? = some caller → event.restocks = false) :
    Stocked outside first caller table id (events ++ [event]) after := by
  cases hstocked with
  | intro hbefore hrest hcached hbound hkept =>
      rw [List.append_assoc]
      refine .intro hbefore (hrest.step hstep) hcached hbound fun other hother => ?_
      rcases List.mem_append.mp hother with hold | hnew
      · exact hkept other hold
      · rwa [List.mem_singleton.mp hnew]

theorem run (hstocked : Stocked outside first caller table id events shared) :
    Run outside first events shared := by
  cases hstocked with
  | intro hbefore hrest hcached hbound hkept => exact hbefore.append hrest

theorem isBound (hsound : Sound limits first)
    (hstocked : Stocked outside first caller table id events shared) :
    shared.cache.contents.IsBound id table := by
  cases hstocked with
  | intro hbefore hrest hcached hbound hkept => exact hrest.isBound (hsound.run hbefore) hbound

/-- A writer that was closed before is another one. -/
theorem not_closed {clock : Nat} (hstart : Run outside (start limits clock) before first)
    (hstocked : Stocked outside first caller table id events shared) :
    first.closed? id ≠ some true := by
  cases hstocked with
  | intro hbefore hrest hcached hbound hkept =>
      intro hclosed
      have hsound := hstart.accounted.sound
      have hstill := hbefore.closed?_of_closed hsound hclosed
      simp [(hstart.append hbefore).accounted.open_of_cached hcached] at hstill

end Stocked

/-- A caller that takes nothing out of the cache has nothing more to close. -/
theorem Step.queue_subset (hstep : Step outside shared event after)
    (hkeeps : event.caller? = some caller → event.restocks = false) :
    (after.callers caller).queue ⊆ (shared.callers caller).queue := by
  by_cases hcaller : event.caller? = some caller
  · have hkept := hkeeps hcaller
    cases hstep with
    | tick hnow => simp [CallEvent.caller?] at hcaller
    | look | finish | abandon | sweep | invalidate => cases hkept
    | beginClose hbusy | skip hbusy =>
        obtain rfl := Option.some.inj hcaller
        simp only [callers_lock, callers_put_self, hbusy]
        exact List.subset_cons_self _ _
    | endClose hbusy | publish hbusy =>
        obtain rfl := Option.some.inj hcaller
        simp only [callers_lock, callers_put_self, hbusy]
        exact List.Subset.refl _
    | refuse | peek => exact List.Subset.refl _
    | receive hbusy | call hbusy | deliver hbusy | answer hbusy | enter hbusy | leave hbusy =>
        obtain rfl := Option.some.inj hcaller
        simp only [callers_lock, callers_put_self]
        exact List.nil_subset _
  · rw [hstep.callers_eq hcaller]
    exact List.Subset.refl _

/-- A caller closes what is in its queue. -/
theorem Step.mem_queue_of_closing (hstep : Step outside shared (.closing caller id) after) :
    id ∈ (shared.callers caller).queue := by
  cases hstep with
  | beginClose hcaller hfree hbegin =>
      rw [hcaller]
      exact List.mem_cons_self

/-- A writer that refuses is closed. -/
theorem Step.of_refused (hstep : Step outside shared (.refused caller id) after) :
    shared.closed? id = some true ∧ after = shared := by
  cases hstep with
  | refuse hcaller hfree hhandle hclosed =>
      refine ⟨?_, rfl⟩
      rw [closed?, ← WriterCache.handle?_eq, hhandle, Option.map_some, hclosed]

/-- A writer that closes in the meantime, and is not a caller's to close, is closed by
somebody else. -/
theorem Run.closed_by_other (hsound : Sound limits first)
    (hrun : Run outside first events shared) (hopen : first.closed? id = some false)
    (hqueue : id ∉ (first.callers caller).queue)
    (hkept : ∀ event ∈ events, event.caller? = some caller → event.restocks = false)
    (hclosed : shared.closed? id = some true) :
    ∃ other, other ≠ caller ∧ .closing other id ∈ events := by
  have hgoes : id ∉ (shared.callers caller).queue ∧ (shared.closed? id = some false ∨
      ∃ other, other ≠ caller ∧ .closing other id ∈ events) := by
    clear hclosed
    induction hrun with
    | nil => exact ⟨hqueue, Or.inl hopen⟩
    | @step events event shared after hrun hstep ih =>
        obtain ⟨hbefore, hclosings⟩ :=
          ih fun event hevent => hkept event (List.mem_append_left _ hevent)
        have hkeeps := hkept event (List.mem_append_right _ (List.mem_singleton_self _))
        refine ⟨fun hid => hbefore (hstep.queue_subset hkeeps hid), ?_⟩
        rcases hclosings with hstill | ⟨other, hother, hclosing⟩
        · rw [hstep.closed?_eq (hsound.run hrun), CallEvent.closed?]
          by_cases hretired : id ∈ event.retired
          · right
            cases event with
            | closing other handle =>
                obtain rfl := List.mem_singleton.mp hretired
                refine ⟨other, ?_, by simp⟩
                rintro rfl
                exact hbefore hstep.mem_queue_of_closing
            | _ => exact absurd hretired List.not_mem_nil
          · rw [if_neg hretired, hstill, ite_self]
            exact Or.inl rfl
        · exact Or.inr ⟨other, hother, List.mem_append_left _ hclosing⟩
  rcases hgoes.2 with hstill | hother
  · simp [hstill] at hclosed
  · exact hother

/-- A caller looked a table up, and was refused by a writer that had been cached since then:
it has left the cache in the meantime, and somebody else has closed it. -/
inductive Lost (outside : Outside ω) (first : SharedCache ω) (caller : Nat) (table : String)
    (id : Nat) : List (CallEvent ω) → Prop
  | intro {front before between rest : List (CallEvent ω)} {found : WriterCache.Lookup}
      {earlier later moment last : SharedCache ω} {other : Nat}
      (hfront : Run outside first front earlier)
      (hlook : Step outside earlier (.looked caller table found) later)
      (hbefore : Run outside later before moment)
      (hcached : id ∈ moment.cache.contents.cached)
      (hbetween : Run outside moment between last)
      (hother : other ≠ caller) (hclosing : .closing other id ∈ between)
      (hgone : id ∉ last.cache.contents.cached) (hclosed : last.closed? id = some true) :
      Lost outside first caller table id
        (front ++ .looked caller table found :: (before ++ between ++ .refused caller id :: rest))

theorem Lost.append (hlost : Lost outside first caller table id events)
    (rest : List (CallEvent ω)) : Lost outside first caller table id (events ++ rest) := by
  cases hlost with
  | intro hfront hlook hbefore hcached hbetween hother hclosing hgone hclosed =>
      rw [List.append_assoc, List.cons_append, List.append_assoc, List.cons_append]
      exact .intro hfront hlook hbefore hcached hbetween hother hclosing hgone hclosed

/-- Somebody else closes what a caller has lost. -/
theorem Lost.exists_closing (hlost : Lost outside first caller table id events) :
    ∃ other, other ≠ caller ∧ .closing other id ∈ events := by
  cases hlost with
  | @intro _ _ _ _ _ _ _ _ _ other hfront hlook hbefore hcached hbetween hother hclosing hgone
      hclosed =>
      exact ⟨other, hother, by simp [hclosing]⟩

/-- A caller is refused by a writer that it has lost. -/
theorem Stocked.lost {clock : Nat} {front since : List (CallEvent ω)}
    {start earlier later : SharedCache ω} {found : WriterCache.Lookup}
    (hstart : Run outside (.start limits clock) before start)
    (hfront : Run outside start front earlier)
    (hlook : Step outside earlier (.looked caller table found) later)
    (hstocked : Stocked outside later caller table id since shared)
    (hclosed : shared.closed? id = some true) :
    Lost outside start caller table id
      (front ++ .looked caller table found :: (since ++ [.refused caller id])) := by
  cases hstocked with
  | @intro beforehand between moment _ hbeforehand hbetween hcached hbound hkept =>
      have hmoment := ((hstart.append hfront).step hlook).append hbeforehand
      have hqueue : id ∉ (moment.callers caller).queue := fun hid =>
        hmoment.accounted.sound.not_cached hid hcached
      obtain ⟨other, hother, hclosing⟩ := hbetween.closed_by_other hmoment.accounted.sound
        (hmoment.accounted.open_of_cached hcached) hqueue hkept hclosed
      exact .intro hfront hlook hbeforehand hcached hbetween hother hclosing
        ((hmoment.append hbetween).accounted.not_cached_of_closed hclosed) hclosed

end SharedCache

end TableRouting
