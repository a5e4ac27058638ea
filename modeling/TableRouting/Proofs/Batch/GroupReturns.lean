import TableRouting.Proofs.Batch.GroupCourses

/-!
# Calls that write groups return

Nothing can keep a call from its end for good: at any time a call can be brought to return,
by its own steps and by those of the callers that it waits for, who hold the lock of a writer
or have its construction in their charge.
-/

namespace TableRouting

variable {κ ω : Type}

/-- The outside answers whatever it is asked. -/
structure Outlet.Responsive (outlet : Outlet κ ω) : Prop where
  builds : ∀ table, ∃ construction, outlet.builds table construction
  uses : ∀ writer, ∃ written, outlet.uses writer written
  closes : ∀ writer, ∃ closed, outlet.closes writer closed
  writes : ∀ writer records connection, ∃ result written later,
    outlet.writes writer records connection result written later

theorem WriterCache.handle?_modifyHandle_self {cache : WriterCache ω} {id : Nat}
    {handle : WriterHandle ω} (hhandle : cache.handle? id = some handle)
    (f : WriterHandle ω → WriterHandle ω) :
    (cache.modifyHandle id f).handle? id = some (f handle) := by
  rw [handle?_eq, contents_modifyHandle, CacheContents.handle?_modifyHandle, if_pos rfl,
    ← handle?_eq, hhandle, Option.map_some]

namespace WritingCache

variable {outlet : Outlet κ ω} {limits : CacheLimits} {clock : Nat}
  {first between system after : WritingCache κ ω} {events rest : List (GroupEvent κ ω)}
  {caller : Nat}

theorem Run.append (hbefore : Run outlet first events between)
    (hrest : Run outlet between rest system) : Run outlet first (events ++ rest) system := by
  induction hrest with
  | nil => rwa [List.append_nil]
  | step hrun hstep ih =>
      rw [← List.append_assoc]
      exact ih.step hstep

/-- A system comes about from an empty cache without calls. -/
def Reachable (outlet : Outlet κ ω) (limits : CacheLimits) (clock : Nat)
    (system : WritingCache κ ω) : Prop :=
  ∃ events, Run outlet (start limits clock) events system

theorem Reachable.run (hreach : Reachable outlet limits clock system)
    (hrun : Run outlet system events after) : Reachable outlet limits clock after := by
  obtain ⟨before, hbefore⟩ := hreach
  exact ⟨_, hbefore.append hrun⟩

theorem Reachable.fits (hreach : Reachable outlet limits clock system) : system.Fits := by
  obtain ⟨events, hrun⟩ := hreach
  exact hrun.fits

/-- Nothing has changed for a caller. -/
structure Spares (caller : Nat) (system after : WritingCache κ ω) : Prop where
  activity : after.shared.callers caller = system.shared.callers caller
  calling : after.calls caller = system.calls caller

/-- A caller can be brought to something, and nothing changes for the callers that hold no
lock meanwhile. -/
def Attains (outlet : Outlet κ ω) (system : WritingCache κ ω) (caller : Nat)
    (post : WritingCache κ ω → Prop) : Prop :=
  ∃ events after, Run outlet system events after ∧
    (∀ other, other ≠ caller → (system.shared.callers other).holds? = none →
      Spares other system after) ∧
    post after

namespace Attains

variable {post mid : WritingCache κ ω → Prop}

theorem here (hpost : post system) : Attains outlet system caller post :=
  ⟨[], system, .nil, fun _ _ _ => ⟨rfl, rfl⟩, hpost⟩

theorem imp (hattains : Attains outlet system caller mid)
    (himp : ∀ after, mid after → post after) : Attains outlet system caller post := by
  obtain ⟨events, after, hrun, hspares, hmid⟩ := hattains
  exact ⟨events, after, hrun, hspares, himp after hmid⟩

/-- Bring a caller to something, and then to something else. -/
theorem bind (hreach : Reachable outlet limits clock system)
    (hfirst : Attains outlet system caller mid)
    (hrest : ∀ between, Reachable outlet limits clock between → mid between →
      Attains outlet between caller post) :
    Attains outlet system caller post := by
  obtain ⟨events, between, hrun, hspares, hmid⟩ := hfirst
  obtain ⟨rest, after, hlater, hspared, hpost⟩ := hrest between (hreach.run hrun) hmid
  refine ⟨_, after, hrun.append hlater, fun other hother hfree => ?_, hpost⟩
  have hbefore := hspares other hother hfree
  have hafter := hspared other hother (hbefore.activity ▸ hfree)
  exact ⟨hafter.activity.trans hbefore.activity, hafter.calling.trans hbefore.calling⟩

/-- A caller makes a step in its call. -/
theorem own {event : CallEvent ω} {shared : SharedCache ω} {next : Calling κ}
    (hstep : SharedCache.Step outlet.toOutside system.shared event shared)
    (hcaller : event.caller? = some caller)
    (hmoves : (system.calls caller).Moves outlet system.shared.cache shared.cache caller event
      next)
    (hpost : post ⟨shared, Function.update system.calls caller next⟩) :
    Attains outlet system caller post := by
  refine ⟨_, _, Run.nil.step (.own hstep hcaller hmoves), fun other hother hfree => ?_, hpost⟩
  refine ⟨hstep.callers_eq ?_, Function.update_of_ne hother ..⟩
  rw [hcaller]
  exact fun hsame => hother (Option.some.inj hsame).symm

/-- A caller that neither rests nor writes makes a step that gives it nothing. -/
theorem work {event : CallEvent ω} {shared : SharedCache ω} (hfits : system.Fits)
    (hidle : system.shared.callers caller ≠ .idle)
    (hwriting : ∀ id, system.shared.callers caller ≠ .writing id)
    (hcaller : event.caller? = some caller) (hgives : event.gives? = none)
    (hstep : SharedCache.Step outlet.toOutside system.shared event shared)
    (hpost : post { system with shared }) : Attains outlet system caller post := by
  have hsame : Function.update system.calls caller (system.calls caller) = system.calls :=
    Function.update_eq_self ..
  apply own hstep hcaller _ (hsame.symm ▸ hpost)
  have hcall := hfits caller
  generalize system.calls caller = calling at hcall
  generalize system.shared.callers caller = activity at hcall hidle hwriting
  cases hcall with
  | away => exact .elsewhere
  | ready => exact absurd rfl hidle
  | getting hlookup => exact .wait hgives
  | writing => exact absurd rfl (hwriting _)

end Attains

/-- A call can be brought to be answered what its script asks for, and to go on. -/
def GoesOn {α : Type} (outlet : Outlet κ ω) (system : WritingCache κ ω) (caller : Nat)
    (next : α → Script) : Prop :=
  ∃ events after task answer, Run outlet system events after ∧
    after.calls caller = .ready task (next answer)

theorem GoesOn.of_run {α : Type} {next : α → Script} (hbefore : Run outlet system events between)
    (hgoesOn : GoesOn outlet between caller next) : GoesOn outlet system caller next := by
  obtain ⟨rest, after, task, answer, hrun, hcall⟩ := hgoesOn
  exact ⟨_, after, task, answer, hbefore.append hrun, hcall⟩

/-- Who waits for a flight that has an outcome can be brought to receive it. -/
theorem receives {task : GroupTask κ} {next : Except Unavailable Nat → Script}
    {flight : Nat} {table : String}
    {outcome : FlightOutcome} (hcall : system.calls caller = .getting task next)
    (hwaiting : system.shared.callers caller = .waiting table flight)
    (houtcome : system.shared.cache.outcome? flight = some outcome) :
    GoesOn outlet system caller next := by
  have hmoves : (system.calls caller).Moves outlet system.shared.cache system.shared.cache caller
      (.received caller flight outcome)
      (.ready task (next (outcome.mapError .construction))) := by
    rw [hcall]
    exact .obtain rfl
  exact ⟨_, _, task, _, Run.nil.step (.own (.receive hwaiting houtcome) rfl hmoves),
    Function.update_self ..⟩

/-- The call of a caller can be brought to return. -/
def Returns (outlet : Outlet κ ω) (system : WritingCache κ ω) (caller : Nat) : Prop :=
  ∃ events after answer connection, Run outlet system events after ∧
    .returned caller answer connection ∈ events

theorem Returns.of_run (hbefore : Run outlet system events between)
    (hreturns : Returns outlet between caller) : Returns outlet system caller := by
  obtain ⟨rest, after, answer, connection, hrun, hreturned⟩ := hreturns
  exact ⟨_, after, answer, connection, hbefore.append hrun, List.mem_append_right _ hreturned⟩

variable {flight : Nat} {table : String} (hreach : Reachable outlet limits clock system)
include hreach

/-- The outcome of a flight is there, and who was in charge of it goes on to answer. -/
structure Handed (caller flight : Nat) (calling : Calling κ) (after : WritingCache κ ω) : Prop where
  outcome : ∃ outcome, after.shared.cache.outcome? flight = some outcome
  answering : ∃ queue answer,
    after.shared.callers caller = .releasing queue (.answer (some answer))
  calling : after.calls caller = calling

theorem publishes {outcome : FlightOutcome} {queue : List Nat} {answer : Except Unavailable Nat}
    (hpublishing : system.shared.callers caller = .publishing flight outcome queue answer) :
    Attains outlet system caller (Handed caller flight (system.calls caller)) := by
  obtain ⟨events, hrun⟩ := hreach
  have hduty : (system.shared.callers caller).duty? = some (.publish flight outcome) := by
    rw [hpublishing]
    rfl
  have hpending := (hrun.shared.followed.tracked.duties caller _ hduty).1
  have hflight : flight < system.shared.cache.flights.size :=
    (Array.getElem?_eq_some_iff.mp hpending).1
  refine .work hrun.fits (by simp [hpublishing]) (by simp [hpublishing]) rfl rfl
    (.publish hpublishing) ⟨⟨outcome, ?_⟩, ⟨queue, answer, Function.update_self ..⟩, rfl⟩
  rw [SharedCache.cache_put, WriterCache.outcome?, WriterCache.publish,
    Array.getElem?_setIfInBounds_self_of_lt hflight]
  rfl

theorem ends {construction : Construction ω}
    (hending : system.shared.callers caller = .ending table flight construction) :
    Attains outlet system caller (Handed caller flight (system.calls caller)) := by
  have hpublishing : Attains outlet system caller fun after =>
      (∃ outcome queue answer,
        after.shared.callers caller = .publishing flight outcome queue answer) ∧
      after.calls caller = system.calls caller := by
    have hfinish (built : Except ConstructionError ω)
        (hbuilt : construction = .ofResult built) : Attains outlet system caller fun after =>
          (∃ outcome queue answer,
            after.shared.callers caller = .publishing flight outcome queue answer) ∧
          after.calls caller = system.calls caller := by
      subst hbuilt
      exact .work hreach.fits (by simp [hending]) (by simp [hending]) rfl rfl (.finish hending rfl)
        ⟨⟨_, _, _, Function.update_self ..⟩, rfl⟩
    cases construction with
    | built writer => exact hfinish (.ok writer) rfl
    | refused error => exact hfinish (.error error) rfl
    | panicked =>
        exact .work hreach.fits (by simp [hending]) (by simp [hending]) rfl rfl (.abandon hending)
          ⟨⟨_, _, _, Function.update_self ..⟩, rfl⟩
  apply hpublishing.bind hreach
  rintro between hbetween ⟨⟨outcome, queue, answer, hnow⟩, hsame⟩
  rw [← hsame]
  exact publishes hbetween hnow

variable (hresponsive : outlet.Responsive)
include hresponsive

/-- Who writes through a handle can be brought to leave it. -/
theorem leaves {id : Nat} (hwriting : system.shared.callers caller = .writing id) :
    Attains outlet system caller fun after => after.shared.locks id = none ∧
      ∀ task next, system.calls caller = .writing task id next →
        ∃ later result, after.calls caller = .ready later (next (.ok result)) := by
  obtain ⟨events, hrun⟩ := hreach
  have hopen := hrun.shared.accounted.guarded.writing caller id hwriting
  obtain ⟨handle, hhandle, -⟩ := Option.map_eq_some_iff.mp hopen
  have hcall := hrun.fits caller
  rw [hwriting] at hcall
  generalize hcalling : system.calls caller = calling at hcall
  cases hcall with
  | away =>
      obtain ⟨written, huses⟩ := hresponsive.uses handle.writer
      apply Attains.own (.leave hwriting hhandle huses) rfl
      · rw [hcalling]
        exact .elsewhere
      · exact ⟨Function.update_self .., by simp⟩
  | getting hlookup => exact absurd hlookup Bool.false_ne_true
  | @writing task _ next =>
      obtain ⟨result, written, connection, hwrites⟩ :=
        hresponsive.writes handle.writer task.records task.connection
      apply Attains.own (.leave hwriting hhandle (outlet.uses_of_writes hwrites)) rfl
      · rw [hcalling]
        exact .leave hhandle hwrites (WriterCache.handle?_modifyHandle_self hhandle _)
      · refine ⟨Function.update_self .., fun found next' hfound => ?_⟩
        cases hfound
        exact ⟨_, result, Function.update_self ..⟩

/-- Who is closing a writer can be brought to the end of that. -/
theorem closes {id : Nat} {queue : List Nat} {errand : Errand}
    (hclosing : system.shared.callers caller = .closing id queue errand) :
    Attains outlet system caller fun after => after.shared.locks id = none ∧
      after.shared.callers caller = .releasing queue errand ∧
      after.calls caller = system.calls caller := by
  obtain ⟨events, hrun⟩ := hreach
  have hclosed := hrun.shared.accounted.guarded.closing caller id queue errand hclosing
  obtain ⟨handle, hhandle, -⟩ := Option.map_eq_some_iff.mp hclosed
  obtain ⟨closed, hcloses⟩ := hresponsive.closes handle.writer
  refine .work hrun.fits (by simp [hclosing]) (by simp [hclosing]) rfl rfl
    (@SharedCache.Step.endClose _ _ _ caller id queue errand handle closed (.ok ()) hclosing hhandle
      hcloses) ⟨Function.update_self .., Function.update_self .., rfl⟩

/-- The lock of a writer can be brought to be free, without a caller that holds no lock. -/
theorem frees (id : Nat) (hfree : (system.shared.callers caller).holds? = none) :
    Attains outlet system caller fun after =>
      after.shared.locks id = none ∧ Spares caller system after := by
  cases hlock : system.shared.locks id with
  | none => exact .here ⟨hlock, rfl, rfl⟩
  | some holder =>
      have hholds : (system.shared.callers holder).holds? = some id := by
        obtain ⟨events, hrun⟩ := hreach
        exact (hrun.shared.accounted.guarded.locked id holder).mp hlock
      have hother {other : Nat} (hnone : (system.shared.callers other).holds? = none) :
          other ≠ holder := by
        rintro rfl
        simp [hholds] at hnone
      obtain ⟨events, after, hrun, hspares, hunlocked⟩ :
          Attains outlet system holder fun after => after.shared.locks id = none := by
        cases hactivity : system.shared.callers holder with
        | closing handle queue errand =>
            obtain rfl : handle = id := by simpa [hactivity, Activity.holds?] using hholds
            exact (closes hreach hresponsive hactivity).imp fun _ hpost => hpost.1
        | writing handle =>
            obtain rfl : handle = id := by simpa [hactivity, Activity.holds?] using hholds
            exact (leaves hreach hresponsive hactivity).imp fun _ hpost => hpost.1
        | _ => simp [hactivity, Activity.holds?] at hholds
      exact ⟨events, after, hrun, fun other _ hnone => hspares other (hother hnone) hnone,
        hunlocked, hspares caller (hother hfree) hfree⟩

/-- Who is to close writers can be brought to have closed them. -/
theorem drains {queue : List Nat} {errand : Errand}
    (hreleasing : system.shared.callers caller = .releasing queue errand) :
    Attains outlet system caller fun after =>
      after.shared.callers caller = .releasing [] errand ∧
        after.calls caller = system.calls caller := by
  induction queue generalizing system with
  | nil => exact .here ⟨hreleasing, rfl⟩
  | cons id queue ih =>
      apply (frees hreach hresponsive id (by simp [hreleasing, Activity.holds?])).bind hreach
      rintro between hbetween ⟨hfree, hactivity, hcalling⟩
      rw [hreleasing] at hactivity
      have hclosed : Attains outlet between caller fun after =>
          after.shared.callers caller = .releasing queue errand ∧
            after.calls caller = between.calls caller := by
        generalize hbegin : between.shared.cache.beginClose id = begun
        obtain ⟨found, cache⟩ := begun
        cases found with
        | none =>
            exact .work hbetween.fits (by simp [hactivity]) (by simp [hactivity]) rfl rfl
              (.skip hactivity hfree hbegin) ⟨Function.update_self .., rfl⟩
        | some writer =>
            have hclosing : Attains outlet between caller fun after =>
                after.shared.callers caller = .closing id queue errand ∧
                  after.calls caller = between.calls caller :=
              .work hbetween.fits (by simp [hactivity]) (by simp [hactivity]) rfl rfl
                (.beginClose hactivity hfree hbegin) ⟨Function.update_self .., rfl⟩
            apply hclosing.bind hbetween
            rintro later hlater ⟨hnow, hsame⟩
            apply (closes hlater hresponsive hnow).imp
            rintro after ⟨-, hafter, hstill⟩
            exact ⟨hafter, hstill.trans hsame⟩
      apply hclosed.bind hbetween
      rintro later hlater ⟨hnow, hsame⟩
      exact (ih hlater hnow).imp fun after hafter =>
        ⟨hafter.1, hafter.2.trans (hsame.trans hcalling)⟩

theorem delivers (hbuilding : system.shared.callers caller = .building table flight) :
    Attains outlet system caller (Handed caller flight (system.calls caller)) := by
  obtain ⟨construction, hbuilds⟩ := hresponsive.builds table
  have hending : Attains outlet system caller fun after =>
      after.shared.callers caller = .ending table flight construction ∧
        after.calls caller = system.calls caller :=
    .work hreach.fits (by simp [hbuilding]) (by simp [hbuilding]) rfl rfl
      (.deliver hbuilding hbuilds) ⟨Function.update_self .., rfl⟩
  apply hending.bind hreach
  rintro between hbetween ⟨hnow, hsame⟩
  rw [← hsame]
  exact ends hbetween hnow

theorem prepares {queue : List Nat}
    (hreleasing : system.shared.callers caller = .releasing queue (.build table flight)) :
    Attains outlet system caller (Handed caller flight (system.calls caller)) := by
  apply (drains hreach hresponsive hreleasing).bind hreach
  rintro between hbetween ⟨hempty, hsame⟩
  have hbuilding : Attains outlet between caller fun after =>
      after.shared.callers caller = .building table flight ∧
        after.calls caller = between.calls caller :=
    .work hbetween.fits (by simp [hempty]) (by simp [hempty]) rfl rfl (.call hempty)
      ⟨Function.update_self .., rfl⟩
  apply hbuilding.bind hbetween
  rintro later hlater ⟨hnow, hstill⟩
  rw [← hsame, ← hstill]
  exact delivers hlater hresponsive hnow

/-- Who is in charge of a flight can be brought to hand out its outcome. -/
theorem hands (hcharge : system.shared.InCharge caller flight) :
    Attains outlet system caller (Handed caller flight (system.calls caller)) := by
  obtain ⟨duty, hduty, rfl⟩ := hcharge
  cases hactivity : system.shared.callers caller with
  | releasing queue errand =>
      cases errand with
      | build table flight =>
          rw [hactivity] at hduty
          obtain rfl := Option.some.inj hduty
          exact prepares hreach hresponsive hactivity
      | answer answer => simp [hactivity, Activity.duty?, Errand.duty?] at hduty
  | closing id queue errand =>
      cases errand with
      | build table flight =>
          rw [hactivity] at hduty
          obtain rfl := Option.some.inj hduty
          apply (closes hreach hresponsive hactivity).bind hreach
          rintro between hbetween ⟨-, hnow, hsame⟩
          rw [← hsame]
          exact prepares hbetween hresponsive hnow
      | answer answer => simp [hactivity, Activity.duty?, Errand.duty?] at hduty
  | building table flight =>
      rw [hactivity] at hduty
      obtain rfl := Option.some.inj hduty
      exact delivers hreach hresponsive hactivity
  | ending table flight construction =>
      rw [hactivity] at hduty
      obtain rfl := Option.some.inj hduty
      exact ends hreach hactivity
  | publishing flight outcome queue answer =>
      rw [hactivity] at hduty
      obtain rfl := Option.some.inj hduty
      exact publishes hreach hactivity
  | _ => simp [hactivity, Activity.duty?] at hduty

/-- Who is to answer a lookup can be brought to do so. -/
theorem answers {task : GroupTask κ} {next : Except Unavailable Nat → Script} {queue : List Nat}
    {given : Except Unavailable Nat} (hcall : system.calls caller = .getting task next)
    (hanswering : system.shared.callers caller = .releasing queue (.answer (some given))) :
    GoesOn outlet system caller next := by
  obtain ⟨events, between, hrun, -, hempty, hsame⟩ := drains hreach hresponsive hanswering
  refine ⟨_, _, task, given, hrun.step (.own (.answer hempty) rfl ?_), Function.update_self ..⟩
  rw [hsame, hcall]
  exact .obtain rfl

/-- Who is in charge of a flight can be brought to be given something. -/
theorem obtains_of_inCharge {task : GroupTask κ} {next : Except Unavailable Nat → Script}
    (hcall : system.calls caller = .getting task next)
    (hcharge : system.shared.InCharge caller flight) : GoesOn outlet system caller next := by
  obtain ⟨events, between, hrun, -, hhanded⟩ := hands hreach hresponsive hcharge
  obtain ⟨queue, given, hanswering⟩ := hhanded.answering
  have hstill := hhanded.calling.trans hcall
  exact .of_run hrun (answers (hreach.run hrun) hresponsive hstill hanswering)

/-- Who waits for a flight can be brought to receive its outcome, by who is in charge of it. -/
theorem obtains_of_waiting {task : GroupTask κ} {next : Except Unavailable Nat → Script}
    (hcall : system.calls caller = .getting task next)
    (hwaiting : system.shared.callers caller = .waiting table flight) :
    GoesOn outlet system caller next := by
  obtain ⟨events, hrun⟩ := hreach
  have hfollowed := hrun.shared.followed
  rcases hfollowed.charged_or_outcome (hfollowed.waiting caller table flight hwaiting)
    with ⟨builder, hcharge⟩ | ⟨outcome, houtcome⟩
  · obtain ⟨before, between, hbefore, hspares, hhanded⟩ :=
      hands ⟨events, hrun⟩ hresponsive hcharge
    have hother : caller ≠ builder := by
      rintro rfl
      obtain ⟨duty, hmine, -⟩ := hcharge
      simp [hwaiting, Activity.duty?] at hmine
    have hspared := hspares caller hother (by simp [hwaiting, Activity.holds?])
    obtain ⟨outcome, houtcome⟩ := hhanded.outcome
    exact .of_run hbefore
      (receives (hspared.calling.trans hcall) (hspared.activity.trans hwaiting) houtcome)
  · exact receives hcall hwaiting houtcome

/-- Who has looked a table up can be brought to be given something. -/
theorem obtains {task : GroupTask κ} {next : Except Unavailable Nat → Script}
    (hcall : system.calls caller = .getting task next) : GoesOn outlet system caller next := by
  cases hduty : (system.shared.callers caller).duty? with
  | some duty => exact obtains_of_inCharge hreach hresponsive hcall ⟨duty, hduty, rfl⟩
  | none =>
      have hfit := hreach.fits caller
      rw [hcall] at hfit
      generalize hactivity : system.shared.callers caller = activity at hfit hduty
      cases hfit with
      | getting hlookup =>
          cases activity with
          | waiting table flight => exact obtains_of_waiting hreach hresponsive hcall hactivity
          | releasing queue errand =>
              cases errand with
              | build table flight => simp [Activity.duty?, Errand.duty?] at hduty
              | answer given =>
                  obtain ⟨given, rfl⟩ := Option.isSome_iff_exists.mp hlookup
                  exact answers hreach hresponsive hcall hactivity
          | closing id queue errand =>
              cases errand with
              | build table flight => simp [Activity.duty?, Errand.duty?] at hduty
              | answer given =>
                  obtain ⟨given, rfl⟩ := Option.isSome_iff_exists.mp hlookup
                  obtain ⟨before, between, hbefore, -, -, hnow, hsame⟩ :=
                    closes hreach hresponsive hactivity
                  exact .of_run hbefore
                    (answers (hreach.run hbefore) hresponsive (hsame.trans hcall) hnow)
          | building | ending | publishing => simp [Activity.duty?] at hduty
          | idle | writing => exact absurd hlookup Bool.false_ne_true

/-- A call that holds a handle can be brought to be let in or refused, and to go on. -/
theorem uses {task : GroupTask κ} {id : Nat}
    {next : Except StoreError (Except StoreError WriteReport) → Script}
    (hcall : system.calls caller = .ready task (.use id next)) :
    GoesOn outlet system caller next := by
  have hidle := hreach.fits caller
  rw [hcall] at hidle
  obtain ⟨before, between, hbefore, -, hfree, hspared⟩ :=
    frees hreach hresponsive id (by rw [hidle.idle]; rfl)
  have hnow := hspared.activity.trans hidle.idle
  have hstill := hspared.calling.trans hcall
  have hbetween := hreach.run hbefore
  obtain ⟨handle, hhandle⟩ : ∃ handle, between.shared.cache.handle? id = some handle := by
    obtain ⟨events, hrun⟩ := hbetween
    exact hrun.handle_of_use hstill
  cases hclosed : handle.closed with
  | true =>
      have hmoves : (between.calls caller).Moves outlet between.shared.cache between.shared.cache
          caller (.refused caller id)
          (.ready task (next (.error (.writerClosed handle.table)))) := by
        rw [hstill]
        exact .refuse hhandle
      exact ⟨_, _, task, _, hbefore.step (.own (.refuse hnow hfree hhandle hclosed) rfl hmoves),
        Function.update_self ..⟩
  | false =>
      have hmoves : (between.calls caller).Moves outlet between.shared.cache between.shared.cache
          caller (.entered caller id) (.writing task id next) := by
        rw [hstill]
        exact .enter
      have hentered := Step.own (.enter hnow hfree hhandle hclosed) rfl hmoves
      have hwithin := hbetween.run (Run.nil.step hentered)
      obtain ⟨events, after, hrun, -, -, hleft⟩ :=
        leaves hwithin hresponsive (Function.update_self ..)
      obtain ⟨later, result, hafter⟩ := hleft task next (Function.update_self ..)
      exact ⟨_, after, later, _, (hbefore.step hentered).append hrun, hafter⟩

/-- A call that is to get a writer can be brought to be given something. -/
theorem gets {task : GroupTask κ} {next : Except Unavailable Nat → Script}
    (hcall : system.calls caller = .ready task (.get next)) :
    GoesOn outlet system caller next := by
  have hidle := hreach.fits caller
  rw [hcall] at hidle
  have hlook := @SharedCache.Step.look _ outlet.toOutside _ caller task.table hidle.idle
  generalize system.shared.cache.lookup task.table system.shared.clock = looked at hlook
  obtain ⟨found, cache⟩ := looked
  have hmoves (calling : Calling κ) (hcalling : (Calling.ready task (.get next)).Moves outlet
      system.shared.cache cache caller (.looked caller task.table found) calling) :=
    @Step.own κ ω outlet system _ _ caller calling hlook rfl (hcall ▸ hcalling)
  cases found with
  | hit id =>
      exact ⟨_, _, task, .ok id, Run.nil.step (hmoves _ .find), Function.update_self ..⟩
  | join flight | build flight expired =>
      have hlooked := Run.nil.step (hmoves _ (.look fun id => by simp))
      exact .of_run hlooked (obtains (hreach.run hlooked) hresponsive (Function.update_self ..))

/-- A call that has come to a script can be brought to return, by induction on the script. -/
theorem returns_of_script {task : GroupTask κ} (script : Script)
    (hcall : system.calls caller = .ready task script) : Returns outlet system caller := by
  induction script generalizing system task with
  | done answer =>
      exact ⟨_, _, answer, task.connection, Run.nil.step (.answer hcall), by simp⟩
  | get next ih =>
      obtain ⟨before, between, later, answer, hbefore, hnext⟩ := gets hreach hresponsive hcall
      exact .of_run hbefore (ih answer (hreach.run hbefore) hnext)
  | use id next ih =>
      obtain ⟨before, between, later, answer, hbefore, hnext⟩ := uses hreach hresponsive hcall
      exact .of_run hbefore (ih answer (hreach.run hbefore) hnext)

/-- Every call can be brought to return. -/
theorem returns (hcall : system.calls caller ≠ .away) : Returns outlet system caller := by
  have hfit := hreach.fits caller
  cases hcalling : system.calls caller with
  | away => exact absurd hcalling hcall
  | ready task script => exact returns_of_script hreach hresponsive script hcalling
  | getting task next =>
      obtain ⟨before, between, later, answer, hbefore, hnext⟩ :=
        obtains hreach hresponsive hcalling
      exact .of_run hbefore (returns_of_script (hreach.run hbefore) hresponsive _ hnext)
  | writing task id next =>
      rw [hcalling] at hfit
      obtain ⟨before, between, hbefore, -, -, hleft⟩ := leaves hreach hresponsive hfit.writes
      obtain ⟨later, result, hnext⟩ := hleft task next hcalling
      exact .of_run hbefore (returns_of_script (hreach.run hbefore) hresponsive _ hnext)

end WritingCache

end TableRouting
