import TableRouting.Proofs.Batch.GroupReturns

/-!
# Groups are written once

Whatever other callers do to the cache in the meantime, a call that writes a group looks its
table up at most twice.  It lets one writer of its table write, which is open and its alone
until it is done, or none.
-/

namespace TableRouting

variable {κ ω : Type}

open SharedCache (lookups entries refusals)

/-- The writer of a handle is a caller's alone: it is open, and whoever makes a step leaves it
open. -/
structure SharedCache.Keeps (outside : Outside ω) (shared : SharedCache ω) (caller id : Nat)
    (table : String) : Prop where
  isOpen : shared.cache.contents.IsOpen id table
  locked : shared.locks id = some caller
  stays : ∀ event after, Step outside shared event after → after.closed? id = some false

theorem SharedCache.Run.keeps {outside : Outside ω} {limits : CacheLimits} {clock : Nat}
    {events : List (CallEvent ω)} {shared : SharedCache ω} {caller id : Nat} {table : String}
    (hrun : Run outside (start limits clock) events shared)
    (hwriting : shared.callers caller = .writing id)
    (hbound : shared.cache.contents.IsBound id table) :
    shared.Keeps outside caller id table where
  isOpen := by
    obtain ⟨handle, hhandle, htable⟩ := hbound
    have hopen := hrun.accounted.guarded.writing caller id hwriting
    rw [closed?, hhandle, Option.map_some] at hopen
    exact ⟨handle, hhandle, htable, Option.some.inj hopen⟩
  locked := hrun.accounted.guarded.lock_eq hwriting
  stays := by
    intro event after hstep
    rw [hstep.closed?_eq hrun.accounted.sound, CallEvent.closed?, if_neg,
      hrun.accounted.guarded.writing caller id hwriting, ite_self]
    intro hretired
    -- Whoever closes it would need its lock.
    obtain ⟨-, hfree, -⟩ := hstep.of_retired hretired
    simp [hrun.accounted.guarded.lock_eq hwriting] at hfree

/-- What a call does that has not returned, by what happened to the cache since it began. -/
structure Proceeds (outlet : Outlet κ ω) (shared : SharedCache ω) (caller : Nat)
    (task : GroupTask κ) (done : List (CallEvent ω)) (calling : Calling κ) : Prop where
  lookups : lookups caller done ≤ 2
  entries : entries caller done ≤ 1
  keeps : ∀ own id next, calling = .writing own id next →
    own = task ∧ shared.Keeps outlet.toOutside caller id task.table

/-- What a call has done that has returned, by what happened to the cache in the meantime. -/
structure WritesOnce (outlet : Outlet κ ω) (initial : SharedCache ω) (caller : Nat)
    (task : GroupTask κ) (done : List (CallEvent ω)) (answer : GroupAnswer) (connection : κ) :
    Prop where
  ended : Ended outlet initial caller task done answer connection
  lookups : lookups caller done ≤ 2
  /-- A call that nobody interferes with is not refused, and writes unless there is no writer. -/
  alone : (∀ event ∈ done, ∀ other, event.caller? = some other → other = caller) →
    SharedCache.lookups caller done ≤ 1 ∧ refusals caller done = 0 ∧
      ∀ result, answer = .ok result → entries caller done = 1

variable {outlet : Outlet κ ω} {limits : CacheLimits} {initial shared : SharedCache ω}
  {caller clock : Nat} {task : GroupTask κ} {past done : List (CallEvent ω)} {calling : Calling κ}
  {answer : GroupAnswer} {connection : κ}

theorem Ended.entries_le (hended : Ended outlet initial caller task done answer connection) :
    entries caller done ≤ 1 := by
  cases hended with
  | written hdone hlast hhandle htable hopen hwrites hentries => exact Nat.le_of_eq hentries
  | unbuilt hreason hentries | refused hne hfirst hsecond hentries =>
      exact hentries ▸ Nat.zero_le 1

namespace Stage

theorem proceeds (hstage : Stage outlet initial caller task done shared calling)
    (hfits : calling.Fits (shared.callers caller))
    (hrun : SharedCache.Run outlet.toOutside (.start limits clock) past shared) :
    Proceeds outlet shared caller task done calling := by
  cases hstage with
  | ready htried hretries | getting htried hretries | holding htried hretries =>
      exact ⟨by rw [htried.lookups]; omega, by rw [htried.entries]; omega, by simp⟩
  | writing htried hretries hbound =>
      refine ⟨by rw [htried.lookups]; omega, Nat.le_of_eq htried.entries, ?_⟩
      rintro own id next hcall
      cases hcall
      exact ⟨rfl, hrun.keeps hfits.writes hbound⟩
  | done htried hlooked hlookups hended =>
      exact ⟨htried.lookups ▸ hlookups, hended.entries_le, by simp⟩

theorem writesOnce {own : GroupTask κ}
    (hstage : Stage outlet initial caller task done shared (.ready own (.done answer))) :
    WritesOnce outlet initial caller task done answer own.connection := by
  cases hstage with
  | done htried hlooked hlookups hended =>
      refine ⟨hended, htried.lookups ▸ hlookups, fun halone => ?_⟩
      obtain rfl := htried.eq_nil halone
      refine ⟨htried.lookups ▸ hlooked, htried.refusals, ?_⟩
      rintro result rfl
      cases hended with
      | written hdone hlast hhandle htable hopen hwrites hentries => exact hentries
      | refused hne hfirst hsecond hentries =>
          obtain ⟨other, hother, hclosing⟩ := hfirst.exists_closing
          exact absurd (halone _ hclosing other rfl) hother

end Stage

namespace WritingCache

variable {first system : WritingCache κ ω} {events before : List (GroupEvent κ ω)}
  {event : GroupEvent κ ω}

/-- A run comes by each of its steps. -/
theorem Run.split {rest : List (GroupEvent κ ω)}
    (hrun : Run outlet first (before ++ event :: rest) system) :
    ∃ earlier later, Run outlet first before earlier ∧ Step outlet earlier event later := by
  generalize hevents : before ++ event :: rest = events at hrun
  induction hrun generalizing rest with
  | nil => simp at hevents
  | step hrun hstep ih =>
      rcases List.eq_nil_or_concat' rest with rfl | ⟨front, last, rfl⟩
      · obtain ⟨rfl, hlast⟩ := List.append_inj' hevents rfl
        obtain rfl := (List.cons.inj hlast).1
        exact ⟨_, _, hrun, hstep⟩
      · rw [← List.cons_append, ← List.append_assoc] at hevents
        exact ih (List.append_inj' hevents rfl).1

/-- How groups are written in a run from an empty cache. -/
structure WritesGroups (outlet : Outlet κ ω) (limits : CacheLimits) (clock : Nat)
    (events : List (GroupEvent κ ω)) (system : WritingCache κ ω) : Prop where
  /-- What a call carries out step by step is what the coordinator does in one go. -/
  script : ∀ (m : Type → Type) [Monad m] [LawfulMonad m] (coordinator : Coordinator m κ ω)
    (table : String) (records : List Record),
    (Script.tries 1).run coordinator table records = coordinator.writeGroup table records
  proceeds : ∀ caller, system.calls caller ≠ .away → ∃ before task middle initial,
    Underway outlet limits clock events caller before task middle initial system.shared ∧
      Proceeds outlet system.shared caller task (trace middle) (system.calls caller)
  returned : ∀ front caller answer connection rest,
    events = front ++ .returned caller answer connection :: rest →
      ∃ before task middle initial last,
        Underway outlet limits clock front caller before task middle initial last ∧
          WritesOnce outlet initial caller task (trace middle) answer connection
  returns : outlet.Responsive → ∀ caller, system.calls caller ≠ .away →
    Returns outlet system caller

/-- Groups are written once, whatever the callers do and in whatever order. -/
theorem Run.writesGroups (hrun : Run outlet (start limits clock) events system) :
    WritesGroups outlet limits clock events system where
  script := fun _ _ _ coordinator table records =>
    Script.run_tries_one coordinator table records
  proceeds := by
    intro caller hcall
    obtain ⟨hunderway, hstage⟩ := hrun.staged hcall
    exact ⟨_, _, _, _, hunderway, hstage.proceeds (hrun.fits caller) hrun.shared⟩
  returned := by
    rintro front caller answer connection rest rfl
    obtain ⟨earlier, later, hfront, hstep⟩ := hrun.split
    cases hstep with
    | answer hcall =>
        have haway : earlier.calls caller ≠ .away := by simp [hcall]
        obtain ⟨hunderway, hstage⟩ := hfront.staged haway
        rw [hcall] at hstage
        exact ⟨_, _, _, _, _, hunderway, hstage.writesOnce⟩
  returns := fun hresponsive _ hcall => returns ⟨events, hrun⟩ hresponsive hcall

/-- Writers without state, which count on the connection how often they write. -/
def tallying : Outlet Nat Unit where
  builds := fun _ _ => True
  uses := fun _ _ => True
  closes := fun _ _ => True
  writes := fun _ _ connection result _ later => result = .ok {} ∧ later = connection + 1
  uses_of_writes := fun _ => trivial

/-- A call loses its writer to an invalidation before it comes to use it, and writes through
the next one.  Another call has begun when it returns. -/
theorem Run.writesGroups_refusedOnce :
    ∃ (events : List (GroupEvent Nat Unit)) (system : WritingCache Nat Unit),
      Run tallying (start { capacity := 0 } 0) events system ∧
        .worked (.refused 0 1) ∈ events ∧ .worked (.left 0 2) ∈ events ∧
        .returned 0 (.ok (.ok {})) 1 ∈ events ∧ system.calls 2 ≠ .away ∧
        tallying.Responsive ∧
        WritesGroups tallying { capacity := 0 } 0 events system := by
  let empty : WritingCache Nat Unit := start { capacity := 0 } 0
  let task : GroupTask Nat := ⟨"orders", [], 0⟩
  -- Caller 0 builds a writer.
  have hbegun := Run.nil.step (@Step.begin _ _ tallying empty 0 task rfl rfl)
  have hlooked := hbegun.step (.own (@SharedCache.Step.look_unmarked _ _ _ 0 "orders" rfl
    Std.HashMap.getElem?_empty) rfl (@Calling.Moves.look _ _ _ _ _ _ task _ _ (by simp)))
  have hcalled := hlooked.step (.own (@SharedCache.Step.call _ _ _ 0 "orders" 0 rfl) rfl
    (.wait rfl))
  have hdelivered := hcalled.step (.own (@SharedCache.Step.deliver _ _ _ 0 "orders" 0 (.built ())
    rfl trivial) rfl (.wait rfl))
  have hended := hdelivered.step (.own (@SharedCache.Step.finish _ _ _ 0 "orders" 0 (.ok ()) _ _ _
    rfl (WriterCache.finish_first (WriterCache.isCurrent_beginFlight _ _) rfl () _)) rfl
    (.wait rfl))
  have hpublished := hended.step (.own (@SharedCache.Step.publish _ _ _ 0 0 _ _ _ rfl) rfl
    (.wait rfl))
  have hanswered := hpublished.step (.own (@SharedCache.Step.answer _ _ _ 0 _ rfl) rfl
    (.obtain rfl))
  -- Caller 1 invalidates the cache and closes it.
  have hinvalidated := hanswered.step (.own (@SharedCache.Step.invalidate _ _ _ 1 rfl) rfl
    .elsewhere)
  have hclosing := hinvalidated.step (.own (@SharedCache.Step.beginClose _ _ _ 1 1 _ _ () _ rfl rfl
    rfl) rfl .elsewhere)
  have hclosed := hclosing.step (.own (@SharedCache.Step.endClose _ _ _ 1 1 _ _ _ () (.ok ()) rfl
    rfl trivial) rfl .elsewhere)
  -- Caller 0 is refused and builds another one.
  have hrefused := hclosed.step (.own (@SharedCache.Step.refuse _ _ _ 0 1 _ rfl rfl rfl rfl) rfl
    (.refuse rfl))
  have hagain := hrefused.step (.own (@SharedCache.Step.look_unmarked _ _ _ 0 "orders" rfl
    Std.HashMap.getElem?_empty) rfl (@Calling.Moves.look _ _ _ _ _ _ task _ _ (by simp)))
  have hrecalled := hagain.step (.own (@SharedCache.Step.call _ _ _ 0 "orders" 1 rfl) rfl
    (.wait rfl))
  have hrebuilt := hrecalled.step (.own (@SharedCache.Step.deliver _ _ _ 0 "orders" 1 (.built ())
    rfl trivial) rfl (.wait rfl))
  have hready := hrebuilt.step (.own (@SharedCache.Step.finish _ _ _ 0 "orders" 1 (.ok ()) _ _ _
    rfl (WriterCache.finish_first (WriterCache.isCurrent_beginFlight _ _) rfl () _)) rfl
    (.wait rfl))
  have hshown := hready.step (.own (@SharedCache.Step.publish _ _ _ 0 1 _ _ _ rfl) rfl
    (.wait rfl))
  have hobtained := hshown.step (.own (@SharedCache.Step.answer _ _ _ 0 _ rfl) rfl (.obtain rfl))
  have hentered := hobtained.step (.own (@SharedCache.Step.enter _ _ _ 0 2 _ rfl rfl rfl rfl) rfl
    .enter)
  have hleft := hentered.step (.own (@SharedCache.Step.leave _ _ _ 0 2 _ () rfl rfl trivial) rfl
    (.leave rfl ⟨rfl, rfl⟩ rfl))
  -- Caller 2 begins a call.
  have hother := hleft.step (@Step.begin _ _ tallying _ 2 task rfl rfl)
  have hreturned := hother.step (@Step.answer _ _ tallying _ 0 ⟨"orders", [], 1⟩ _ rfl)
  refine ⟨_, _, hreturned, by simp, by simp, by simp, by simp [go], ?_, hreturned.writesGroups⟩
  exact ⟨fun _ => ⟨.panicked, trivial⟩, fun _ => ⟨(), trivial⟩, fun _ => ⟨(), trivial⟩,
    fun _ _ connection => ⟨_, (), connection + 1, rfl, rfl⟩⟩

end WritingCache

end TableRouting
