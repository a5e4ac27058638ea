import TableRouting.Batch.Coordinator
import TableRouting.Proofs.Cache.Supply

/-!
# Calls that write groups

A call that writes a group gets the writer of its table and uses it, and does so once more
if the writer refuses.  Between its own steps other callers may do what they like with the
cache: get writers, use them, sweep the cache, invalidate it.  What a call does is a script,
which is the coordinator's when it is carried out in one go, and which is carried out step
by step among the steps of the others.
-/

namespace TableRouting

variable {m : Type → Type} {κ ω : Type}

abbrev GroupAnswer := Except Unavailable (Except StoreError WriteReport)

/-- What a call that writes a group has still to do. -/
inductive Script where
  | done (answer : GroupAnswer)
  /-- Get the writer of the table. -/
  | get (next : Except Unavailable Nat → Script)
  /-- Write the group through the writer of a handle, which may refuse. -/
  | use (handle : Nat) (next : Except StoreError (Except StoreError WriteReport) → Script)

namespace Script

/-- What follows the use of a writer. -/
def used (refused : StoreError → Script) :
    Except StoreError (Except StoreError WriteReport) → Script
  | .error closed => refused closed
  | .ok answer => done (.ok answer)

def found (refused : StoreError → Script) : Except Unavailable Nat → Script
  | .error reason => done (.error reason)
  | .ok handle => use handle (used refused)

/-- What follows a refusal, when a number of retries is left. -/
def refused : Nat → StoreError → Script
  | 0, closed => done (.ok (.error closed))
  | retries + 1, _ => get (found (refused retries))

def tries (retries : Nat) : Script := get (found (refused retries))

variable [Monad m] (coordinator : Coordinator m κ ω) (table : String) (records : List Record)

def run : Script → StateT κ (CacheT ω m) GroupAnswer
  | done answer => pure answer
  | get next => fun connection => do
    let answer ← coordinator.store.get table
    run (next answer) connection
  | use handle next => fun connection => do
    match ← Workshop.withWriter handle (coordinator.useWriter records connection) with
    | .error closed => run (next (.error closed)) connection
    | .ok (answer, connection) => run (next (.ok answer)) connection

variable [LawfulMonad m]

/-- A lookup and the use of what it gave are one attempt. -/
theorem run_get_found (refused : StoreError → Script) :
    (get (found refused)).run coordinator table records =
      (do
        match ← coordinator.writeOnce table records with
        | .unavailable reason => pure (.error reason)
        | .answered answer => pure (.ok answer)
        | .refused closed => (refused closed).run coordinator table records) := by
  funext connection
  have hbind (f : Coordinator.Attempt → StateT κ (CacheT ω m) GroupAnswer) :
      (coordinator.writeOnce table records >>= f) connection =
        coordinator.writeOnce table records connection >>= fun ended => f ended.1 ended.2 := rfl
  rw [hbind, Coordinator.writeOnce, bind_assoc, run]
  apply bind_congr
  intro answer
  cases answer with
  | error reason =>
      rw [pure_bind]
      rfl
  | ok handle =>
      rw [bind_assoc, found, run]
      apply bind_congr
      intro ended
      cases ended with
      | error closed =>
          rw [pure_bind]
          rfl
      | ok written =>
          rw [pure_bind]
          rfl

/-- A group is written with one retry. -/
theorem run_tries_one :
    (tries 1).run coordinator table records = coordinator.writeGroup table records := by
  rw [tries, run_get_found, Coordinator.writeGroup]
  apply bind_congr
  intro attempt
  cases attempt with
  | unavailable reason => rfl
  | answered answer => rfl
  | refused closed => exact run_get_found coordinator table records (refused 0)

end Script

namespace CallEvent

/-- A step begins a lookup, or is about the use of a writer. -/
def isTry : CallEvent ω → Bool
  | looked _ _ _ => true
  | entered _ _ => true
  | refused _ _ => true
  | _ => false

end CallEvent

def Errand.inLookup : Errand → Bool
  | build _ _ => true
  | answer given => given.isSome

def Activity.inLookup : Activity ω → Bool
  | waiting _ _ => true
  | releasing _ errand => errand.inLookup
  | closing _ _ errand => errand.inLookup
  | building _ _ => true
  | ending _ _ _ => true
  | publishing _ _ _ _ => true
  | _ => false

namespace SharedCache

variable {outside : Outside ω} {shared after : SharedCache ω} {event : CallEvent ω} {caller : Nat}

/-- A caller in the middle of a lookup goes on with it, or is given something. -/
theorem Step.inLookup (hstep : Step outside shared event after)
    (hcaller : event.caller? = some caller)
    (hlookup : (shared.callers caller).inLookup = true) :
    event.isTry = false ∧
      ((event.gives? = none ∧ (after.callers caller).inLookup = true) ∨
        (event.gives?.isSome ∧ after.callers caller = .idle)) := by
  cases hstep with
  | tick hnow => simp [CallEvent.caller?] at hcaller
  | receive hbusy houtcome =>
      obtain rfl := Option.some.inj hcaller
      exact ⟨rfl, Or.inr ⟨rfl, callers_put_self ..⟩⟩
  | answer hbusy =>
      obtain rfl := Option.some.inj hcaller
      rw [hbusy] at hlookup
      exact ⟨rfl, Or.inr ⟨hlookup, callers_put_self ..⟩⟩
  | beginClose hbusy | endClose hbusy | skip hbusy =>
      obtain rfl := Option.some.inj hcaller
      rw [hbusy] at hlookup
      simp only [callers_lock, callers_put_self]
      exact ⟨rfl, Or.inl ⟨rfl, hlookup⟩⟩
  | call hbusy | deliver hbusy | finish hbusy | abandon hbusy | publish hbusy =>
      obtain rfl := Option.some.inj hcaller
      rw [callers_put_self]
      exact ⟨rfl, Or.inl ⟨rfl, rfl⟩⟩
  | look hother | sweep hother | invalidate hother | enter hother | refuse hother
  | leave hother | peek hother =>
      obtain rfl := Option.some.inj hcaller
      rw [hother] at hlookup
      exact absurd hlookup Bool.false_ne_true

end SharedCache

/-- What the outside may do, and what comes of writing a group through a writer. -/
structure Outlet (κ ω : Type) extends Outside ω where
  writes : ω → List Record → κ → Except StoreError WriteReport → ω → κ → Prop
  /-- To write a group is a use of the writer. -/
  uses_of_writes : ∀ {writer written : ω} {records : List Record} {connection later : κ}
    {result : Except StoreError WriteReport},
    writes writer records connection result written later → uses writer written

/-- A group that is to be written on a connection. -/
structure GroupTask (κ : Type) where
  table : String
  records : List Record
  connection : κ

/-- How far the call of a caller has come. -/
inductive Calling (κ : Type) where
  /-- There is no such call. -/
  | away
  | ready (task : GroupTask κ) (script : Script)
  /-- It has looked its table up, and has not been given a writer yet. -/
  | getting (task : GroupTask κ) (next : Except Unavailable Nat → Script)
  /-- The group is being written through the writer of a handle. -/
  | writing (task : GroupTask κ) (handle : Nat)
      (next : Except StoreError (Except StoreError WriteReport) → Script)

/-- What a step of its caller makes of a call, in a cache before and after that step. -/
inductive Calling.Moves (outlet : Outlet κ ω) (cache later : WriterCache ω) (caller : Nat) :
    Calling κ → CallEvent ω → Calling κ → Prop
  | elsewhere {event : CallEvent ω} : Moves outlet cache later caller .away event .away
  | find {task : GroupTask κ} {next : Except Unavailable Nat → Script} {id : Nat} :
      Moves outlet cache later caller (.ready task (.get next))
        (.looked caller task.table (.hit id)) (.ready task (next (.ok id)))
  | look {task : GroupTask κ} {next : Except Unavailable Nat → Script}
      {found : WriterCache.Lookup} (hfound : ∀ id, found ≠ .hit id) :
      Moves outlet cache later caller (.ready task (.get next))
        (.looked caller task.table found) (.getting task next)
  | wait {task : GroupTask κ} {next : Except Unavailable Nat → Script} {event : CallEvent ω}
      (hgives : event.gives? = none) :
      Moves outlet cache later caller (.getting task next) event (.getting task next)
  | obtain {task : GroupTask κ} {next : Except Unavailable Nat → Script} {event : CallEvent ω}
      {answer : Except Unavailable Nat} (hgives : event.gives? = some answer) :
      Moves outlet cache later caller (.getting task next) event (.ready task (next answer))
  | enter {task : GroupTask κ} {id : Nat}
      {next : Except StoreError (Except StoreError WriteReport) → Script} :
      Moves outlet cache later caller (.ready task (.use id next)) (.entered caller id)
        (.writing task id next)
  | refuse {task : GroupTask κ} {id : Nat}
      {next : Except StoreError (Except StoreError WriteReport) → Script}
      {handle : WriterHandle ω} (hhandle : cache.handle? id = some handle) :
      Moves outlet cache later caller (.ready task (.use id next)) (.refused caller id)
        (.ready task (next (.error (.writerClosed handle.table))))
  | leave {task : GroupTask κ} {id : Nat}
      {next : Except StoreError (Except StoreError WriteReport) → Script}
      {handle : WriterHandle ω} {result : Except StoreError WriteReport} {written : ω}
      {connection : κ} (hhandle : cache.handle? id = some handle)
      (hwrites : outlet.writes handle.writer task.records task.connection result written
        connection)
      (hwritten : later.handle? id = some { handle with writer := written }) :
      Moves outlet cache later caller (.writing task id next) (.left caller id)
        (.ready { task with connection } (next (.ok result)))

/-- What a step is seen as while callers write groups. -/
inductive GroupEvent (κ ω : Type) where
  /-- A step of the shared cache. -/
  | worked (event : CallEvent ω)
  | began (caller : Nat) (task : GroupTask κ)
  | returned (caller : Nat) (answer : GroupAnswer) (connection : κ)

namespace GroupEvent

def shared? : GroupEvent κ ω → Option (CallEvent ω)
  | worked event => some event
  | _ => none

def bounds? : GroupEvent κ ω → Option Nat
  | worked _ => none
  | began caller _ => some caller
  | returned caller _ _ => some caller

end GroupEvent

/-- A shared cache whose callers may be in calls that write groups. -/
structure WritingCache (κ ω : Type) where
  shared : SharedCache ω
  calls : Nat → Calling κ

namespace WritingCache

def start (limits : CacheLimits) (clock : Nat) : WritingCache κ ω where
  shared := .start limits clock
  calls := fun _ => .away

def go (system : WritingCache κ ω) (caller : Nat) (calling : Calling κ) : WritingCache κ ω :=
  { system with calls := Function.update system.calls caller calling }

/-- One step of callers that write groups. -/
inductive Step (outlet : Outlet κ ω) (system : WritingCache κ ω) :
    GroupEvent κ ω → WritingCache κ ω → Prop
  | work {event : CallEvent ω} {after : SharedCache ω} {calls : Nat → Calling κ}
      (hstep : SharedCache.Step outlet.toOutside system.shared event after)
      (hmoves : ∀ caller, event.caller? = some caller →
        (system.calls caller).Moves outlet system.shared.cache after.cache caller event
          (calls caller))
      (hothers : ∀ caller, event.caller? ≠ some caller → calls caller = system.calls caller) :
      Step outlet system (.worked event) ⟨after, calls⟩
  | begin {caller : Nat} {task : GroupTask κ} (haway : system.calls caller = .away)
      (hidle : system.shared.callers caller = .idle) :
      Step outlet system (.began caller task) (system.go caller (.ready task (.tries 1)))
  | answer {caller : Nat} {task : GroupTask κ} {answer : GroupAnswer}
      (hcall : system.calls caller = .ready task (.done answer)) :
      Step outlet system (.returned caller answer task.connection) (system.go caller .away)

/-- A caller makes a step in its call. -/
theorem Step.own {outlet : Outlet κ ω} {system : WritingCache κ ω} {event : CallEvent ω}
    {after : SharedCache ω} {caller : Nat} {next : Calling κ}
    (hstep : SharedCache.Step outlet.toOutside system.shared event after)
    (hcaller : event.caller? = some caller)
    (hmoves : (system.calls caller).Moves outlet system.shared.cache after.cache caller event
      next) :
    Step outlet system (.worked event) ⟨after, Function.update system.calls caller next⟩ := by
  refine .work hstep ?_ ?_
  · intro other hother
    obtain rfl := Option.some.inj (hcaller.symm.trans hother)
    rwa [Function.update_self]
  · rintro other hother
    apply Function.update_of_ne
    rintro rfl
    exact hother hcaller

/-- The steps that lead from one system to another. -/
inductive Run (outlet : Outlet κ ω) (first : WritingCache κ ω) :
    List (GroupEvent κ ω) → WritingCache κ ω → Prop
  | nil : Run outlet first [] first
  | step {events : List (GroupEvent κ ω)} {event : GroupEvent κ ω}
      {system after : WritingCache κ ω} (hrun : Run outlet first events system)
      (hstep : Step outlet system event after) :
      Run outlet first (events ++ [event]) after

def trace (events : List (GroupEvent κ ω)) : List (CallEvent ω) :=
  events.filterMap GroupEvent.shared?

variable {outlet : Outlet κ ω} {first system after : WritingCache κ ω}
  {events : List (GroupEvent κ ω)} {event : GroupEvent κ ω}

theorem trace_concat (events : List (GroupEvent κ ω)) (event : GroupEvent κ ω) :
    trace (events ++ [event]) = trace events ++ event.shared?.toList := by
  rw [trace, trace, List.filterMap_append]
  cases event <;> rfl

/-- Calls are made of steps of the shared cache. -/
theorem Run.shared (hrun : Run outlet first events system) :
    SharedCache.Run outlet.toOutside first.shared (trace events) system.shared := by
  induction hrun with
  | nil => exact .nil
  | step hrun hstep ih =>
      rw [trace_concat]
      cases hstep with
      | work hstep hmoves hothers => exact ih.step hstep
      | begin haway hidle | answer hcall =>
          simpa [GroupEvent.shared?, go] using ih

end WritingCache

/-- What the caller of a call is in the middle of. -/
inductive Calling.Fits : Calling κ → Activity ω → Prop
  | away {activity : Activity ω} : Fits .away activity
  | ready {task : GroupTask κ} {script : Script} : Fits (.ready task script) .idle
  | getting {task : GroupTask κ} {next : Except Unavailable Nat → Script}
      {activity : Activity ω} (hlookup : activity.inLookup = true) :
      Fits (.getting task next) activity
  | writing {task : GroupTask κ} {id : Nat}
      {next : Except StoreError (Except StoreError WriteReport) → Script} :
      Fits (.writing task id next) (.writing id)

namespace Calling

theorem Fits.idle {task : GroupTask κ} {script : Script} {activity : Activity ω}
    (hfits : (Calling.ready task script).Fits activity) : activity = .idle := by
  cases hfits with
  | ready => rfl

theorem Fits.writes {task : GroupTask κ} {id : Nat}
    {next : Except StoreError (Except StoreError WriteReport) → Script} {activity : Activity ω}
    (hfits : (Calling.writing task id next).Fits activity) : activity = .writing id := by
  cases hfits with
  | writing => rfl

variable {outlet : Outlet κ ω} {shared after : SharedCache ω} {event : CallEvent ω}
  {caller : Nat} {calling next : Calling κ}

theorem Moves.fits (hfits : calling.Fits (shared.callers caller))
    (hstep : SharedCache.Step outlet.toOutside shared event after)
    (hcaller : event.caller? = some caller)
    (hmoves : calling.Moves outlet shared.cache after.cache caller event next) :
    next.Fits (after.callers caller) := by
  cases hmoves with
  | elsewhere => exact .away
  | find =>
      rw [hstep.callers_of_looked]
      exact .ready
  | @look task script found hfound =>
      refine .getting ?_
      rw [hstep.callers_of_looked]
      cases found with
      | hit id => exact absurd rfl (hfound id)
      | join flight | build flight expired => rfl
  | wait hgives =>
      cases hfits with
      | getting hlookup =>
          obtain ⟨-, ⟨-, hstill⟩ | ⟨hgiven, -⟩⟩ := hstep.inLookup hcaller hlookup
          · exact .getting hstill
          · simp [hgives] at hgiven
  | obtain hgives =>
      cases hfits with
      | getting hlookup =>
          obtain ⟨-, ⟨hnone, -⟩ | ⟨-, hidle⟩⟩ := hstep.inLookup hcaller hlookup
          · simp [hgives] at hnone
          · rw [hidle]
            exact .ready
  | enter =>
      cases hstep with
      | enter hidle hfree hhandle hopen =>
          rw [SharedCache.callers_lock, SharedCache.callers_put_self]
          exact .writing
  | refuse hhandle =>
      cases hstep with
      | refuse hidle hfree hfound hclosed =>
          rw [hidle]
          exact .ready
  | leave hhandle hwrites hwritten =>
      cases hstep with
      | leave hbusy hfound huses =>
          rw [SharedCache.callers_lock, SharedCache.callers_put_self]
          exact .ready

end Calling

namespace WritingCache

variable {outlet : Outlet κ ω} {first system after : WritingCache κ ω}
  {events : List (GroupEvent κ ω)} {event : GroupEvent κ ω}

@[simp]
theorem calls_go_self (system : WritingCache κ ω) (caller : Nat) (calling : Calling κ) :
    (system.go caller calling).calls caller = calling :=
  Function.update_self ..

theorem calls_go_of_ne {other caller : Nat} (hother : other ≠ caller)
    (system : WritingCache κ ω) (calling : Calling κ) :
    (system.go caller calling).calls other = system.calls other :=
  Function.update_of_ne hother ..

/-- Every caller is in the middle of what its call has come to. -/
def Fits (system : WritingCache κ ω) : Prop :=
  ∀ caller, (system.calls caller).Fits (system.shared.callers caller)

theorem Fits.go {caller : Nat} {calling : Calling κ} (hfits : system.Fits)
    (hcaller : calling.Fits (system.shared.callers caller)) :
    (system.go caller calling).Fits := by
  intro other
  by_cases hother : other = caller
  · subst hother
    rwa [calls_go_self]
  · rw [calls_go_of_ne hother]
    exact hfits other

theorem Fits.step (hfits : system.Fits) (hstep : Step outlet system event after) :
    after.Fits := by
  cases hstep with
  | @work event shared calls hstep hmoves hothers =>
      intro caller
      by_cases hcaller : event.caller? = some caller
      · exact (hmoves caller hcaller).fits (hfits caller) hstep hcaller
      · change (calls caller).Fits (shared.callers caller)
        rw [hothers caller hcaller, hstep.callers_eq hcaller]
        exact hfits caller
  | begin haway hidle =>
      apply hfits.go
      rw [hidle]
      exact .ready
  | answer hcall => exact hfits.go .away

theorem Run.fits {limits : CacheLimits} {clock : Nat}
    (hrun : Run outlet (start limits clock) events system) : system.Fits := by
  induction hrun with
  | nil => exact fun _ => .away
  | step hrun hstep ih => exact ih.step hstep

end WritingCache

end TableRouting
