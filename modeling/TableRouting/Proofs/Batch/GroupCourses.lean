import TableRouting.Proofs.Batch.GroupCalls

/-!
# How calls that write groups end

A call ends by what the first writer answered that let it in.  It is not let in if a
construction fails, or if it is refused twice: then two different writers of its table were
cached after it had looked the table up, and others have taken them out of the cache and
closed them before it came to use them.
-/

namespace TableRouting

variable {κ ω : Type}

namespace CallEvent

def looksUp (caller : Nat) : CallEvent ω → Bool
  | looked other _ _ => other = caller
  | _ => false

def enters (caller : Nat) : CallEvent ω → Bool
  | entered other _ => other = caller
  | _ => false

def turnsAway (caller : Nat) : CallEvent ω → Bool
  | refused other _ => other = caller
  | _ => false

end CallEvent

namespace SharedCache

def lookups (caller : Nat) (events : List (CallEvent ω)) : Nat :=
  events.countP fun event => event.looksUp caller

def entries (caller : Nat) (events : List (CallEvent ω)) : Nat :=
  events.countP fun event => event.enters caller

def refusals (caller : Nat) (events : List (CallEvent ω)) : Nat :=
  events.countP fun event => event.turnsAway caller

/-- What a caller has tried, and the handles that it has lost. -/
structure Tried (outside : Outside ω) (initial : SharedCache ω) (caller : Nat) (table : String)
    (done : List (CallEvent ω)) (gone : List Nat) (looked entered : Nat) : Prop where
  lost : ∀ id ∈ gone, Lost outside initial caller table id done
  nodup : gone.Nodup
  lookups : lookups caller done = looked
  entries : entries caller done = entered
  refusals : refusals caller done = gone.length

namespace Tried

variable {outside : Outside ω} {initial : SharedCache ω} {caller : Nat} {table : String}
  {done : List (CallEvent ω)} {gone : List Nat} {looked entered : Nat} {event : CallEvent ω}

theorem start (outside : Outside ω) (initial : SharedCache ω) (caller : Nat) (table : String) :
    Tried outside initial caller table [] [] 0 0 where
  lost := by simp
  nodup := List.nodup_nil
  lookups := rfl
  entries := rfl
  refusals := rfl

/-- A step that is no try of the caller. -/
theorem keep (htried : Tried outside initial caller table done gone looked entered)
    (event : CallEvent ω) (hkeeps : event.caller? = some caller → event.isTry = false) :
    Tried outside initial caller table (done ++ [event]) gone looked entered where
  lost := fun id hid => (htried.lost id hid).append [event]
  nodup := htried.nodup
  lookups := by
    have hlooks : event.looksUp caller = false := by
      cases event <;> simp_all [CallEvent.looksUp, CallEvent.caller?, CallEvent.isTry]
    simpa [SharedCache.lookups, hlooks] using htried.lookups
  entries := by
    have henters : event.enters caller = false := by
      cases event <;> simp_all [CallEvent.enters, CallEvent.caller?, CallEvent.isTry]
    simpa [SharedCache.entries, henters] using htried.entries
  refusals := by
    have hturns : event.turnsAway caller = false := by
      cases event <;> simp_all [CallEvent.turnsAway, CallEvent.caller?, CallEvent.isTry]
    simpa [SharedCache.refusals, hturns] using htried.refusals

theorem other (htried : Tried outside initial caller table done gone looked entered)
    (hcaller : event.caller? ≠ some caller) :
    Tried outside initial caller table (done ++ [event]) gone looked entered :=
  htried.keep event fun hmine => absurd hmine hcaller

theorem look (htried : Tried outside initial caller table done gone looked entered)
    (place : String) (found : WriterCache.Lookup) :
    Tried outside initial caller table (done ++ [.looked caller place found]) gone (looked + 1)
      entered where
  lost := fun id hid => (htried.lost id hid).append _
  nodup := htried.nodup
  lookups := by
    rw [SharedCache.lookups, List.countP_append, ← SharedCache.lookups, htried.lookups]
    simp [CallEvent.looksUp]
  entries := by simpa [SharedCache.entries, CallEvent.enters] using htried.entries
  refusals := by simpa [SharedCache.refusals, CallEvent.turnsAway] using htried.refusals

theorem enter (htried : Tried outside initial caller table done gone looked entered) (id : Nat) :
    Tried outside initial caller table (done ++ [.entered caller id]) gone looked
      (entered + 1) where
  lost := fun id hid => (htried.lost id hid).append _
  nodup := htried.nodup
  lookups := by simpa [SharedCache.lookups, CallEvent.looksUp] using htried.lookups
  entries := by
    rw [SharedCache.entries, List.countP_append, ← SharedCache.entries, htried.entries]
    simp [CallEvent.enters]
  refusals := by simpa [SharedCache.refusals, CallEvent.turnsAway] using htried.refusals

theorem refuse (htried : Tried outside initial caller table done gone looked entered) {id : Nat}
    (hlost : Lost outside initial caller table id (done ++ [.refused caller id]))
    (hnew : id ∉ gone) :
    Tried outside initial caller table (done ++ [.refused caller id]) (id :: gone) looked
      entered where
  lost := by
    intro other hother
    rcases List.mem_cons.mp hother with rfl | hold
    · exact hlost
    · exact (htried.lost other hold).append _
  nodup := List.nodup_cons.mpr ⟨hnew, htried.nodup⟩
  lookups := by simpa [SharedCache.lookups, CallEvent.looksUp] using htried.lookups
  entries := by simpa [SharedCache.entries, CallEvent.enters] using htried.entries
  refusals := by
    rw [SharedCache.refusals, List.countP_append, ← SharedCache.refusals, htried.refusals]
    simp [CallEvent.turnsAway]

/-- Nobody else makes a step. -/
theorem eq_nil (htried : Tried outside initial caller table done gone looked entered)
    (halone : ∀ event ∈ done, ∀ other, event.caller? = some other → other = caller) :
    gone = [] := by
  apply List.eq_nil_iff_forall_not_mem.mpr
  intro id hid
  obtain ⟨other, hother, hclosing⟩ := (htried.lost id hid).exists_closing
  exact hother (halone _ hclosing other rfl)

end Tried

/-- A caller looked a table up, when the writers that it had lost before were closed. -/
inductive Asked (outside : Outside ω) (initial : SharedCache ω) (caller : Nat) (table : String)
    (gone : List Nat) (found : WriterCache.Lookup) (later : SharedCache ω)
    (since : List (CallEvent ω)) : List (CallEvent ω) → Prop
  | intro {front : List (CallEvent ω)} {earlier : SharedCache ω}
      (hfront : Run outside initial front earlier)
      (hlook : Step outside earlier (.looked caller table found) later)
      (hgone : ∀ id ∈ gone, earlier.closed? id = some true) :
      Asked outside initial caller table gone found later since
        (front ++ .looked caller table found :: since)

theorem Asked.concat {outside : Outside ω} {initial later : SharedCache ω} {caller : Nat}
    {table : String} {gone : List Nat} {found : WriterCache.Lookup}
    {since done : List (CallEvent ω)}
    (hasked : Asked outside initial caller table gone found later since done)
    (event : CallEvent ω) :
    Asked outside initial caller table gone found later (since ++ [event]) (done ++ [event]) := by
  cases hasked with
  | intro hfront hlook hgone =>
      rw [List.append_assoc, List.cons_append]
      exact .intro hfront hlook hgone

namespace Asked

variable {outside : Outside ω} {limits : CacheLimits} {clock : Nat}
  {initial later shared : SharedCache ω} {caller id : Nat} {table : String} {gone : List Nat}
  {found : WriterCache.Lookup} {since done past : List (CallEvent ω)}

theorem run (hpast : Run outside (start limits clock) past initial)
    (hasked : Asked outside initial caller table gone found later since done) :
    ∃ events, Run outside (start limits clock) events later := by
  cases hasked with
  | intro hfront hlook hgone => exact ⟨_, (hpast.append hfront).step hlook⟩

/-- A writer that was cached later is none of those that were lost before. -/
theorem not_gone (hpast : Run outside (start limits clock) past initial)
    (hasked : Asked outside initial caller table gone found later since done)
    (hstocked : Stocked outside later caller table id since shared) : id ∉ gone := by
  cases hasked with
  | intro hfront hlook hgone =>
      intro hid
      have hbefore := hpast.append hfront
      exact hstocked.not_closed (hbefore.step hlook)
        (hlook.closed?_of_closed hbefore.accounted.sound (hgone id hid))

/-- What was lost before is still closed. -/
theorem closed (hpast : Run outside (start limits clock) past initial)
    (hasked : Asked outside initial caller table gone found later since done)
    (hsince : Run outside later since shared) (hid : id ∈ gone) :
    shared.closed? id = some true := by
  cases hasked with
  | intro hfront hlook hgone =>
      have hbefore := hpast.append hfront
      exact hsince.closed?_of_closed (hbefore.step hlook).accounted.sound
        (hlook.closed?_of_closed hbefore.accounted.sound (hgone id hid))

theorem lost (hpast : Run outside (start limits clock) past initial)
    (hasked : Asked outside initial caller table gone found later since done)
    (hstocked : Stocked outside later caller table id since shared)
    (hclosed : shared.closed? id = some true) :
    Lost outside initial caller table id (done ++ [.refused caller id]) := by
  cases hasked with
  | intro hfront hlook hgone =>
      rw [List.append_assoc, List.cons_append]
      exact hstocked.lost hpast hfront hlook hclosed

end Asked

end SharedCache

open SharedCache (Tried Asked Lost Stocked lookups entries refusals)

/-- Why a call was given no writer. -/
inductive Unbuilt (caller : Nat) (table : String) (done : List (CallEvent ω)) :
    Unavailable → Prop
  /-- The construction of a writer for the table has failed in the meantime. -/
  | failed {builder flight : Nat} {handle : Option Nat} {error : ConstructionError}
      (hended : .ended builder table flight handle (.error error) ∈ done) :
      Unbuilt caller table done (.construction error)
  /-- The construction that the caller itself began broke off, and the call with it. -/
  | panicked {flight : Nat} (hdelivered : .delivered caller table flight .panicked ∈ done) :
      Unbuilt caller table done .panicked

theorem Unbuilt.mono {caller : Nat} {table : String} {done later : List (CallEvent ω)}
    {reason : Unavailable} (hreason : Unbuilt caller table done reason) (hsub : done ⊆ later) :
    Unbuilt caller table later reason := by
  cases hreason with
  | failed hended => exact .failed (hsub hended)
  | panicked hdelivered => exact .panicked (hsub hdelivered)

theorem Unbuilt.of_supplied {outside : Outside ω} {first shared : SharedCache ω} {caller : Nat}
    {table : String} {since : List (CallEvent ω)} {reason : Unavailable}
    (hsupplied : SharedCache.Supplied outside first caller table shared since (.error reason)) :
    Unbuilt caller table since reason := by
  generalize hanswer : (Except.error reason : Except Unavailable Nat) = answer at hsupplied
  cases hsupplied with
  | @intro before rest builder flight handle outcome _ _ _ hrun hended hrest hkept hends =>
      rcases hends with hends | ⟨hends, hdelivered⟩
      · cases outcome with
        | ok id => exact absurd (hanswer.trans hends) (by simp [Except.mapError])
        | error error =>
            obtain rfl : reason = .construction error := Except.error.inj (hanswer.trans hends)
            exact .failed (List.mem_append_right _ List.mem_cons_self)
      · obtain rfl : reason = .panicked := Except.error.inj (hanswer.trans hends)
        exact .panicked (List.mem_append_left _ hdelivered)

/-- How a call has ended, by what happened to the cache in the meantime. -/
inductive Ended (outlet : Outlet κ ω) (initial : SharedCache ω) (caller : Nat)
    (task : GroupTask κ) (done : List (CallEvent ω)) : GroupAnswer → κ → Prop
  /-- It was let in once, to an open writer of its table, and returns what came of that. -/
  | written {front rest : List (CallEvent ω)} {last : SharedCache ω} {id : Nat}
      {handle : WriterHandle ω} {result : Except StoreError WriteReport} {written : ω}
      {connection : κ} (hdone : done = front ++ .left caller id :: rest)
      (hlast : SharedCache.Run outlet.toOutside initial front last)
      (hhandle : last.cache.handle? id = some handle) (htable : handle.table = task.table)
      (hopen : handle.closed = false)
      (hwrites : outlet.writes handle.writer task.records task.connection result written
        connection)
      (hentries : entries caller done = 1) :
      Ended outlet initial caller task done (.ok result) connection
  /-- There was no writer. -/
  | unbuilt {reason : Unavailable} (hreason : Unbuilt caller task.table done reason)
      (hentries : entries caller done = 0) :
      Ended outlet initial caller task done (.error reason) task.connection
  /-- Two different writers were lost. -/
  | refused {first second : Nat} (hne : first ≠ second)
      (hfirst : Lost outlet.toOutside initial caller task.table first done)
      (hsecond : Lost outlet.toOutside initial caller task.table second done)
      (hentries : entries caller done = 0) :
      Ended outlet initial caller task done (.ok (.error (.writerClosed task.table)))
        task.connection

/-- How far a call has come, by what happened to the cache since it began. -/
inductive Stage (outlet : Outlet κ ω) (initial : SharedCache ω) (caller : Nat)
    (task : GroupTask κ) (done : List (CallEvent ω)) (shared : SharedCache ω) :
    Calling κ → Prop
  | ready {retries : Nat} {gone : List Nat}
      (htried : Tried outlet.toOutside initial caller task.table done gone gone.length 0)
      (hretries : gone.length + retries = 1)
      (hclosed : ∀ id ∈ gone, shared.closed? id = some true) :
      Stage outlet initial caller task done shared (.ready task (.tries retries))
  | getting {retries : Nat} {gone : List Nat} {found : WriterCache.Lookup}
      {later : SharedCache ω} {since : List (CallEvent ω)}
      (htried : Tried outlet.toOutside initial caller task.table done gone (gone.length + 1) 0)
      (hretries : gone.length + retries = 1)
      (hasked : Asked outlet.toOutside initial caller task.table gone found later since done)
      (hfound : ∀ id, found ≠ .hit id)
      (hsince : SharedCache.Run outlet.toOutside later since shared)
      (hquiet : ∀ event ∈ since, event.caller? = some caller → event.gives? = none) :
      Stage outlet initial caller task done shared
        (.getting task (.found (.refused retries)))
  | holding {retries : Nat} {gone : List Nat} {found : WriterCache.Lookup}
      {later : SharedCache ω} {since : List (CallEvent ω)} {id : Nat}
      (htried : Tried outlet.toOutside initial caller task.table done gone (gone.length + 1) 0)
      (hretries : gone.length + retries = 1)
      (hasked : Asked outlet.toOutside initial caller task.table gone found later since done)
      (hstocked : Stocked outlet.toOutside later caller task.table id since shared) :
      Stage outlet initial caller task done shared
        (.ready task (.use id (.used (.refused retries))))
  | writing {retries : Nat} {gone : List Nat} {id : Nat}
      (htried : Tried outlet.toOutside initial caller task.table done gone (gone.length + 1) 1)
      (hretries : gone.length + retries = 1)
      (hbound : shared.cache.contents.IsBound id task.table) :
      Stage outlet initial caller task done shared
        (.writing task id (.used (.refused retries)))
  | done {gone : List Nat} {looked entered : Nat} {answer : GroupAnswer} {connection : κ}
      (htried : Tried outlet.toOutside initial caller task.table done gone looked entered)
      (hlooked : looked ≤ gone.length + 1) (hlookups : looked ≤ 2)
      (hended : Ended outlet initial caller task done answer connection) :
      Stage outlet initial caller task done shared (.ready { task with connection } (.done answer))

variable {outlet : Outlet κ ω} {limits : CacheLimits} {initial shared after : SharedCache ω}
  {caller : Nat} {task : GroupTask κ} {past done : List (CallEvent ω)} {event : CallEvent ω}
  {calling next : Calling κ}

theorem Ended.other {answer : GroupAnswer} {connection : κ}
    (hended : Ended outlet initial caller task done answer connection)
    (hcaller : event.caller? ≠ some caller) :
    Ended outlet initial caller task (done ++ [event]) answer connection := by
  have hentries {number : Nat} (hbefore : entries caller done = number) :
      entries caller (done ++ [event]) = number := by
    have henters : event.enters caller = false := by
      cases event <;> simp_all [CallEvent.enters, CallEvent.caller?]
    simpa [entries, henters] using hbefore
  cases hended with
  | written hdone hlast hhandle htable hopen hwrites hbefore =>
      exact .written (by rw [hdone, List.append_assoc, List.cons_append]) hlast hhandle htable
        hopen hwrites (hentries hbefore)
  | unbuilt hreason hbefore =>
      exact .unbuilt (hreason.mono (List.subset_append_left _ _)) (hentries hbefore)
  | refused hne hfirst hsecond hbefore =>
      exact .refused hne (hfirst.append _) (hsecond.append _) (hentries hbefore)

namespace Stage

/-- A step of somebody else. -/
theorem other (hstage : Stage outlet initial caller task done shared calling)
    (hsound : shared.Sound limits)
    (hstep : SharedCache.Step outlet.toOutside shared event after)
    (hcaller : event.caller? ≠ some caller) :
    Stage outlet initial caller task (done ++ [event]) after calling := by
  cases hstage with
  | ready htried hretries hclosed =>
      exact .ready (htried.other hcaller) hretries fun id hid =>
        hstep.closed?_of_closed hsound (hclosed id hid)
  | getting htried hretries hasked hfound hsince hquiet =>
      refine .getting (htried.other hcaller) hretries (hasked.concat event) hfound
        (hsince.step hstep) fun last hlast hmine => ?_
      rcases List.mem_append.mp hlast with hold | hnew
      · exact hquiet last hold hmine
      · obtain rfl := List.mem_singleton.mp hnew
        exact absurd hmine hcaller
  | holding htried hretries hasked hstocked =>
      exact .holding (htried.other hcaller) hretries (hasked.concat event)
        (hstocked.step hstep fun hmine => absurd hmine hcaller)
  | writing htried hretries hbound =>
      exact .writing (htried.other hcaller) hretries (hstep.isBound hsound hbound)
  | done htried hlooked hlookups hended =>
      exact .done (htried.other hcaller) hlooked hlookups (hended.other hcaller)

/-- A lookup has found a writer. -/
theorem found {retries : Nat} {gone : List Nat} {id : Nat} (hsound : shared.Sound limits)
    (hcourse : SharedCache.Run outlet.toOutside initial done shared)
    (htried : Tried outlet.toOutside initial caller task.table done gone gone.length 0)
    (hretries : gone.length + retries = 1)
    (hclosed : ∀ id ∈ gone, shared.closed? id = some true)
    (hstep : SharedCache.Step outlet.toOutside shared (.looked caller task.table (.hit id)) after) :
    Stage outlet initial caller task (done ++ [.looked caller task.table (.hit id)]) after
      (.ready task (.use id (.used (.refused retries)))) :=
  .holding (htried.look task.table (.hit id)) hretries (.intro hcourse hstep hclosed)
    (.of_hit hsound hstep)

/-- A lookup has led to a flight. -/
theorem looked {retries : Nat} {gone : List Nat} {found : WriterCache.Lookup}
    (hcourse : SharedCache.Run outlet.toOutside initial done shared)
    (htried : Tried outlet.toOutside initial caller task.table done gone gone.length 0)
    (hretries : gone.length + retries = 1)
    (hclosed : ∀ id ∈ gone, shared.closed? id = some true) (hfound : ∀ id, found ≠ .hit id)
    (hstep : SharedCache.Step outlet.toOutside shared (.looked caller task.table found) after) :
    Stage outlet initial caller task (done ++ [.looked caller task.table found]) after
      (.getting task (.found (.refused retries))) :=
  .getting (htried.look task.table found) hretries (.intro hcourse hstep hclosed) hfound .nil
    (by simp)

/-- A call that has looked its table up was given something. -/
theorem obtained {clock retries : Nat} {gone : List Nat} {found : WriterCache.Lookup}
    {later : SharedCache ω} {since : List (CallEvent ω)} {answer : Except Unavailable Nat}
    (hpast : SharedCache.Run outlet.toOutside (.start limits clock) past initial)
    (hlookup : (shared.callers caller).inLookup = true)
    (htried : Tried outlet.toOutside initial caller task.table done gone (gone.length + 1) 0)
    (hretries : gone.length + retries = 1)
    (hasked : Asked outlet.toOutside initial caller task.table gone found later since done)
    (hfound : ∀ id, found ≠ .hit id)
    (hsince : SharedCache.Run outlet.toOutside later since shared)
    (hquiet : ∀ event ∈ since, event.caller? = some caller → event.gives? = none)
    (hstep : SharedCache.Step outlet.toOutside shared event after)
    (hcaller : event.caller? = some caller) (hgives : event.gives? = some answer) :
    Stage outlet initial caller task (done ++ [event]) after
      (.ready task (.found (.refused retries) answer)) := by
  have hno : event.isTry = false := (hstep.inLookup hcaller hlookup).1
  have hafter := htried.keep event fun _ => hno
  have hnow := hasked.concat event
  cases hasked with
  | intro hfront hlook hgone =>
      have hbefore := hpast.append hfront
      have hsupplied := hbefore.supplied hsince hquiet hlook hfound hstep hcaller hgives
      cases answer with
      | ok id =>
          have hstocked := Stocked.of_supplied (hbefore.step hlook).followed.sound hsupplied
          refine .holding hafter hretries hnow (hstocked.step hstep fun _ => ?_)
          cases event <;> first | rfl | simp_all [CallEvent.gives?, CallEvent.isTry]
      | error reason =>
          refine .done hafter (Nat.le_refl _) (by omega) (.unbuilt ?_ hafter.entries)
          exact (Unbuilt.of_supplied hsupplied).mono fun _ hmem => by simp [hmem]

/-- A call is refused by a writer that it holds. -/
theorem refused {clock retries : Nat} {gone : List Nat} {found : WriterCache.Lookup}
    {later : SharedCache ω} {since : List (CallEvent ω)} {id : Nat} {handle : WriterHandle ω}
    (hpast : SharedCache.Run outlet.toOutside (.start limits clock) past initial)
    (hcourse : SharedCache.Run outlet.toOutside initial done shared)
    (htried : Tried outlet.toOutside initial caller task.table done gone (gone.length + 1) 0)
    (hretries : gone.length + retries = 1)
    (hasked : Asked outlet.toOutside initial caller task.table gone found later since done)
    (hstocked : Stocked outlet.toOutside later caller task.table id since shared)
    (hhandle : shared.cache.handle? id = some handle)
    (hstep : SharedCache.Step outlet.toOutside shared (.refused caller id) after) :
    Stage outlet initial caller task (done ++ [.refused caller id]) after
      (.ready task (.refused retries (.writerClosed handle.table))) := by
  obtain ⟨hclosed, rfl⟩ := hstep.of_refused
  obtain ⟨events, hsofar⟩ := hasked.run hpast
  obtain ⟨held, hheld, htable⟩ := hstocked.isBound hsofar.accounted.sound
  obtain rfl : held = handle := Option.some.inj (hheld.symm.trans hhandle)
  have hnew : id ∉ gone := fun hid => hasked.not_gone hpast hstocked hid
  have hlost := hasked.lost hpast hstocked hclosed
  have hafter := htried.refuse hlost hnew
  rw [htable]
  cases retries with
  | zero =>
      -- There has been one refusal before.
      obtain ⟨first, rfl⟩ := List.length_eq_one_iff.mp hretries
      refine .done hafter (by simp) (Nat.le_refl _) (.refused ?_ hlost
        ((htried.lost first List.mem_cons_self).append _) hafter.entries)
      rintro rfl
      exact hnew List.mem_cons_self
  | succ retries =>
      refine .ready hafter (by simpa [Nat.add_comm, Nat.add_left_comm] using hretries) ?_
      intro other hother
      rcases List.mem_cons.mp hother with rfl | hold
      · exact hclosed
      · exact hasked.closed hpast hstocked.run hold

/-- A call has written its group. -/
theorem left {clock retries : Nat} {gone : List Nat} {id : Nat} {handle : WriterHandle ω}
    {result : Except StoreError WriteReport} {written : ω} {connection : κ}
    (hpast : SharedCache.Run outlet.toOutside (.start limits clock) past initial)
    (hcourse : SharedCache.Run outlet.toOutside initial done shared)
    (hwriting : shared.callers caller = .writing id)
    (htried : Tried outlet.toOutside initial caller task.table done gone (gone.length + 1) 1)
    (hretries : gone.length + retries = 1)
    (hbound : shared.cache.contents.IsBound id task.table)
    (hhandle : shared.cache.handle? id = some handle)
    (hwrites : outlet.writes handle.writer task.records task.connection result written
      connection) :
    Stage outlet initial caller task (done ++ [.left caller id]) after
      (.ready { task with connection } (.done (.ok result))) := by
  have hafter := htried.keep (.left caller id) fun _ => rfl
  obtain ⟨held, hheld, htable⟩ := hbound
  obtain rfl : held = handle := Option.some.inj (hheld.symm.trans hhandle)
  have hopen : held.closed = false := by
    -- Nobody closes a writer that is used.
    have hguarded := (hpast.append hcourse).accounted.guarded.writing caller id hwriting
    rw [SharedCache.closed?, hheld] at hguarded
    exact Option.some.inj hguarded
  exact .done hafter (Nat.le_refl _) (by omega)
    (.written rfl hcourse hhandle htable hopen hwrites hafter.entries)

/-- A step of the caller. -/
theorem own {clock : Nat} (hstage : Stage outlet initial caller task done shared calling)
    (hpast : SharedCache.Run outlet.toOutside (.start limits clock) past initial)
    (hcourse : SharedCache.Run outlet.toOutside initial done shared)
    (hfits : calling.Fits (shared.callers caller))
    (hstep : SharedCache.Step outlet.toOutside shared event after)
    (hcaller : event.caller? = some caller)
    (hmoves : calling.Moves outlet shared.cache after.cache caller event next) :
    Stage outlet initial caller task (done ++ [event]) after next := by
  have hsound := (hpast.append hcourse).accounted.sound
  cases hstage with
  | ready htried hretries hclosed =>
      cases hmoves with
      | find => exact .found hsound hcourse htried hretries hclosed hstep
      | look hfound => exact .looked hcourse htried hretries hclosed hfound hstep
  | getting htried hretries hasked hfound hsince hquiet =>
      have hlookup : (shared.callers caller).inLookup = true := by
        cases hfits with
        | getting hlookup => exact hlookup
      cases hmoves with
      | wait hgives =>
          have hno := (hstep.inLookup hcaller hlookup).1
          refine .getting (htried.keep event fun _ => hno) hretries (hasked.concat event) hfound
            (hsince.step hstep) fun last hlast hmine => ?_
          rcases List.mem_append.mp hlast with hold | hnew
          · exact hquiet last hold hmine
          · rwa [List.mem_singleton.mp hnew]
      | obtain hgives =>
          exact .obtained hpast hlookup htried hretries hasked hfound hsince hquiet hstep hcaller
            hgives
  | holding htried hretries hasked hstocked =>
      cases hmoves with
      | enter =>
          obtain ⟨events, hsofar⟩ := hasked.run hpast
          exact .writing (htried.enter _) hretries
            (hstep.isBound hsound (hstocked.isBound hsofar.accounted.sound))
      | refuse hhandle =>
          exact .refused hpast hcourse htried hretries hasked hstocked hhandle hstep
  | writing htried hretries hbound =>
      cases hmoves with
      | leave hhandle hwrites hwritten =>
          exact .left hpast hcourse hfits.writes htried hretries hbound hhandle hwrites
  | done htried hlooked hlookups hended => cases hmoves

end Stage

namespace WritingCache

variable {system after : WritingCache κ ω} {clock : Nat}
  {before middle events : List (GroupEvent κ ω)} {event : GroupEvent κ ω}

/-- A call of a caller has begun and has not returned, in a run with these events. -/
structure Underway (outlet : Outlet κ ω) (limits : CacheLimits) (clock : Nat)
    (events : List (GroupEvent κ ω)) (caller : Nat) (before : List (GroupEvent κ ω))
    (task : GroupTask κ) (middle : List (GroupEvent κ ω)) (initial shared : SharedCache ω) :
    Prop where
  events_eq : events = before ++ .began caller task :: middle
  inside : ∀ event ∈ middle, event.bounds? ≠ some caller
  past : SharedCache.Run outlet.toOutside (.start limits clock) (trace before) initial
  course : SharedCache.Run outlet.toOutside initial (trace middle) shared

namespace Underway

theorem start (hrun : Run outlet (.start limits clock) events system) (caller : Nat)
    (task : GroupTask κ) :
    Underway outlet limits clock (events ++ [.began caller task]) caller events task []
      system.shared system.shared where
  events_eq := rfl
  inside := by simp
  past := hrun.shared
  course := .nil

theorem work {last : CallEvent ω}
    (hunderway : Underway outlet limits clock events caller before task middle initial shared)
    {later : SharedCache ω} (hstep : SharedCache.Step outlet.toOutside shared last later) :
    Underway outlet limits clock (events ++ [.worked last]) caller before task
      (middle ++ [.worked last]) initial later where
  events_eq := by rw [hunderway.events_eq, List.append_assoc, List.cons_append]
  inside := by
    intro other hother
    rcases List.mem_append.mp hother with hold | hnew
    · exact hunderway.inside other hold
    · rw [List.mem_singleton.mp hnew]
      exact Option.some_ne_none caller |>.symm
  past := hunderway.past
  course := by
    rw [trace_concat]
    exact hunderway.course.step hstep

theorem bound
    (hunderway : Underway outlet limits clock events caller before task middle initial shared)
    (hshared : event.shared? = none) (hbounds : event.bounds? ≠ some caller) :
    Underway outlet limits clock (events ++ [event]) caller before task (middle ++ [event])
      initial shared where
  events_eq := by rw [hunderway.events_eq, List.append_assoc, List.cons_append]
  inside := by
    intro other hother
    rcases List.mem_append.mp hother with hold | hnew
    · exact hunderway.inside other hold
    · rwa [List.mem_singleton.mp hnew]
  past := hunderway.past
  course := by
    rw [trace_concat, hshared, Option.toList_none, List.append_nil]
    exact hunderway.course

end Underway

/-- How far the call of a caller has come in a run with these events. -/
inductive Staged (outlet : Outlet κ ω) (limits : CacheLimits) (clock : Nat) (caller : Nat)
    (events : List (GroupEvent κ ω)) (shared : SharedCache ω) (calling : Calling κ) : Prop
  | intro {before middle : List (GroupEvent κ ω)} {task : GroupTask κ} {initial : SharedCache ω}
      (hunderway : Underway outlet limits clock events caller before task middle initial shared)
      (hstage : Stage outlet initial caller task (trace middle) shared calling) :
      Staged outlet limits clock caller events shared calling

namespace Staged

theorem start (hrun : Run outlet (.start limits clock) events system) (caller : Nat)
    (task : GroupTask κ) :
    Staged outlet limits clock caller (events ++ [.began caller task]) system.shared
      (.ready task (.tries 1)) :=
  .intro (.start hrun caller task) (.ready (.start _ _ _ _) rfl (by simp))

/-- A call of somebody else begins or ends. -/
theorem bound (hstaged : Staged outlet limits clock caller events shared calling)
    (hshared : event.shared? = none) (hbounds : event.bounds? ≠ some caller) :
    Staged outlet limits clock caller (events ++ [event]) shared calling := by
  obtain ⟨hunderway, hstage⟩ := hstaged
  refine .intro (hunderway.bound hshared hbounds) ?_
  rwa [trace_concat, hshared, Option.toList_none, List.append_nil]

theorem other {last : CallEvent ω} {later : SharedCache ω}
    (hstaged : Staged outlet limits clock caller events shared calling)
    (hsound : shared.Sound limits) (hstep : SharedCache.Step outlet.toOutside shared last later)
    (hcaller : last.caller? ≠ some caller) :
    Staged outlet limits clock caller (events ++ [.worked last]) later calling := by
  obtain ⟨hunderway, hstage⟩ := hstaged
  refine .intro (hunderway.work hstep) ?_
  rw [trace_concat]
  exact hstage.other hsound hstep hcaller

theorem own {last : CallEvent ω} {later : SharedCache ω}
    (hstaged : Staged outlet limits clock caller events shared calling)
    (hfits : calling.Fits (shared.callers caller))
    (hstep : SharedCache.Step outlet.toOutside shared last later)
    (hcaller : last.caller? = some caller)
    (hmoves : calling.Moves outlet shared.cache later.cache caller last next) :
    Staged outlet limits clock caller (events ++ [.worked last]) later next := by
  obtain ⟨hunderway, hstage⟩ := hstaged
  refine .intro (hunderway.work hstep) ?_
  rw [trace_concat]
  exact hstage.own hunderway.past hunderway.course hfits hstep hcaller hmoves

end Staged

/-- How far a call has come at any time. -/
theorem Run.staged (hrun : Run outlet (.start limits clock) events system)
    (hcall : system.calls caller ≠ .away) :
    Staged outlet limits clock caller events system.shared (system.calls caller) := by
  induction hrun with
  | nil => exact absurd rfl hcall
  | @step events event system after hrun hstep ih =>
      cases hstep with
      | @work event shared calls hstep hmoves hothers =>
          change calls caller ≠ .away at hcall
          by_cases hcaller : event.caller? = some caller
          · have hmove := hmoves caller hcaller
            have hbefore : system.calls caller ≠ .away := by
              intro haway
              rw [haway] at hmove
              generalize calls caller = next at hmove hcall
              cases hmove with
              | elsewhere => exact hcall rfl
            exact (ih hbefore).own (hrun.fits caller) hstep hcaller hmove
          · rw [hothers caller hcaller] at hcall
            change Staged _ _ _ _ _ shared (calls caller)
            rw [hothers caller hcaller]
            exact (ih hcall).other hrun.shared.accounted.sound hstep hcaller
      | @begin other task haway hidle =>
          by_cases hother : caller = other
          · subst hother
            rw [calls_go_self]
            exact .start hrun caller task
          · rw [calls_go_of_ne hother] at hcall ⊢
            exact (ih hcall).bound rfl fun hsame => hother (Option.some.inj hsame).symm
      | @answer other task answer hdone =>
          by_cases hother : caller = other
          · subst hother
            exact absurd (calls_go_self ..) hcall
          · rw [calls_go_of_ne hother] at hcall ⊢
            exact (ih hcall).bound rfl fun hsame => hother (Option.some.inj hsame).symm

/-- Who is about to use a handle has one. -/
theorem Run.handle_of_use {id : Nat}
    {next : Except StoreError (Except StoreError WriteReport) → Script}
    (hrun : Run outlet (.start limits clock) events system)
    (hcall : system.calls caller = .ready task (.use id next)) :
    ∃ handle, system.shared.cache.handle? id = some handle := by
  have haway : system.calls caller ≠ .away := by simp [hcall]
  obtain ⟨hunderway, hstage⟩ := hrun.staged haway
  rw [hcall] at hstage
  cases hstage with
  | holding htried hretries hasked hstocked =>
      obtain ⟨events, hsofar⟩ := hasked.run hunderway.past
      obtain ⟨handle, hhandle, -⟩ := hstocked.isBound hsofar.accounted.sound
      exact ⟨handle, hhandle⟩

end WritingCache

end TableRouting
