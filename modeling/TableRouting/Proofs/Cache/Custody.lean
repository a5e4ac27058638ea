import TableRouting.Proofs.Cache.Sharing

/-!
# Who has a writer

An open writer is cached, or one caller is to close it.  Steps hand it on: a lookup
takes an expired writer out of the cache, the end of a flight brings one in and
takes others out, and a caller that closes a writer has it no more.  The lock of a
writer keeps those who use it and those who close it apart.
-/

namespace TableRouting

variable {ω : Type}

namespace CallEvent

def retired : CallEvent ω → List Nat
  | closing _ handle => [handle]
  | _ => []

def numbered : CallEvent ω → List Nat
  | ended _ _ _ handle _ => handle.toList
  | _ => []

/-- Whether a handle is closed after a step, given whether it was before it; none
if there is no such handle. -/
def closed? (event : CallEvent ω) (id : Nat) (before : Option Bool) : Option Bool :=
  if id ∈ event.retired then some true
  else if id ∈ event.numbered then some false
  else before

end CallEvent

namespace CacheContents

variable {contents after : CacheContents ω} {table : String} {now : Nat}

/-- A lookup takes out of the cache what the caller is to close. -/
theorem Looks.cached_perm {found : WriterCache.Lookup}
    (hlooks : contents.Looks table now found after) :
    ((Activity.ofLookup table found : Activity ω).queue ++ after.cached).Perm contents.cached := by
  cases hlooks with
  | join hmark => exact List.Perm.refl _
  | build hmark => exact List.Perm.refl _
  | expire hmark hentries hexpired =>
      rw [cached, cached, hentries, List.map_append, List.map_cons]
      simpa [Activity.ofLookup, Activity.queue, beginFlight] using List.perm_middle.symm
  | hit hmark hentries hfresh =>
      rw [cached, cached, hentries, List.map_append, List.map_cons]
      simpa [Activity.ofLookup, Activity.queue] using List.perm_middle.symm

end CacheContents

namespace SharedCache

variable {outside : Outside ω} {limits : CacheLimits} {shared after : SharedCache ω}
  {events : List (CallEvent ω)} {event : CallEvent ω}

/-- The end of a flight brings in its writer, or has it closed, and takes others out. -/
theorem cached_perm_of_finishes {contents : CacheContents ω} {table : String} {flight now : Nat}
    {built : Except ConstructionError ω} {outcome : FlightOutcome} {released : List Nat}
    (hfinishes : shared.cache.contents.Finishes table flight now built outcome released contents) :
    (released ++ contents.cached).Perm
      ((shared.numberFor built).toList ++ shared.cache.contents.cached) := by
  cases hfinishes with
  | refused hmark | refusedDetached hmark => exact List.Perm.refl _
  | stored hmark hentries hroom hslot =>
      exact List.perm_middle.trans ((CacheContents.released_perm hentries).cons _)
  | detached hmark => exact List.Perm.refl _

/-- Whether the handle of a number is closed; none if there is no such handle. -/
def closed? (shared : SharedCache ω) (id : Nat) : Option Bool :=
  (shared.cache.contents.handle? id).map WriterHandle.closed

@[simp]
theorem closed?_lock (shared : SharedCache ω) (id other : Nat) (holder : Option Nat) :
    (shared.lock id holder).closed? other = shared.closed? other := rfl

theorem closed?_put_modifyHandle (shared : SharedCache ω) (caller : Nat)
    (activity : Activity ω) (id other : Nat) {f : WriterHandle ω → WriterHandle ω}
    (hclosed : ∀ handle, (f handle).closed = handle.closed) :
    (shared.put caller activity (shared.cache.modifyHandle id f)).closed? other =
      shared.closed? other := by
  rw [closed?, cache_put, WriterCache.contents_modifyHandle, CacheContents.handle?_modifyHandle]
  split
  · rw [Option.map_map, closed?]
    exact congrArg (Option.map · _) (funext hclosed)
  · rfl

theorem closed?_put_of_handles_eq {cache : WriterCache ω} (caller : Nat) (activity : Activity ω)
    (hhandles : cache.contents.handles = shared.cache.contents.handles) (id : Nat) :
    (shared.put caller activity cache).closed? id = shared.closed? id := by
  rw [closed?, closed?, cache_put, CacheContents.handle?, CacheContents.handle?, hhandles]

/-- A writer was numbered, and its handle is open. -/
theorem closed?_put_of_push {cache : WriterCache ω} (caller : Nat) (activity : Activity ω)
    {table : String} {writer : ω}
    (hhandles : cache.contents.handles = shared.cache.contents.handles.push { table, writer })
    (id : Nat) :
    (shared.put caller activity cache).closed? id =
      if id = shared.cache.handles.size + 1 then some false else shared.closed? id := by
  have hadded : cache.contents.handle? id =
      (shared.cache.contents.addHandle table writer).handle? id := by
    rw [CacheContents.handle?, CacheContents.handle?, hhandles, CacheContents.addHandle]
  rw [closed?, cache_put, hadded]
  rcases Nat.lt_trichotomy id (shared.cache.contents.handles.size + 1) with hlt | rfl | hgt
  · rw [CacheContents.handle?_addHandle_of_le table writer (Nat.le_of_lt_succ hlt), closed?]
    exact (if_neg (Nat.ne_of_lt hlt)).symm
  · rw [CacheContents.handle?_addHandle]
    exact (if_pos rfl).symm
  · rw [CacheContents.handle?_of_size_lt, closed?, CacheContents.handle?_of_size_lt]
    · exact (if_neg (Nat.ne_of_gt hgt)).symm
    · exact Nat.lt_of_succ_lt hgt
    · simpa [CacheContents.addHandle] using hgt

/-- A number that was not yet given has no handle. -/
theorem closed?_eq_none {id : Nat} (hid : shared.cache.handles.size < id) :
    shared.closed? id = none := by
  rw [closed?, CacheContents.handle?_of_size_lt hid]
  rfl

/-- A step closes the handle that it says, and numbers the writer that it says. -/
theorem Step.closed?_eq (hsound : Sound limits shared) (hstep : Step outside shared event after)
    (id : Nat) : after.closed? id = event.closed? id (shared.closed? id) := by
  cases hstep with
  | look hcaller =>
      rename_i caller table
      exact closed?_put_of_handles_eq caller _ (hsound.looks table).handles_eq id
  | beginClose hcaller hfree hbegin =>
      rename_i caller handle rest errand writer cache
      obtain ⟨found, hfound, -, rfl⟩ := WriterCache.beginClose_some hbegin
      rw [closed?_lock, closed?, cache_put, WriterCache.contents_modifyHandle,
        CacheContents.handle?_modifyHandle]
      by_cases hid : id = handle
      · subst hid
        simp [hfound, CallEvent.closed?, CallEvent.retired]
      · simp [hid, closed?, CallEvent.closed?, CallEvent.retired, CallEvent.numbered]
  | endClose hcaller hhandle hcloses =>
      rw [closed?_lock]
      exact closed?_put_modifyHandle shared _ _ _ id fun _ => rfl
  | skip hcaller hfree hbegin =>
      obtain ⟨rfl, -⟩ := WriterCache.beginClose_none hbegin
      rfl
  | finish hcaller hfinish =>
      rename_i caller table flight built outcome released cache
      have hfinishes := hsound.finishes hfinish
      cases built with
      | error e => exact closed?_put_of_handles_eq caller _ hfinishes.handles_eq_of_error id
      | ok writer =>
          rw [closed?_put_of_push caller _ hfinishes.handles_eq_of_ok id]
          simp [CallEvent.closed?, CallEvent.retired, CallEvent.numbered, numberFor]
  | abandon hcaller =>
      exact closed?_put_of_handles_eq _ _
        (shared.cache.finishes_abandon _ _ shared.clock).handles_eq_of_error id
  | sweep hcaller =>
      obtain ⟨kept, dropped, hevicts⟩ := WriterCache.evicts_sweep shared.clock hsound.linked
      apply closed?_put_of_handles_eq
      rw [hevicts.contents]
      rfl
  | invalidate hcaller => exact closed?_put_of_handles_eq _ _ (by simp [CacheContents.clear]) id
  | leave hcaller hhandle huses =>
      rw [closed?_lock]
      exact closed?_put_modifyHandle shared _ _ _ id fun _ => rfl
  | _ => rfl

/-- Every open writer is cached or in the queue of one caller, and what is in a queue
is open. -/
structure Custody (shared : SharedCache ω) : Prop where
  kept : ∀ id, shared.closed? id = some false ↔
    id ∈ shared.cache.contents.cached ∨ ∃ caller, id ∈ (shared.callers caller).queue
  apart : ∀ first second id, id ∈ (shared.callers first).queue →
    id ∈ (shared.callers second).queue → first = second
  nodup : ∀ caller, (shared.callers caller).queue.Nodup

theorem Custody.start (limits : CacheLimits) (clock : Nat) :
    Custody (start (ω := ω) limits clock) where
  kept := by
    intro id
    simp [closed?, SharedCache.start, WriterCache.contents_empty, CacheContents.handle?,
      CacheContents.cached, Activity.queue]
  apart := by simp [SharedCache.start, Activity.queue]
  nodup := by simp [SharedCache.start, Activity.queue]

/-- Handles pass between the cache and the queue of one caller; what is closed leaves
both, and what is numbered enters one. -/
structure Passes (shared : SharedCache ω) (event : CallEvent ω) (after : SharedCache ω)
    (caller : Nat) : Prop where
  others : ∀ other, other ≠ caller → after.callers other = shared.callers other
  passed : (event.retired ++ ((after.callers caller).queue ++ after.cache.contents.cached)).Perm
    (event.numbered ++ ((shared.callers caller).queue ++ shared.cache.contents.cached))

theorem Passes.put {caller : Nat} {activity : Activity ω} {cache : WriterCache ω}
    (hpassed : (event.retired ++ (activity.queue ++ cache.contents.cached)).Perm
      (event.numbered ++ ((shared.callers caller).queue ++ shared.cache.contents.cached))) :
    Passes shared event (shared.put caller activity cache) caller where
  others := fun _ hother => callers_put_of_ne hother ..
  passed := by rwa [callers_put_self, cache_put]

theorem Passes.lock {caller : Nat} (hpasses : Passes shared event after caller) (id : Nat)
    (holder : Option Nat) : Passes shared event (after.lock id holder) caller where
  others := hpasses.others
  passed := hpasses.passed

theorem Step.passes (hsound : Sound limits shared) (hcustody : Custody shared)
    (hstep : Step outside shared event after) : ∃ caller, Passes shared event after caller := by
  cases hstep with
  | tick hnow => exact ⟨0, fun _ _ => rfl, List.Perm.refl _⟩
  | look hcaller =>
      rename_i caller table
      refine ⟨caller, .put ?_⟩
      rw [hcaller]
      exact (hsound.looks table).cached_perm
  | beginClose hcaller hfree hbegin =>
      rename_i caller id rest errand writer cache
      obtain ⟨handle, -, -, rfl⟩ := WriterCache.beginClose_some hbegin
      refine ⟨caller, (Passes.put ?_).lock _ _⟩
      rw [hcaller, WriterCache.contents_modifyHandle, CacheContents.cached_modifyHandle]
      exact List.Perm.refl _
  | endClose hcaller | leave hcaller =>
      refine ⟨_, (Passes.put ?_).lock _ _⟩
      rw [hcaller, WriterCache.contents_modifyHandle, CacheContents.cached_modifyHandle]
      exact List.Perm.refl _
  | skip hcaller hfree hbegin =>
      -- What is in a queue is open, so there is nothing to skip.
      rename_i caller id rest errand cache
      obtain ⟨-, hclosed⟩ := WriterCache.beginClose_none hbegin
      have hopen : shared.closed? id = some false := by
        refine (hcustody.kept id).mpr (Or.inr ⟨caller, ?_⟩)
        rw [hcaller]
        exact List.mem_cons_self
      obtain ⟨handle, hhandle, hfalse⟩ := Option.map_eq_some_iff.mp hopen
      simp [hclosed handle hhandle] at hfalse
  | finish hcaller hfinish =>
      refine ⟨_, .put ?_⟩
      rw [hcaller]
      exact cached_perm_of_finishes (hsound.finishes hfinish)
  | abandon hcaller =>
      refine ⟨_, .put ?_⟩
      rw [hcaller]
      exact cached_perm_of_finishes (shared.cache.finishes_abandon _ _ shared.clock)
  | sweep hcaller =>
      obtain ⟨kept, dropped, hevicts⟩ := WriterCache.evicts_sweep shared.clock hsound.linked
      refine ⟨_, .put ?_⟩
      rw [hcaller, hevicts.released, hevicts.contents]
      exact CacheContents.released_perm hevicts.entries
  | invalidate hcaller =>
      refine ⟨_, .put ?_⟩
      rw [hcaller, WriterCache.invalidate_fst, WriterCache.contents_invalidate]
      exact List.Perm.of_eq (List.append_nil _)
  | enter hcaller =>
      refine ⟨_, (Passes.put ?_).lock _ _⟩
      rw [hcaller]
      exact List.Perm.refl _
  | refuse | peek => exact ⟨0, fun _ _ => rfl, List.Perm.refl _⟩
  | receive hcaller | call hcaller | deliver hcaller | publish hcaller | answer hcaller =>
      refine ⟨_, .put ?_⟩
      rw [hcaller]
      exact List.Perm.refl _

/-- A writer is numbered as none was before. -/
theorem Step.closed?_of_numbered (hstep : Step outside shared event after) {id : Nat}
    (hid : id ∈ event.numbered) : shared.closed? id = none := by
  cases hstep with
  | finish hcaller hfinish =>
      rename_i caller table flight built outcome released cache
      cases built with
      | error e => simp [CallEvent.numbered, numberFor] at hid
      | ok writer =>
          obtain rfl := List.mem_singleton.mp hid
          exact closed?_eq_none (Nat.lt_succ_self _)
  | _ => simp [CallEvent.numbered] at hid

namespace Custody

theorem queued (hcustody : Custody shared) {caller id : Nat}
    (hid : id ∈ (shared.callers caller).queue) : shared.closed? id = some false :=
  (hcustody.kept id).mpr (Or.inr ⟨caller, hid⟩)

/-- What a caller is to close and what is cached are different handles, and none of
them is about to be numbered. -/
theorem nodup_before (hcustody : Custody shared) (hsound : Sound limits shared)
    (hstep : Step outside shared event after) (caller : Nat) :
    (event.numbered ++ ((shared.callers caller).queue ++ shared.cache.contents.cached)).Nodup := by
  have hnumbered : event.numbered.Nodup := by
    cases event with
    | ended _ _ _ handle _ => cases handle <;> simp [CallEvent.numbered]
    | _ => exact List.nodup_nil
  have hmine : ((shared.callers caller).queue ++ shared.cache.contents.cached).Nodup := by
    refine (hcustody.nodup caller).append hsound.coherent.distinct ?_
    exact fun id hqueue hcached => hsound.not_cached hqueue hcached
  refine hnumbered.append hmine ?_
  intro id hid hold
  have hopen : shared.closed? id = some false := by
    apply (hcustody.kept id).mpr
    exact (List.mem_append.mp hold).symm.imp_right fun hqueue => ⟨caller, hqueue⟩
  simp [hstep.closed?_of_numbered hid] at hopen

/-- What another caller is to close is none of the handles that a step passes on. -/
theorem not_passed (hcustody : Custody shared) (hsound : Sound limits shared)
    (hstep : Step outside shared event after) {caller other id : Nat} (hother : other ≠ caller)
    (hid : id ∈ (shared.callers other).queue) :
    id ∉ event.numbered ++ ((shared.callers caller).queue ++ shared.cache.contents.cached) := by
  intro hmem
  rcases List.mem_append.mp hmem with hnumbered | hmine
  · simpa [hstep.closed?_of_numbered hnumbered] using hcustody.queued hid
  · rcases List.mem_append.mp hmine with hqueue | hcached
    · exact hother (hcustody.apart other caller id hid hqueue)
    · exact hsound.not_cached hid hcached

theorem step (hcustody : Custody shared) (hsound : Sound limits shared)
    (hstep : Step outside shared event after) : Custody after := by
  obtain ⟨caller, hothers, hpassed⟩ := hstep.passes hsound hcustody
  have hnodup := hpassed.nodup_iff.mpr (hcustody.nodup_before hsound hstep caller)
  have hforeign {other id : Nat} (hother : other ≠ caller)
      (hid : id ∈ (after.callers other).queue) :
      id ∉ event.retired ++ ((after.callers caller).queue ++ after.cache.contents.cached) := by
    rw [hothers other hother] at hid
    exact mt hpassed.mem_iff.mp (hcustody.not_passed hsound hstep hother hid)
  constructor
  · intro id
    have hmem := hpassed.mem_iff (a := id)
    simp only [List.mem_append] at hmem
    -- What was kept by the caller and the cache before, and what is kept by them after.
    have hkept {now : SharedCache ω} (hsame : ∀ other, other ≠ caller →
        now.callers other = shared.callers other) :
        (id ∈ now.cache.contents.cached ∨ ∃ other, id ∈ (now.callers other).queue) ↔
          (id ∈ (now.callers caller).queue ∨ id ∈ now.cache.contents.cached) ∨
            ∃ other, other ≠ caller ∧ id ∈ (shared.callers other).queue := by
      constructor
      · rintro (hcached | ⟨other, hqueue⟩)
        · exact Or.inl (Or.inr hcached)
        · by_cases hother : other = caller
          · exact Or.inl (Or.inl (hother ▸ hqueue))
          · exact Or.inr ⟨other, hother, hsame other hother ▸ hqueue⟩
      · rintro ((hqueue | hcached) | ⟨other, hother, hqueue⟩)
        · exact Or.inr ⟨caller, hqueue⟩
        · exact Or.inl hcached
        · exact Or.inr ⟨other, (hsame other hother).symm ▸ hqueue⟩
    rw [hstep.closed?_eq hsound, CallEvent.closed?, hkept hothers]
    by_cases hretired : id ∈ event.retired
    · rw [if_pos hretired]
      refine iff_of_false (by simp) ?_
      rintro (hmine | ⟨other, hother, hqueue⟩)
      · exact (List.nodup_append.mp hnodup).2.2 id hretired id (List.mem_append.mpr hmine) rfl
      · exact hcustody.not_passed hsound hstep hother hqueue
          (hpassed.mem_iff.mp (List.mem_append_left _ hretired))
    · rw [if_neg hretired]
      by_cases hnumbered : id ∈ event.numbered
      · rw [if_pos hnumbered]
        exact iff_of_true rfl (Or.inl ((hmem.mpr (Or.inl hnumbered)).resolve_left hretired))
      · rw [if_neg hnumbered, hcustody.kept, hkept fun _ _ => rfl]
        simp only [hretired, hnumbered, false_or] at hmem
        rw [hmem]
  · intro first second id hfirst hsecond
    by_contra hne
    by_cases hcaller : first = caller
    · subst hcaller
      apply hforeign (Ne.symm hne) hsecond
      simp [hfirst]
    · by_cases hother : second = caller
      · subst hother
        apply hforeign hne hfirst
        simp [hsecond]
      · rw [hothers first hcaller] at hfirst
        rw [hothers second hother] at hsecond
        exact hne (hcustody.apart first second id hfirst hsecond)
  · intro other
    by_cases hother : other = caller
    · subst hother
      exact (hnodup.of_append_right).of_append_left
    · rw [hothers other hother]
      exact hcustody.nodup other

end Custody

/-- A writer is told to close when its handle is open, and while nobody has its lock. -/
theorem Step.of_retired (hstep : Step outside shared event after) {id : Nat}
    (hid : id ∈ event.retired) :
    shared.closed? id = some false ∧ shared.locks id = none ∧
      ∃ caller, id ∈ (shared.callers caller).queue := by
  cases hstep with
  | beginClose hcaller hfree hbegin =>
      rename_i caller handle rest errand writer cache
      obtain rfl := List.mem_singleton.mp hid
      obtain ⟨handle, hhandle, hopen, -⟩ := WriterCache.beginClose_some hbegin
      refine ⟨?_, hfree, caller, ?_⟩
      · rw [closed?, hhandle, Option.map_some, hopen]
      · rw [hcaller]
        exact List.mem_cons_self
  | _ => simp [CallEvent.retired] at hid

/-- How often the writer of a handle was told to close. -/
def closings (events : List (CallEvent ω)) (id : Nat) : Nat :=
  events.countP fun event => id ∈ event.retired

/-- A writer was told to close once if its handle is closed, and never otherwise. -/
theorem closings_step (hsound : Sound limits shared)
    (hclosings : ∀ id, closings events id = if shared.closed? id = some true then 1 else 0)
    (hstep : Step outside shared event after) (id : Nat) :
    closings (events ++ [event]) id = if after.closed? id = some true then 1 else 0 := by
  rw [closings, List.countP_append, ← closings, hclosings, hstep.closed?_eq hsound,
    CallEvent.closed?]
  by_cases hretired : id ∈ event.retired
  · simp [hretired, (hstep.of_retired hretired).1]
  · by_cases hnumbered : id ∈ event.numbered
    · simp [hretired, hnumbered, hstep.closed?_of_numbered hnumbered]
    · simp [hretired, hnumbered]

/-- Who has the lock of a writer is using it or closing it. -/
def Locked (shared : SharedCache ω) : Prop :=
  ∀ id caller, shared.locks id = some caller ↔ (shared.callers caller).holds? = some id

namespace Locked

variable {caller id : Nat} {activity : Activity ω}

theorem keep (hlocked : Locked shared) (hholds : activity.holds? = (shared.callers caller).holds?)
    (cache : WriterCache ω) : Locked (shared.put caller activity cache) := by
  intro other who
  rw [locks_put, hlocked]
  by_cases hwho : who = caller
  · subst hwho
    rw [callers_put_self, hholds]
  · rw [callers_put_of_ne hwho]

theorem acquire (hlocked : Locked shared) (hidle : (shared.callers caller).holds? = none)
    (hfree : shared.locks id = none) (hholds : activity.holds? = some id)
    (cache : WriterCache ω) :
    Locked ((shared.put caller activity cache).lock id (some caller)) := by
  intro other who
  have hbefore := hlocked other who
  by_cases hother : other = id <;> by_cases hwho : who = caller
  · subst hother hwho
    simp [lock, hholds]
  · subst hother
    simpa [lock, callers_put_of_ne hwho, hfree, Ne.symm hwho] using hbefore
  · subst hwho
    simpa [lock, hother, hholds, hidle, Ne.symm hother] using hbefore
  · simpa [lock, hother, callers_put_of_ne hwho] using hbefore

theorem free (hlocked : Locked shared) (hheld : (shared.callers caller).holds? = some id)
    (hholds : activity.holds? = none) (cache : WriterCache ω) :
    Locked ((shared.put caller activity cache).lock id none) := by
  intro other who
  have hbefore := hlocked other who
  by_cases hother : other = id <;> by_cases hwho : who = caller
  · subst hother hwho
    simp [lock, hholds]
  · subst hother
    rw [(hlocked other caller).mpr hheld] at hbefore
    simpa [lock, callers_put_of_ne hwho, Ne.symm hwho] using hbefore
  · subst hwho
    simpa [lock, hother, hholds, hheld, Ne.symm hother] using hbefore
  · simpa [lock, hother, callers_put_of_ne hwho] using hbefore

theorem step (hlocked : Locked shared) (hstep : Step outside shared event after) :
    Locked after := by
  cases hstep with
  | tick hnow => exact hlocked
  | look hcaller =>
      rename_i caller table
      apply hlocked.keep
      rw [hcaller]
      cases (shared.cache.lookup table shared.clock).1 <;> rfl
  | beginClose hcaller hfree hbegin | enter hcaller hfree hhandle hopen =>
      apply hlocked.acquire
      · rw [hcaller]
        rfl
      · exact hfree
      · rfl
  | endClose hcaller | leave hcaller =>
      apply hlocked.free
      · rw [hcaller]
        rfl
      · rfl
  | refuse | peek => exact hlocked
  | receive hcaller | skip hcaller | call hcaller | deliver hcaller | finish hcaller
  | abandon hcaller | publish hcaller | answer hcaller | sweep hcaller | invalidate hcaller =>
      apply hlocked.keep
      rw [hcaller]
      rfl

end Locked

/-- A caller that uses a writer began to when its handle was open. -/
theorem Step.writing (hstep : Step outside shared event after) {caller id : Nat}
    (hwriting : after.callers caller = .writing id) :
    shared.callers caller = .writing id ∨
      (shared.closed? id = some false ∧ event.retired = [] ∧ event.numbered = []) := by
  by_cases hcaller : event.caller? = some caller
  · cases hstep with
    | tick hnow => simp [CallEvent.caller?] at hcaller
    | look hidle =>
        obtain rfl := Option.some.inj hcaller
        rw [callers_put_self] at hwriting
        generalize (shared.cache.lookup _ shared.clock).1 = found at hwriting
        cases found <;> simp [Activity.ofLookup] at hwriting
    | enter hidle hfree hhandle hopen =>
        obtain rfl := Option.some.inj hcaller
        rw [callers_lock, callers_put_self] at hwriting
        obtain rfl := Activity.writing.inj hwriting
        right
        refine ⟨?_, rfl, rfl⟩
        rw [closed?, ← WriterCache.handle?_eq, hhandle, Option.map_some, hopen]
    | refuse hidle | peek hidle =>
        obtain rfl := Option.some.inj hcaller
        simp [hidle] at hwriting
    | _ =>
        obtain rfl := Option.some.inj hcaller
        simp at hwriting
  · left
    rwa [hstep.callers_eq hcaller] at hwriting

/-- A caller that closes a writer has closed its handle. -/
theorem Step.closing (hstep : Step outside shared event after) {caller id : Nat}
    {rest : List Nat} {errand : Errand}
    (hclosing : after.callers caller = .closing id rest errand) :
    shared.callers caller = .closing id rest errand ∨ id ∈ event.retired := by
  by_cases hcaller : event.caller? = some caller
  · cases hstep with
    | tick hnow => simp [CallEvent.caller?] at hcaller
    | look hidle =>
        obtain rfl := Option.some.inj hcaller
        rw [callers_put_self] at hclosing
        generalize (shared.cache.lookup _ shared.clock).1 = found at hclosing
        cases found <;> simp [Activity.ofLookup] at hclosing
    | beginClose hreleasing hfree hbegin =>
        obtain rfl := Option.some.inj hcaller
        rw [callers_lock, callers_put_self] at hclosing
        obtain ⟨rfl, -, -⟩ := Activity.closing.inj hclosing
        exact Or.inr List.mem_cons_self
    | refuse hidle | peek hidle =>
        obtain rfl := Option.some.inj hcaller
        simp [hidle] at hclosing
    | _ =>
        obtain rfl := Option.some.inj hcaller
        simp at hclosing
  · left
    rwa [hstep.callers_eq hcaller] at hclosing

/-- A closed handle stays closed. -/
theorem Step.closed?_of_closed (hsound : Sound limits shared)
    (hstep : Step outside shared event after) {id : Nat} (hclosed : shared.closed? id = some true) :
    after.closed? id = some true := by
  have hnumbered : id ∉ event.numbered := by
    intro hid
    simp [hstep.closed?_of_numbered hid] at hclosed
  rw [hstep.closed?_eq hsound, CallEvent.closed?, if_neg hnumbered, hclosed, ite_self]

/-- What callers may rely on while they use and close writers. -/
structure Guarded (shared : SharedCache ω) : Prop where
  locked : Locked shared
  writing : ∀ caller id, shared.callers caller = .writing id → shared.closed? id = some false
  closing : ∀ caller id rest errand, shared.callers caller = .closing id rest errand →
    shared.closed? id = some true

namespace Guarded

theorem start (limits : CacheLimits) (clock : Nat) :
    Guarded (start (ω := ω) limits clock) where
  locked := by simp [Locked, SharedCache.start, Activity.holds?]
  writing := by simp [SharedCache.start]
  closing := by simp [SharedCache.start]

theorem lock_eq (hguarded : Guarded shared) {caller id : Nat}
    (hwriting : shared.callers caller = .writing id) : shared.locks id = some caller := by
  rw [hguarded.locked, hwriting]
  rfl

theorem step (hguarded : Guarded shared) (hsound : Sound limits shared)
    (hstep : Step outside shared event after) : Guarded after := by
  constructor
  · exact hguarded.locked.step hstep
  · intro caller id hwriting
    rw [hstep.closed?_eq hsound, CallEvent.closed?]
    rcases hstep.writing hwriting with hbefore | ⟨hopen, hretired, hnumbered⟩
    · have hretired : id ∉ event.retired := by
        intro hid
        have hfree := (hstep.of_retired hid).2.1
        simp [hguarded.lock_eq hbefore] at hfree
      rw [if_neg hretired, hguarded.writing caller id hbefore, ite_self]
    · simp [hopen, hretired, hnumbered]
  · intro caller id rest errand hclosing
    rcases hstep.closing hclosing with hbefore | hretired
    · exact hstep.closed?_of_closed hsound (hguarded.closing caller id rest errand hbefore)
    · rw [hstep.closed?_eq hsound, CallEvent.closed?, if_pos hretired]

end Guarded

end SharedCache

end TableRouting
