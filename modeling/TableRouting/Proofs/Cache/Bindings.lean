import TableRouting.Proofs.Cache.SingleFlight

/-!
# Writers are bound to their tables

A handle keeps its table for good, and what a lookup finds or a construction brings into
the cache is bound to the table that was asked for.  So one writer never serves two tables,
whoever uses it and whenever.
-/

namespace TableRouting

variable {ω : Type}

namespace CacheContents

variable {contents after : CacheContents ω} {table : String} {id now : Nat}

/-- A number is that of a handle for a table, open or closed. -/
def IsBound (contents : CacheContents ω) (id : Nat) (table : String) : Prop :=
  ∃ handle, contents.handle? id = some handle ∧ handle.table = table

theorem IsOpen.isBound (hopen : contents.IsOpen id table) : contents.IsBound id table := by
  obtain ⟨handle, hhandle, htable, -⟩ := hopen
  exact ⟨handle, hhandle, htable⟩

/-- A handle has one table. -/
theorem IsBound.unique {other : String} (hbound : contents.IsBound id table)
    (hother : contents.IsBound id other) : table = other := by
  obtain ⟨handle, hhandle, rfl⟩ := hbound
  obtain ⟨found, hfound, rfl⟩ := hother
  rw [Option.some.inj (hhandle.symm.trans hfound)]

theorem IsBound.of_handles_eq (hbound : contents.IsBound id table)
    (hhandles : after.handles = contents.handles) : after.IsBound id table := by
  rwa [IsBound, handle?, hhandles]

theorem IsBound.modifyHandle (hbound : contents.IsBound id table) (other : Nat)
    {f : WriterHandle ω → WriterHandle ω} (htable : ∀ handle, (f handle).table = handle.table) :
    (contents.modifyHandle other f).IsBound id table := by
  obtain ⟨handle, hhandle, rfl⟩ := hbound
  rw [IsBound, handle?_modifyHandle, hhandle]
  split
  · exact ⟨_, rfl, htable handle⟩
  · exact ⟨_, rfl, rfl⟩

theorem IsBound.of_push (hbound : contents.IsBound id table) {place : String} {writer : ω}
    (hhandles : after.handles = contents.handles.push { table := place, writer }) :
    after.IsBound id table := by
  obtain ⟨handle, hhandle, htable⟩ := hbound
  have hid : id ≤ contents.handles.size := by
    by_contra hlt
    simp [handle?_of_size_lt (Nat.lt_of_not_le hlt)] at hhandle
  refine ⟨handle, ?_, htable⟩
  rw [← hhandle, ← handle?_addHandle_of_le place writer hid, handle?, hhandles]
  rfl

/-- What a lookup finds is cached for the table. -/
theorem Looks.isOpen_of_hit (hcoherent : Coherent contents)
    (hlooks : contents.Looks table now (.hit id) after) : contents.IsOpen id table := by
  cases hlooks with
  | hit hmark hentries hfresh =>
      rename_i slot entry newer older
      have hentry : (slot, entry) ∈ contents.entries := by simp [hentries]
      have hopen := hcoherent.bound slot entry hentry
      rwa [hcoherent.table_of_ready hmark hentry] at hopen

/-- What a flight hands out was brought into the cache for its table. -/
theorem Finishes.isOpen_of_ok {flight : Nat} {built : Except ConstructionError ω}
    {released : List Nat}
    (hfinishes : contents.Finishes table flight now built (.ok id) released after) :
    id ∈ after.cached ∧ after.IsOpen id table := by
  generalize houtcome : (.ok id : FlightOutcome) = outcome at hfinishes
  cases hfinishes with
  | refused hmark | refusedDetached hmark => exact nomatch houtcome
  | stored hmark hentries hroom hslot =>
      obtain rfl := Except.ok.inj houtcome
      exact ⟨List.mem_cons_self, _, handle?_addHandle contents table _, rfl, rfl⟩
  | detached hmark => exact nomatch houtcome

end CacheContents

namespace SharedCache

variable {outside : Outside ω} {limits : CacheLimits} {first shared after : SharedCache ω}
  {events : List (CallEvent ω)} {event : CallEvent ω} {table : String} {id caller : Nat}

/-- A step leaves the tables of the handles as they are. -/
theorem Step.isBound (hsound : Sound limits shared) (hstep : Step outside shared event after)
    (hbound : shared.cache.contents.IsBound id table) : after.cache.contents.IsBound id table := by
  cases hstep with
  | look hcaller => exact hbound.of_handles_eq (hsound.looks _).handles_eq
  | beginClose hcaller hfree hbegin =>
      obtain ⟨handle, -, -, rfl⟩ := WriterCache.beginClose_some hbegin
      rw [cache_lock, cache_put, WriterCache.contents_modifyHandle]
      exact hbound.modifyHandle _ fun _ => rfl
  | endClose hcaller hhandle hcloses | leave hcaller hhandle huses =>
      rw [cache_lock, cache_put, WriterCache.contents_modifyHandle]
      exact hbound.modifyHandle _ fun _ => rfl
  | skip hcaller hfree hbegin =>
      obtain ⟨rfl, -⟩ := WriterCache.beginClose_none hbegin
      exact hbound
  | finish hcaller hfinish =>
      rename_i built outcome released cache
      have hfinishes := hsound.finishes hfinish
      cases built with
      | error e => exact hbound.of_handles_eq hfinishes.handles_eq_of_error
      | ok writer => exact hbound.of_push hfinishes.handles_eq_of_ok
  | abandon hcaller =>
      exact hbound.of_handles_eq
        (shared.cache.finishes_abandon _ _ shared.clock).handles_eq_of_error
  | sweep hcaller =>
      obtain ⟨kept, dropped, hevicts⟩ := WriterCache.evicts_sweep shared.clock hsound.linked
      apply hbound.of_handles_eq
      rw [cache_put, hevicts.contents]
      rfl
  | invalidate hcaller => exact hbound.of_handles_eq (by simp [CacheContents.clear])
  | _ => exact hbound

theorem Run.isBound (hsound : Sound limits first) (hrun : Run outside first events shared)
    (hbound : first.cache.contents.IsBound id table) : shared.cache.contents.IsBound id table := by
  induction hrun with
  | nil => exact hbound
  | step hrun hstep ih => exact hstep.isBound (hsound.run hrun) ih

/-- What a lookup finds is cached before and after it. -/
theorem Step.of_hit (hsound : Sound limits shared)
    (hstep : Step outside shared (.looked caller table (.hit id)) after) :
    id ∈ after.cache.contents.cached ∧ shared.cache.contents.IsOpen id table := by
  have hlooks := hstep.looks hsound
  refine ⟨?_, hlooks.isOpen_of_hit hsound.coherent⟩
  generalize after.cache.contents = contents at hlooks
  cases hlooks with
  | hit hmark hentries hfresh => exact List.mem_cons_self

/-- A flight that hands out a writer has brought it into the cache. -/
theorem Step.of_ended {flight : Nat} {handle : Option Nat} (hsound : Sound limits shared)
    (hstep : Step outside shared (.ended caller table flight handle (.ok id)) after) :
    id ∈ after.cache.contents.cached ∧ after.cache.contents.IsOpen id table := by
  generalize hevent : CallEvent.ended caller table flight handle (.ok id) = event at hstep
  cases hstep with
  | finish hcaller hfinish =>
      obtain ⟨rfl, rfl, rfl, -, rfl⟩ := CallEvent.ended.inj hevent
      exact (hsound.finishes hfinish).isOpen_of_ok
  | abandon hcaller =>
      obtain ⟨-, -, -, -, houtcome⟩ := CallEvent.ended.inj hevent
      exact nomatch houtcome
  | _ => exact nomatch hevent

/-- What was found for a table is bound to it from then on. -/
theorem Run.isBound_of_hit {clock : Nat} (hrun : Run outside (start limits clock) events shared)
    (hlooked : .looked caller table (.hit id) ∈ events) :
    shared.cache.contents.IsBound id table := by
  obtain ⟨before, rest, rfl⟩ := List.append_of_mem hlooked
  obtain ⟨earlier, later, hbefore, hstep, hrest⟩ := hrun.split
  have hsound := (Sound.start limits clock).run hbefore
  exact hrest.isBound (hsound.step hstep)
    (hstep.isBound hsound (hstep.of_hit hsound).2.isBound)

/-- One writer is not found for two tables, whenever they are looked up. -/
theorem Run.table_unique {clock other : Nat} {place : String}
    (hrun : Run outside (start limits clock) events shared)
    (hlooked : .looked caller table (.hit id) ∈ events)
    (hother : .looked other place (.hit id) ∈ events) : table = place :=
  (hrun.isBound_of_hit hlooked).unique (hrun.isBound_of_hit hother)

end SharedCache

end TableRouting
