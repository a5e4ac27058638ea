import TableRouting.Proofs.Cache.Coherence
import TableRouting.Proofs.JsonLines.Writing
import TableRouting.Proofs.Sink.World

/-!
# The cache of a sink between its calls

Between two calls no writer is being built, and every cached writer is open and
writes what a new one would.  The steps of a call keep it so, whatever the clock
shows, and touch neither the files nor the session.
-/

namespace TableRouting.JsonLines

/-- A writer that was built to a specification, and is open if its handle is. -/
structure GoodHandle (spec : WriterSpec) (handle : WriterHandle TableWriter) : Prop where
  fits : handle.writer.Fits handle.table spec
  writable : handle.closed = false → handle.writer.closed = false
  creatable : ∃ fresh, TableWriter.create handle.table spec = .ok fresh

def AllGood (spec : WriterSpec) (contents : CacheContents TableWriter) : Prop :=
  ∀ id handle, contents.handle? id = some handle → GoodHandle spec handle

theorem goodHandle_of_create {spec : WriterSpec} {table : String} {writer : TableWriter}
    (hcreate : TableWriter.create table spec = .ok writer) :
    GoodHandle spec { table, writer } where
  fits := (TableWriter.fits_of_create hcreate).1
  writable := fun _ => (TableWriter.fits_of_create hcreate).2
  creatable := ⟨writer, hcreate⟩

theorem GoodHandle.release {spec : WriterSpec} {handle : WriterHandle TableWriter}
    (hgood : GoodHandle spec handle) :
    GoodHandle spec { handle with closed := true, writer := handle.writer.close } where
  fits := hgood.fits.close
  writable := fun hopen => Bool.noConfusion hopen
  creatable := hgood.creatable

namespace AllGood

variable {spec : WriterSpec} {contents : CacheContents TableWriter} {id : Nat}

/-- A good handle is changed to a good one. -/
theorem modifyHandle (hgood : AllGood spec contents)
    {f : WriterHandle TableWriter → WriterHandle TableWriter}
    (hf : ∀ handle, contents.handle? id = some handle → GoodHandle spec (f handle)) :
    AllGood spec (contents.modifyHandle id f) := by
  intro other handle hhandle
  rw [CacheContents.handle?_modifyHandle] at hhandle
  split at hhandle
  · rename_i hsame
    subst hsame
    obtain ⟨before, hbefore, rfl⟩ := Option.map_eq_some_iff.mp hhandle
    exact hf before hbefore
  · exact hgood other handle hhandle

/-- A good writer is numbered. -/
theorem addHandle (hgood : AllGood spec contents) {table : String} {writer : TableWriter}
    (hcreate : TableWriter.create table spec = .ok writer) :
    AllGood spec (contents.addHandle table writer) := by
  intro id handle hhandle
  rcases Nat.lt_trichotomy id (contents.handles.size + 1) with hlt | rfl | hgt
  · rw [CacheContents.handle?_addHandle_of_le table writer (Nat.le_of_lt_succ hlt)] at hhandle
    exact hgood id handle hhandle
  · rw [CacheContents.handle?_addHandle] at hhandle
    obtain rfl := Option.some.inj hhandle
    exact goodHandle_of_create hcreate
  · rw [CacheContents.handle?_of_size_lt] at hhandle
    · simp at hhandle
    · simpa [CacheContents.addHandle] using hgt

end AllGood

/-- A cache that holds together, with good handles. -/
structure Sane (spec : WriterSpec) (cache : WriterCache TableWriter) : Prop where
  linked : cache.Linked
  coherent : cache.contents.Coherent
  good : AllGood spec cache.contents

/-- A cache in which nothing is being built. -/
structure Settled (spec : WriterSpec) (cache : WriterCache TableWriter) : Prop
    extends Sane spec cache where
  quiet : ∀ table flight, cache.contents.mark? table ≠ some (.loading flight)

/-- Handles have changed that are not cached, and nothing else. -/
structure Framed (before after : CacheContents TableWriter) : Prop where
  limits : after.limits = before.limits
  entries : after.entries = before.entries
  mark? : after.mark? = before.mark?
  flights : after.flights = before.flights
  handles : ∀ id ∈ before.cached, after.handle? id = before.handle? id

theorem Framed.refl (contents : CacheContents TableWriter) : Framed contents contents :=
  ⟨rfl, rfl, rfl, rfl, fun _ _ => rfl⟩

theorem Framed.cached {before after : CacheContents TableWriter} (hframed : Framed before after) :
    after.cached = before.cached := by
  rw [CacheContents.cached, hframed.entries, CacheContents.cached]

theorem Framed.trans {before between after : CacheContents TableWriter}
    (hfirst : Framed before between) (hsecond : Framed between after) : Framed before after where
  limits := hsecond.limits.trans hfirst.limits
  entries := hsecond.entries.trans hfirst.entries
  mark? := hsecond.mark?.trans hfirst.mark?
  flights := hsecond.flights.trans hfirst.flights
  handles := fun id hid =>
    (hsecond.handles id (hfirst.cached ▸ hid)).trans (hfirst.handles id hid)

variable {spec : WriterSpec} {cache : WriterCache TableWriter} {id : Nat}

/-- A handle changes in its writer, or is closed while it is not cached. -/
theorem Sane.modifyHandle (hsane : Sane spec cache)
    {f : WriterHandle TableWriter → WriterHandle TableWriter}
    (htable : ∀ handle, (f handle).table = handle.table)
    (hclosed : id ∈ cache.contents.cached → ∀ handle, (f handle).closed = handle.closed)
    (hgood : ∀ handle, cache.contents.handle? id = some handle → GoodHandle spec (f handle)) :
    Sane spec (cache.modifyHandle id f) := by
  constructor
  · exact (WriterCache.linked_modifyHandle id f).mpr hsane.linked
  · rw [WriterCache.contents_modifyHandle]
    exact hsane.coherent.modifyHandle htable hclosed
  · rw [WriterCache.contents_modifyHandle]
    exact hsane.good.modifyHandle hgood

theorem framed_modifyHandle (f : WriterHandle TableWriter → WriterHandle TableWriter)
    (hid : id ∉ cache.contents.cached) :
    Framed cache.contents (cache.modifyHandle id f).contents := by
  rw [WriterCache.contents_modifyHandle]
  have hentries := cache.contents.entries_modifyHandle id f
  constructor
  · rw [CacheContents.modifyHandle]
    split <;> rfl
  · exact hentries
  · exact CacheContents.mark?_modifyHandle _ _ _
  · exact CacheContents.flights_modifyHandle _ _ _
  · intro other hother
    rw [CacheContents.handle?_modifyHandle, if_neg]
    rintro rfl
    exact hid hother

variable {S σ : Type} [Host (StateM S)] {world : World S}

/-- Closing a handle that is not cached. -/
theorem ends_closeHandle (view : S → σ) (root : String) (hsane : Sane spec world.cache)
    (hid : id ∉ world.cache.contents.cached) :
    world.Ends ((store root spec).closeHandle id) fun _ after =>
      Sane spec after.cache ∧ Framed world.cache.contents after.cache.contents ∧
        World.Calm view world after := by
  rw [Workshop.closeHandle, World.ends_bind, World.ends_step]
  rcases world.cache.beginClose_cases id with ⟨hskip, -⟩ | ⟨handle, hhandle, hopen, hbegin⟩
  · rw [hskip]
    exact ⟨hsane, Framed.refl _, World.Calm.refl world⟩
  · rw [hbegin]
    have hboth := world.cache.modifyHandle_modifyHandle id
      (fun h => { h with closed := true }) (fun h => { h with writer := handle.writer.close })
    change Sane spec ((world.cache.modifyHandle id _).modifyHandle id _) ∧
      Framed _ ((world.cache.modifyHandle id _).modifyHandle id _).contents ∧ _
    rw [hboth]
    refine ⟨?_, framed_modifyHandle _ hid, rfl, rfl⟩
    apply hsane.modifyHandle
    · exact fun _ => rfl
    · exact fun hmem => absurd hmem hid
    · intro found hfound
      obtain rfl : found = handle := Option.some.inj (hfound.symm.trans hhandle)
      exact (hsane.good id found hfound).release

theorem ends_release (view : S → σ) (root : String) (hsane : Sane spec world.cache)
    {released : List Nat} (hreleased : ∀ id ∈ released, id ∉ world.cache.contents.cached) :
    world.Ends ((store root spec).release released) fun _ after =>
      Sane spec after.cache ∧ Framed world.cache.contents after.cache.contents ∧
        World.Calm view world after := by
  induction released generalizing world with
  | nil => exact ⟨hsane, Framed.refl _, World.Calm.refl world⟩
  | cons id rest ih =>
      rw [Workshop.release]
      apply World.Ends.bind (ends_closeHandle view root hsane (hreleased id List.mem_cons_self))
      rintro closed after ⟨hsane, hframed, hcalm⟩
      have hrest : ∀ other ∈ rest, other ∉ after.cache.contents.cached := by
        rw [hframed.cached]
        exact fun other hother => hreleased other (List.mem_cons_of_mem id hother)
      apply World.Ends.bind (ih hsane hrest)
      rintro more last ⟨hsane, hframed', hcalm'⟩
      have hlast := And.intro hsane (And.intro (hframed.trans hframed') (hcalm.trans hcalm'))
      split <;> exact hlast

end TableRouting.JsonLines
