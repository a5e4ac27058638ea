import TableRouting.Proofs.Sink.Settled

/-!
# Getting and using the writers of a sink

Whatever the cache holds and the clock shows, asking it for the writer of a table
gives an open writer of the table if one can be built, and the failure to build it
if not.  What is written through it is what a new writer would write.
-/

namespace TableRouting.JsonLines

variable {spec : WriterSpec}

/-- Sound marks while a flight for one table is under way. -/
structure Building (spec : WriterSpec) (table : String) (flight : Nat)
    (cache : WriterCache TableWriter) : Prop extends Sane spec cache where
  current : cache.contents.mark? table = some (.loading flight)
  alone : ∀ other loading, cache.contents.mark? other = some (.loading loading) → other = table

/-- What asking for the writer of a table gives. -/
def Gives (spec : WriterSpec) (table : String) (answer : Except Unavailable Nat)
    (cache : WriterCache TableWriter) : Prop :=
  match TableWriter.create table spec with
  | .error e => answer = .error (.construction e)
  | .ok _ => ∃ id, answer = .ok id ∧ id ∈ cache.contents.cached ∧ cache.contents.IsOpen id table

/-- The end of a flight whose construction returned. -/
theorem settled_of_finishes {table : String} {flight now : Nat}
    {cache after : WriterCache TableWriter}
    (hbuilding : Building spec table flight cache) {outcome : FlightOutcome} {released : List Nat}
    (hlinked : after.Linked)
    (hfinishes : cache.contents.Finishes table flight now (TableWriter.create table spec) outcome
      released after.contents) :
    Settled spec after ∧ Gives spec table (outcome.mapError .construction) after := by
  have hcoherent := hbuilding.coherent.finishes hfinishes
  have hquiet := hfinishes.quiet hbuilding.current hbuilding.alone
  rw [Gives]
  generalize hcontents : after.contents = contents at hfinishes hcoherent hquiet
  generalize hcreate : TableWriter.create table spec = built at hfinishes
  cases hfinishes with
  | refused hmark =>
      refine ⟨⟨⟨hlinked, hcontents ▸ hcoherent, ?_⟩, hcontents ▸ hquiet⟩, rfl⟩
      rw [hcontents]
      exact hbuilding.good
  | refusedDetached hmark => exact absurd hbuilding.current hmark
  | stored hmark hentries hroom hslot =>
      refine ⟨⟨⟨hlinked, hcontents ▸ hcoherent, ?_⟩, hcontents ▸ hquiet⟩, _, rfl, ?_, ?_⟩
      · rw [hcontents]
        exact hbuilding.good.addHandle hcreate
      · exact List.mem_cons_self
      · exact ⟨_, CacheContents.handle?_addHandle cache.contents table _, rfl, rfl⟩
  | detached hmark => exact absurd hbuilding.current hmark

variable {cache after : WriterCache TableWriter}

theorem Settled.framed (hsettled : Settled spec cache) (hsane : Sane spec after)
    (hframed : Framed cache.contents after.contents) : Settled spec after := by
  refine ⟨hsane, ?_⟩
  rw [hframed.mark?]
  exact hsettled.quiet

theorem Building.framed {table : String} {flight : Nat}
    (hbuilding : Building spec table flight cache) (hsane : Sane spec after)
    (hframed : Framed cache.contents after.contents) : Building spec table flight after := by
  refine ⟨hsane, ?_, ?_⟩
  · rw [hframed.mark?]
    exact hbuilding.current
  · rw [hframed.mark?]
    exact hbuilding.alone

theorem Gives.framed {table : String} {answer : Except Unavailable Nat}
    (hgives : Gives spec table answer cache) (hframed : Framed cache.contents after.contents) :
    Gives spec table answer after := by
  rw [Gives] at hgives ⊢
  cases hcreate : TableWriter.create table spec with
  | error e =>
      rw [hcreate] at hgives
      exact hgives
  | ok fresh =>
      rw [hcreate] at hgives
      obtain ⟨id, hanswer, hcached, handle, hhandle, hopen⟩ := hgives
      refine ⟨id, hanswer, ?_, handle, ?_, hopen⟩
      · rwa [hframed.cached]
      · rwa [hframed.handles id hcached]

theorem Settled.publish (hsettled : Settled spec cache) (flight : Nat) (outcome : FlightOutcome) :
    Settled spec (cache.publish flight outcome) where
  linked := hsettled.linked
  coherent := hsettled.coherent.publish flight outcome
  good := hsettled.good
  quiet := hsettled.quiet

/-- What a lookup leaves when the writer has to be built. -/
theorem building_of_looks {table : String} {now flight : Nat} {expired : Option Nat}
    (hsettled : Settled spec cache) (hlinked : after.Linked)
    (hlooks : cache.contents.Looks table now (.build flight expired) after.contents) :
    Building spec table flight after := by
  have hcoherent := hsettled.coherent.looks hlooks
  refine ⟨⟨hlinked, hcoherent, ?_⟩, hlooks.begins, fun _ _ => hlooks.alone hsettled.quiet⟩
  -- Whatever leaves, the handles stay.
  intro id handle hhandle
  rw [CacheContents.handle?, hlooks.handles_eq] at hhandle
  exact hsettled.good id handle hhandle

/-- What a lookup leaves when the writer is cached. -/
theorem settled_of_hit {table : String} {now id : Nat} (hsettled : Settled spec cache)
    (hlinked : after.Linked)
    (hlooks : cache.contents.Looks table now (.hit id) after.contents) :
    Settled spec after ∧ Gives spec table (.ok id) after := by
  have hcoherent := hsettled.coherent.looks hlooks
  generalize hcontents : after.contents = contents at hlooks hcoherent
  cases hlooks with
  | hit hmark hentries hfresh =>
      rename_i slot entry newer older
      have hentry : (slot, entry) ∈ cache.contents.entries := by simp [hentries]
      have htable := hsettled.coherent.table_of_ready hmark hentry
      have hopen := hsettled.coherent.bound slot entry hentry
      rw [htable] at hopen
      refine ⟨⟨⟨hlinked, hcontents ▸ hcoherent, ?_⟩, ?_⟩, ?_⟩
      · rw [hcontents]
        exact hsettled.good
      · rw [hcontents]
        exact hsettled.quiet
      · obtain ⟨handle, hhandle, hbound, hunclosed⟩ := hopen
        obtain ⟨fresh, hcreate⟩ := (hsettled.good _ handle hhandle).creatable
        rw [hbound] at hcreate
        rw [Gives, hcreate, hcontents]
        exact ⟨_, rfl, List.mem_cons_self, handle, hhandle, hbound, hunclosed⟩

variable {S σ : Type} [Host (StateM S)] {world : World S}

/-- Writing a group through an open writer of its table. -/
theorem ends_withWriter (view : S → σ) {root : String}
    {coordinator : Coordinator (SessionT (StateM S)) Connection TableWriter}
    (hstore : coordinator.store = store root spec) (hsettled : Settled spec world.cache)
    {id : Nat} {table : String} (hopen : world.cache.contents.IsOpen id table)
    (records : List Record) (connection : Connection) :
    world.Ends (Workshop.withWriter id (coordinator.useWriter records connection))
      fun answer after => Settled spec after.cache ∧
        answer = .ok (.ok (TableWriter.report spec records),
          connection.appendAll ⟨spec.schema, table⟩ (TableWriter.lines spec table records)) ∧
        World.Calm view world after := by
  obtain ⟨handle, hhandle, htable, hunclosed⟩ := hopen
  obtain ⟨hfits, hwritable, hcreatable⟩ := hsettled.good id handle hhandle
  rw [htable] at hfits
  obtain ⟨written, hwritten, hstill, hwrite⟩ :=
    hfits.write (hwritable hunclosed) connection records
  rw [Workshop.withWriter, World.ends_bind, World.ends_getThe, WriterCache.handle?_eq, hhandle]
  simp only [hunclosed, Bool.false_eq_true, if_false]
  rw [World.ends_bind, Coordinator.useWriter, World.ends_bind, World.ends_lift, hstore]
  change world.Ends (pure (((handle.writer.write connection records).1,
    (handle.writer.write connection records).2.2), (handle.writer.write connection records).2.1)) _
  rw [hwrite, World.ends_pure, World.ends_bind, World.ends_modify, World.ends_pure]
  refine ⟨⟨?_, ?_⟩, rfl, rfl, rfl⟩
  · apply hsettled.toSane.modifyHandle
    · exact fun _ => rfl
    · exact fun _ _ => rfl
    · intro found hfound
      obtain rfl : found = handle := Option.some.inj (hfound.symm.trans hhandle)
      exact ⟨htable ▸ hwritten, fun _ => hstill, hcreatable⟩
  · intro other flight
    rw [WriterCache.contents_modifyHandle, CacheContents.mark?_modifyHandle]
    exact hsettled.quiet other flight

/-- Closing every cached writer. -/
theorem ends_invalidateAll (view : S → σ) (root : String) (hsettled : Settled spec world.cache) :
    world.Ends (store root spec).invalidateAll fun _ after =>
      Settled spec after.cache ∧ World.Calm view world after := by
  rw [Workshop.invalidateAll, World.ends_bind, World.ends_step]
  have hcleared : Settled spec world.cache.invalidate.2 := by
    refine ⟨⟨WriterCache.linked_invalidate _, ?_, ?_⟩, ?_⟩
    · rw [WriterCache.contents_invalidate]
      exact CacheContents.Coherent.clear _
    · rw [WriterCache.contents_invalidate]
      exact hsettled.good
    · rw [WriterCache.contents_invalidate]
      intro table flight
      simp [CacheContents.clear]
  have hreleased : ∀ id ∈ world.cache.invalidate.1,
      id ∉ world.cache.invalidate.2.contents.cached := by
    rw [WriterCache.contents_invalidate]
    exact fun id _ => List.not_mem_nil
  apply World.Ends.imp (ends_release view root hcleared.toSane hreleased)
  rintro closed after ⟨hsane, hframed, hcalm⟩
  exact ⟨hcleared.framed hsane hframed, hcalm.session, hcalm.files⟩

variable [Host (StateM σ)] {view : S → σ}

/-- A flight whose construction returned ends, and the writers that have to leave
are closed. -/
theorem ends_complete (hmirrors : Mirrors view) (root : String) {table : String} {flight : Nat}
    (hbuilding : Building spec table flight world.cache) :
    world.Ends ((store root spec).complete table flight (TableWriter.create table spec))
      fun answer after => Settled spec after.cache ∧ Gives spec table answer after.cache ∧
        World.Calm view world after := by
  rw [Workshop.complete]
  apply World.Ends.bind (World.ends_now hmirrors root spec)
  rintro now timed ⟨hcache, hcalm⟩
  rw [World.ends_bind, World.ends_step]
  obtain ⟨hfinishes, hlinked⟩ := WriterCache.finishes_finish hbuilding.linked table flight
    (TableWriter.create table spec) now
  obtain ⟨hsettled, hgives⟩ := settled_of_finishes hbuilding hlinked hfinishes
  have hreleased (id : Nat) (hid : id ∈ _) :=
    (hbuilding.coherent.finishes_released hfinishes hid).1
  rw [hcache]
  generalize world.cache.finish table flight (TableWriter.create table spec) now = finished
    at hsettled hgives hreleased
  obtain ⟨outcome, released, cache⟩ := finished
  rw [World.ends_bind, World.ends_modify, World.ends_bind]
  apply World.Ends.imp
    (ends_release view root (hsettled.publish flight outcome).toSane hreleased)
  rintro closed after ⟨hsane, hframed, hcalm'⟩
  rw [World.ends_pure]
  have hpublished : Gives spec table _ (cache.publish flight outcome) := hgives
  exact ⟨(hsettled.publish flight outcome).framed hsane hframed, hpublished.framed hframed,
    hcalm.trans ⟨hcalm'.session, hcalm'.files⟩⟩

/-- Getting the writer of a table. -/
theorem ends_get (hmirrors : Mirrors view) (root : String) (hsettled : Settled spec world.cache)
    (table : String) :
    world.Ends ((store root spec).get table) fun answer after =>
      Settled spec after.cache ∧ Gives spec table answer after.cache ∧
        World.Calm view world after := by
  rw [Workshop.get]
  apply World.Ends.bind (World.ends_now hmirrors root spec)
  rintro now timed ⟨hcache, hcalm⟩
  rw [World.ends_bind, World.ends_step, hcache]
  obtain ⟨hlooks, hlinked⟩ := WriterCache.looks_lookup hsettled.linked hsettled.coherent.live
    table now
  generalize world.cache.lookup table now = looked at hlooks hlinked
  obtain ⟨found, cache⟩ := looked
  cases found with
  | hit id =>
      obtain ⟨hsettled, hgives⟩ := settled_of_hit hsettled hlinked hlooks
      exact ⟨hsettled, hgives, hcalm.session, hcalm.files⟩
  | join flight =>
      -- Nothing is being built that could be joined.
      generalize cache.contents = contents at hlooks
      cases hlooks with
      | join hmark => exact absurd hmark (hsettled.quiet table flight)
  | build flight expired =>
      have hbuilding := building_of_looks hsettled hlinked hlooks
      have hexpired (id : Nat) (hid : id ∈ expired.toList) :=
        (hsettled.coherent.looks_expired hlooks hid).1
      rw [World.ends_bind]
      apply World.Ends.imp (ends_release view root hbuilding.toSane hexpired)
      rintro closed released ⟨hsane, hframed, hcalm'⟩
      have hready := hbuilding.framed hsane hframed
      have hcomplete := ends_complete hmirrors root hready
      have hsofar : World.Calm view world released :=
        hcalm.trans ⟨hcalm'.session, hcalm'.files⟩
      have hends : released.Ends _ fun answer after => Settled spec after.cache ∧
          Gives spec table answer after.cache ∧ World.Calm view world after :=
        hcomplete.imp fun _ _ hafter => ⟨hafter.1, hafter.2.1, hsofar.trans hafter.2.2⟩
      rw [World.ends_bind]
      simp only [store]
      rw [World.ends_pure]
      cases hcreate : TableWriter.create table spec with
      | error e =>
          rw [hcreate] at hends
          exact hends
      | ok writer =>
          rw [hcreate] at hends
          exact hends

/-- Closing every expired writer. -/
theorem ends_cleanUp (hmirrors : Mirrors view) (root : String)
    (hsettled : Settled spec world.cache) :
    world.Ends (store root spec).cleanUp fun _ after =>
      Settled spec after.cache ∧ World.Calm view world after := by
  rw [Workshop.cleanUp]
  apply World.Ends.bind (World.ends_now hmirrors root spec)
  rintro now timed ⟨hcache, hcalm⟩
  rw [World.ends_bind, World.ends_step, World.ends_bind, hcache]
  obtain ⟨kept, dropped, hevicts⟩ := WriterCache.evicts_sweep now hsettled.linked
  have hreleased (id : Nat) (hid : id ∈ _) := (hsettled.coherent.evicts_released hevicts hid).1
  have hswept : Settled spec (world.cache.sweep now).2 := by
    refine ⟨⟨hevicts.linked, ?_, ?_⟩, ?_⟩
    · rw [hevicts.contents]
      exact hsettled.coherent.trim hevicts.entries
    · rw [hevicts.contents]
      exact hsettled.good
    · rw [hevicts.contents]
      exact CacheContents.quiet_trim hsettled.quiet kept dropped
  apply World.Ends.imp (ends_release view root hswept.toSane hreleased)
  rintro closed after ⟨hsane, hframed, hcalm'⟩
  exact ⟨hswept.framed hsane hframed, hcalm.trans ⟨hcalm'.session, hcalm'.files⟩⟩

/-- Asking for maintenance, whether or not a sweep is due. -/
theorem ends_maintain (hmirrors : Mirrors view) (root : String)
    (hsettled : Settled spec world.cache) (cleaner : Cleaner) :
    world.Ends (cleaner.maintain (store root spec).toWorkshop) fun _ after =>
      Settled spec after.cache ∧ World.Calm view world after := by
  rw [Cleaner.maintain]
  apply World.Ends.bind (World.ends_now hmirrors root spec)
  intro now timed htimed
  obtain ⟨hcache, hcalm⟩ := htimed
  rw [← hcache] at hsettled
  generalize cleaner.attempt now = attempted
  obtain ⟨due, cleaner⟩ := attempted
  cases due with
  | false => exact ⟨hsettled, hcalm⟩
  | true =>
      apply World.Ends.bind (ends_cleanUp hmirrors root hsettled)
      intro removed after hafter
      exact ⟨hafter.1, hcalm.trans hafter.2⟩

end TableRouting.JsonLines
