import TableRouting.Proofs.Cache.Interleaving

/-!
# The cache under concurrency

Whatever the callers of a cache do, and in whatever order, its marks, its entries
and its handles fit together, and no mark outlives the construction that it stands
for.  The invariant adds to the coherence of the cache what the phases of the
callers say about it: which flights they build, and which handles they are still
to close.
-/

namespace TableRouting.System

variable {ω : Type} {outside : Outside ω} {limits : CacheLimits} {system after : System ω}

/-- The invariant of a cache with its callers. -/
structure Sound (limits : CacheLimits) (system : System ω) : Prop where
  limits : system.cache.limits = limits
  linked : system.cache.Linked
  coherent : system.cache.contents.Coherent
  begun : ∀ caller table flight, (system.callers caller).flight? = some (table, flight) →
    flight < system.cache.contents.flights.size
  apart : ∀ first second table other flight,
    (system.callers first).flight? = some (table, flight) →
    (system.callers second).flight? = some (other, flight) → first = second
  owned : ∀ table flight, system.cache.contents.mark? table = some (.loading flight) →
    ∃ caller, (system.callers caller).flight? = some (table, flight)
  released : ∀ caller id, id ∈ (system.callers caller).released →
    id ∉ system.cache.contents.cached ∧ id ≤ system.cache.contents.handles.size

theorem Sound.start (limits : CacheLimits) (clock : Nat) :
    Sound limits (start (ω := ω) limits clock) where
  limits := rfl
  linked := AccessList.Represents.empty
  coherent := by
    rw [System.start, WriterCache.contents_empty]
    exact CacheContents.Coherent.empty limits
  begun := by simp [System.start, Phase.flight?]
  apart := by simp [System.start, Phase.flight?]
  owned := by simp [System.start, WriterCache.contents, WriterCache.marks]
  released := by simp [System.start, Phase.released]

/-- What one caller may do to the cache without harm to what the phases of the
others say. -/
structure Harmless (system : System ω) (caller : Nat) (phase : Phase)
    (after : CacheContents ω) : Prop where
  flights : system.cache.contents.flights.size ≤ after.flights.size
  handles : system.cache.contents.handles.size ≤ after.handles.size
  cached : ∀ id ∈ after.cached,
    id ∈ system.cache.contents.cached ∨ system.cache.contents.handles.size < id
  released : ∀ id ∈ phase.released, id ∉ after.cached ∧ id ≤ after.handles.size
  marks : ∀ table flight, after.mark? table = some (.loading flight) →
    phase.flight? = some (table, flight) ∨
      (system.cache.contents.mark? table = some (.loading flight) ∧
        (system.callers caller).flight? ≠ some (table, flight))
  building : ∀ table flight, phase.flight? = some (table, flight) →
    (system.callers caller).flight? = some (table, flight) ∨
      (system.cache.contents.flights.size ≤ flight ∧ flight < after.flights.size)

/-- A harmless step of one caller keeps the invariant. -/
theorem Sound.put (hsound : Sound limits system) {caller : Nat} {phase : Phase}
    {cache : WriterCache ω} (hlimits : cache.limits = system.cache.limits)
    (hlinked : cache.Linked) (hcoherent : cache.contents.Coherent)
    (hharmless : system.Harmless caller phase cache.contents) :
    Sound limits (system.put caller phase cache) := by
  have hself : (system.put caller phase cache).callers caller = phase := Function.update_self ..
  have hother {other : Nat} (h : other ≠ caller) :
      (system.put caller phase cache).callers other = system.callers other :=
    Function.update_of_ne h ..
  have hbegun : ∀ table flight, phase.flight? = some (table, flight) →
      flight < cache.contents.flights.size := by
    intro table flight hflight
    rcases hharmless.building table flight hflight with hold | hnew
    · exact Nat.lt_of_lt_of_le (hsound.begun caller table flight hold) hharmless.flights
    · exact hnew.2
  -- A flight of this caller is none of another one's: it is an old one of its own, or new.
  have happart : ∀ other table flight otherTable, other ≠ caller →
      phase.flight? = some (table, flight) →
      (system.callers other).flight? ≠ some (otherTable, flight) := by
    intro other table flight otherTable hne hflight hothers
    rcases hharmless.building table flight hflight with hold | hnew
    · exact hne (hsound.apart _ _ _ _ _ hothers hold)
    · exact Nat.not_lt_of_le hnew.1 (hsound.begun other otherTable flight hothers)
  refine ⟨hlimits.trans hsound.limits, hlinked, hcoherent, ?_, ?_, ?_, ?_⟩
  · intro other table flight hflight
    by_cases h : other = caller
    · subst h
      rw [hself] at hflight
      exact hbegun table flight hflight
    · rw [hother h] at hflight
      exact Nat.lt_of_lt_of_le (hsound.begun other table flight hflight) hharmless.flights
  · intro first second table other flight hfirst hsecond
    by_cases h₁ : first = caller <;> by_cases h₂ : second = caller
    · exact h₁.trans h₂.symm
    · rw [h₁, hself] at hfirst
      rw [hother h₂] at hsecond
      exact absurd hsecond (happart second table flight other h₂ hfirst)
    · rw [hother h₁] at hfirst
      rw [h₂, hself] at hsecond
      exact absurd hfirst (happart first other flight table h₁ hsecond)
    · rw [hother h₁] at hfirst
      rw [hother h₂] at hsecond
      exact hsound.apart first second table other flight hfirst hsecond
  · intro table flight hmark
    rcases hharmless.marks table flight hmark with hnew | ⟨hold, hnot⟩
    · exact ⟨caller, by rw [hself]; exact hnew⟩
    · obtain ⟨owner, howner⟩ := hsound.owned table flight hold
      have hne : owner ≠ caller := by
        rintro rfl
        exact hnot howner
      exact ⟨owner, by rw [hother hne]; exact howner⟩
  · intro other id hid
    by_cases h : other = caller
    · subst h
      rw [hself] at hid
      exact hharmless.released id hid
    · rw [hother h] at hid
      obtain ⟨hnot, hle⟩ := hsound.released other id hid
      refine ⟨fun hmem => ?_, Nat.le_trans hle hharmless.handles⟩
      rcases hharmless.cached id hmem with hold | hnew
      · exact hnot hold
      · exact Nat.not_lt_of_le hle hnew

variable {caller : Nat} {phase : Phase}

/-- Entries and marks leave, and the caller keeps to its flight if it has one. -/
theorem Harmless.of_leaving {contents : CacheContents ω}
    (hflight : phase.flight? = (system.callers caller).flight?)
    (hflights : system.cache.contents.flights.size ≤ contents.flights.size)
    (hhandles : system.cache.contents.handles.size ≤ contents.handles.size)
    (hcached : contents.cached ⊆ system.cache.contents.cached)
    (hmarks : ∀ table flight, contents.mark? table = some (.loading flight) →
      system.cache.contents.mark? table = some (.loading flight))
    (hreleased : ∀ id ∈ phase.released, id ∉ contents.cached ∧ id ≤ contents.handles.size) :
    system.Harmless caller phase contents where
  flights := hflights
  handles := hhandles
  cached := fun id hid => Or.inl (hcached hid)
  released := hreleased
  marks := by
    intro table flight hmark
    rw [hflight]
    by_cases hown : (system.callers caller).flight? = some (table, flight)
    · exact Or.inl hown
    · exact Or.inr ⟨hmarks table flight hmark, hown⟩
  building := by
    intro table flight h
    rw [hflight] at h
    exact Or.inl h

/-- The cache stays as it is. -/
theorem Sound.keep (hsound : Sound limits system)
    (hflight : phase.flight? = (system.callers caller).flight?)
    (hreleased : phase.released ⊆ (system.callers caller).released) :
    Sound limits (system.put caller phase system.cache) := by
  apply hsound.put rfl hsound.linked hsound.coherent
  apply Harmless.of_leaving hflight
  · exact Nat.le_refl _
  · exact Nat.le_refl _
  · exact List.Subset.refl _
  · exact fun _ _ h => h
  · intro id hid
    exact hsound.released caller id (hreleased hid)

/-- A handle changes, which is not cached or stays open. -/
theorem Sound.modifyHandle (hsound : Sound limits system) {id : Nat}
    {f : WriterHandle ω → WriterHandle ω} (htable : ∀ handle, (f handle).table = handle.table)
    (hclosed : id ∈ system.cache.contents.cached → ∀ handle, (f handle).closed = handle.closed)
    (hflight : phase.flight? = (system.callers caller).flight?)
    (hreleased : phase.released ⊆ (system.callers caller).released) :
    Sound limits (system.put caller phase (system.cache.modifyHandle id f)) := by
  have hlimits : (system.cache.modifyHandle id f).limits = system.cache.limits := by
    rw [WriterCache.modifyHandle]
    split <;> rfl
  apply hsound.put hlimits ((WriterCache.linked_modifyHandle id f).mpr hsound.linked)
  · rw [WriterCache.contents_modifyHandle]
    exact hsound.coherent.modifyHandle htable hclosed
  · rw [WriterCache.contents_modifyHandle]
    apply Harmless.of_leaving hflight
    · simp
    · simp
    · simp
    · simp
    · intro id hid
      simpa using hsound.released caller id (hreleased hid)

/-- A handle that leaves the cache is not cached any more. -/
theorem Sound.evicts (hsound : Sound limits system) {kept dropped : List (Nat × CacheEntry)}
    {released : List Nat} {cache : WriterCache ω}
    (hevicts : system.cache.Evicts kept dropped released cache)
    (hidle : (system.callers caller).flight? = none) (answer : Option FlightOutcome) :
    Sound limits (system.put caller (.releasing released answer) cache) := by
  have hcontents := hevicts.contents
  have hentries := hevicts.entries
  have hlimits : cache.limits = system.cache.limits := congrArg CacheContents.limits hcontents
  apply hsound.put hlimits hevicts.linked
  · rw [hcontents]
    exact hsound.coherent.trim hentries
  · apply Harmless.of_leaving
    · exact hidle.symm
    · rw [hcontents]
      exact Nat.le_refl _
    · rw [hcontents]
      exact Nat.le_refl _
    · intro id hid
      rw [hcontents] at hid
      rw [CacheContents.cached, hentries, List.map_append]
      exact List.mem_append_left _ hid
    · intro table flight hmark
      rw [hcontents] at hmark
      simp only [CacheContents.trim] at hmark
      split at hmark
      · simp at hmark
      · exact hmark
    · intro id hid
      exact hsound.coherent.evicts_released hevicts hid

/-- A lookup of an idle caller. -/
theorem Harmless.of_looks (hcoherent : system.cache.contents.Coherent)
    (hidle : (system.callers caller).flight? = none) {table : String} {now : Nat}
    {found : WriterCache.Lookup} {contents : CacheContents ω}
    (hlooks : system.cache.contents.Looks table now found contents) :
    system.Harmless caller (.ofLookup table found) contents := by
  -- The mark of a new flight is that of the caller; any other one was there before.
  have hbegun {before : CacheContents ω} (hmark? : before.mark? = system.cache.contents.mark?)
      (expired : List Nat) (other : String) (flight : Nat)
      (hmark : (before.beginFlight table).mark? other = some (.loading flight)) :
      (Phase.building table before.flights.size expired).flight? = some (other, flight) ∨
        (system.cache.contents.mark? other = some (.loading flight) ∧
          (system.callers caller).flight? ≠ some (other, flight)) := by
    by_cases hother : other = table
    · subst hother
      left
      simpa [CacheContents.beginFlight, Phase.flight?] using hmark
    · right
      rw [hidle]
      simp only [CacheContents.beginFlight, Function.update_of_ne hother, hmark?] at hmark
      exact ⟨hmark, by simp⟩
  have hexpired {flight : Nat} {expired : Option Nat} (hfound : found = .build flight expired) :
      ∀ id ∈ expired.toList, id ∉ contents.cached ∧ id ≤ contents.handles.size := by
    subst hfound
    exact fun id hid => hcoherent.looks_expired hlooks hid
  cases hlooks with
  | join hmark =>
      apply Harmless.of_leaving
      · exact hidle.symm
      · exact Nat.le_refl _
      · exact Nat.le_refl _
      · exact List.Subset.refl _
      · exact fun _ _ h => h
      · simp [Phase.ofLookup, Phase.released]
  | build hmark =>
      constructor
      · simp [CacheContents.beginFlight]
      · exact Nat.le_refl _
      · exact fun id hid => Or.inl hid
      · simp [Phase.ofLookup, Phase.released]
      · exact hbegun rfl []
      · intro other flight hflight
        right
        obtain ⟨-, rfl⟩ := Prod.mk.inj (Option.some.inj hflight)
        simp [CacheContents.beginFlight]
  | expire hmark hentries hstale =>
      rename_i slot entry newer older
      constructor
      · simp [CacheContents.beginFlight]
      · exact Nat.le_refl _
      · intro id hid
        left
        rw [CacheContents.cached, hentries, List.map_append, List.map_cons]
        rw [CacheContents.cached, CacheContents.beginFlight, List.map_append] at hid
        exact List.mem_append.mpr ((List.mem_append.mp hid).imp_right (List.mem_cons_of_mem _))
      · exact hexpired rfl
      · exact hbegun rfl [entry.handle]
      · intro other flight hflight
        right
        obtain ⟨-, rfl⟩ := Prod.mk.inj (Option.some.inj hflight)
        simp [CacheContents.beginFlight]
  | hit hmark hentries hfresh =>
      apply Harmless.of_leaving
      · exact hidle.symm
      · exact Nat.le_refl _
      · exact Nat.le_refl _
      · intro id hid
        simp only [CacheContents.cached, hentries, List.map_append, List.map_cons, List.mem_cons,
          List.mem_append] at hid ⊢
        tauto
      · exact fun _ _ h => h
      · simp [Phase.ofLookup, Phase.released]

/-- The end of a flight whose construction returned. -/
theorem Harmless.of_finishes (hcoherent : system.cache.contents.Coherent) {table : String}
    {flight now : Nat} (hflight : (system.callers caller).flight? = some (table, flight))
    {built : Except ConstructionError ω} {outcome : FlightOutcome} {released : List Nat}
    {contents : CacheContents ω}
    (hfinishes : system.cache.contents.Finishes table flight now built outcome released contents) :
    system.Harmless caller (.publishing flight outcome released) contents := by
  have hown {other : String} {loading : Nat}
      (hmark : system.cache.contents.mark? other = some (.loading loading))
      (hne : other = table → loading ≠ flight) :
      (Phase.publishing flight outcome released).flight? = some (other, loading) ∨
        (system.cache.contents.mark? other = some (.loading loading) ∧
          (system.callers caller).flight? ≠ some (other, loading)) := by
    right
    refine ⟨hmark, fun hsame => ?_⟩
    rw [hflight] at hsame
    obtain ⟨rfl, rfl⟩ := Prod.mk.inj (Option.some.inj hsame)
    exact hne rfl rfl
  have hreleased : ∀ id ∈ released, id ∉ contents.cached ∧ id ≤ contents.handles.size :=
    fun id hid => hcoherent.finishes_released hfinishes hid
  cases hfinishes with
  | refused hmark =>
      constructor
      · exact Nat.le_refl _
      · exact Nat.le_refl _
      · exact fun id hid => Or.inl hid
      · exact hreleased
      · intro other loading hloading
        by_cases hother : other = table
        · subst hother
          simp [CacheContents.unmark] at hloading
        · simp only [CacheContents.unmark, Function.update_of_ne hother] at hloading
          exact hown hloading fun h => absurd h hother
      · simp [Phase.flight?]
  | refusedDetached hmark =>
      constructor
      · exact Nat.le_refl _
      · exact Nat.le_refl _
      · exact fun id hid => Or.inl hid
      · exact hreleased
      · intro other loading hloading
        apply hown hloading
        rintro rfl rfl
        exact hmark hloading
      · simp [Phase.flight?]
  | stored hmark hentries hroom hslot =>
      rename_i writer kept dropped slot
      constructor
      · exact Nat.le_refl _
      · simp [CacheContents.addHandle, CacheContents.trim]
      · intro id hid
        rcases List.mem_cons.mp hid with rfl | hkept
        · exact Or.inr (Nat.lt_succ_self _)
        · left
          rw [CacheContents.cached, hentries, List.map_append]
          exact List.mem_append_left _ hkept
      · exact hreleased
      · intro other loading hloading
        by_cases hother : other = table
        · subst hother
          simp at hloading
        · simp only [Function.update_of_ne hother, CacheContents.trim] at hloading
          split at hloading
          · simp at hloading
          · exact hown hloading fun h => absurd h hother
      · simp [Phase.flight?]
  | detached hmark =>
      constructor
      · exact Nat.le_refl _
      · simp [CacheContents.addHandle]
      · exact fun id hid => Or.inl hid
      · exact hreleased
      · intro other loading hloading
        apply hown hloading
        rintro rfl rfl
        exact hmark hloading
      · simp [Phase.flight?]

theorem Sound.finish (hsound : Sound limits system) {table : String} {flight : Nat}
    (hflight : (system.callers caller).flight? = some (table, flight))
    (built : Except ConstructionError ω) {outcome : FlightOutcome} {released : List Nat}
    {cache : WriterCache ω}
    (hfinish : system.cache.finish table flight built system.clock = (outcome, released, cache)) :
    Sound limits (system.put caller (.publishing flight outcome released) cache) := by
  obtain ⟨hfinishes, hlinked⟩ :=
    WriterCache.finishes_finish hsound.linked table flight built system.clock
  rw [hfinish] at hfinishes hlinked
  exact hsound.put hfinishes.limits_eq hlinked (hsound.coherent.finishes hfinishes)
    (Harmless.of_finishes hsound.coherent hflight hfinishes)

theorem Sound.abandon (hsound : Sound limits system) {table : String} {flight : Nat}
    (hflight : (system.callers caller).flight? = some (table, flight)) (outcome : FlightOutcome) :
    Sound limits (system.put caller (.publishing flight outcome [])
      (system.cache.abandon table flight)) := by
  have hfinishes := system.cache.finishes_abandon table flight system.clock
  have hharmless := Harmless.of_finishes hsound.coherent hflight hfinishes
  exact hsound.put hfinishes.limits_eq ((WriterCache.linked_abandon _ _).mpr hsound.linked)
    (hsound.coherent.finishes hfinishes) { hharmless with }

theorem Sound.publish (hsound : Sound limits system) {flight : Nat}
    (outcome : FlightOutcome) (hflight : phase.flight? = (system.callers caller).flight?)
    (hreleased : phase.released ⊆ (system.callers caller).released) :
    Sound limits (system.put caller phase (system.cache.publish flight outcome)) := by
  apply hsound.put
  · rfl
  · exact hsound.linked
  · exact hsound.coherent.publish flight outcome
  · apply Harmless.of_leaving hflight
    · simp [CacheContents.publish]
    · exact Nat.le_refl _
    · exact List.Subset.refl _
    · exact fun _ _ h => h
    · intro id hid
      exact hsound.released caller id (hreleased hid)

theorem Sound.invalidate (hsound : Sound limits system)
    (hidle : (system.callers caller).flight? = none) (answer : Option FlightOutcome) :
    Sound limits (system.put caller (.releasing system.cache.invalidate.1 answer)
      system.cache.invalidate.2) := by
  apply hsound.put
  · rfl
  · exact WriterCache.linked_invalidate _
  · rw [WriterCache.contents_invalidate]
    exact CacheContents.Coherent.clear _
  · rw [WriterCache.contents_invalidate, WriterCache.invalidate_fst]
    apply Harmless.of_leaving
    · exact hidle.symm
    · exact Nat.le_refl _
    · exact Nat.le_refl _
    · exact List.nil_subset _
    · simp [CacheContents.clear]
    · intro id hid
      exact ⟨List.not_mem_nil, hsound.coherent.le_size_of_mem_cached hid⟩

/-- A handle that a caller is to close is closed. -/
theorem Sound.close (hsound : Sound limits system) {id : Nat} {writer closed : ω}
    {cache : WriterCache ω} (hphase : (system.callers caller).close? = some (id, phase))
    (hbegin : system.cache.beginClose id = (some writer, cache)) :
    Sound limits (system.put caller phase
      (cache.modifyHandle id fun h => { h with writer := closed })) := by
  obtain ⟨hflight, hreleased⟩ := Phase.close?_eq_some hphase
  have hid : id ∈ (system.callers caller).released := by
    rw [hreleased]
    exact List.mem_cons_self
  have hnot := (hsound.released caller id hid).1
  rcases system.cache.beginClose_cases id with ⟨hskip, -⟩ | ⟨handle, -, -, hopen⟩
  · rw [hskip] at hbegin
    simp at hbegin
  · rw [hopen] at hbegin
    obtain ⟨-, rfl⟩ := Prod.mk.inj hbegin
    rw [WriterCache.modifyHandle_modifyHandle]
    apply hsound.modifyHandle
    · exact fun _ => rfl
    · exact fun hmem => absurd hmem hnot
    · exact hflight
    · rw [hreleased]
      exact List.subset_cons_self _ _

theorem Sound.step (hsound : Sound limits system) {event : Event}
    (hstep : Step outside system event after) : Sound limits after := by
  cases hstep with
  | tick hnow => exact { hsound with }
  | look hphase =>
      rename_i caller table
      obtain ⟨hlooks, hlinked⟩ :=
        WriterCache.looks_lookup hsound.linked hsound.coherent.live table system.clock
      apply hsound.put hlooks.limits_eq hlinked (hsound.coherent.looks hlooks)
      apply Harmless.of_looks hsound.coherent _ hlooks
      rw [hphase]
      rfl
  | receive hphase houtcome =>
      apply hsound.keep
      · rw [hphase]
        rfl
      · simp [Phase.released]
  | close hphase hfree hbegin hcloses => exact hsound.close hphase hbegin
  | skip hphase hfree hbegin =>
      rename_i caller id phase cache
      obtain ⟨hflight, hreleased⟩ := Phase.close?_eq_some hphase
      rcases system.cache.beginClose_cases id with ⟨hskip, -⟩ | ⟨handle, -, -, hopen⟩
      · rw [hskip] at hbegin
        obtain ⟨-, rfl⟩ := Prod.mk.inj hbegin
        apply hsound.keep hflight
        rw [hreleased]
        exact List.subset_cons_self _ _
      · rw [hopen] at hbegin
        simp at hbegin
  | finish hphase hbuilds hfinish =>
      apply hsound.finish _ _ hfinish
      rw [hphase]
      rfl
  | panic hphase hbuilds =>
      apply hsound.abandon
      rw [hphase]
      rfl
  | publish hphase =>
      apply hsound.publish
      · rw [hphase]
        rfl
      · rw [hphase]
        exact List.Subset.refl _
  | answer hphase =>
      apply hsound.keep
      · rw [hphase]
        rfl
      · simp [Phase.released]
  | sweep hphase =>
      obtain ⟨kept, dropped, hevicts⟩ := WriterCache.evicts_sweep system.clock hsound.linked
      apply hsound.evicts hevicts
      rw [hphase]
      rfl
  | invalidate hphase =>
      apply hsound.invalidate
      rw [hphase]
      rfl
  | enter hphase hfree hhandle hopen =>
      apply hsound.keep
      · rw [hphase]
        rfl
      · simp [Phase.released]
  | leave hphase hhandle huses =>
      apply hsound.modifyHandle
      · exact fun _ => rfl
      · exact fun _ _ => rfl
      · rw [hphase]
        rfl
      · simp [Phase.released]
  | peek hphase => exact hsound

theorem Sound.run (hsound : Sound limits system) {events : List Event}
    (hrun : Run outside system events after) : Sound limits after := by
  induction hrun with
  | nil => exact hsound
  | step hrun hstep ih => exact ih.step hstep

/-- A step keeps the entries in the order of their times. -/
theorem Sound.inOrder_step (hsound : Sound limits system)
    (horder : system.cache.contents.InOrder system.clock) {event : Event}
    (hstep : Step outside system event after) : after.cache.contents.InOrder after.clock := by
  have hsame {cache : WriterCache ω}
      (hentries : cache.contents.entries = system.cache.contents.entries) :
      cache.contents.InOrder system.clock := by
    apply horder.sublist (Nat.le_refl _)
    rw [hentries]
  have hmodify (cache : WriterCache ω) (id : Nat) (f : WriterHandle ω → WriterHandle ω) :
      (cache.modifyHandle id f).contents.entries = cache.contents.entries := by
    rw [WriterCache.contents_modifyHandle, CacheContents.entries_modifyHandle]
  have hbegins {id : Nat} {writer : Option ω} {cache : WriterCache ω}
      (hbegin : system.cache.beginClose id = (writer, cache)) :
      cache.contents.entries = system.cache.contents.entries := by
    rcases system.cache.beginClose_cases id with ⟨hskip, -⟩ | ⟨handle, -, -, hopen⟩
    · rw [hskip] at hbegin
      obtain ⟨-, rfl⟩ := Prod.mk.inj hbegin
      rfl
    · rw [hopen] at hbegin
      obtain ⟨-, rfl⟩ := Prod.mk.inj hbegin
      exact hmodify _ _ _
  cases hstep with
  | tick hnow => exact horder.sublist hnow (List.Sublist.refl _)
  | look hphase =>
      exact horder.looks (Nat.le_refl _)
        (WriterCache.looks_lookup hsound.linked hsound.coherent.live _ system.clock).1
  | receive hphase houtcome => exact horder
  | close hphase hfree hbegin hcloses =>
      exact hsame ((hmodify _ _ _).trans (hbegins hbegin))
  | skip hphase hfree hbegin => exact hsame (hbegins hbegin)
  | finish hphase hbuilds hfinish =>
      rename_i caller table flight built outcome released cache
      have hfinishes :=
        (WriterCache.finishes_finish hsound.linked table flight built system.clock).1
      rw [hfinish] at hfinishes
      exact horder.finishes (Nat.le_refl _) hfinishes
  | panic hphase hbuilds =>
      exact horder.finishes (Nat.le_refl _) (system.cache.finishes_abandon _ _ system.clock)
  | publish hphase => exact hsame rfl
  | answer hphase => exact horder
  | sweep hphase =>
      obtain ⟨kept, dropped, hevicts⟩ := WriterCache.evicts_sweep system.clock hsound.linked
      apply horder.sublist (Nat.le_refl _)
      change List.Sublist (system.cache.sweep system.clock).2.contents.entries _
      rw [hevicts.contents, hevicts.entries]
      exact List.sublist_append_left kept dropped
  | invalidate hphase =>
      apply horder.sublist (Nat.le_refl _)
      change List.Sublist system.cache.invalidate.2.contents.entries _
      rw [WriterCache.contents_invalidate]
      exact List.nil_sublist _
  | enter hphase hfree hhandle hopen => exact horder
  | leave hphase hhandle huses => exact hsame (hmodify _ _ _)
  | peek hphase => exact horder

theorem Reachable.sound (hreachable : Reachable outside limits system) : Sound limits system := by
  obtain ⟨clock, events, hrun⟩ := hreachable
  exact (Sound.start limits clock).run hrun

theorem Reachable.inOrder (hreachable : Reachable outside limits system) :
    system.cache.contents.InOrder system.clock := by
  obtain ⟨clock, events, hrun⟩ := hreachable
  induction hrun with
  | nil => exact ⟨List.Pairwise.nil, fun _ _ hentry => absurd hentry List.not_mem_nil⟩
  | step hrun hstep ih => exact ((Sound.start limits clock).run hrun).inOrder_step ih hstep

/-- A cache and its callers fit together. -/
structure Consistent (limits : CacheLimits) (system : System ω) : Prop where
  /-- The tables marked as ready and the live slots are in bijection. -/
  ready : ∀ table slot, system.cache.slots[table]? = some (.ready slot) ↔
    ∃ entry, system.cache.order.get? slot = some entry ∧ entry.table = table
  /-- The entries in their order are those of the live slots, each once. -/
  live : ∀ slot entry, (slot, entry) ∈ system.cache.order.entries ↔
    system.cache.order.get? slot = some entry
  once : (system.cache.order.entries.map Prod.fst).Nodup
  counted : system.cache.size = system.cache.order.toList.length
  bounded : system.cache.size ≤ max limits.capacity 1
  ordered : system.cache.order.toList.Pairwise fun newer older =>
    older.lastAccess ≤ newer.lastAccess
  bound : ∀ entry ∈ system.cache.order.toList, ∃ handle,
    system.cache.handle? entry.handle = some handle ∧ handle.table = entry.table ∧
      handle.closed = false
  distinct : (system.cache.order.toList.map CacheEntry.handle).Nodup
  /-- A table is marked as being built by exactly one construction under way. -/
  building : ∀ table flight, system.cache.slots[table]? = some (.loading flight) →
    ∃! caller, ∃ expired, system.callers caller = .building table flight expired

theorem Phase.flight?_eq_some {phase : Phase} {table : String} {flight : Nat} :
    phase.flight? = some (table, flight) ↔ ∃ expired, phase = .building table flight expired := by
  cases phase <;> simp [Phase.flight?]

/-- Every system that comes about is consistent. -/
theorem Reachable.consistent (hreachable : Reachable outside limits system) :
    Consistent limits system := by
  have hsound := hreachable.sound
  have hlinked := hsound.linked
  have hcoherent := hsound.coherent
  constructor
  · intro table slot
    calc
      system.cache.slots[table]? = some (.ready slot)
        ↔ ∃ entry, (slot, entry) ∈ system.cache.order.entries ∧ entry.table = table :=
          hcoherent.ready table slot
      _ ↔ ∃ entry, system.cache.order.get? slot = some entry ∧ entry.table = table :=
          exists_congr fun entry => and_congr_left fun _ => (hlinked.live slot entry).symm
  · intro slot entry
    exact (hlinked.live slot entry).symm
  · exact hlinked.nodup
  · calc
      system.cache.size = system.cache.order.entries.length := hlinked.size
      _ = system.cache.order.toList.length := (List.length_map _).symm
  · calc
      system.cache.size = system.cache.order.entries.length := hlinked.size
      _ ≤ max system.cache.limits.capacity 1 := hcoherent.bounded
      _ = max limits.capacity 1 := by rw [hsound.limits]
  · exact List.pairwise_map.mpr hreachable.inOrder.ordered
  · intro entry hentry
    obtain ⟨⟨slot, found⟩, hfound, rfl⟩ := List.mem_map.mp hentry
    exact hcoherent.bound slot found hfound
  · have hdistinct := hcoherent.distinct
    rw [AccessList.toList, List.map_map]
    exact hdistinct
  · intro table flight hmark
    obtain ⟨caller, hcaller⟩ := hsound.owned table flight hmark
    apply ExistsUnique.intro caller
    · exact Phase.flight?_eq_some.mp hcaller
    · intro other hother
      exact hsound.apart other caller table table flight (Phase.flight?_eq_some.mpr hother) hcaller

/-- Two callers ask for a table, and one of them builds its writer. -/
theorem consistent_while_building :
    ∃ system : System Unit,
      Reachable ⟨fun _ _ => True, fun _ _ => True, fun _ _ => True⟩ { capacity := 1 } system ∧
        system.cache.slots["orders"]? = some (.loading 0) ∧
        system.callers 1 = .waiting "orders" 0 ∧ Consistent { capacity := 1 } system := by
  have hreachable : Reachable (ω := Unit) ⟨fun _ _ => True, fun _ _ => True, fun _ _ => True⟩
      { capacity := 1 } (((start { capacity := 1 } 0).put 0 _ _).put 1 _ _) :=
    ⟨0, _, (Run.nil.step (@Step.look _ _ _ 0 "orders" rfl)).step (@Step.look _ _ _ 1 "orders" rfl)⟩
  refine ⟨_, hreachable, ?_, ?_, hreachable.consistent⟩
  · simp [System.put, System.start, WriterCache.lookup, WriterCache.beginFlight, WriterCache.count]
  · simp [System.put, System.start, WriterCache.lookup, WriterCache.beginFlight, WriterCache.count,
      Phase.ofLookup]

end TableRouting.System
