import TableRouting.Proofs.Cache.Contents

/-!
# Coherent caches

The marks of a coherent cache and its entries say the same, its handles are open,
and it is not overfull.  Every step of a cache keeps it coherent, whatever its
callers do between the steps.
-/

namespace TableRouting.CacheContents

variable {ω : Type} {contents after : CacheContents ω} {table : String} {id : Nat}

/-- A number is that of an open handle for a table. -/
def IsOpen (contents : CacheContents ω) (id : Nat) (table : String) : Prop :=
  ∃ handle, contents.handle? id = some handle ∧ handle.table = table ∧ handle.closed = false

/-- What holds of the contents of a cache at every moment. -/
structure Coherent (contents : CacheContents ω) : Prop where
  slots : (contents.entries.map Prod.fst).Nodup
  ready : ∀ table slot, contents.mark? table = some (.ready slot) ↔
    ∃ entry, (slot, entry) ∈ contents.entries ∧ entry.table = table
  bounded : contents.entries.length ≤ max contents.limits.capacity 1
  distinct : contents.cached.Nodup
  bound : ∀ slot entry, (slot, entry) ∈ contents.entries →
    contents.IsOpen entry.handle entry.table
  begun : ∀ table flight, contents.mark? table = some (.loading flight) →
    flight < contents.flights.size

theorem handle?_of_size_lt (hid : contents.handles.size < id) : contents.handle? id = none := by
  rw [handle?]
  split
  · rfl
  · exact Array.getElem?_eq_none (Nat.le_sub_one_of_lt hid)

theorem IsOpen.le_size (hopen : contents.IsOpen id table) : id ≤ contents.handles.size := by
  obtain ⟨handle, hhandle, -⟩ := hopen
  by_contra hlt
  rw [handle?_of_size_lt (Nat.lt_of_not_le hlt)] at hhandle
  simp at hhandle

theorem handle?_addHandle (contents : CacheContents ω) (table : String) (writer : ω) :
    (contents.addHandle table writer).handle? (contents.handles.size + 1) =
      some { table, writer } := by
  simp [handle?, addHandle]

theorem handle?_addHandle_of_le (table : String) (writer : ω)
    (hid : id ≤ contents.handles.size) :
    (contents.addHandle table writer).handle? id = contents.handle? id := by
  by_cases hzero : id = 0
  · simp [handle?, hzero]
  · have hne : id - 1 ≠ contents.handles.size := by omega
    simp [handle?, addHandle, hzero, Array.getElem?_push, hne]

theorem handle?_modifyHandle (contents : CacheContents ω) (id other : Nat)
    (f : WriterHandle ω → WriterHandle ω) :
    (contents.modifyHandle id f).handle? other =
      if other = id then (contents.handle? other).map f else contents.handle? other := by
  by_cases hid : id = 0
  · by_cases hother : other = 0 <;> simp [handle?, modifyHandle, hid, hother]
  · by_cases hother : other = 0
    · simp [handle?, hother, Ne.symm hid]
    · rw [handle?, handle?, modifyHandle, if_neg hother, if_neg hother, if_neg hid]
      rw [Array.getElem?_modify]
      by_cases hsame : other = id
      · rw [if_pos hsame, if_pos (by rw [hsame])]
      · rw [if_neg hsame, if_neg (by omega)]

theorem entries_modifyHandle (contents : CacheContents ω) (id : Nat)
    (f : WriterHandle ω → WriterHandle ω) :
    (contents.modifyHandle id f).entries = contents.entries := by
  rw [modifyHandle]
  split <;> rfl

@[simp]
theorem cached_modifyHandle (contents : CacheContents ω) (id : Nat)
    (f : WriterHandle ω → WriterHandle ω) :
    (contents.modifyHandle id f).cached = contents.cached := by
  rw [cached, entries_modifyHandle, cached]

@[simp]
theorem mark?_modifyHandle (contents : CacheContents ω) (id : Nat)
    (f : WriterHandle ω → WriterHandle ω) :
    (contents.modifyHandle id f).mark? = contents.mark? := by
  rw [modifyHandle]
  split <;> rfl

@[simp]
theorem flights_modifyHandle (contents : CacheContents ω) (id : Nat)
    (f : WriterHandle ω → WriterHandle ω) :
    (contents.modifyHandle id f).flights = contents.flights := by
  rw [modifyHandle]
  split <;> rfl

@[simp]
theorem size_handles_modifyHandle (contents : CacheContents ω) (id : Nat)
    (f : WriterHandle ω → WriterHandle ω) :
    (contents.modifyHandle id f).handles.size = contents.handles.size := by
  rw [modifyHandle]
  split
  · rfl
  · exact Array.size_modify

/-- What leaves the cache at the back is to be closed. -/
theorem released_perm {kept dropped : List (Nat × CacheEntry)}
    (hentries : contents.entries = kept ++ dropped) :
    ((dropped.map (·.2.handle)).reverse ++ kept.map (·.2.handle)).Perm contents.cached := by
  rw [cached, hentries, List.map_append]
  exact List.perm_append_comm.trans ((List.reverse_perm _).append_left _)

/-- Where nothing is being built, nothing is after entries have left. -/
theorem quiet_trim (hquiet : ∀ other loading, contents.mark? other ≠ some (.loading loading))
    (kept dropped : List (Nat × CacheEntry)) (other : String) (loading : Nat) :
    (contents.trim kept dropped).mark? other ≠ some (.loading loading) := by
  rw [CacheContents.trim]
  simp only
  split
  · simp
  · exact hquiet other loading

/-- A flight that is joined has the mark of its table. -/
theorem Looks.joins {now flight : Nat} (hlooks : contents.Looks table now (.join flight) after) :
    contents.mark? table = some (.loading flight) := by
  cases hlooks with
  | join hmark => exact hmark

/-- A flight that begins has the mark of its table. -/
theorem Looks.begins {now flight : Nat} {expired : Option Nat}
    (hlooks : contents.Looks table now (.build flight expired) after) :
    after.mark? table = some (.loading flight) := by
  cases hlooks <;> simp [beginFlight]

/-- If nothing is being built, then the table of the flight that begins is the only one. -/
theorem Looks.alone {now flight : Nat} {expired : Option Nat}
    (hlooks : contents.Looks table now (.build flight expired) after)
    (hquiet : ∀ other loading, contents.mark? other ≠ some (.loading loading))
    {other : String} {loading : Nat} (hloading : after.mark? other = some (.loading loading)) :
    other = table := by
  by_contra hother
  apply hquiet other loading
  cases hlooks <;> simpa [beginFlight, hother] using hloading

/-- If only one table is being built, then nothing is when its flight ends. -/
theorem Finishes.quiet {flight now : Nat} {built : Except ConstructionError ω}
    {outcome : FlightOutcome} {released : List Nat}
    (hfinishes : contents.Finishes table flight now built outcome released after)
    (hcurrent : contents.mark? table = some (.loading flight))
    (halone : ∀ other loading, contents.mark? other = some (.loading loading) → other = table)
    (other : String) (loading : Nat) : after.mark? other ≠ some (.loading loading) := by
  intro hloading
  cases hfinishes with
  | refused hmark =>
      by_cases hother : other = table
      · subst hother
        simp [CacheContents.unmark] at hloading
      · simp only [CacheContents.unmark, Function.update_of_ne hother] at hloading
        exact hother (halone other loading hloading)
  | stored hmark hentries hroom hslot =>
      by_cases hother : other = table
      · subst hother
        simp at hloading
      · simp only [Function.update_of_ne hother, CacheContents.trim] at hloading
        split at hloading
        · simp at hloading
        · exact hother (halone other loading hloading)
  | refusedDetached hmark | detached hmark => exact hmark hcurrent

theorem mem_cached {slot : Nat} {entry : CacheEntry}
    (hentry : (slot, entry) ∈ contents.entries) : entry.handle ∈ contents.cached :=
  List.mem_map_of_mem hentry

namespace Coherent

theorem empty (limits : CacheLimits) : Coherent (ω := ω) ⟨limits, [], fun _ => none, #[], #[]⟩ where
  slots := List.nodup_nil
  ready := by simp
  bounded := Nat.zero_le _
  distinct := List.nodup_nil
  bound := by simp
  begun := by simp

theorem le_size_of_mem_cached (hcoherent : Coherent contents) (hid : id ∈ contents.cached) :
    id ≤ contents.handles.size := by
  obtain ⟨⟨slot, entry⟩, hentry, rfl⟩ := List.mem_map.mp hid
  exact (hcoherent.bound slot entry hentry).le_size

/-- A ready mark names a slot in use. -/
theorem live (hcoherent : Coherent contents) (table : String) (slot : Nat)
    (hmark : contents.mark? table = some (.ready slot)) :
    ∃ entry, (slot, entry) ∈ contents.entries := by
  obtain ⟨entry, hentry, -⟩ := (hcoherent.ready table slot).mp hmark
  exact ⟨entry, hentry⟩

/-- A slot holds one entry. -/
theorem entry_unique (hcoherent : Coherent contents) {slot : Nat} {entry other : CacheEntry}
    (hentry : (slot, entry) ∈ contents.entries) (hother : (slot, other) ∈ contents.entries) :
    entry = other := by
  have hslots := hcoherent.slots
  rw [List.nodup_map_iff_inj_on hslots.of_map] at hslots
  exact congrArg Prod.snd (hslots _ hentry _ hother rfl)

/-- The slot of a ready mark holds the entry of the table. -/
theorem table_of_ready (hcoherent : Coherent contents) {slot : Nat} {entry : CacheEntry}
    (hmark : contents.mark? table = some (.ready slot))
    (hentry : (slot, entry) ∈ contents.entries) : entry.table = table := by
  obtain ⟨other, hother, htable⟩ := (hcoherent.ready table slot).mp hmark
  rw [← htable]
  exact congrArg _ (hcoherent.entry_unique hentry hother)

/-- A table has one entry. -/
theorem slot_unique (hcoherent : Coherent contents) {slot other : Nat}
    {entry otherEntry : CacheEntry} (hentry : (slot, entry) ∈ contents.entries)
    (hother : (other, otherEntry) ∈ contents.entries) (htable : entry.table = otherEntry.table) :
    slot = other := by
  have hmark := (hcoherent.ready _ slot).mpr ⟨entry, hentry, htable⟩
  rw [(hcoherent.ready _ other).mpr ⟨otherEntry, hother, rfl⟩] at hmark
  exact (CacheSlot.ready.inj (Option.some.inj hmark)).symm

/-- The entries have different tables. -/
theorem nodup_tables (hcoherent : Coherent contents) :
    (contents.entries.map (·.2.table)).Nodup := by
  have hslots := hcoherent.slots
  rw [List.nodup_map_iff_inj_on hslots.of_map] at hslots
  apply List.Nodup.map_on _ hcoherent.slots.of_map
  intro first hfirst second hsecond htable
  exact hslots first hfirst second hsecond (hcoherent.slot_unique hfirst hsecond htable)

/-- Entries leave together with the marks of their tables. -/
theorem remove (hcoherent : Coherent contents) {removed kept : List (Nat × CacheEntry)}
    (hentries : contents.entries.Perm (removed ++ kept)) :
    Coherent { contents with
      entries := kept
      mark? := fun table =>
        if table ∈ removed.map (·.2.table) then none else contents.mark? table } := by
  have hmem : ∀ item, item ∈ contents.entries ↔ item ∈ removed ∨ item ∈ kept := by
    intro item
    rw [hentries.mem_iff, List.mem_append]
  have hslots : ((removed ++ kept).map Prod.fst).Nodup :=
    (hentries.map Prod.fst).nodup_iff.mp hcoherent.slots
  have hdistinct : ((removed ++ kept).map (·.2.handle)).Nodup :=
    (hentries.map fun item : Nat × CacheEntry => item.2.handle).nodup_iff.mp hcoherent.distinct
  rw [List.map_append, List.nodup_append] at hslots hdistinct
  constructor
  · exact hslots.2.1
  · intro table slot
    by_cases hremoved : table ∈ removed.map (·.2.table)
    · -- The mark is gone, and so is the only entry of the table.
      simp only [hremoved, if_true, reduceCtorEq, false_iff]
      rintro ⟨entry, hentry, rfl⟩
      obtain ⟨⟨other, gone⟩, hgone, htable⟩ := List.mem_map.mp hremoved
      have hsame : other = slot := hcoherent.slot_unique ((hmem _).mpr (Or.inl hgone))
        ((hmem _).mpr (Or.inr hentry)) htable
      exact hslots.2.2 other (List.mem_map_of_mem hgone) slot (List.mem_map_of_mem hentry) hsame
    · simp only [hremoved, if_false]
      rw [hcoherent.ready]
      refine exists_congr fun entry => and_congr_left fun htable => ?_
      rw [hmem]
      exact or_iff_right fun h => hremoved (List.mem_map.mpr ⟨_, h, htable⟩)
  · have hlength := hentries.length_eq
    rw [List.length_append] at hlength
    have hkept : kept.length ≤ contents.entries.length := by omega
    exact Nat.le_trans hkept hcoherent.bounded
  · exact hdistinct.2.1
  · intro slot entry hentry
    exact hcoherent.bound slot entry ((hmem _).mpr (Or.inr hentry))
  · intro table flight hmark
    by_cases hremoved : table ∈ removed.map (·.2.table)
    · simp [hremoved] at hmark
    · simp only [hremoved, if_false] at hmark
      exact hcoherent.begun table flight hmark

theorem trim (hcoherent : Coherent contents) {kept dropped : List (Nat × CacheEntry)}
    (hentries : contents.entries = kept ++ dropped) : Coherent (contents.trim kept dropped) := by
  refine hcoherent.remove ?_
  rw [hentries]
  exact List.perm_append_comm

/-- The mark of a table without an entry changes, and flights begin. -/
theorem mark (hcoherent : Coherent contents)
    (hold : ∀ slot, contents.mark? table ≠ some (.ready slot))
    {mark : Option CacheSlot} (hnew : ∀ slot, mark ≠ some (.ready slot))
    {flights : Array (Option FlightOutcome)} (hgrow : contents.flights.size ≤ flights.size)
    (hbegun : ∀ flight, mark = some (.loading flight) → flight < flights.size) :
    Coherent { contents with mark? := Function.update contents.mark? table mark, flights } where
  slots := hcoherent.slots
  ready := by
    intro other slot
    by_cases hother : other = table
    · subst hother
      simp only [Function.update_self, hnew, false_iff]
      exact mt (hcoherent.ready other slot).mpr (hold slot)
    · simp only [Function.update_of_ne hother]
      exact hcoherent.ready other slot
  bounded := hcoherent.bounded
  distinct := hcoherent.distinct
  bound := hcoherent.bound
  begun := by
    intro other flight hloading
    by_cases hother : other = table
    · subst hother
      simp only [Function.update_self] at hloading
      exact hbegun flight hloading
    · simp only [Function.update_of_ne hother] at hloading
      exact Nat.lt_of_lt_of_le (hcoherent.begun other flight hloading) hgrow

theorem beginFlight (hcoherent : Coherent contents)
    (hmark : ∀ slot, contents.mark? table ≠ some (.ready slot)) :
    Coherent (contents.beginFlight table) := by
  refine hcoherent.mark hmark (by simp) ?_ ?_
  · simp
  · intro flight hflight
    obtain rfl := CacheSlot.loading.inj (Option.some.inj hflight)
    simp

theorem unmark (hcoherent : Coherent contents)
    (hmark : ∀ slot, contents.mark? table ≠ some (.ready slot)) :
    Coherent (contents.unmark table) :=
  hcoherent.mark hmark (by simp) (Nat.le_refl _) (by simp)

theorem publish (hcoherent : Coherent contents) (flight : Nat) (outcome : FlightOutcome) :
    Coherent (contents.publish flight outcome) where
  slots := hcoherent.slots
  ready := hcoherent.ready
  bounded := hcoherent.bounded
  distinct := hcoherent.distinct
  bound := hcoherent.bound
  begun := by
    intro other flight hloading
    simpa [CacheContents.publish] using hcoherent.begun other flight hloading

theorem clear (contents : CacheContents ω) : Coherent contents.clear := by
  constructor <;> simp [CacheContents.clear, cached]

/-- Handles change, but the cached ones stay as they are but for their writers. -/
theorem handles (hcoherent : Coherent contents) {handles : Array (WriterHandle ω)}
    (hkeep : ∀ id table, id ∈ contents.cached → contents.IsOpen id table →
      { contents with handles }.IsOpen id table) :
    Coherent { contents with handles } where
  slots := hcoherent.slots
  ready := hcoherent.ready
  bounded := hcoherent.bounded
  distinct := hcoherent.distinct
  bound := by
    intro slot entry hentry
    exact hkeep _ _ (mem_cached hentry) (hcoherent.bound slot entry hentry)
  begun := hcoherent.begun

theorem addHandle (hcoherent : Coherent contents) (table : String) (writer : ω) :
    Coherent (contents.addHandle table writer) := by
  refine hcoherent.handles ?_
  rintro id other - hopen
  have hsame := handle?_addHandle_of_le table writer hopen.le_size
  obtain ⟨handle, hhandle, hbound⟩ := hopen
  exact ⟨handle, hsame.trans hhandle, hbound⟩

/-- A handle that changes stays bound to its table, and open if it is cached. -/
theorem modifyHandle (hcoherent : Coherent contents) {f : WriterHandle ω → WriterHandle ω}
    (htable : ∀ handle, (f handle).table = handle.table)
    (hclosed : id ∈ contents.cached → ∀ handle, (f handle).closed = handle.closed) :
    Coherent (contents.modifyHandle id f) := by
  have hhandle (other : Nat) := contents.handle?_modifyHandle id other f
  have hkept : contents.modifyHandle id f =
      { contents with handles := (contents.modifyHandle id f).handles } := by
    rw [CacheContents.modifyHandle]
    split <;> rfl
  rw [hkept] at hhandle ⊢
  refine hcoherent.handles ?_
  rintro other table hcached ⟨handle, hother, hbound, hopen⟩
  by_cases hsame : other = id
  · subst hsame
    refine ⟨f handle, ?_, (htable handle).trans hbound, (hclosed hcached handle).trans hopen⟩
    rw [hhandle, if_pos rfl, hother]
    rfl
  · exact ⟨handle, by rw [hhandle, if_neg hsame, hother], hbound, hopen⟩

/-- An entry moves to the front with a new time. -/
theorem hit (hcoherent : Coherent contents) {newer older : List (Nat × CacheEntry)}
    {slot : Nat} {entry : CacheEntry}
    (hentries : contents.entries = newer ++ (slot, entry) :: older) (now : Nat) :
    Coherent { contents with
      entries := (slot, { entry with lastAccess := now }) :: (newer ++ older) } := by
  have hmoved : contents.entries.Perm ((slot, entry) :: (newer ++ older)) := by
    rw [hentries]
    exact List.perm_middle
  constructor
  · exact (hmoved.map Prod.fst).nodup_iff.mp hcoherent.slots
  · intro table other
    rw [hcoherent.ready]
    constructor
    · rintro ⟨found, hfound, htable⟩
      rcases List.mem_cons.mp (hmoved.mem_iff.mp hfound) with hsame | hrest
      · obtain ⟨rfl, rfl⟩ := Prod.mk.inj hsame
        exact ⟨_, List.mem_cons_self, htable⟩
      · exact ⟨found, List.mem_cons_of_mem _ hrest, htable⟩
    · rintro ⟨found, hfound, htable⟩
      rcases List.mem_cons.mp hfound with hsame | hrest
      · obtain ⟨rfl, rfl⟩ := Prod.mk.inj hsame
        exact ⟨entry, hmoved.mem_iff.mpr List.mem_cons_self, htable⟩
      · exact ⟨found, hmoved.mem_iff.mpr (List.mem_cons_of_mem _ hrest), htable⟩
  · have hlength : ((slot, { entry with lastAccess := now }) :: (newer ++ older)).length =
        contents.entries.length := by
      rw [hmoved.length_eq, List.length_cons, List.length_cons]
    exact Nat.le_trans (Nat.le_of_eq hlength) hcoherent.bounded
  · exact (hmoved.map fun item : Nat × CacheEntry => item.2.handle).nodup_iff.mp
      hcoherent.distinct
  · intro other found hfound
    rcases List.mem_cons.mp hfound with hsame | hrest
    · obtain ⟨rfl, rfl⟩ := Prod.mk.inj hsame
      exact hcoherent.bound other entry (hmoved.mem_iff.mpr List.mem_cons_self)
    · exact hcoherent.bound other found (hmoved.mem_iff.mpr (List.mem_cons_of_mem _ hrest))
  · exact hcoherent.begun

/-- A new handle enters at the front, for a table that has no entry. -/
theorem store (hcoherent : Coherent contents) (writer : ω) (slot now : Nat)
    (hmark : ∀ slot, contents.mark? table ≠ some (.ready slot))
    (hroom : contents.entries.length < max contents.limits.capacity 1)
    (hslot : slot ∉ contents.entries.map Prod.fst) :
    Coherent { contents.addHandle table writer with
      entries := (slot, ⟨table, contents.handles.size + 1, now⟩) :: contents.entries
      mark? := Function.update contents.mark? table (some (.ready slot)) } := by
  have hadded := hcoherent.addHandle table writer
  constructor
  · rw [List.map_cons, List.nodup_cons]
    exact ⟨hslot, hcoherent.slots⟩
  · intro other place
    by_cases hother : other = table
    · subst hother
      have hnone (entry : CacheEntry) (hentry : (place, entry) ∈ contents.entries) :
          entry.table ≠ other :=
        fun h => hmark place ((hcoherent.ready other place).mpr ⟨entry, hentry, h⟩)
      simp only [Function.update_self, Option.some.injEq, CacheSlot.ready.injEq, List.mem_cons,
        Prod.mk.injEq]
      constructor
      · rintro rfl
        exact ⟨_, Or.inl ⟨rfl, rfl⟩, rfl⟩
      · rintro ⟨entry, ⟨rfl, -⟩ | hentry, htable⟩
        · rfl
        · exact absurd htable (hnone entry hentry)
    · simp only [Function.update_of_ne hother, List.mem_cons, Prod.mk.injEq]
      rw [hcoherent.ready]
      refine exists_congr fun entry => and_congr_left fun htable => ?_
      refine (or_iff_right ?_).symm
      rintro ⟨-, rfl⟩
      exact hother htable.symm
  · exact hroom
  · rw [cached, List.map_cons, List.nodup_cons]
    refine ⟨fun hmem => ?_, hcoherent.distinct⟩
    exact absurd (hcoherent.le_size_of_mem_cached hmem) (Nat.not_succ_le_self _)
  · intro place entry hentry
    rcases List.mem_cons.mp hentry with hsame | hrest
    · obtain ⟨rfl, rfl⟩ := Prod.mk.inj hsame
      exact ⟨_, handle?_addHandle contents table writer, rfl, rfl⟩
    · exact hadded.bound place entry hrest
  · intro other flight hloading
    by_cases hother : other = table
    · subst hother
      simp at hloading
    · simp only [Function.update_of_ne hother] at hloading
      exact hcoherent.begun other flight hloading

/-- A table that is being built has no entry. -/
theorem not_ready_of_loading {flight : Nat}
    (hmark : contents.mark? table = some (.loading flight)) (slot : Nat) :
    contents.mark? table ≠ some (.ready slot) := by
  rw [hmark]
  simp

theorem looks (hcoherent : Coherent contents) {now : Nat} {found : WriterCache.Lookup}
    (hlooks : contents.Looks table now found after) : Coherent after := by
  cases hlooks with
  | join hmark => exact hcoherent
  | build hmark => exact hcoherent.beginFlight (by simp [hmark])
  | expire hmark hentries hexpired =>
      rename_i slot entry newer older
      have hmoved : contents.entries.Perm ([(slot, entry)] ++ (newer ++ older)) := by
        rw [hentries]
        exact List.perm_middle
      have htable : entry.table = table := hcoherent.table_of_ready hmark (by simp [hentries])
      have hremoved : Coherent (CacheContents.beginFlight _ table) :=
        (hcoherent.remove hmoved).beginFlight (by simp [htable])
      -- The mark of the table is written over, so whether it was taken away does not matter.
      convert hremoved using 1
      simp only [CacheContents.beginFlight, CacheContents.mk.injEq, true_and, and_true]
      funext other
      by_cases hother : other = table
      · subst hother
        simp
      · simp [htable, hother]
  | hit hmark hentries hfresh => exact hcoherent.hit hentries now

theorem finishes (hcoherent : Coherent contents) {flight now : Nat}
    {built : Except ConstructionError ω} {outcome : FlightOutcome} {released : List Nat}
    (hfinishes : contents.Finishes table flight now built outcome released after) :
    Coherent after := by
  cases hfinishes with
  | refused hmark => exact hcoherent.unmark (not_ready_of_loading hmark)
  | refusedDetached hmark => exact hcoherent
  | stored hmark hentries hroom hslot =>
      refine (hcoherent.trim hentries).store _ _ _ ?_ hroom hslot
      intro slot
      simp only [CacheContents.trim]
      split
      · simp
      · exact not_ready_of_loading hmark slot
  | detached hmark => exact hcoherent.addHandle table _

/-- A handle that was taken out of the entries is not cached any more. -/
theorem removed_not_cached (hcoherent : Coherent contents)
    {removed kept : List (Nat × CacheEntry)} (hentries : contents.entries.Perm (removed ++ kept))
    (hid : id ∈ removed.map (·.2.handle)) :
    id ∉ kept.map (·.2.handle) ∧ id ≤ contents.handles.size := by
  have hperm := hentries.map fun item : Nat × CacheEntry => item.2.handle
  have hdistinct := hperm.nodup_iff.mp hcoherent.distinct
  rw [List.map_append, List.nodup_append] at hdistinct
  constructor
  · intro hkept
    exact hdistinct.2.2 id hid id hkept rfl
  · apply hcoherent.le_size_of_mem_cached
    apply hperm.mem_iff.mpr
    rw [List.map_append]
    exact List.mem_append_left _ hid

/-- A handle that a lookup found expired is not cached any more. -/
theorem looks_expired (hcoherent : Coherent contents) {now flight : Nat} {expired : Option Nat}
    (hlooks : contents.Looks table now (.build flight expired) after)
    (hid : id ∈ expired.toList) : id ∉ after.cached ∧ id ≤ after.handles.size := by
  cases hlooks with
  | build hmark => simp at hid
  | expire hmark hentries hexpired =>
      rename_i slot entry newer older
      have hmoved : contents.entries.Perm ([(slot, entry)] ++ (newer ++ older)) := by
        rw [hentries]
        exact List.perm_middle
      exact hcoherent.removed_not_cached hmoved (by simpa using hid)

/-- The handles that have to leave when a flight ends are not cached any more. -/
theorem finishes_released (hcoherent : Coherent contents) {flight now : Nat}
    {built : Except ConstructionError ω} {outcome : FlightOutcome} {released : List Nat}
    (hfinishes : contents.Finishes table flight now built outcome released after)
    (hid : id ∈ released) : id ∉ after.cached ∧ id ≤ after.handles.size := by
  cases hfinishes with
  | refused hmark => simp at hid
  | refusedDetached hmark => simp at hid
  | stored hmark hentries hroom hslot =>
      rename_i writer kept dropped slot
      have hmoved : contents.entries.Perm (dropped ++ kept) := by
        rw [hentries]
        exact List.perm_append_comm
      obtain ⟨hnot, hle⟩ := hcoherent.removed_not_cached hmoved (List.mem_reverse.mp hid)
      constructor
      · intro hmem
        rcases List.mem_cons.mp hmem with rfl | hkept
        · exact Nat.not_succ_le_self _ hle
        · exact hnot hkept
      · simp only [CacheContents.addHandle, CacheContents.trim, Array.size_push]
        exact Nat.le_succ_of_le hle
  | detached hmark =>
      obtain rfl := List.mem_singleton.mp hid
      constructor
      · intro hmem
        exact Nat.not_succ_le_self _ (hcoherent.le_size_of_mem_cached hmem)
      · simp [CacheContents.addHandle]

/-- The handles of evicted entries are not cached any more. -/
theorem evicts_released {cache evicted : WriterCache ω} (hcoherent : Coherent cache.contents)
    {kept dropped : List (Nat × CacheEntry)} {released : List Nat}
    (hevicts : cache.Evicts kept dropped released evicted) (hid : id ∈ released) :
    id ∉ evicted.contents.cached ∧ id ≤ evicted.contents.handles.size := by
  have hmoved : cache.contents.entries.Perm (dropped ++ kept) := by
    rw [hevicts.entries]
    exact List.perm_append_comm
  rw [hevicts.released] at hid
  rw [hevicts.contents]
  exact hcoherent.removed_not_cached hmoved (List.mem_reverse.mp hid)

end Coherent

/-- The entries are in the order of their times, of which none lies ahead. -/
structure InOrder (contents : CacheContents ω) (clock : Nat) : Prop where
  ordered : contents.entries.Pairwise fun newer older =>
    older.2.lastAccess ≤ newer.2.lastAccess
  past : ∀ slot entry, (slot, entry) ∈ contents.entries → entry.lastAccess ≤ clock

namespace InOrder

variable {clock now : Nat}

theorem sublist (horder : InOrder contents clock) (hclock : clock ≤ now)
    (hentries : after.entries.Sublist contents.entries) : InOrder after now where
  ordered := horder.ordered.sublist hentries
  past := by
    intro slot entry hentry
    exact Nat.le_trans (horder.past slot entry (hentries.subset hentry)) hclock

theorem cons (horder : InOrder contents clock) (hclock : clock ≤ now)
    {entries : List (Nat × CacheEntry)} (hsub : entries.Sublist contents.entries)
    {slot : Nat} {entry : CacheEntry} (hnow : entry.lastAccess = now)
    (hentries : after.entries = (slot, entry) :: entries) : InOrder after now := by
  have hpast : ∀ item ∈ entries, item.2.lastAccess ≤ now := fun item hitem =>
    Nat.le_trans (horder.past item.1 item.2 (hsub.subset hitem)) hclock
  constructor
  · rw [hentries, List.pairwise_cons]
    refine ⟨fun item hitem => ?_, horder.ordered.sublist hsub⟩
    rw [hnow]
    exact hpast item hitem
  · intro place other hother
    rw [hentries] at hother
    rcases List.mem_cons.mp hother with hsame | hrest
    · obtain ⟨rfl, rfl⟩ := Prod.mk.inj hsame
      exact Nat.le_of_eq hnow
    · exact hpast _ hrest

theorem looks (horder : InOrder contents clock) (hclock : clock ≤ now)
    {found : WriterCache.Lookup} (hlooks : contents.Looks table now found after) :
    InOrder after now := by
  cases hlooks with
  | join hmark => exact horder.sublist hclock (List.Sublist.refl _)
  | build hmark => exact horder.sublist hclock (List.Sublist.refl _)
  | expire hmark hentries hexpired =>
      refine horder.sublist hclock ?_
      rw [hentries]
      exact (List.Sublist.refl _).append (List.sublist_cons_self _ _)
  | hit hmark hentries hfresh =>
      refine horder.cons hclock ?_ rfl rfl
      rw [hentries]
      exact (List.Sublist.refl _).append (List.sublist_cons_self _ _)

theorem finishes (horder : InOrder contents clock) (hclock : clock ≤ now) {flight : Nat}
    {built : Except ConstructionError ω} {outcome : FlightOutcome} {released : List Nat}
    (hfinishes : contents.Finishes table flight now built outcome released after) :
    InOrder after now := by
  cases hfinishes with
  | refused hmark => exact horder.sublist hclock (List.Sublist.refl _)
  | refusedDetached hmark => exact horder.sublist hclock (List.Sublist.refl _)
  | stored hmark hentries hroom hslot =>
      refine horder.cons hclock ?_ rfl rfl
      rw [hentries]
      exact List.sublist_append_left _ _
  | detached hmark => exact horder.sublist hclock (List.Sublist.refl _)

end InOrder

end TableRouting.CacheContents
