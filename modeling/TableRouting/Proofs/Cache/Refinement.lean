import TableRouting.Proofs.Cache.Register

/-!
# A cache does what its register does

A caller that has a cache to itself sees nothing of its slots, its marks and its
flights: whatever it asks, it is answered what the plain list of the entries would
answer, and that list is what the cache holds afterwards.
-/

namespace TableRouting

variable {ω α β : Type}

/-- Computations of a caller that has a cache to itself, with a clock. -/
abbrev Solo (ω : Type) := CacheT ω (StateM Nat)

/-- A workshop whose constructions take their time. -/
def attend (close : ω → Except StoreError Unit × ω) (construction : Construction ω)
    (duration : Nat) : Workshop (Solo ω) ω where
  now := getThe Nat
  create := fun _ => do
    modifyThe Nat (· + duration)
    pure construction
  close := fun writer => pure (close writer)

namespace CacheCommand

/-- What a command does to a cache.  Where nothing is built, no construction is needed. -/
def perform (close : ω → Except StoreError Unit × ω) : CacheCommand ω → Solo ω CacheAnswer
  | .get table construction duration =>
    .writer <$> (attend close construction duration).get table
  | .contains table => do
    pure (.contained ((← getThe (WriterCache ω)).contains table))
  | .tables => do
    pure (.tables (← getThe (WriterCache ω)).tables)
  | .size => do
    pure (.count (← getThe (WriterCache ω)).size)
  | .cleanUp => .count <$> (attend close .panicked 0).cleanUp
  | .invalidateAll => .count <$> (attend close .panicked 0).invalidateAll
  | .wait duration => do
    modifyThe Nat (· + duration)
    pure .nothing

def performAll (close : ω → Except StoreError Unit × ω) :
    List (CacheCommand ω) → Solo ω (List CacheAnswer)
  | [] => pure []
  | command :: rest => do
    let answer ← command.perform close
    let answers ← performAll close rest
    pure (answer :: answers)

end CacheCommand

namespace Solo

/-- What holds of the answer of a computation, and of the cache and the clock after it. -/
def Ends (cache : WriterCache ω) (clock : Nat) (x : Solo ω α)
    (post : α → WriterCache ω → Nat → Prop) : Prop :=
  post (x cache clock).1.1 (x cache clock).1.2 (x cache clock).2

variable {cache : WriterCache ω} {clock : Nat} {post : α → WriterCache ω → Nat → Prop}

theorem ends_bind {x : Solo ω β} {f : β → Solo ω α} :
    Ends cache clock (x >>= f) post ↔
      Ends cache clock x fun answer after later => Ends after later (f answer) post :=
  Iff.rfl

theorem Ends.imp {x : Solo ω α} {weaker : α → WriterCache ω → Nat → Prop}
    (hends : Ends cache clock x post)
    (himp : ∀ answer after later, post answer after later → weaker answer after later) :
    Ends cache clock x weaker :=
  himp _ _ _ hends

/-- Run a computation, and then another one on what it leaves. -/
theorem Ends.bind {x : Solo ω β} {f : β → Solo ω α} {between : β → WriterCache ω → Nat → Prop}
    (hfirst : Ends cache clock x between)
    (hrest : ∀ answer after later, between answer after later →
      Ends after later (f answer) post) :
    Ends cache clock (x >>= f) post :=
  hrest _ _ _ hfirst

theorem ends_map {x : Solo ω β} {f : β → α} :
    Ends cache clock (f <$> x) post ↔
      Ends cache clock x fun answer after later => post (f answer) after later :=
  Iff.rfl

theorem ends_step {f : WriterCache ω → α × WriterCache ω} :
    Ends cache clock (Workshop.step f) post ↔ post (f cache).1 (f cache).2 clock :=
  Iff.rfl

end Solo

/-- A flight that has the mark of its table to its end has its writer cached. -/
theorem CacheContents.Finishes.of_current {contents after : CacheContents ω} {table : String}
    {flight now : Nat} {writer : ω} {outcome : FlightOutcome} {released : List Nat}
    (hfinishes : contents.Finishes table flight now (.ok writer) outcome released after)
    (hcurrent : contents.mark? table = some (.loading flight)) :
    outcome = .ok (contents.handles.size + 1) ∧ released.Subperm contents.cached := by
  cases hfinishes with
  | stored hmark hentries hroom hslot =>
      refine ⟨rfl, ?_⟩
      exact (List.sublist_append_left _ _).subperm.trans (released_perm hentries).subperm
  | detached hmark => exact absurd hcurrent hmark

namespace WriterCache

/-- What a cache is as a plain list. -/
def register (cache : WriterCache ω) (clock : Nat) : Register where
  limits := cache.limits
  entries := cache.order.toList
  built := cache.handles.size
  clock := clock

/-- A cache that holds together, and in which nothing is being built. -/
structure Orderly (cache : WriterCache ω) (clock : Nat) : Prop where
  linked : cache.Linked
  coherent : cache.contents.Coherent
  inOrder : cache.contents.InOrder clock
  quiet : ∀ table flight, cache.contents.mark? table ≠ some (.loading flight)

/-- Handles have closed that were not cached, and nothing else has changed. -/
structure Tidied (before after : WriterCache ω) : Prop where
  linked : before.Linked → after.Linked
  coherent : before.contents.Coherent → after.contents.Coherent
  limits : after.limits = before.limits
  entries : after.contents.entries = before.contents.entries
  mark? : after.contents.mark? = before.contents.mark?
  size : after.handles.size = before.handles.size

namespace Tidied

variable {before between after cache : WriterCache ω}

theorem refl (cache : WriterCache ω) : Tidied cache cache :=
  ⟨id, id, rfl, rfl, rfl, rfl⟩

theorem trans (hfirst : Tidied before between) (hsecond : Tidied between after) :
    Tidied before after where
  linked := hsecond.linked ∘ hfirst.linked
  coherent := hsecond.coherent ∘ hfirst.coherent
  limits := hsecond.limits.trans hfirst.limits
  entries := hsecond.entries.trans hfirst.entries
  mark? := hsecond.mark?.trans hfirst.mark?
  size := hsecond.size.trans hfirst.size

theorem cached (htidied : Tidied before after) :
    after.contents.cached = before.contents.cached := by
  rw [CacheContents.cached, htidied.entries, CacheContents.cached]

theorem modifyHandle {id : Nat} (hid : id ∉ cache.contents.cached)
    {f : WriterHandle ω → WriterHandle ω} (htable : ∀ handle, (f handle).table = handle.table) :
    Tidied cache (cache.modifyHandle id f) where
  linked := (linked_modifyHandle id f).mpr
  coherent := by
    intro hcoherent
    rw [contents_modifyHandle]
    exact hcoherent.modifyHandle htable fun hmem => absurd hmem hid
  limits := by
    rw [WriterCache.modifyHandle]
    split <;> rfl
  entries := by rw [contents_modifyHandle, CacheContents.entries_modifyHandle]
  mark? := by rw [contents_modifyHandle, CacheContents.mark?_modifyHandle]
  size := by
    rw [WriterCache.modifyHandle]
    split
    · rfl
    · exact Array.size_modify

theorem register (htidied : Tidied before after) (clock : Nat) :
    after.register clock = before.register clock := by
  have hentries : after.order.toList = before.order.toList :=
    congrArg (List.map Prod.snd) htidied.entries
  rw [WriterCache.register, WriterCache.register, htidied.limits, hentries, htidied.size]

theorem inOrder (htidied : Tidied before after) {clock : Nat}
    (horder : before.contents.InOrder clock) : after.contents.InOrder clock := by
  apply horder.sublist (Nat.le_refl _)
  rw [htidied.entries]

end Tidied

/-- Handles that are to be closed: each is open, and none is cached. -/
structure Closable (cache : WriterCache ω) (released : List Nat) : Prop where
  nodup : released.Nodup
  isOpen : ∀ id ∈ released, ∃ handle, cache.contents.handle? id = some handle ∧
    handle.closed = false
  gone : ∀ id ∈ released, id ∉ cache.contents.cached

/-- A cache that holds together, and in which the writer of one table is being built. -/
structure Occupied (cache : WriterCache ω) (clock : Nat) (table : String) (flight : Nat) :
    Prop where
  linked : cache.Linked
  coherent : cache.contents.Coherent
  inOrder : cache.contents.InOrder clock
  current : cache.contents.mark? table = some (.loading flight)
  alone : ∀ other loading, cache.contents.mark? other = some (.loading loading) → other = table

variable {cache after : WriterCache ω} {clock later : Nat} {table : String} {flight : Nat}

theorem Orderly.tidied (horderly : Orderly cache clock) (htidied : Tidied cache after) :
    Orderly after clock where
  linked := htidied.linked horderly.linked
  coherent := htidied.coherent horderly.coherent
  inOrder := htidied.inOrder horderly.inOrder
  quiet := by
    rw [htidied.mark?]
    exact horderly.quiet

theorem Orderly.wait (horderly : Orderly cache clock) (hlater : clock ≤ later) :
    Orderly cache later :=
  { horderly with inOrder := horderly.inOrder.sublist hlater (List.Sublist.refl _) }

theorem Orderly.publish (horderly : Orderly cache clock) (flight : Nat)
    (outcome : FlightOutcome) : Orderly (cache.publish flight outcome) clock where
  linked := horderly.linked
  coherent := horderly.coherent.publish flight outcome
  inOrder := horderly.inOrder.sublist (Nat.le_refl _) (List.Sublist.refl _)
  quiet := horderly.quiet

theorem Occupied.tidied (hoccupied : Occupied cache clock table flight)
    (htidied : Tidied cache after) : Occupied after clock table flight where
  linked := htidied.linked hoccupied.linked
  coherent := htidied.coherent hoccupied.coherent
  inOrder := htidied.inOrder hoccupied.inOrder
  current := by
    rw [htidied.mark?]
    exact hoccupied.current
  alone := by
    rw [htidied.mark?]
    exact hoccupied.alone

theorem Occupied.wait (hoccupied : Occupied cache clock table flight) (hlater : clock ≤ later) :
    Occupied cache later table flight :=
  { hoccupied with inOrder := hoccupied.inOrder.sublist hlater (List.Sublist.refl _) }

/-- Handles that were cached and have left the cache are to be closed. -/
theorem closable_of_cached (hcoherent : cache.contents.Coherent) {released : List Nat}
    (hcached : released.Subperm cache.contents.cached)
    (hhandles : ∀ id ≤ cache.contents.handles.size,
      after.contents.handle? id = cache.contents.handle? id)
    (hgone : ∀ id ∈ released, id ∉ after.contents.cached) : after.Closable released where
  nodup := by
    obtain ⟨some, hsome, hsub⟩ := hcached
    exact hsome.nodup_iff.mp (hcoherent.distinct.sublist hsub)
  isOpen := by
    intro id hid
    have hmem := hcached.subset hid
    obtain ⟨⟨slot, entry⟩, hentry, rfl⟩ := List.mem_map.mp hmem
    obtain ⟨handle, hhandle, -, hopen⟩ := hcoherent.bound slot entry hentry
    exact ⟨handle, by rw [hhandles _ (hcoherent.le_size_of_mem_cached hmem), hhandle], hopen⟩
  gone := hgone

theorem register_eq (cache : WriterCache ω) (clock : Nat) :
    cache.register clock = ⟨cache.contents.limits, cache.contents.entries.map Prod.snd,
      cache.contents.handles.size, clock⟩ := rfl

@[simp]
theorem register_publish (cache : WriterCache ω) (flight : Nat) (outcome : FlightOutcome)
    (clock : Nat) : (cache.publish flight outcome).register clock = cache.register clock := rfl

theorem Closable.publish {released : List Nat} (hclosable : cache.Closable released)
    (flight : Nat) (outcome : FlightOutcome) :
    (cache.publish flight outcome).Closable released where
  nodup := hclosable.nodup
  isOpen := hclosable.isOpen
  gone := hclosable.gone

/-- The entry of a table in the register, and the other ones. -/
theorem Orderly.find?_eq_some (horderly : Orderly cache clock) {slot : Nat} {entry : CacheEntry}
    {newer older : List (Nat × CacheEntry)}
    (hmark : cache.contents.mark? table = some (.ready slot))
    (hentries : cache.contents.entries = newer ++ (slot, entry) :: older) :
    ((cache.register clock).entries.find? fun other => other.table = table) = some entry ∧
      (cache.register clock).others table = (newer ++ older).map Prod.snd := by
  have hregister : (cache.register clock).entries =
      newer.map Prod.snd ++ entry :: older.map Prod.snd := by
    rw [register_eq, hentries, List.map_append]
    rfl
  have hnodup : ((cache.register clock).entries.map CacheEntry.table).Nodup := by
    rw [register_eq, List.map_map]
    exact horderly.coherent.nodup_tables
  obtain rfl := horderly.coherent.table_of_ready hmark
    (by rw [hentries]; exact List.mem_append_right _ List.mem_cons_self)
  rw [List.map_append]
  exact Register.find?_eq_some hregister hnodup

theorem Orderly.find?_eq_none (horderly : Orderly cache clock)
    (hmark : cache.contents.mark? table = none) :
    ((cache.register clock).entries.find? fun other => other.table = table) = none ∧
      (cache.register clock).others table = (cache.register clock).entries := by
  apply Register.find?_eq_none
  rintro entry hentry rfl
  obtain ⟨⟨slot, found⟩, hfound, rfl⟩ := List.mem_map.mp hentry
  have hready := (horderly.coherent.ready found.table slot).mpr ⟨found, hfound, rfl⟩
  simp [hmark] at hready

/-- A lookup that finds a fresh writer. -/
theorem Orderly.hit (horderly : Orderly cache clock) {id : Nat}
    (hlookup : cache.lookup table clock = (.hit id, after)) (construction : Construction ω)
    (duration : Nat) :
    (cache.register clock).get table construction duration = (.ok id, after.register clock) ∧
      Orderly after clock := by
  obtain ⟨hlooks, hlinked⟩ :=
    looks_lookup horderly.linked horderly.coherent.live table clock
  rw [hlookup] at hlooks hlinked
  have hcoherent := horderly.coherent.looks hlooks
  have hinOrder := horderly.inOrder.looks (Nat.le_refl _) hlooks
  rw [after.register_eq]
  generalize hcontents : after.contents = contents at hlooks
  cases hlooks with
  | hit hmark hentries hfresh =>
      rename_i slot entry newer older
      obtain ⟨hfind, hothers⟩ := horderly.find?_eq_some hmark hentries
      have hused :
          entry.isFresh (cache.register clock).limits (cache.register clock).clock = true :=
        decide_eq_true (Nat.lt_of_not_le hfresh)
      constructor
      · rw [Register.get, hfind]
        simp only
        rw [if_pos hused, hothers]
        rfl
      · refine ⟨hlinked, hcoherent, hinOrder, ?_⟩
        rw [hcontents]
        exact horderly.quiet

/-- A lookup after which the writer has to be built. -/
theorem Orderly.miss (horderly : Orderly cache clock) {expired : Option Nat}
    (hlookup : cache.lookup table clock = (.build flight expired, after)) :
    (∀ (construction : Construction ω) (duration : Nat),
      (cache.register clock).get table construction duration =
        (cache.register clock).build table construction duration) ∧
      after.register clock =
        { cache.register clock with entries := (cache.register clock).others table } ∧
      Occupied after clock table flight ∧ after.Closable expired.toList := by
  obtain ⟨hlooks, hlinked⟩ :=
    looks_lookup horderly.linked horderly.coherent.live table clock
  rw [hlookup] at hlooks hlinked
  have hoccupied : Occupied after clock table flight :=
    ⟨hlinked, horderly.coherent.looks hlooks, horderly.inOrder.looks (Nat.le_refl _) hlooks,
      hlooks.begins, fun _ _ => hlooks.alone horderly.quiet⟩
  have hgone (id : Nat) (hid : id ∈ expired.toList) :=
    (horderly.coherent.looks_expired hlooks hid).1
  have hhandles (id : Nat) : after.contents.handle? id = cache.contents.handle? id := by
    rw [CacheContents.handle?, hlooks.handles_eq, CacheContents.handle?]
  have hclosable (hcached : expired.toList.Subperm cache.contents.cached) :
      after.Closable expired.toList :=
    closable_of_cached horderly.coherent hcached (fun id _ => hhandles id) hgone
  rw [after.register_eq]
  generalize after.contents = contents at hlooks
  cases hlooks with
  | build hmark =>
      obtain ⟨hfind, hothers⟩ := horderly.find?_eq_none hmark
      refine ⟨fun construction duration => ?_, ?_, hoccupied, hclosable List.nil_subperm⟩
      · rw [Register.get, hfind]
      · rw [hothers]
        rfl
  | expire hmark hentries hexpired =>
      rename_i slot entry newer older
      obtain ⟨hfind, hothers⟩ := horderly.find?_eq_some hmark hentries
      have hmem : entry.handle ∈ cache.contents.cached :=
        CacheContents.mem_cached (hentries ▸ List.mem_append_right _ List.mem_cons_self)
      refine ⟨fun construction duration => ?_, ?_, hoccupied,
        hclosable (List.singleton_subperm_iff.mpr hmem)⟩
      · rw [Register.get, hfind]
        simp only
        rw [if_neg]
        exact mt of_decide_eq_true (Nat.not_lt_of_le hexpired)
      · rw [hothers]
        rfl

/-- The end of a flight whose construction gave a writer. -/
theorem Occupied.finish_ok (hoccupied : Occupied cache clock table flight) (writer : ω)
    {outcome : FlightOutcome} {released : List Nat}
    (hfinish : cache.finish table flight (.ok writer) clock = (outcome, released, after)) :
    outcome = .ok ((cache.register clock).built + 1) ∧
      after.register clock = (cache.register clock).enter table ∧
      Orderly after clock ∧ after.Closable released := by
  obtain ⟨hfinishes, hlinked⟩ :=
    finishes_finish hoccupied.linked table flight (.ok writer) clock
  have hentries := entries_finish clock hoccupied.linked hoccupied.inOrder.ordered
    hoccupied.current writer
  rw [hfinish] at hfinishes hlinked hentries
  have horderly : Orderly after clock :=
    ⟨hlinked, hoccupied.coherent.finishes hfinishes,
      hoccupied.inOrder.finishes (Nat.le_refl _) hfinishes,
      hfinishes.quiet hoccupied.current hoccupied.alone⟩
  obtain ⟨houtcome, hreleased⟩ := hfinishes.of_current hoccupied.current
  refine ⟨houtcome, ?_, horderly, ?_⟩
  · rw [after.register_eq, hentries, hfinishes.limits_eq, hfinishes.handles_eq_of_ok,
      Array.size_push, Register.enter, Register.fresh, register_eq, List.map_take, List.filter_map]
    rfl
  · apply closable_of_cached hoccupied.coherent hreleased
    · intro id hid
      rw [← CacheContents.handle?_addHandle_of_le table writer hid, CacheContents.handle?,
        hfinishes.handles_eq_of_ok, CacheContents.addHandle, CacheContents.handle?]
    · exact fun id hid => (hoccupied.coherent.finishes_released hfinishes hid).1

/-- The end of a flight whose construction gave no writer. -/
theorem Occupied.finish_error (hoccupied : Occupied cache clock table flight)
    {error : ConstructionError} {outcome : FlightOutcome} {released : List Nat}
    (hlinked : after.Linked)
    (hfinishes : cache.contents.Finishes table flight clock (.error error) outcome released
      after.contents) :
    outcome = .error error ∧ released = [] ∧
      after.register clock = cache.register clock ∧ Orderly after clock := by
  have horderly : Orderly after clock :=
    ⟨hlinked, hoccupied.coherent.finishes hfinishes,
      hoccupied.inOrder.finishes (Nat.le_refl _) hfinishes,
      hfinishes.quiet hoccupied.current hoccupied.alone⟩
  rw [after.register_eq]
  generalize after.contents = contents at hfinishes
  cases hfinishes with
  | refused hmark | refusedDetached hmark => exact ⟨rfl, rfl, rfl, horderly⟩

/-- What expired leaves. -/
theorem Orderly.sweep (horderly : Orderly cache clock) :
    (cache.sweep clock).1.length =
        ((cache.register clock).entries.countP fun entry => !entry.isFresh cache.limits clock) ∧
      (cache.sweep clock).2.register clock =
        { cache.register clock with entries := (cache.register clock).fresh } ∧
      Orderly (cache.sweep clock).2 clock ∧
      (cache.sweep clock).2.Closable (cache.sweep clock).1 := by
  obtain ⟨kept, dropped, hevicts⟩ := evicts_sweep clock horderly.linked
  have hkept := entries_sweep clock horderly.linked horderly.inOrder.ordered
  refine ⟨length_sweep clock horderly.linked horderly.inOrder.ordered, ?_, ?_, ?_⟩
  · rw [register_eq, hkept, Register.fresh, register_eq, List.filter_map, hevicts.contents]
    rfl
  · refine ⟨hevicts.linked, ?_, ?_, ?_⟩
    · rw [hevicts.contents]
      exact horderly.coherent.trim hevicts.entries
    · apply horderly.inOrder.sublist (Nat.le_refl _)
      rw [hkept]
      exact List.filter_sublist
    · rw [hevicts.contents]
      exact CacheContents.quiet_trim horderly.quiet kept dropped
  · apply closable_of_cached horderly.coherent
    · rw [hevicts.released]
      exact (List.sublist_append_left _ _).subperm.trans
        (CacheContents.released_perm hevicts.entries).subperm
    · intro id hid
      rw [hevicts.contents]
      rfl
    · exact fun id hid => (horderly.coherent.evicts_released hevicts hid).1

/-- All entries leave. -/
theorem Orderly.invalidate (horderly : Orderly cache clock) :
    cache.invalidate.1.length = (cache.register clock).entries.length ∧
      cache.invalidate.2.register clock = { cache.register clock with entries := [] } ∧
      Orderly cache.invalidate.2 clock ∧ cache.invalidate.2.Closable cache.invalidate.1 := by
  rw [invalidate_fst]
  refine ⟨?_, ?_, ?_, ?_⟩
  · rw [register_eq, CacheContents.cached, List.length_map, List.length_map]
  · rw [register_eq, contents_invalidate]
    rfl
  · refine ⟨linked_invalidate cache, ?_, ?_, ?_⟩
    · rw [contents_invalidate]
      exact .clear _
    · apply horderly.inOrder.sublist (Nat.le_refl _)
      rw [contents_invalidate]
      exact List.nil_sublist _
    · simp [CacheContents.clear]
  · apply closable_of_cached horderly.coherent (List.Subperm.refl _)
    · intro id hid
      rw [contents_invalidate]
      rfl
    · simp [CacheContents.clear, CacheContents.cached]

theorem Orderly.size_eq (horderly : Orderly cache clock) :
    cache.size = (cache.register clock).entries.length := by
  rw [register_eq, List.length_map]
  exact horderly.linked.size

theorem Orderly.contains_eq (horderly : Orderly cache clock) (table : String) :
    cache.contains table =
      (cache.register clock).entries.any fun entry => entry.table = table := by
  rw [Bool.eq_iff_iff, List.any_eq_true]
  constructor
  · intro hcontains
    rw [contains] at hcontains
    split at hcontains
    · rename_i slot hmark
      obtain ⟨entry, hentry, htable⟩ := (horderly.coherent.ready table slot).mp hmark
      exact ⟨entry, List.mem_map_of_mem hentry, decide_eq_true htable⟩
    · simp at hcontains
  · rintro ⟨entry, hentry, htable⟩
    obtain ⟨⟨slot, found⟩, hfound, rfl⟩ := List.mem_map.mp hentry
    have hmark := (horderly.coherent.ready table slot).mpr
      ⟨found, hfound, of_decide_eq_true htable⟩
    rw [contains, show cache.slots[table]? = some (.ready slot) from hmark]

end WriterCache

namespace Solo

variable {cache : WriterCache ω} {clock : Nat}
  (close : ω → Except StoreError Unit × ω) (construction : Construction ω) (duration : Nat)

/-- An open handle is closed, even if its writer fails to. -/
theorem ends_closeHandle {id : Nat} {handle : WriterHandle ω}
    (hhandle : cache.contents.handle? id = some handle) (hopen : handle.closed = false) :
    Ends cache clock ((attend close construction duration).closeHandle id)
      fun result after later => result ≠ .ok false ∧ later = clock ∧
        after = cache.modifyHandle id fun h =>
          { h with closed := true, writer := (close handle.writer).2 } := by
  rw [Workshop.closeHandle, ends_bind, ends_step, WriterCache.beginClose_open hhandle hopen]
  have hboth := cache.modifyHandle_modifyHandle id (fun h => { h with closed := true })
    fun h => { h with writer := (close handle.writer).2 }
  cases hclose : close handle.writer with
  | mk result writer =>
      rw [hclose] at hboth
      cases result with
      | ok _ =>
          have hresult : (.ok true : Except ReleaseError Bool) ≠ .ok false := by simp
          simp only [attend, hclose]
          exact ⟨hresult, rfl, hboth⟩
      | error e =>
          have hresult (error : ReleaseError) : .error error ≠ Except.ok false := by simp
          simp only [attend, hclose]
          exact ⟨hresult _, rfl, hboth⟩

/-- All the handles are closed. -/
theorem ends_release {released : List Nat} (hclosable : cache.Closable released) :
    Ends cache clock ((attend close construction duration).release released)
      fun count after later => count = released.length ∧ later = clock ∧
        cache.Tidied after := by
  induction released generalizing cache with
  | nil => exact ⟨rfl, rfl, .refl cache⟩
  | cons id rest ih =>
      obtain ⟨handle, hhandle, hopen⟩ := hclosable.isOpen id List.mem_cons_self
      rw [Workshop.release]
      apply Ends.bind (ends_closeHandle close construction duration hhandle hopen)
      rintro result after later ⟨hresult, rfl, rfl⟩
      have htidied := WriterCache.Tidied.modifyHandle (hclosable.gone id List.mem_cons_self)
        (f := fun h => { h with closed := true, writer := (close handle.writer).2 })
        fun _ => rfl
      have hrest : (cache.modifyHandle id fun h =>
          { h with closed := true, writer := (close handle.writer).2 }).Closable rest := by
        obtain ⟨hnot, hnodup⟩ := List.nodup_cons.mp hclosable.nodup
        refine ⟨hnodup, fun other hother => ?_, fun other hother => ?_⟩
        · rw [WriterCache.contents_modifyHandle, CacheContents.handle?_modifyHandle, if_neg]
          · exact hclosable.isOpen other (List.mem_cons_of_mem id hother)
          · rintro rfl
            exact hnot hother
        · rw [htidied.cached]
          exact hclosable.gone other (List.mem_cons_of_mem id hother)
      apply Ends.bind (ih hrest)
      rintro more last later ⟨rfl, rfl, hlast⟩
      split
      · exact absurd rfl hresult
      · exact ⟨rfl, rfl, htidied.trans hlast⟩

variable {close construction duration}

theorem ends_complete {table : String} {flight : Nat} {built : Except ConstructionError ω}
    {post : Except Unavailable Nat → WriterCache ω → Nat → Prop} :
    Ends cache clock ((attend close construction duration).complete table flight built) post ↔
      Ends ((cache.finish table flight built clock).2.2.publish flight
          (cache.finish table flight built clock).1) clock
        ((attend close construction duration).release
          (cache.finish table flight built clock).2.1)
        fun _ after later =>
          post ((cache.finish table flight built clock).1.mapError .construction) after later :=
  Iff.rfl

theorem ends_breakOff {table : String} {flight : Nat}
    {post : Except Unavailable Nat → WriterCache ω → Nat → Prop} :
    Ends cache clock (Workshop.breakOff (ω := ω) table flight) post ↔
      post (.error .panicked) ((cache.abandon table flight).publish flight
        (.error (WriterCache.brokenError table))) clock :=
  Iff.rfl

theorem ends_now {post : Nat → WriterCache ω → Nat → Prop} :
    Ends cache clock (attend close construction duration).now post ↔ post clock cache clock :=
  Iff.rfl

theorem ends_create {table : String} {post : Construction ω → WriterCache ω → Nat → Prop} :
    Ends cache clock ((attend close construction duration).create table) post ↔
      post construction cache (clock + duration) :=
  Iff.rfl

/-- A construction ends, whatever it gave. -/
theorem ends_construction {table : String} {flight : Nat} {register : Register}
    (hregister : cache.register clock = { register with entries := register.others table })
    (hoccupied : cache.Occupied clock table flight) :
    Ends cache clock
      (do
        match ← (attend close construction duration).create table with
        | .built writer =>
          (attend close construction duration).complete table flight (.ok writer)
        | .refused e => (attend close construction duration).complete table flight (.error e)
        | .panicked => Workshop.breakOff (ω := ω) table flight)
      fun answer after later =>
        (answer, after.register later) = register.build table construction duration ∧
          after.Orderly later := by
  have hlater := hoccupied.wait (Nat.le_add_right clock duration)
  have hbefore : cache.register (clock + duration) =
      { register with
        entries := register.others table
        clock := register.clock + duration } :=
    congrArg (fun before : Register => { before with clock := before.clock + duration }) hregister
  rw [ends_bind, ends_create]
  cases construction with
  | built writer =>
      simp only
      rw [ends_complete]
      generalize hfinish : cache.finish table flight (.ok writer) (clock + duration) = finished
      obtain ⟨outcome, released, after⟩ := finished
      obtain ⟨rfl, hafter, horderly, hclosable⟩ := hlater.finish_ok writer hfinish
      apply Ends.imp (ends_release _ _ _ (hclosable.publish flight _))
      rintro count last later ⟨-, rfl, htidied⟩
      refine ⟨?_, (horderly.publish flight _).tidied htidied⟩
      rw [htidied.register, WriterCache.register_publish, hafter, hbefore]
      rfl
  | refused error =>
      simp only
      rw [ends_complete]
      obtain ⟨hfinishes, hlinked⟩ :=
        WriterCache.finishes_finish hlater.linked table flight (.error error) (clock + duration)
      generalize cache.finish table flight (.error error) (clock + duration) = finished
        at hfinishes hlinked
      obtain ⟨outcome, released, after⟩ := finished
      obtain ⟨rfl, rfl, hafter, horderly⟩ := hlater.finish_error hlinked hfinishes
      refine ⟨?_, horderly.publish flight _⟩
      change (Except.error (Unavailable.construction error), after.register (clock + duration)) = _
      rw [show after.register (clock + duration) = _ from hafter, hbefore]
      rfl
  | panicked =>
      simp only
      rw [ends_breakOff]
      have hfinishes := cache.finishes_abandon table flight (clock + duration)
      have hlinked := (WriterCache.linked_abandon table flight).mpr hlater.linked
      obtain ⟨-, -, hafter, horderly⟩ := hlater.finish_error hlinked hfinishes
      refine ⟨?_, horderly.publish flight _⟩
      rw [WriterCache.register_publish, hafter, hbefore]
      rfl

/-- Getting the writer of a table. -/
theorem ends_get (horderly : cache.Orderly clock) (table : String) :
    Ends cache clock ((attend close construction duration).get table)
      fun answer after later =>
        (answer, after.register later) =
            (cache.register clock).get table construction duration ∧
          after.Orderly later := by
  rw [Workshop.get, ends_bind, ends_now, ends_bind, ends_step]
  generalize hlookup : cache.lookup table clock = looked
  obtain ⟨found, after⟩ := looked
  cases found with
  | hit id =>
      obtain ⟨hget, hafter⟩ := horderly.hit hlookup construction duration
      exact ⟨hget.symm, hafter⟩
  | join flight =>
      -- Nothing is being built that could be joined.
      have hlooks := (WriterCache.looks_lookup horderly.linked horderly.coherent.live table clock).1
      rw [hlookup] at hlooks
      exact absurd hlooks.joins (horderly.quiet table flight)
  | build flight expired =>
      obtain ⟨hget, hregister, hoccupied, hclosable⟩ := horderly.miss hlookup
      simp only
      apply Ends.bind (ends_release _ _ _ hclosable)
      rintro count last later ⟨-, rfl, htidied⟩
      rw [hget]
      rw [← htidied.register] at hregister
      exact ends_construction hregister (hoccupied.tidied htidied)

/-- Closing every expired writer. -/
theorem ends_cleanUp (horderly : cache.Orderly clock) :
    Ends cache clock (attend close construction duration).cleanUp
      fun count after later =>
        count = ((cache.register clock).entries.countP fun entry =>
            !entry.isFresh cache.limits clock) ∧
          after.register later =
            { cache.register clock with entries := (cache.register clock).fresh } ∧
          after.Orderly later := by
  rw [Workshop.cleanUp, ends_bind, ends_now, ends_bind, ends_step]
  obtain ⟨hcount, hregister, hafter, hclosable⟩ := horderly.sweep
  apply Ends.bind (ends_release _ _ _ hclosable)
  rintro count last later ⟨-, rfl, htidied⟩
  exact ⟨hcount, htidied.register _ ▸ hregister, hafter.tidied htidied⟩

/-- Closing every cached writer. -/
theorem ends_invalidateAll (horderly : cache.Orderly clock) :
    Ends cache clock (attend close construction duration).invalidateAll
      fun count after later =>
        count = (cache.register clock).entries.length ∧
          after.register later = { cache.register clock with entries := [] } ∧
          after.Orderly later := by
  rw [Workshop.invalidateAll, ends_bind, ends_step]
  obtain ⟨hcount, hregister, hafter, hclosable⟩ := horderly.invalidate
  apply Ends.imp (ends_release _ _ _ hclosable)
  rintro count last later ⟨rfl, rfl, htidied⟩
  exact ⟨hcount, htidied.register _ ▸ hregister, hafter.tidied htidied⟩

/-- A command is answered as by the register, and leaves what the register has then. -/
theorem ends_perform (close : ω → Except StoreError Unit × ω) (horderly : cache.Orderly clock)
    (command : CacheCommand ω) :
    Ends cache clock (command.perform close) fun answer after later =>
      (answer, after.register later) = (cache.register clock).perform command ∧
        after.Orderly later := by
  cases command with
  | get table construction duration =>
      rw [CacheCommand.perform, ends_map]
      apply Ends.imp (ends_get horderly table)
      rintro answer after later ⟨hget, hafter⟩
      refine ⟨?_, hafter⟩
      rw [Register.perform, ← hget]
  | contains table =>
      refine ⟨?_, horderly⟩
      rw [Register.perform, ← horderly.contains_eq]
      rfl
  | tables => exact ⟨rfl, horderly⟩
  | size =>
      refine ⟨?_, horderly⟩
      rw [Register.perform, ← horderly.size_eq]
      rfl
  | cleanUp =>
      rw [CacheCommand.perform, ends_map]
      apply Ends.imp (ends_cleanUp horderly)
      rintro count after later ⟨rfl, hregister, hafter⟩
      exact ⟨by rw [hregister]; rfl, hafter⟩
  | invalidateAll =>
      rw [CacheCommand.perform, ends_map]
      apply Ends.imp (ends_invalidateAll horderly)
      rintro count after later ⟨rfl, hregister, hafter⟩
      exact ⟨by rw [hregister]; rfl, hafter⟩
  | wait duration => exact ⟨rfl, horderly.wait (Nat.le_add_right clock duration)⟩

theorem ends_performAll (close : ω → Except StoreError Unit × ω) (horderly : cache.Orderly clock)
    (commands : List (CacheCommand ω)) :
    Ends cache clock (CacheCommand.performAll close commands) fun answers after later =>
      (answers, after.register later) = (cache.register clock).performAll commands ∧
        after.Orderly later := by
  induction commands generalizing cache clock with
  | nil => exact ⟨rfl, horderly⟩
  | cons command rest ih =>
      rw [CacheCommand.performAll]
      apply Ends.bind (ends_perform close horderly command)
      rintro answer between later ⟨hanswer, hbetween⟩
      apply Ends.bind (ih hbetween)
      rintro answers after last ⟨hanswers, hafter⟩
      refine ⟨?_, hafter⟩
      rw [Register.performAll, ← hanswer]
      simp only
      rw [← hanswers]
      rfl

end Solo

theorem WriterCache.Orderly.start (limits : CacheLimits) (clock : Nat) :
    Orderly ({ limits } : WriterCache ω) clock where
  linked := AccessList.Represents.empty
  coherent := by
    rw [contents_empty]
    exact .empty limits
  inOrder := ⟨List.Pairwise.nil, fun _ _ hentry => absurd hentry List.not_mem_nil⟩
  quiet := by simp [contents_empty]

namespace CacheCommand

/-- Perform commands on a new cache: what they are answered, the cache in the end, and
what the clock shows. -/
def run (close : ω → Except StoreError Unit × ω) (limits : CacheLimits) (clock : Nat)
    (commands : List (CacheCommand ω)) : List CacheAnswer × WriterCache ω × Nat :=
  let ended := performAll close commands { limits } clock
  (ended.1.1, ended.1.2, ended.2)

/-- What a cache answers to commands, and what it holds after them. -/
structure Refines (close : ω → Except StoreError Unit × ω) (limits : CacheLimits) (clock : Nat)
    (commands : List (CacheCommand ω)) : Prop where
  answers : (run close limits clock commands).1 =
    ((Register.start limits clock).performAll commands).1
  register : (run close limits clock commands).2.1.register (run close limits clock commands).2.2 =
    ((Register.start limits clock).performAll commands).2
  /-- A writer that is built for a full cache, in which nothing has expired, takes the
  place of the least recently used one. -/
  full : ∀ (table : String) (writer : ω) (duration : Nat) (cache : WriterCache ω) (now : Nat),
    (run close limits clock commands).2 = (cache, now) →
    cache.size = max limits.capacity 1 → cache.contains table = false →
    (∀ entry ∈ cache.order.toList, cache.isExpired entry (now + duration) = false) →
      Solo.Ends cache now (perform close (.get table (.built writer) duration))
        fun answer after _ => answer = .writer (.ok (cache.handles.size + 1)) ∧
          after.order.toList =
            ⟨table, cache.handles.size + 1, now + duration⟩ :: cache.order.toList.dropLast

/-- A cache refines the plain list of its entries, whatever is asked of it. -/
theorem run_refines (close : ω → Except StoreError Unit × ω) (limits : CacheLimits)
    (clock : Nat) (commands : List (CacheCommand ω)) : Refines close limits clock commands := by
  obtain ⟨hperformed, horderly⟩ :=
    Solo.ends_performAll close (WriterCache.Orderly.start limits clock) commands
  have hstart : ({ limits } : WriterCache ω).register clock = Register.start limits clock := by
    rw [WriterCache.register_eq, WriterCache.contents_empty]
    rfl
  rw [hstart] at hperformed
  refine ⟨congrArg Prod.fst hperformed, congrArg Prod.snd hperformed, ?_⟩
  rintro table writer duration cache now hrun hfull habsent hfresh
  have hregister : cache.register now = ((Register.start limits clock).performAll commands).2 := by
    have hended := congrArg Prod.snd hperformed
    obtain ⟨rfl, rfl⟩ := Prod.mk.inj hrun
    exact hended
  have hlimits : cache.limits = limits := by
    have hkept := Register.limits_performAll (Register.start limits clock) commands
    rw [← hregister] at hkept
    exact hkept
  have hcache : cache.Orderly now := by
    obtain ⟨rfl, rfl⟩ := Prod.mk.inj hrun
    exact horderly
  rw [hcache.size_eq, ← hlimits] at hfull
  rw [hcache.contains_eq, List.any_eq_false] at habsent
  simp only [WriterCache.isExpired_eq_not_isFresh, Bool.not_eq_false'] at hfresh
  have hget := @Register.get_full _ (cache.register now) table writer duration hfull
    (fun entry hentry => by simpa using habsent entry hentry) hfresh
  rw [perform, Solo.ends_map]
  apply Solo.Ends.imp (Solo.ends_get hcache table)
  rintro answer after later ⟨hanswer, -⟩
  rw [hget] at hanswer
  obtain ⟨rfl, hafter⟩ := Prod.mk.inj hanswer
  exact ⟨rfl, congrArg Register.entries hafter⟩

end CacheCommand

end TableRouting
