import TableRouting.Cache.Basic
import TableRouting.Proofs.Cache.AccessOrder

/-!
# What a writer cache holds

The contents of a cache leave out how its access list is linked and what it has
counted.  The steps of a cache are relations on its contents: each says all that
the step can find, and what it leaves behind.
-/

namespace TableRouting

/-- What of a writer cache decides what its steps do. -/
structure CacheContents (ω : Type) where
  limits : CacheLimits
  /-- The cached entries with their slots, most recently used first. -/
  entries : List (Nat × CacheEntry)
  mark? : String → Option CacheSlot
  handles : Array (WriterHandle ω)
  flights : Array (Option FlightOutcome)

variable {ω : Type}

namespace CacheContents

def handle? (contents : CacheContents ω) (id : Nat) : Option (WriterHandle ω) :=
  if id = 0 then none else contents.handles[id - 1]?

def cached (contents : CacheContents ω) : List Nat :=
  contents.entries.map (·.2.handle)

def beginFlight (contents : CacheContents ω) (table : String) : CacheContents ω :=
  { contents with
    flights := contents.flights.push none
    mark? := Function.update contents.mark? table (some (.loading contents.flights.size)) }

def unmark (contents : CacheContents ω) (table : String) : CacheContents ω :=
  { contents with mark? := Function.update contents.mark? table none }

def addHandle (contents : CacheContents ω) (table : String) (writer : ω) :
    CacheContents ω :=
  { contents with handles := contents.handles.push { table, writer } }

def modifyHandle (contents : CacheContents ω) (id : Nat)
    (f : WriterHandle ω → WriterHandle ω) : CacheContents ω :=
  if id = 0 then contents
  else { contents with handles := contents.handles.modify (id - 1) f }

def publish (contents : CacheContents ω) (flight : Nat) (outcome : FlightOutcome) :
    CacheContents ω :=
  { contents with flights := contents.flights.setIfInBounds flight (some outcome) }

def clear (contents : CacheContents ω) : CacheContents ω :=
  { contents with
    entries := []
    mark? := fun _ => none }

/-- What a lookup of a table at a time finds and leaves. -/
inductive Looks (contents : CacheContents ω) (table : String) (now : Nat) :
    WriterCache.Lookup → CacheContents ω → Prop
  | join {flight : Nat} (hmark : contents.mark? table = some (.loading flight)) :
      Looks contents table now (.join flight) contents
  | build (hmark : contents.mark? table = none) :
      Looks contents table now (.build contents.flights.size none) (contents.beginFlight table)
  | expire {slot : Nat} {entry : CacheEntry} {newer older : List (Nat × CacheEntry)}
      (hmark : contents.mark? table = some (.ready slot))
      (hentries : contents.entries = newer ++ (slot, entry) :: older)
      (hexpired : contents.limits.ttl ≤ now - entry.lastAccess) :
      Looks contents table now (.build contents.flights.size (some entry.handle))
        ({ contents with entries := newer ++ older }.beginFlight table)
  | hit {slot : Nat} {entry : CacheEntry} {newer older : List (Nat × CacheEntry)}
      (hmark : contents.mark? table = some (.ready slot))
      (hentries : contents.entries = newer ++ (slot, entry) :: older)
      (hfresh : ¬ contents.limits.ttl ≤ now - entry.lastAccess) :
      Looks contents table now (.hit entry.handle)
        { contents with
          entries := (slot, { entry with lastAccess := now }) :: (newer ++ older) }

def trim (contents : CacheContents ω) (kept dropped : List (Nat × CacheEntry)) :
    CacheContents ω :=
  { contents with
    entries := kept
    mark? := fun table =>
      if table ∈ dropped.map (·.2.table) then none else contents.mark? table }

theorem trim_trim (contents : CacheContents ω)
    (kept later between dropped : List (Nat × CacheEntry)) :
    (contents.trim later dropped).trim kept between =
      contents.trim kept (between ++ dropped) := by
  simp only [trim, mk.injEq, true_and, and_true]
  funext table
  simp only [List.map_append, List.mem_append]
  by_cases h : table ∈ between.map (·.2.table)
  · rw [if_pos h, if_pos (Or.inl h)]
  · simp only [h, false_or, if_false]

/-- What the end of a flight whose construction returned finds and leaves. -/
inductive Finishes (contents : CacheContents ω) (table : String) (flight now : Nat) :
    Except ConstructionError ω → FlightOutcome → List Nat → CacheContents ω → Prop
  | refused {error : ConstructionError}
      (hmark : contents.mark? table = some (.loading flight)) :
      Finishes contents table flight now (.error error) (.error error) []
        (contents.unmark table)
  | refusedDetached {error : ConstructionError}
      (hmark : contents.mark? table ≠ some (.loading flight)) :
      Finishes contents table flight now (.error error) (.error error) [] contents
  | stored {writer : ω} {kept dropped : List (Nat × CacheEntry)} {slot : Nat}
      (hmark : contents.mark? table = some (.loading flight))
      (hentries : contents.entries = kept ++ dropped)
      (hroom : kept.length < max contents.limits.capacity 1)
      (hslot : slot ∉ kept.map Prod.fst) :
      Finishes contents table flight now (.ok writer) (.ok (contents.handles.size + 1))
        (dropped.map (·.2.handle)).reverse
        { (contents.trim kept dropped).addHandle table writer with
          entries := (slot, ⟨table, contents.handles.size + 1, now⟩) :: kept
          mark? := Function.update (contents.trim kept dropped).mark? table
            (some (.ready slot)) }
  | detached {writer : ω}
      (hmark : contents.mark? table ≠ some (.loading flight)) :
      Finishes contents table flight now (.ok writer)
        (.error (WriterCache.detachedError table)) [contents.handles.size + 1]
        (contents.addHandle table writer)

theorem Looks.limits_eq {contents after : CacheContents ω} {table : String} {now : Nat}
    {found : WriterCache.Lookup} (hlooks : contents.Looks table now found after) :
    after.limits = contents.limits := by
  cases hlooks <;> rfl

theorem Finishes.limits_eq {contents after : CacheContents ω} {table : String}
    {flight now : Nat} {built : Except ConstructionError ω} {outcome : FlightOutcome}
    {released : List Nat}
    (hfinishes : contents.Finishes table flight now built outcome released after) :
    after.limits = contents.limits := by
  cases hfinishes <;> rfl

theorem Looks.handles_eq {contents after : CacheContents ω} {table : String} {now : Nat}
    {found : WriterCache.Lookup} (hlooks : contents.Looks table now found after) :
    after.handles = contents.handles := by
  cases hlooks <;> rfl

theorem Finishes.flights_eq {contents after : CacheContents ω} {table : String}
    {flight now : Nat} {built : Except ConstructionError ω} {outcome : FlightOutcome}
    {released : List Nat}
    (hfinishes : contents.Finishes table flight now built outcome released after) :
    after.flights = contents.flights := by
  cases hfinishes <;> rfl

theorem Finishes.handles_eq_of_error {contents after : CacheContents ω} {table : String}
    {flight now : Nat} {error : ConstructionError} {outcome : FlightOutcome}
    {released : List Nat}
    (hfinishes : contents.Finishes table flight now (.error error) outcome released after) :
    after.handles = contents.handles := by
  cases hfinishes <;> rfl

theorem Finishes.handles_eq_of_ok {contents after : CacheContents ω} {table : String}
    {flight now : Nat} {writer : ω} {outcome : FlightOutcome} {released : List Nat}
    (hfinishes : contents.Finishes table flight now (.ok writer) outcome released after) :
    after.handles = contents.handles.push { table, writer } := by
  cases hfinishes <;> rfl

end CacheContents

namespace WriterCache

def marks (slots : Std.HashMap String CacheSlot) : String → Option CacheSlot :=
  fun table => slots[table]?

theorem marks_insert (slots : Std.HashMap String CacheSlot) (table : String)
    (mark : CacheSlot) :
    marks (slots.insert table mark) = Function.update (marks slots) table (some mark) := by
  funext other
  by_cases h : other = table
  · simp [marks, h]
  · simp [marks, Std.HashMap.getElem?_insert, h, Ne.symm h]

theorem marks_erase (slots : Std.HashMap String CacheSlot) (table : String) :
    marks (slots.erase table) = Function.update (marks slots) table none := by
  funext other
  by_cases h : other = table
  · simp [marks, h]
  · simp [marks, Std.HashMap.getElem?_erase, h, Ne.symm h]

variable {cache : WriterCache ω}

def contents (cache : WriterCache ω) : CacheContents ω where
  limits := cache.limits
  entries := cache.order.entries
  mark? := marks cache.slots
  handles := cache.handles
  flights := cache.flights

/-- The access list of a cache is linked in the order of its entries. -/
def Linked (cache : WriterCache ω) : Prop :=
  cache.order.Represents cache.order.entries

theorem Linked.size_eq {cache : WriterCache ω} (hlinked : cache.Linked) :
    cache.size = cache.contents.cached.length := by
  rw [CacheContents.cached, List.length_map]
  exact hlinked.size

theorem contents_empty (limits : CacheLimits) :
    ({ limits } : WriterCache ω).contents = ⟨limits, [], fun _ => none, #[], #[]⟩ := by
  change CacheContents.mk _ [] (marks {}) _ _ = _
  congr 1
  funext table
  exact Std.HashMap.getElem?_empty

@[simp]
theorem contents_count (cache : WriterCache ω) (f : CacheStatistics → CacheStatistics) :
    (cache.count f).contents = cache.contents := rfl

@[simp]
theorem linked_count (f : CacheStatistics → CacheStatistics) :
    (cache.count f).Linked ↔ cache.Linked := Iff.rfl

@[simp]
theorem linked_beginFlight (table : String) :
    (cache.beginFlight table).2.Linked ↔ cache.Linked := Iff.rfl

@[simp]
theorem contents_beginFlight (cache : WriterCache ω) (table : String) :
    (cache.beginFlight table).2.contents = cache.contents.beginFlight table := by
  change CacheContents.mk _ _ (marks (cache.slots.insert table _)) _ _ = _
  rw [marks_insert]
  rfl

theorem Linked.represents (hlinked : cache.Linked) {entries : List (Nat × CacheEntry)}
    (hentries : cache.contents.entries = entries) : cache.order.Represents entries := by
  rw [← hentries]
  exact hlinked

/-- A cache whose access list is changed to one with a known order. -/
theorem contents_order (cache : WriterCache ω) {order : AccessList CacheEntry}
    {entries : List (Nat × CacheEntry)} (horder : order.Represents entries) :
    { cache with order }.contents = { cache.contents with entries } ∧
      { cache with order }.Linked := by
  have hentries := horder.entries_eq
  constructor
  · change CacheContents.mk _ order.entries _ _ _ = _
    rw [hentries]
    rfl
  · change order.Represents order.entries
    rwa [hentries]

/-- A lookup, on a cache whose ready marks name slots in use. -/
theorem looks_lookup (hlinked : cache.Linked)
    (hlive : ∀ table slot, cache.contents.mark? table = some (CacheSlot.ready slot) →
      ∃ entry, (slot, entry) ∈ cache.contents.entries)
    (table : String) (now : Nat) :
    cache.contents.Looks table now (cache.lookup table now).1
        (cache.lookup table now).2.contents ∧
      (cache.lookup table now).2.Linked := by
  cases hmark : cache.slots[table]? with
  | none =>
      simp only [lookup, hmark, linked_beginFlight, contents_beginFlight]
      exact ⟨CacheContents.Looks.build hmark, hlinked⟩
  | some mark =>
      cases mark with
      | loading flight =>
          simp only [lookup, hmark, linked_count, contents_count]
          exact ⟨CacheContents.Looks.join hmark, hlinked⟩
      | ready slot =>
          obtain ⟨entry, hentry⟩ := hlive table slot hmark
          obtain ⟨newer, older, hentries⟩ := List.append_of_mem hentry
          have horder := Linked.represents hlinked hentries
          have hget := (horder.live slot entry).mpr (hentries ▸ hentry)
          by_cases hexpired : cache.isExpired entry now
          · obtain ⟨hcontents, hlinked⟩ := contents_order cache horder.remove.2
            simp only [lookup, hmark, hget, hexpired, if_true, linked_beginFlight,
              contents_beginFlight, linked_count, contents_count, hcontents]
            exact ⟨CacheContents.Looks.expire hmark hentries (of_decide_eq_true hexpired),
              hlinked⟩
          · have htouched := (horder.modify_entry fun e => { e with lastAccess := now }).touch
            obtain ⟨hcontents, hlinked⟩ := contents_order cache htouched
            simp only [lookup, hmark, hget, hexpired, Bool.false_eq_true, if_false, linked_count,
              contents_count, hcontents]
            exact ⟨CacheContents.Looks.hit hmark hentries (fun h => hexpired (decide_eq_true h)),
              hlinked⟩

theorem popOldest_concat (hlinked : cache.Linked) {kept : List (Nat × CacheEntry)}
    {slot : Nat} {entry : CacheEntry}
    (hentries : cache.contents.entries = kept ++ [(slot, entry)]) :
    cache.popOldest.1 = some entry ∧
      cache.popOldest.2.contents = cache.contents.trim kept [(slot, entry)] ∧
      cache.popOldest.2.Linked := by
  obtain ⟨hvalue, horder⟩ := (hlinked.represents hentries).popBack_concat
  have hpop : cache.popOldest =
      (some entry,
        { cache with order := cache.order.popBack.2, slots := cache.slots.erase entry.table }) := by
    rw [popOldest, show cache.order.popBack = (some entry, cache.order.popBack.2) from
      Prod.ext hvalue rfl]
  have hkept := horder.entries_eq
  rw [hpop]
  refine ⟨rfl, ?_, ?_⟩
  · change CacheContents.mk _ cache.order.popBack.2.entries (marks (cache.slots.erase _)) _ _ = _
    rw [hkept, marks_erase]
    simp only [CacheContents.trim, contents, CacheContents.mk.injEq, true_and, and_true]
    funext table
    by_cases h : table = entry.table <;> simp [h]
  · change cache.order.popBack.2.Represents cache.order.popBack.2.entries
    rwa [hkept]

/-- Entries leave a cache at the back, and their handles are to be closed. -/
structure Evicts (cache : WriterCache ω) (kept dropped : List (Nat × CacheEntry))
    (released : List Nat) (after : WriterCache ω) : Prop where
  entries : cache.contents.entries = kept ++ dropped
  released : released = (dropped.map (·.2.handle)).reverse
  contents : after.contents = cache.contents.trim kept dropped
  linked : after.Linked

theorem Evicts.refl (hlinked : cache.Linked) :
    cache.Evicts cache.contents.entries [] [] cache where
  entries := by simp
  released := rfl
  contents := by simp [CacheContents.trim]
  linked := hlinked

/-- The oldest entry leaves, and then more. -/
theorem Evicts.pop (hlinked : cache.Linked) {first kept dropped : List (Nat × CacheEntry)}
    {slot : Nat} {entry : CacheEntry} {f : CacheStatistics → CacheStatistics}
    {released : List Nat} {after : WriterCache ω}
    (hentries : cache.contents.entries = first ++ [(slot, entry)])
    (hrest : (cache.popOldest.2.count f).Evicts kept dropped released after) :
    cache.Evicts kept (dropped ++ [(slot, entry)]) (entry.handle :: released) after := by
  obtain ⟨-, hcontents, -⟩ := popOldest_concat hlinked hentries
  have hfirst := hrest.entries
  rw [contents_count, hcontents] at hfirst
  constructor
  · rw [hentries, ← List.append_assoc]
    exact congrArg (· ++ [(slot, entry)]) hfirst
  · simp [hrest.released]
  · rw [hrest.contents, contents_count, hcontents, CacheContents.trim_trim]
  · exact hrest.linked

theorem back?_nil (hlinked : cache.Linked) (hentries : cache.contents.entries = []) :
    cache.order.back? = none := by
  simpa using (hlinked.represents hentries).back?_eq

theorem back?_concat (hlinked : cache.Linked) {kept : List (Nat × CacheEntry)}
    {slot : Nat} {entry : CacheEntry}
    (hentries : cache.contents.entries = kept ++ [(slot, entry)]) :
    cache.order.back? = some (slot, entry) := by
  simpa using (hlinked.represents hentries).back?_eq

theorem evicts_evictExpiredUpTo (now : Nat) (fuel : Nat) (hlinked : cache.Linked) :
    ∃ kept dropped, cache.Evicts kept dropped (evictExpiredUpTo now fuel cache).1
      (evictExpiredUpTo now fuel cache).2 := by
  induction fuel generalizing cache with
  | zero => exact ⟨_, _, Evicts.refl hlinked⟩
  | succ fuel ih =>
      rw [evictExpiredUpTo]
      rcases List.eq_nil_or_concat' cache.contents.entries with
        hnil | ⟨first, ⟨slot, entry⟩, hlast⟩
      · rw [back?_nil hlinked hnil]
        exact ⟨_, _, Evicts.refl hlinked⟩
      · simp only [back?_concat hlinked hlast]
        split
        · obtain ⟨hpop, -, hpopped⟩ := popOldest_concat hlinked hlast
          rw [show cache.popOldest = (some entry, cache.popOldest.2) from Prod.ext hpop rfl]
          obtain ⟨kept, dropped, hrest⟩ := ih ((linked_count _).mpr hpopped)
          exact ⟨kept, _, Evicts.pop hlinked hlast hrest⟩
        · exact ⟨_, _, Evicts.refl hlinked⟩

theorem evicts_evictExpired (now : Nat) (hlinked : cache.Linked) :
    ∃ kept dropped, cache.Evicts kept dropped (cache.evictExpired now).1
      (cache.evictExpired now).2 :=
  evicts_evictExpiredUpTo now cache.order.size hlinked

theorem evicts_evictToCapacityUpTo (fuel : Nat) (hlinked : cache.Linked)
    (hfuel : cache.contents.entries.length ≤ fuel) :
    ∃ kept dropped, cache.Evicts kept dropped (evictToCapacityUpTo fuel cache).1
        (evictToCapacityUpTo fuel cache).2 ∧
      kept.length < max cache.limits.capacity 1 := by
  have hone : 0 < max cache.limits.capacity 1 :=
    Nat.lt_of_lt_of_le Nat.zero_lt_one (Nat.le_max_right _ _)
  induction fuel generalizing cache with
  | zero =>
      have hnil := List.length_eq_zero_iff.mp (Nat.le_zero.mp hfuel)
      refine ⟨_, _, Evicts.refl hlinked, ?_⟩
      rwa [hnil]
  | succ fuel ih =>
      rw [evictToCapacityUpTo]
      rw [show cache.order.size = cache.contents.entries.length from hlinked.size]
      split
      · rename_i hfull
        rcases List.eq_nil_or_concat' cache.contents.entries with
          hnil | ⟨first, ⟨slot, entry⟩, hlast⟩
        · rw [hnil] at hfull
          exact absurd hfull (Nat.not_le_of_lt hone)
        · obtain ⟨hpop, hcontents, hpopped⟩ := popOldest_concat hlinked hlast
          rw [show cache.popOldest = (some entry, cache.popOldest.2) from Prod.ext hpop rfl]
          have hlimits : cache.popOldest.2.limits = cache.limits :=
            congrArg CacheContents.limits hcontents
          have hlength : (cache.popOldest.2.count fun s =>
              { s with evictions := s.evictions + 1 }).contents.entries.length ≤ fuel := by
            rw [contents_count, hcontents]
            rw [hlast, List.length_append] at hfuel
            exact Nat.le_of_succ_le_succ hfuel
          obtain ⟨kept, dropped, hrest, hroom⟩ :=
            ih ((linked_count _).mpr hpopped) hlength (hlimits ▸ hone)
          exact ⟨kept, _, Evicts.pop hlinked hlast hrest, hlimits ▸ hroom⟩
      · exact ⟨_, _, Evicts.refl hlinked, by omega⟩

theorem evicts_evictToCapacity (hlinked : cache.Linked) :
    ∃ kept dropped, cache.Evicts kept dropped cache.evictToCapacity.1
        cache.evictToCapacity.2 ∧
      kept.length < max cache.limits.capacity 1 :=
  evicts_evictToCapacityUpTo cache.order.size hlinked (Nat.le_of_eq hlinked.size.symm)

/-- Entries that leave in two turns leave in one. -/
theorem Evicts.trans {kept later dropped : List (Nat × CacheEntry)}
    {between : List (Nat × CacheEntry)} {first second : List Nat} {middle after : WriterCache ω}
    (hfirst : cache.Evicts later dropped first middle)
    (hsecond : middle.Evicts kept between second after) :
    cache.Evicts kept (between ++ dropped) (first ++ second) after := by
  have hlater : later = kept ++ between := by
    have h := hsecond.entries
    rw [hfirst.contents] at h
    exact h
  constructor
  · rw [hfirst.entries, hlater, List.append_assoc]
  · simp [hfirst.released, hsecond.released]
  · rw [hsecond.contents, hfirst.contents, CacheContents.trim_trim]
  · exact hsecond.linked

theorem isCurrent_iff {table : String} {flight : Nat} :
    cache.isCurrent table flight = true ↔
      cache.contents.mark? table = some (.loading flight) := by
  simp [isCurrent, contents, marks]

theorem addHandle_fst (cache : WriterCache ω) (table : String) (writer : ω) :
    (cache.addHandle table writer).1 = cache.contents.handles.size + 1 := by
  simp [addHandle, contents, count]

theorem contents_addHandle (cache : WriterCache ω) (table : String) (writer : ω) :
    (cache.addHandle table writer).2.contents = cache.contents.addHandle table writer := rfl

theorem contents_erase (cache : WriterCache ω) (table : String) :
    { cache with slots := cache.slots.erase table }.contents = cache.contents.unmark table := by
  change CacheContents.mk _ _ (marks (cache.slots.erase table)) _ _ = _
  rw [marks_erase]
  rfl

/-- An entry enters a cache at the front. -/
theorem contents_insert (hlinked : cache.Linked) (entry : CacheEntry) :
    { cache with
        order := (cache.order.push entry).2
        slots := cache.slots.insert entry.table (.ready (cache.order.push entry).1) }.contents =
      { cache.contents with
        entries := (cache.order.freshSlot, entry) :: cache.contents.entries
        mark? := Function.update cache.contents.mark? entry.table
          (some (.ready cache.order.freshSlot)) } ∧
    { cache with
        order := (cache.order.push entry).2
        slots := cache.slots.insert entry.table (.ready (cache.order.push entry).1) }.Linked := by
  have horder := AccessList.Represents.push hlinked entry
  have hentries := horder.entries_eq
  constructor
  · change CacheContents.mk _ (cache.order.push entry).2.entries
      (marks (cache.slots.insert entry.table (.ready (cache.order.push entry).1))) _ _ = _
    rw [hentries, marks_insert, AccessList.push_fst]
    rfl
  · change (cache.order.push entry).2.Represents (cache.order.push entry).2.entries
    rwa [hentries]

theorem finishes_finish (hlinked : cache.Linked) (table : String) (flight : Nat)
    (built : Except ConstructionError ω) (now : Nat) :
    cache.contents.Finishes table flight now built (cache.finish table flight built now).1
        (cache.finish table flight built now).2.1
        (cache.finish table flight built now).2.2.contents ∧
      (cache.finish table flight built now).2.2.Linked := by
  cases built with
  | error error =>
      by_cases hcurrent : cache.isCurrent table flight = true
      · simp only [finish, hcurrent, if_true, contents_count, linked_count, contents_erase]
        exact ⟨CacheContents.Finishes.refused (isCurrent_iff.mp hcurrent), hlinked⟩
      · simp only [finish, hcurrent, Bool.false_eq_true, if_false, contents_count, linked_count]
        exact ⟨CacheContents.Finishes.refusedDetached (mt isCurrent_iff.mpr hcurrent), hlinked⟩
  | ok writer =>
      by_cases hcurrent : cache.isCurrent table flight = true
      · have hadded : (cache.addHandle table writer).2.Linked := hlinked
        obtain ⟨later, dropped, hexpired⟩ := evicts_evictExpired now hadded
        obtain ⟨kept, between, hevicted, hroom⟩ := evicts_evictToCapacity hexpired.linked
        have hboth := hexpired.trans hevicted
        have hkept := congrArg CacheContents.entries hboth.contents
        have hslot := hboth.linked.freshSlot_not_mem
        rw [show (_ : WriterCache ω).order.entries = kept from hkept] at hslot
        obtain ⟨hcontents, hinserted⟩ :=
          contents_insert hboth.linked ⟨table, (cache.addHandle table writer).1, now⟩
        have hroom : kept.length < max cache.contents.limits.capacity 1 := by
          have hlimits := congrArg CacheContents.limits hexpired.contents
          exact hlimits ▸ hroom
        simp only [finish, hcurrent, if_true]
        refine ⟨?_, hinserted⟩
        rw [hcontents, hboth.released, hboth.contents, addHandle_fst]
        exact CacheContents.Finishes.stored (isCurrent_iff.mp hcurrent) hboth.entries hroom
          hslot
      · simp only [finish, hcurrent, Bool.false_eq_true, if_false, addHandle_fst,
          contents_addHandle]
        exact ⟨CacheContents.Finishes.detached (mt isCurrent_iff.mpr hcurrent), hlinked⟩

theorem contents_abandon (cache : WriterCache ω) (table : String) (flight : Nat) :
    (cache.contents.mark? table = some (.loading flight) ∧
        (cache.abandon table flight).contents = cache.contents.unmark table) ∨
      (cache.contents.mark? table ≠ some (.loading flight) ∧
        (cache.abandon table flight).contents = cache.contents) := by
  by_cases hcurrent : cache.isCurrent table flight = true
  · left
    refine ⟨isCurrent_iff.mp hcurrent, ?_⟩
    rw [abandon, if_pos hcurrent, contents_erase]
  · right
    refine ⟨mt isCurrent_iff.mpr hcurrent, ?_⟩
    rw [abandon, if_neg hcurrent]

/-- It leaves what a construction that was refused leaves. -/
theorem finishes_abandon (cache : WriterCache ω) (table : String) (flight now : Nat) :
    cache.contents.Finishes table flight now (.error (brokenError table))
      (.error (brokenError table)) [] (cache.abandon table flight).contents := by
  rcases cache.contents_abandon table flight with ⟨hmark, hcontents⟩ | ⟨hmark, hcontents⟩
  · rw [hcontents]
    exact CacheContents.Finishes.refused hmark
  · rw [hcontents]
    exact CacheContents.Finishes.refusedDetached hmark

theorem linked_abandon (table : String) (flight : Nat) :
    (cache.abandon table flight).Linked ↔ cache.Linked := by
  rw [abandon]
  split <;> exact Iff.rfl

@[simp]
theorem contents_publish (cache : WriterCache ω) (flight : Nat) (outcome : FlightOutcome) :
    (cache.publish flight outcome).contents = cache.contents.publish flight outcome := rfl

@[simp]
theorem linked_publish (flight : Nat) (outcome : FlightOutcome) :
    (cache.publish flight outcome).Linked ↔ cache.Linked := Iff.rfl

theorem evicts_sweep (now : Nat) (hlinked : cache.Linked) :
    ∃ kept dropped, cache.Evicts kept dropped (cache.sweep now).1 (cache.sweep now).2 := by
  obtain ⟨kept, dropped, hevicts⟩ := evicts_evictExpired now hlinked
  exact ⟨kept, dropped, hevicts.entries, hevicts.released, hevicts.contents, hevicts.linked⟩

@[simp]
theorem invalidate_fst (cache : WriterCache ω) :
    cache.invalidate.1 = cache.contents.cached := by
  simp [invalidate, AccessList.drain, AccessList.toList, CacheContents.cached, contents,
    Function.comp_def]

@[simp]
theorem contents_invalidate (cache : WriterCache ω) :
    cache.invalidate.2.contents = cache.contents.clear := by
  change CacheContents.mk _ [] (marks {}) _ _ = CacheContents.mk _ [] _ _ _
  congr 1
  funext table
  simp [marks]

@[simp]
theorem linked_invalidate (cache : WriterCache ω) : cache.invalidate.2.Linked :=
  AccessList.Represents.empty

theorem handle?_eq (cache : WriterCache ω) (id : Nat) :
    cache.handle? id = cache.contents.handle? id := rfl

@[simp]
theorem contents_modifyHandle (cache : WriterCache ω) (id : Nat)
    (f : WriterHandle ω → WriterHandle ω) :
    (cache.modifyHandle id f).contents = cache.contents.modifyHandle id f := by
  rw [modifyHandle, CacheContents.modifyHandle]
  split <;> rfl

@[simp]
theorem linked_modifyHandle (id : Nat) (f : WriterHandle ω → WriterHandle ω) :
    (cache.modifyHandle id f).Linked ↔ cache.Linked := by
  rw [modifyHandle]
  split <;> exact Iff.rfl

theorem modifyHandle_modifyHandle (cache : WriterCache ω) (id : Nat)
    (f g : WriterHandle ω → WriterHandle ω) :
    (cache.modifyHandle id f).modifyHandle id g = cache.modifyHandle id (g ∘ f) := by
  by_cases hid : id = 0
  · simp [modifyHandle, hid]
  · simp only [modifyHandle, hid, if_false]
    congr 1
    apply Array.ext_getElem?
    intro index
    rw [Array.getElem?_modify, Array.getElem?_modify, Array.getElem?_modify]
    split
    · rw [Option.map_map]
    · rfl

/-- An open handle is marked as closed, and its writer comes out. -/
theorem beginClose_open {id : Nat} {handle : WriterHandle ω}
    (hhandle : cache.contents.handle? id = some handle) (hopen : handle.closed = false) :
    cache.beginClose id =
      (some handle.writer, cache.modifyHandle id fun h => { h with closed := true }) := by
  rw [← handle?_eq] at hhandle
  simp [beginClose, hhandle, hopen]

/-- Closing a handle either finds it open, or changes nothing. -/
theorem beginClose_cases (cache : WriterCache ω) (id : Nat) :
    (cache.beginClose id = (none, cache) ∧
        ∀ handle, cache.contents.handle? id = some handle → handle.closed = true) ∨
      ∃ handle, cache.contents.handle? id = some handle ∧ handle.closed = false ∧
        cache.beginClose id =
          (some handle.writer, cache.modifyHandle id fun h => { h with closed := true }) := by
  cases hhandle : cache.contents.handle? id with
  | none =>
      left
      refine ⟨?_, by simp⟩
      rw [← handle?_eq] at hhandle
      simp [beginClose, hhandle]
  | some handle =>
      cases hclosed : handle.closed with
      | false => exact Or.inr ⟨handle, rfl, hclosed, beginClose_open hhandle hclosed⟩
      | true =>
          left
          refine ⟨?_, by simp [hclosed]⟩
          rw [← handle?_eq] at hhandle
          simp [beginClose, hhandle, hclosed]

/-- A handle that gives out its writer to be closed was open. -/
theorem beginClose_some {id : Nat} {writer : ω} {after : WriterCache ω}
    (hbegin : cache.beginClose id = (some writer, after)) :
    ∃ handle, cache.contents.handle? id = some handle ∧ handle.closed = false ∧
      after = cache.modifyHandle id fun h => { h with closed := true } := by
  rcases cache.beginClose_cases id with ⟨hskip, -⟩ | ⟨handle, hhandle, hclosed, hopen⟩
  · rw [hskip] at hbegin
    simp at hbegin
  · rw [hopen] at hbegin
    exact ⟨handle, hhandle, hclosed, (Prod.mk.inj hbegin).2.symm⟩

/-- A handle that gives out no writer was closed, or there is none. -/
theorem beginClose_none {id : Nat} {after : WriterCache ω}
    (hbegin : cache.beginClose id = (none, after)) :
    after = cache ∧ ∀ handle, cache.contents.handle? id = some handle → handle.closed = true := by
  rcases cache.beginClose_cases id with ⟨hskip, hclosed⟩ | ⟨handle, -, -, hopen⟩
  · rw [hskip] at hbegin
    exact ⟨(Prod.mk.inj hbegin).2.symm, hclosed⟩
  · rw [hopen] at hbegin
    simp at hbegin

end WriterCache

end TableRouting
