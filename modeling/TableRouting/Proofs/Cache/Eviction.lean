import TableRouting.Proofs.Cache.Coherence

/-!
# What exactly leaves a cache

Entries in the order of their times are evicted from the back, up to the first one
that is fresh: so exactly the expired ones leave.  To make room, exactly those
leave that are too many, the least recently used ones.
-/

namespace TableRouting

variable {ω : Type}

namespace CacheEntry

def isFresh (limits : CacheLimits) (now : Nat) (entry : CacheEntry) : Bool :=
  now - entry.lastAccess < limits.ttl

theorem isFresh_of_le {limits : CacheLimits} {now : Nat} {older newer : CacheEntry}
    (hfresh : older.isFresh limits now = true) (hle : older.lastAccess ≤ newer.lastAccess) :
    newer.isFresh limits now = true := by
  simp only [isFresh, decide_eq_true_eq] at hfresh ⊢
  omega

end CacheEntry

namespace WriterCache

variable {cache : WriterCache ω}

theorem isExpired_eq_not_isFresh (cache : WriterCache ω) (entry : CacheEntry) (now : Nat) :
    cache.isExpired entry now = !entry.isFresh cache.limits now := by
  simp [isExpired, CacheEntry.isFresh, ← decide_not]

/-- The oldest entry leaves, and is counted. -/
theorem popOldest_counted {first : List (Nat × CacheEntry)} {slot : Nat} {entry : CacheEntry}
    (hlinked : cache.Linked) (hlast : cache.contents.entries = first ++ [(slot, entry)])
    (f : CacheStatistics → CacheStatistics) :
    cache.popOldest.1 = some entry ∧ (cache.popOldest.2.count f).Linked ∧
      (cache.popOldest.2.count f).contents.entries = first ∧
      (cache.popOldest.2.count f).limits = cache.limits := by
  obtain ⟨hpop, hcontents, hpopped⟩ := popOldest_concat hlinked hlast
  exact ⟨hpop, hpopped, congrArg CacheContents.entries hcontents,
    congrArg CacheContents.limits hcontents⟩

/-- Evicting what expired leaves what is fresh. -/
theorem entries_evictExpiredUpTo (now fuel : Nat) (hlinked : cache.Linked)
    (hordered : cache.contents.entries.Pairwise fun newer older =>
      older.2.lastAccess ≤ newer.2.lastAccess)
    (hfuel : cache.contents.entries.length ≤ fuel) :
    (evictExpiredUpTo now fuel cache).2.contents.entries =
      cache.contents.entries.filter fun item => item.2.isFresh cache.limits now := by
  induction fuel generalizing cache with
  | zero =>
      have hnil := List.length_eq_zero_iff.mp (Nat.le_zero.mp hfuel)
      rw [evictExpiredUpTo, hnil]
      rfl
  | succ fuel ih =>
      rw [evictExpiredUpTo]
      rcases List.eq_nil_or_concat' cache.contents.entries with
        hnil | ⟨first, ⟨slot, entry⟩, hlast⟩
      · rw [back?_nil hlinked hnil]
        simp [hnil]
      · simp only [back?_concat hlinked hlast, isExpired_eq_not_isFresh]
        rw [hlast, List.pairwise_append] at hordered
        rw [hlast, List.length_append] at hfuel
        cases hfresh : entry.isFresh cache.limits now with
        | true =>
            -- Nothing is older than the last entry, so nothing has expired.
            have hall : ∀ item ∈ cache.contents.entries,
                item.2.isFresh cache.limits now = true := by
              intro item hitem
              rw [hlast] at hitem
              rcases List.mem_append.mp hitem with hfirst | hsame
              · exact CacheEntry.isFresh_of_le hfresh
                  (hordered.2.2 item hfirst _ List.mem_cons_self)
              · rw [List.mem_singleton.mp hsame]
                exact hfresh
            exact (List.filter_eq_self.mpr hall).symm
        | false =>
            obtain ⟨hpop, hpopped, hfirst, hlimits⟩ := popOldest_counted hlinked hlast
              fun s => { s with expirations := s.expirations + 1 }
            rw [show cache.popOldest = (some entry, cache.popOldest.2) from Prod.ext hpop rfl]
            have hrest := ih hpopped (by rw [hfirst]; exact hordered.1)
              (by rw [hfirst]; exact Nat.le_of_succ_le_succ hfuel)
            rw [hfirst, hlimits] at hrest
            simp only [Bool.not_false, if_true]
            rw [hrest, hlast, List.filter_append, List.filter_singleton, hfresh]
            exact (List.append_nil _).symm

theorem entries_evictExpired (now : Nat) (hlinked : cache.Linked)
    (hordered : cache.contents.entries.Pairwise fun newer older =>
      older.2.lastAccess ≤ newer.2.lastAccess) :
    (cache.evictExpired now).2.contents.entries =
      cache.contents.entries.filter fun item => item.2.isFresh cache.limits now :=
  entries_evictExpiredUpTo now _ hlinked hordered (Nat.le_of_eq hlinked.size.symm)

/-- Making room leaves the entries at the front. -/
theorem entries_evictToCapacityUpTo (fuel : Nat) (hlinked : cache.Linked)
    (hfuel : cache.contents.entries.length ≤ fuel) :
    (evictToCapacityUpTo fuel cache).2.contents.entries =
      cache.contents.entries.take (max cache.limits.capacity 1 - 1) := by
  induction fuel generalizing cache with
  | zero =>
      have hnil := List.length_eq_zero_iff.mp (Nat.le_zero.mp hfuel)
      rw [evictToCapacityUpTo, hnil, List.take_nil]
  | succ fuel ih =>
      rw [evictToCapacityUpTo,
        show cache.order.size = cache.contents.entries.length from hlinked.size]
      split
      · rename_i hfull
        rcases List.eq_nil_or_concat' cache.contents.entries with
          hnil | ⟨first, ⟨slot, entry⟩, hlast⟩
        · rw [hnil, List.length_nil] at hfull
          omega
        · obtain ⟨hpop, hpopped, hfirst, hlimits⟩ := popOldest_counted hlinked hlast
            fun s => { s with evictions := s.evictions + 1 }
          rw [show cache.popOldest = (some entry, cache.popOldest.2) from Prod.ext hpop rfl]
          rw [hlast, List.length_append, List.length_singleton] at hfull hfuel
          have hrest := ih hpopped (by rw [hfirst]; exact Nat.le_of_succ_le_succ hfuel)
          rw [hfirst, hlimits] at hrest
          rw [hlast, List.take_append_of_le_length (by omega)]
          exact hrest
      · rw [List.take_of_length_le (by omega)]

theorem entries_evictToCapacity (hlinked : cache.Linked) :
    cache.evictToCapacity.2.contents.entries =
      cache.contents.entries.take (max cache.limits.capacity 1 - 1) :=
  entries_evictToCapacityUpTo _ hlinked (Nat.le_of_eq hlinked.size.symm)

/-- A sweep leaves what is fresh. -/
theorem entries_sweep (now : Nat) (hlinked : cache.Linked)
    (hordered : cache.contents.entries.Pairwise fun newer older =>
      older.2.lastAccess ≤ newer.2.lastAccess) :
    (cache.sweep now).2.contents.entries =
      cache.contents.entries.filter fun item => item.2.isFresh cache.limits now := by
  rw [sweep, contents_count]
  exact entries_evictExpired now hlinked hordered

theorem toList_eq_filter {after : WriterCache ω} {p : CacheEntry → Bool}
    (hentries : after.contents.entries = cache.contents.entries.filter fun item => p item.2) :
    after.order.toList = cache.order.toList.filter p := by
  have hlist (cache : WriterCache ω) :
      cache.order.toList = cache.contents.entries.map Prod.snd := rfl
  rw [hlist, hentries, hlist, List.filter_map]
  rfl

/-- As many writers are taken out as have expired. -/
theorem length_sweep (now : Nat) (hlinked : cache.Linked)
    (hordered : cache.contents.entries.Pairwise fun newer older =>
      older.2.lastAccess ≤ newer.2.lastAccess) :
    (cache.sweep now).1.length =
      cache.order.toList.countP fun entry => !entry.isFresh cache.limits now := by
  obtain ⟨kept, dropped, hevicts⟩ := evicts_sweep now hlinked
  have hlength := congrArg List.length hevicts.entries
  have hcount := List.length_eq_countP_add_countP (l := cache.contents.entries)
    fun item => item.2.isFresh cache.limits now
  have hfresh : kept.length =
      cache.contents.entries.countP fun item => item.2.isFresh cache.limits now := by
    rw [List.countP_eq_length_filter, ← entries_sweep now hlinked hordered, hevicts.contents]
    rfl
  have hentries : cache.order.toList = cache.contents.entries.map Prod.snd := rfl
  simp only [List.length_append, Bool.not_eq_true, Bool.decide_eq_false] at hlength hcount
  rw [hevicts.released, List.length_reverse, List.length_map, hentries, List.countP_map]
  simp only [Function.comp_def]
  omega

/-- A writer that enters the cache has in front of it nothing, and behind it as many
fresh entries as there is room for. -/
theorem entries_finish {table : String} {flight : Nat} (now : Nat) (hlinked : cache.Linked)
    (hordered : cache.contents.entries.Pairwise fun newer older =>
      older.2.lastAccess ≤ newer.2.lastAccess)
    (hcurrent : cache.contents.mark? table = some (.loading flight)) (writer : ω) :
    (cache.finish table flight (.ok writer) now).2.2.contents.entries.map Prod.snd =
      ⟨table, cache.contents.handles.size + 1, now⟩ ::
        (((cache.contents.entries.filter fun item =>
          item.2.isFresh cache.limits now).take (max cache.limits.capacity 1 - 1)).map
            Prod.snd) := by
  have hadded : (cache.addHandle table writer).2.Linked := hlinked
  obtain ⟨later, dropped, hexpired⟩ := evicts_evictExpired now hadded
  obtain ⟨kept, between, hevicted, -⟩ := evicts_evictToCapacity hexpired.linked
  have hentries := entries_evictToCapacity hexpired.linked
  rw [entries_evictExpired now hadded hordered] at hentries
  have hlimits : ((cache.addHandle table writer).2.evictExpired now).2.limits = cache.limits :=
    congrArg CacheContents.limits hexpired.contents
  rw [hlimits] at hentries
  obtain ⟨hcontents, -⟩ :=
    contents_insert hevicted.linked ⟨table, (cache.addHandle table writer).1, now⟩
  simp only [finish, isCurrent_iff.mpr hcurrent, if_true]
  rw [hcontents, hentries, addHandle_fst]
  rfl

end WriterCache

end TableRouting
