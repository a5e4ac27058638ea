import Mathlib.Data.List.Perm.Subperm
import TableRouting.Proofs.Cache.AccessLinks

/-!
# The order that an access list stands for

A list of slots and values is the order of an access list when the ring of its
links visits the slots in turn, in both directions, and when the slots in use
are these slots and hold these values.  Each operation of the access list is
then the operation of the same name on the plain list.
-/

namespace TableRouting

/-- In a list whose keys are distinct an item is found by its key, and the others are
those before and after it. -/
theorem find?_filter_of_nodup {β γ : Type} [DecidableEq γ] (key : β → γ) {newer older : List β}
    {item : β} (hnodup : ((newer ++ item :: older).map key).Nodup) :
    ((newer ++ item :: older).find? fun other => key other = key item) = some item ∧
      ((newer ++ item :: older).filter fun other => key other ≠ key item) = newer ++ older := by
  have hother : ∀ other ∈ newer ++ older, key other ≠ key item := by
    obtain ⟨hnotMem, -⟩ := List.nodup_cons.mp ((List.perm_middle.map key).nodup_iff.mp hnodup)
    exact fun other hmem hsame => hnotMem (hsame ▸ List.mem_map_of_mem hmem)
  simp only [List.mem_append] at hother
  constructor
  · rw [List.find?_eq_some_iff_append]
    refine ⟨by simp, newer, older, rfl, fun other hmem => ?_⟩
    simpa using hother other (Or.inl hmem)
  · have hnewer : newer.filter (fun other => key other ≠ key item) = newer :=
      List.filter_eq_self.mpr fun other hmem => by simpa using hother other (Or.inl hmem)
    have holder : older.filter (fun other => key other ≠ key item) = older :=
      List.filter_eq_self.mpr fun other hmem => by simpa using hother other (Or.inr hmem)
    rw [List.filter_append, List.filter_cons_of_neg (by simp), hnewer, holder]

namespace AccessList

variable {α : Type}

/-- A list of slots and values, most recently used first, is the order of an
access list. -/
structure Represents (list : AccessList α) (entries : List (Nat × α)) : Prop where
  forward : Track list.next none (entries.map Prod.fst)
  backward : Track list.previous none (entries.map Prod.fst).reverse
  live : ∀ slot value, list.get? slot = some value ↔ (slot, value) ∈ entries
  nodup : (entries.map Prod.fst).Nodup
  size : list.size = entries.length
  free_nodup : list.free.Nodup
  free : ∀ slot, slot ∈ list.free ↔ slot < list.slots.size ∧ list.get? slot = none

theorem Represents.empty : Represents ({} : AccessList α) [] where
  forward := rfl
  backward := rfl
  live := by simp [get?, node?]
  nodup := List.nodup_nil
  size := rfl
  free_nodup := List.nodup_nil
  free := by simp

theorem get?_eq_none {list : AccessList α} {slot : Nat} :
    list.get? slot = none ↔ list.node? slot = none := by
  simp [get?]

theorem lt_size_of_get? {list : AccessList α} {slot : Nat} {value : α}
    (hget : list.get? slot = some value) : slot < list.slots.size := by
  by_contra hle
  simp [get?, node?, Array.getElem?_eq_none (Nat.le_of_not_lt hle)] at hget

namespace Represents

variable {list : AccessList α} {entries newer older : List (Nat × α)}
  {slot : Nat} {value : α}

theorem get?_eq_none_iff (horder : Represents list entries) :
    list.get? slot = none ↔ slot ∉ entries.map Prod.fst := by
  constructor
  · intro hnone hmem
    obtain ⟨⟨other, value⟩, hentry, rfl⟩ := List.mem_map.mp hmem
    simp [(horder.live other value).mpr hentry] at hnone
  · intro hnot
    cases hget : list.get? slot with
    | none => rfl
    | some value =>
        exact absurd (List.mem_map_of_mem ((horder.live slot value).mp hget)) hnot

theorem front_eq (horder : Represents list entries) :
    list.front = (entries.map Prod.fst).head? :=
  step_of_track horder.forward

theorem back_eq (horder : Represents list entries) :
    list.back = (entries.map Prod.fst).getLast? := by
  rw [← List.head?_reverse]
  exact step_of_track horder.backward

theorem freshSlot_not_mem (horder : Represents list entries) :
    list.freshSlot ∉ entries.map Prod.fst := by
  rw [← horder.get?_eq_none_iff]
  cases h : list.free with
  | nil => simp [freshSlot, h, get?, node?]
  | cons first rest =>
      have hfirst : first ∈ list.free := by simp [h]
      simpa [freshSlot, h] using ((horder.free first).mp hfirst).2

theorem isPlace_of_mem (horder : Represents list entries) {place : Option Nat}
    (hplace : ∀ other, place = some other → other ∈ entries.map Prod.fst) :
    list.IsPlace place := by
  intro other heq
  rw [Option.isSome_iff_ne_none, ne_eq, ← get?_eq_none, horder.get?_eq_none_iff]
  exact not_not_intro (hplace other heq)

theorem push (horder : Represents list entries) (value : α) :
    Represents (list.push value).2 ((list.freshSlot, value) :: entries) := by
  have hfresh := horder.freshSlot_not_mem
  have hfree : ∀ slot ∈ list.free, slot < list.slots.size := fun slot hmem =>
    ((horder.free slot).mp hmem).1
  have hfront : list.front ≠ some list.freshSlot := by
    rw [horder.front_eq]
    exact fun heq => hfresh (List.mem_of_mem_head? heq)
  have hnode := node?_push list value hfree hfront
  have hget (slot : Nat) : (list.push value).2.get? slot =
      if slot = list.freshSlot then some value else list.get? slot := by
    by_cases hslot : slot = list.freshSlot <;>
      simp [get?, hnode, hslot, Function.comp_def]
  have hprevious : (list.push value).2.previous =
      Function.update (Function.update list.previous list.front (some list.freshSlot))
        (some list.freshSlot) none := by
    funext place
    cases place with
    | none => simp [previous, back_push, Function.update_apply, eq_comm]
    | some slot =>
        by_cases hslot : slot = list.freshSlot
        · simp [previous, hnode, hslot]
        · have hplace : list.IsPlace list.front := horder.isPlace_of_mem (by
            rw [horder.front_eq]
            exact fun other heq => List.mem_of_mem_head? heq)
          cases hold : list.node? slot with
          | none =>
              have hne : some slot ≠ list.front := fun heq => by
                simpa [hold] using hplace slot heq.symm
              simp [previous, hnode, hslot, hold, Function.update_of_ne hne]
          | some node =>
              simp [previous, hnode, hslot, hold, Function.update_apply, eq_comm]
  constructor
  · refine horder.forward.cons ?_ ?_ ?_
    · exact front_push list value
    · simp [next, hnode, horder.front_eq]
    · intro slot hmem
      have hne : slot ≠ list.freshSlot := fun heq => hfresh (heq ▸ hmem)
      cases hslot : list.node? slot <;> simp [next, hnode, hne, hslot]
  · have hlast : (entries.map Prod.fst).reverse.getLast?.or none = list.front := by
      simp [horder.front_eq]
    rw [hprevious, ← hlast, List.map_cons, List.reverse_cons]
    exact horder.backward.concat (by simpa using hfresh)
      (List.nodup_reverse.mpr horder.nodup) (by simp) (by simp)
  · intro slot other
    rw [hget, List.mem_cons]
    by_cases hslot : slot = list.freshSlot
    · have hnot : (slot, other) ∉ entries := fun hmem =>
        hfresh (hslot ▸ List.mem_map_of_mem hmem)
      rw [if_pos hslot, or_iff_left hnot]
      simp [hslot, eq_comm]
    · simp [hslot, horder.live]
  · exact List.nodup_cons.mpr ⟨hfresh, horder.nodup⟩
  · simp [horder.size]
  · rw [free_push]
    exact horder.free_nodup.tail
  · intro slot
    have hold := horder.free slot
    rw [free_push, size_slots_push, hget]
    cases h : list.free with
    | nil =>
        simp only [h, List.not_mem_nil, false_iff, not_and] at hold
        by_cases hslot : slot = list.slots.size
        · simp [freshSlot, h, hslot]
        · have hlt : slot < list.slots.size + 1 → slot < list.slots.size := by omega
          simpa [freshSlot, h, hslot] using fun hle => hold (hlt hle)
    | cons first rest =>
        have hnodup := horder.free_nodup
        rw [h] at hold hnodup
        by_cases hslot : slot = first
        · simpa [freshSlot, h, hslot] using (List.nodup_cons.mp hnodup).1
        · simpa [freshSlot, h, hslot] using hold

/-- The node of an entry links the entries on both sides of it. -/
theorem node?_eq (horder : Represents list (newer ++ (slot, value) :: older)) :
    list.node? slot =
      some ⟨value, (newer.map Prod.fst).getLast?, (older.map Prod.fst).head?⟩ := by
  have hforward := horder.forward
  have hbackward := horder.backward
  simp only [List.map_append, List.map_cons, List.reverse_append, List.reverse_cons,
    List.append_assoc, List.singleton_append] at hforward hbackward
  have hnext := hforward.steps.2
  have hprevious := hbackward.steps.2
  have hget := (horder.live slot value).mpr (by simp)
  cases hnode : list.node? slot with
  | none => simp [get?, hnode] at hget
  | some node =>
      obtain ⟨held, before, after⟩ := node
      simp_all [get?, next, previous]

/-- Joining the neighbours of an entry takes it out of the ring. -/
theorem unlink (horder : Represents list (newer ++ (slot, value) :: older))
    {node : Node α} (hnode : list.node? slot = some node) :
    Track (list.unlink node).next none ((newer ++ older).map Prod.fst) ∧
      Track (list.unlink node).previous none ((newer ++ older).map Prod.fst).reverse := by
  have hslots : (newer ++ (slot, value) :: older).map Prod.fst =
      newer.map Prod.fst ++ slot :: older.map Prod.fst := by simp
  have hreverse : ((newer ++ (slot, value) :: older).map Prod.fst).reverse =
      (older.map Prod.fst).reverse ++ slot :: (newer.map Prod.fst).reverse := by simp
  rw [horder.node?_eq, Option.some.injEq] at hnode
  subst hnode
  have hnewer : list.IsPlace (newer.map Prod.fst).getLast? :=
    horder.isPlace_of_mem fun other heq => by
      rw [hslots]
      exact List.mem_append_left _ (List.mem_of_getLast? heq)
  have holder : list.IsPlace (older.map Prod.fst).head? :=
    horder.isPlace_of_mem fun other heq => by
      rw [hslots]
      exact List.mem_append_right _ (List.mem_cons_of_mem _ (List.mem_of_mem_head? heq))
  have hnodup := horder.nodup
  constructor
  · have hskip := (hslots ▸ horder.forward).skip (hslots ▸ hnodup) (by simp)
    rw [next_unlink _ _ hnewer]
    simpa using hskip
  · have hskip := (hreverse ▸ horder.backward).skip
      (hreverse ▸ List.nodup_reverse.mpr hnodup) (by simp)
    rw [previous_unlink _ _ holder]
    simpa using hskip

theorem remove (horder : Represents list (newer ++ (slot, value) :: older)) :
    (list.remove slot).1 = some value ∧
      Represents (list.remove slot).2 (newer ++ older) := by
  have hnode := horder.node?_eq
  have hbound := lt_size_of_get? ((horder.live slot value).mpr (by simp))
  obtain ⟨hforward, hbackward⟩ := horder.unlink hnode
  obtain ⟨hnotMem, hnodup⟩ := List.nodup_cons.mp
    ((List.perm_middle.map Prod.fst).nodup_iff.mp horder.nodup)
  refine ⟨by rw [remove_eq hnode], ?_⟩
  have hremoved := node?_remove hnode
  have hget (other : Nat) : (list.remove slot).2.get? other =
      if other = slot then none else list.get? other := by
    by_cases hother : other = slot
    · simp [get?, hremoved, hother]
    · rw [get?, hremoved, if_neg hother, if_neg hother]
      exact get?_unlink list _ other
  have hne : ∀ other ∈ (newer ++ older).map Prod.fst, other ≠ slot :=
    fun other hmem heq => hnotMem (heq ▸ hmem)
  constructor
  · refine hforward.congr ?_ fun other hmem => ?_
    · rw [remove_eq hnode]
      rfl
    · simp [next, hremoved, hne other hmem]
  · refine hbackward.congr ?_ fun other hmem => ?_
    · rw [remove_eq hnode]
      rfl
    · simp [previous, hremoved, hne other (List.mem_reverse.mp hmem)]
  · intro other held
    rw [hget]
    by_cases hother : other = slot
    · have hnot : (other, held) ∉ newer ++ older := fun hmem =>
        hne other (List.mem_map_of_mem hmem) hother
      rw [if_pos hother]
      exact iff_of_false (by simp) hnot
    · simp [hother, horder.live]
  · exact hnodup
  · rw [remove_eq hnode]
    simp [horder.size]
  · have hfree : slot ∉ list.free := fun hmem => by
      simpa [get?, hnode] using ((horder.free slot).mp hmem).2
    rw [remove_eq hnode]
    exact List.nodup_cons.mpr ⟨hfree, horder.free_nodup⟩
  · intro other
    have hold := horder.free other
    rw [hget, remove_eq hnode]
    by_cases hother : other = slot
    · simp [hother, hbound]
    · simpa [hother] using hold

theorem touch (horder : Represents list (newer ++ (slot, value) :: older)) :
    Represents (list.touch slot) ((slot, value) :: (newer ++ older)) := by
  cases newer with
  | nil =>
      have hfront : list.front = some slot := by simp [horder.front_eq]
      simpa [AccessList.touch, hfront] using horder
  | cons first rest =>
      obtain ⟨hnotMem, hnodup⟩ := List.nodup_cons.mp
        ((List.perm_middle.map Prod.fst).nodup_iff.mp horder.nodup)
      obtain ⟨node, hnode⟩ : ∃ node, list.node? slot = some node :=
        ⟨_, horder.node?_eq⟩
      have hvalue : node.value = value := by
        rw [horder.node?_eq, Option.some.injEq] at hnode
        rw [← hnode]
      obtain ⟨hforward, hbackward⟩ := horder.unlink hnode
      have hne : ∀ other ∈ ((first :: rest) ++ older).map Prod.fst, other ≠ slot :=
        fun other hmem heq => hnotMem (heq ▸ hmem)
      have hfirst : first.1 ≠ slot := hne first.1 (by simp)
      have hfront : list.front ≠ some slot := by simp [horder.front_eq, hfirst]
      have hlinked : (list.unlink node).front = some first.1 := step_of_track hforward
      have hback : (list.unlink node).back ≠ none := by
        have hlast := step_of_track hbackward
        rw [previous] at hlast
        simp [hlast]
      have hlive : (list.unlink node).IsPlace (some first.1) := by
        intro other heq
        have hentry := (horder.live first.1 first.2).mpr (by simp)
        rw [Option.isSome_iff_ne_none, ne_eq, ← get?_eq_none, get?_unlink,
          ← Option.some.inj heq, hentry]
        simp
      have heq := touch_eq hfront hnode hlinked
      have hget (other : Nat) : (list.touch slot).get? other = list.get? other := by
        have htouched := node?_touch hfront hnode hlinked hfirst
        by_cases hother : other = slot
        · simp [get?, htouched, hother, hnode, hvalue]
        · rw [← get?_unlink list node]
          simp [get?, htouched, hother, Function.comp_def]
      constructor
      · rw [next_touch hfront hnode hlinked hfirst]
        refine hforward.cons (by simp) (by simp) fun other hmem => ?_
        simp [hne other hmem]
      · have hlast : (((first :: rest) ++ older).map Prod.fst).reverse.getLast?.or none =
            some first.1 := by simp
        rw [previous_touch hfront hnode hlinked hfirst hback hlive, ← hlast, List.map_cons,
          List.reverse_cons]
        exact hbackward.concat (fun hmem => hnotMem (List.mem_reverse.mp hmem))
          (List.nodup_reverse.mpr hnodup) (by simp) (by simp)
      · intro other held
        rw [hget, horder.live]
        exact List.perm_middle.mem_iff
      · exact (List.perm_middle.map Prod.fst).nodup_iff.mp horder.nodup
      · rw [heq]
        simp [horder.size]
        omega
      · rw [heq]
        simpa using horder.free_nodup
      · intro other
        have hold := horder.free other
        rw [hget, heq]
        simpa using hold

theorem modify (horder : Represents list entries) (slot : Nat) (f : α → α) :
    Represents (list.modify slot f)
      (entries.map fun entry => if entry.1 = slot then (entry.1, f entry.2) else entry) := by
  have hslots : (entries.map fun entry =>
      if entry.1 = slot then (entry.1, f entry.2) else entry).map Prod.fst =
        entries.map Prod.fst := by
    rw [List.map_map]
    refine List.map_congr_left fun entry _ => ?_
    by_cases h : entry.1 = slot <;> simp [h]
  have hnode (other : Nat) : (list.modify slot f).node? other =
      (list.node? other).map fun n =>
        { n with value := if slot = other then f n.value else n.value } := by
    by_cases h : slot = other <;> simp [AccessList.modify, h]
  have hget (other : Nat) : (list.modify slot f).get? other =
      (list.get? other).map fun held => if slot = other then f held else held := by
    simp [get?, hnode, Function.comp_def]
  constructor
  · rw [hslots]
    refine horder.forward.congr rfl fun other _ => ?_
    cases h : list.node? other <;> simp [next, hnode, h]
  · rw [hslots]
    refine horder.backward.congr rfl fun other _ => ?_
    cases h : list.node? other <;> simp [previous, hnode, h]
  · intro other held
    rw [hget, Option.map_eq_some_iff, List.mem_map]
    constructor
    · rintro ⟨old, hold, rfl⟩
      refine ⟨(other, old), (horder.live other old).mp hold, ?_⟩
      by_cases h : other = slot
      · simp [h]
      · simp [h, Ne.symm h]
    · rintro ⟨⟨entrySlot, old⟩, hmem, heq⟩
      refine ⟨old, ?_, ?_⟩
      · by_cases h : entrySlot = slot <;> simp_all [horder.live]
      · by_cases h : entrySlot = slot <;> simp_all [eq_comm]
  · rw [hslots]
    exact horder.nodup
  · simp [AccessList.modify, horder.size]
  · exact horder.free_nodup
  · intro other
    have hold := horder.free other
    rw [hget]
    simpa [AccessList.modify] using hold

theorem modify_entry (horder : Represents list (newer ++ (slot, value) :: older))
    (f : α → α) :
    Represents (list.modify slot f) (newer ++ (slot, f value) :: older) := by
  obtain ⟨hnotMem, -⟩ := List.nodup_cons.mp
    ((List.perm_middle.map Prod.fst).nodup_iff.mp horder.nodup)
  have hkeep : ∀ entry ∈ newer ++ older,
      (if entry.1 = slot then (entry.1, f entry.2) else entry) = entry := by
    intro entry hmem
    have hslot : entry.1 ∈ (newer ++ older).map Prod.fst := List.mem_map_of_mem hmem
    refine if_neg fun heq => hnotMem ?_
    rwa [heq] at hslot
  have hmodified := horder.modify slot f
  rw [List.map_append, List.map_cons, if_pos rfl,
    List.map_congr_left fun entry hmem => hkeep entry (List.mem_append_left _ hmem),
    List.map_congr_left fun entry hmem => hkeep entry (List.mem_append_right _ hmem)]
    at hmodified
  simpa using hmodified

theorem back?_eq (horder : Represents list entries) :
    list.back? = entries.getLast? := by
  rw [back?, horder.back_eq, List.getLast?_map]
  cases hlast : entries.getLast? with
  | none => rfl
  | some entry =>
      have hget := (horder.live entry.1 entry.2).mpr (List.mem_of_getLast? hlast)
      simp [hget]

theorem popBack_concat (horder : Represents list (newer ++ [(slot, value)])) :
    list.popBack.1 = some value ∧ Represents list.popBack.2 newer := by
  have hback : list.back = some slot := by simp [horder.back_eq]
  have hremove := horder.remove
  rw [List.append_nil] at hremove
  simpa [popBack, hback] using hremove

theorem length_le (horder : Represents list entries) :
    entries.length ≤ list.slots.size := by
  have hsubset : entries.map Prod.fst ⊆ List.range list.slots.size := by
    intro slot hmem
    obtain ⟨⟨other, value⟩, hentry, rfl⟩ := List.mem_map.mp hmem
    exact List.mem_range.mpr (lt_size_of_get? ((horder.live other value).mpr hentry))
  simpa using (List.subperm_of_subset horder.nodup hsubset).length_le

theorem walk_eq (horder : Represents list entries) {start : Option Nat} :
    ∀ {rest : List (Nat × α)} {fuel : Nat}, Track list.next start (rest.map Prod.fst) →
      rest ⊆ entries → rest.length ≤ fuel → list.walk fuel (list.next start) = rest := by
  intro rest
  induction rest generalizing start with
  | nil =>
      intro fuel htrack _ _
      rw [show list.next start = none from htrack]
      cases fuel <;> rfl
  | cons entry rest ih =>
      intro fuel htrack hsubset hfuel
      obtain ⟨fuel, rfl⟩ : ∃ less, fuel = less + 1 :=
        Nat.exists_eq_succ_of_ne_zero (by simp at hfuel; omega)
      have hget := (horder.live entry.1 entry.2).mpr (hsubset List.mem_cons_self)
      have hrest := ih htrack.2 (fun _ hmem => hsubset (List.mem_cons_of_mem _ hmem))
        (Nat.le_of_succ_le_succ hfuel)
      rw [show list.next start = some entry.1 from htrack.1]
      cases hnode : list.node? entry.1 with
      | none => simp [get?, hnode] at hget
      | some node =>
          simp only [get?, hnode, Option.map_some, Option.some.injEq] at hget
          simp only [next, hnode, Option.bind_some] at hrest
          simp [walk, hnode, hget, hrest]

/-- The entries that an access list lists are those of its order. -/
theorem entries_eq (horder : Represents list entries) : list.entries = entries :=
  horder.walk_eq horder.forward (List.Subset.refl _) horder.length_le

end Represents

end AccessList

end TableRouting
