import Mathlib.Data.List.Nodup
import Mathlib.Logic.Function.Basic
import TableRouting.Cache.AccessList

/-!
# The links of an access list

The links of an access list, with the two ends of the list as the neighbours of
a header, form a ring.  A track is the way along such links from one place to
the next.  Each operation of the access list redirects a few links, and this
says for each of them which ones, and what becomes of the tracks.
-/

namespace TableRouting.AccessList

variable {α : Type}

/-! ## Tracks -/

/-- Following `step` from `start` visits the slots in turn and ends at none. -/
def Track (step : Option Nat → Option Nat) (start : Option Nat) : List Nat → Prop
  | [] => step start = none
  | slot :: rest => step start = some slot ∧ Track step (some slot) rest

theorem step_of_track {step : Option Nat → Option Nat} {start : Option Nat}
    {slots : List Nat} (htrack : Track step start slots) :
    step start = slots.head? := by
  cases slots with
  | nil => exact htrack
  | cons slot rest => exact htrack.1

/-- A track does not depend on steps from elsewhere. -/
theorem Track.congr {step other : Option Nat → Option Nat} {start : Option Nat}
    {slots : List Nat} (htrack : Track step start slots)
    (hstart : other start = step start)
    (hslots : ∀ slot ∈ slots, other (some slot) = step (some slot)) :
    Track other start slots := by
  induction slots generalizing start with
  | nil => exact hstart.trans htrack
  | cons slot rest ih =>
      refine ⟨hstart.trans htrack.1, ih htrack.2 ?_ ?_⟩
      · exact hslots slot List.mem_cons_self
      · exact fun other hmem => hslots other (List.mem_cons_of_mem _ hmem)

theorem or_getLast?_cons (start : Option Nat) (slot : Nat) (slots : List Nat) :
    (slot :: slots).getLast?.or start = slots.getLast?.or (some slot) := by
  cases h : slots.getLast? <;> simp [List.getLast?_cons, h]

theorem ne_getLast?_or {start : Option Nat} {head : Nat} {rest : List Nat}
    (hstart : ∀ other ∈ head :: rest, start ≠ some other) :
    start ≠ rest.getLast?.or (some head) := by
  cases hlast : rest.getLast? with
  | none => exact hstart head List.mem_cons_self
  | some last =>
      exact hstart last (List.mem_cons_of_mem _ (List.mem_of_getLast? hlast))

/-- The steps to and from a slot in the middle of a track. -/
theorem Track.steps {step : Option Nat → Option Nat} {start : Option Nat}
    {first second : List Nat} {slot : Nat}
    (htrack : Track step start (first ++ slot :: second)) :
    step (first.getLast?.or start) = some slot ∧
      step (some slot) = second.head? := by
  induction first generalizing start with
  | nil => exact ⟨htrack.1, step_of_track htrack.2⟩
  | cons head rest ih =>
      rw [or_getLast?_cons]
      exact ih htrack.2

/-- Leading the step to a slot past it takes the slot out of a track. -/
theorem Track.skip {step : Option Nat → Option Nat} {start : Option Nat}
    {first second : List Nat} {slot : Nat}
    (htrack : Track step start (first ++ slot :: second))
    (hnodup : (first ++ slot :: second).Nodup)
    (hstart : ∀ other ∈ first ++ slot :: second, start ≠ some other) :
    Track (Function.update step (first.getLast?.or start) second.head?)
      start (first ++ second) := by
  induction first generalizing start with
  | nil =>
      have hrest := htrack.2
      cases second with
      | nil => simp [Track]
      | cons next rest =>
          refine ⟨by simp, hrest.2.congr ?_ ?_⟩
          · rw [Function.update_of_ne]
            exact (hstart next (by simp)).symm
          · intro other hmem
            rw [Function.update_of_ne]
            exact (hstart other (by simp [hmem])).symm
  | cons head rest ih =>
      rw [or_getLast?_cons]
      have hhead : head ∉ rest ++ slot :: second :=
        (List.nodup_cons.mp hnodup).1
      refine ⟨?_, ih htrack.2 (List.nodup_cons.mp hnodup).2 ?_⟩
      · rw [Function.update_of_ne]
        · exact htrack.1
        · refine ne_getLast?_or fun other hmem => hstart other ?_
          exact List.mem_append_left _ hmem
      · intro other hmem heq
        exact hhead (Option.some.inj heq ▸ hmem)

/-- A slot put in front of a track. -/
theorem Track.cons {step other : Option Nat → Option Nat}
    {start : Option Nat} {slots : List Nat} {slot : Nat}
    (htrack : Track step start slots)
    (hstart : other start = some slot) (hslot : other (some slot) = slots.head?)
    (hslots : ∀ next ∈ slots, other (some next) = step (some next)) :
    Track other start (slot :: slots) := by
  refine ⟨hstart, ?_⟩
  cases slots with
  | nil => exact hslot
  | cons next rest =>
      refine ⟨hslot, htrack.2.congr (hslots next List.mem_cons_self) ?_⟩
      exact fun later hmem => hslots later (List.mem_cons_of_mem _ hmem)

/-- A slot put at the end of a track. -/
theorem Track.concat {step : Option Nat → Option Nat} {start : Option Nat}
    {slots : List Nat} {slot : Nat} (htrack : Track step start slots)
    (hslot : slot ∉ slots) (hnodup : slots.Nodup) (hne : start ≠ some slot)
    (hstart : ∀ other ∈ slots, start ≠ some other) :
    Track (Function.update (Function.update step (slots.getLast?.or start) (some slot))
      (some slot) none) start (slots ++ [slot]) := by
  induction slots generalizing start with
  | nil => simp [Track, Function.update_of_ne hne]
  | cons head rest ih =>
      rw [or_getLast?_cons]
      have hhead : head ∉ rest := (List.nodup_cons.mp hnodup).1
      refine ⟨?_, ih htrack.2 ?_ (List.nodup_cons.mp hnodup).2 ?_ ?_⟩
      · rw [Function.update_of_ne hne, Function.update_of_ne]
        · exact htrack.1
        · exact ne_getLast?_or hstart
      · exact fun hmem => hslot (List.mem_cons_of_mem _ hmem)
      · exact fun heq => hslot (by simp [Option.some.inj heq])
      · intro other hmem heq
        exact hhead (Option.some.inj heq ▸ hmem)

/-! ## The links of an access list -/

/-- The neighbour of a place on the way to the back; none stands for the header. -/
def next (list : AccessList α) : Option Nat → Option Nat
  | none => list.front
  | some slot => (list.node? slot).bind Node.after

def previous (list : AccessList α) : Option Nat → Option Nat
  | none => list.back
  | some slot => (list.node? slot).bind Node.before

@[simp]
theorem node?_modifyNode (list : AccessList α) (slot other : Nat) (f : Node α → Node α) :
    (list.modifyNode slot f).node? other =
      if slot = other then (list.node? other).map f else list.node? other := by
  by_cases h : slot = other
  · subst h
    cases hslot : list.slots[slot]? <;> simp [node?, modifyNode, Array.getElem?_modify, hslot]
  · simp [node?, modifyNode, Array.getElem?_modify, h]

@[simp]
theorem front_modifyNode (list : AccessList α) (slot : Nat) (f : Node α → Node α) :
    (list.modifyNode slot f).front = list.front := rfl

@[simp]
theorem back_modifyNode (list : AccessList α) (slot : Nat) (f : Node α → Node α) :
    (list.modifyNode slot f).back = list.back := rfl

@[simp]
theorem free_modifyNode (list : AccessList α) (slot : Nat) (f : Node α → Node α) :
    (list.modifyNode slot f).free = list.free := rfl

@[simp]
theorem size_modifyNode (list : AccessList α) (slot : Nat) (f : Node α → Node α) :
    (list.modifyNode slot f).size = list.size := rfl

@[simp]
theorem size_slots_modifyNode (list : AccessList α) (slot : Nat) (f : Node α → Node α) :
    (list.modifyNode slot f).slots.size = list.slots.size := by
  simp [modifyNode]

/-- A place is the header or a slot in use. -/
def IsPlace (list : AccessList α) (place : Option Nat) : Prop :=
  ∀ slot, place = some slot → (list.node? slot).isSome

theorem node?_unlink (list : AccessList α) (node : Node α) (slot : Nat) :
    (list.unlink node).node? slot = (list.node? slot).map fun n =>
      { n with
        after := if node.before = some slot then node.after else n.after
        before := if node.after = some slot then node.before else n.before } := by
  obtain ⟨value, before, after⟩ := node
  cases before with
  | none =>
      cases after with
      | none =>
          change list.node? slot = _
          simp
      | some a =>
          change (list.modifyNode a fun n => { n with before := none }).node? slot = _
          by_cases ha : a = slot <;> simp [ha]
  | some b =>
      cases after with
      | none =>
          change (list.modifyNode b fun n => { n with after := none }).node? slot = _
          by_cases hb : b = slot <;> simp [hb]
      | some a =>
          change ((list.modifyNode b fun n => { n with after := some a }).modifyNode a
            fun n => { n with before := some b }).node? slot = _
          by_cases ha : a = slot <;> by_cases hb : b = slot <;>
            simp [ha, hb, Function.comp_def]

theorem front_unlink (list : AccessList α) (node : Node α) :
    (list.unlink node).front =
      if node.before = none then node.after else list.front := by
  obtain ⟨value, before, after⟩ := node
  cases before <;> cases after <;> rfl

theorem back_unlink (list : AccessList α) (node : Node α) :
    (list.unlink node).back =
      if node.after = none then node.before else list.back := by
  obtain ⟨value, before, after⟩ := node
  cases before <;> cases after <;> rfl

@[simp]
theorem free_unlink (list : AccessList α) (node : Node α) :
    (list.unlink node).free = list.free := by
  obtain ⟨value, before, after⟩ := node
  cases before <;> cases after <;> rfl

@[simp]
theorem size_unlink (list : AccessList α) (node : Node α) :
    (list.unlink node).size = list.size := by
  obtain ⟨value, before, after⟩ := node
  cases before <;> cases after <;> rfl

@[simp]
theorem size_slots_unlink (list : AccessList α) (node : Node α) :
    (list.unlink node).slots.size = list.slots.size := by
  obtain ⟨value, before, after⟩ := node
  cases before <;> cases after <;> simp [unlink]

@[simp]
theorem get?_unlink (list : AccessList α) (node : Node α) (slot : Nat) :
    (list.unlink node).get? slot = list.get? slot := by
  simp [get?, node?_unlink, Function.comp_def]

theorem next_unlink (list : AccessList α) (node : Node α)
    (hbefore : list.IsPlace node.before) :
    (list.unlink node).next = Function.update list.next node.before node.after := by
  funext place
  cases place with
  | none => simp [next, front_unlink, Function.update_apply, eq_comm]
  | some slot =>
      cases hslot : list.node? slot with
      | none =>
          have hne : some slot ≠ node.before := fun heq => by
            simpa [hslot] using hbefore slot heq.symm
          simp [next, node?_unlink, Function.update_of_ne hne, hslot]
      | some n => simp [next, node?_unlink, Function.update_apply, hslot, eq_comm]

theorem previous_unlink (list : AccessList α) (node : Node α)
    (hafter : list.IsPlace node.after) :
    (list.unlink node).previous =
      Function.update list.previous node.after node.before := by
  funext place
  cases place with
  | none => simp [previous, back_unlink, Function.update_apply, eq_comm]
  | some slot =>
      cases hslot : list.node? slot with
      | none =>
          have hne : some slot ≠ node.after := fun heq => by
            simpa [hslot] using hafter slot heq.symm
          simp [previous, node?_unlink, Function.update_of_ne hne, hslot]
      | some n => simp [previous, node?_unlink, Function.update_apply, hslot, eq_comm]

theorem remove_eq {list : AccessList α} {slot : Nat} {node : Node α}
    (hnode : list.node? slot = some node) :
    list.remove slot =
      (some node.value,
        { list.unlink node with
          slots := (list.unlink node).slots.setIfInBounds slot none
          free := slot :: list.free
          size := list.size - 1 }) := by
  simp [remove, hnode]

theorem node?_remove {list : AccessList α} {slot : Nat} {node : Node α}
    (hnode : list.node? slot = some node) (other : Nat) :
    (list.remove slot).2.node? other =
      if other = slot then none else (list.unlink node).node? other := by
  rw [remove_eq hnode]
  by_cases hother : other = slot
  · by_cases hbound : slot < list.slots.size <;> simp [node?, hother, hbound]
  · simp [node?, hother, Ne.symm hother]

theorem touch_eq {list : AccessList α} {slot front : Nat} {node : Node α}
    (hfront : list.front ≠ some slot) (hnode : list.node? slot = some node)
    (hlinked : (list.unlink node).front = some front) :
    list.touch slot =
      { ((list.unlink node).modifyNode slot fun n =>
          { n with before := none, after := some front }).modifyNode front fun n =>
            { n with before := some slot } with
        front := some slot
        back := (list.unlink node).back.or (some slot) } := by
  simp [touch, hfront, hnode, hlinked]

theorem node?_touch {list : AccessList α} {slot front : Nat} {node : Node α}
    (hfront : list.front ≠ some slot) (hnode : list.node? slot = some node)
    (hlinked : (list.unlink node).front = some front) (hne : front ≠ slot) (other : Nat) :
    (list.touch slot).node? other =
      if other = slot then some ⟨node.value, none, some front⟩
      else ((list.unlink node).node? other).map fun n =>
        { n with before := if front = other then some slot else n.before } := by
  have hslots : (list.touch slot).node? other =
      (((list.unlink node).modifyNode slot fun n =>
          { n with before := none, after := some front }).modifyNode front fun n =>
            { n with before := some slot }).node? other := by
    rw [touch_eq hfront hnode hlinked]
    rfl
  rw [hslots, node?_modifyNode, node?_modifyNode]
  by_cases hother : other = slot
  · simp [hother, hne, node?_unlink, hnode]
  · by_cases hf : front = other <;> simp [hother, hf, Ne.symm hother]

theorem next_touch {list : AccessList α} {slot front : Nat} {node : Node α}
    (hfront : list.front ≠ some slot) (hnode : list.node? slot = some node)
    (hlinked : (list.unlink node).front = some front) (hne : front ≠ slot) :
    (list.touch slot).next =
      Function.update (Function.update (list.unlink node).next none (some slot))
        (some slot) (some front) := by
  funext place
  cases place with
  | none => simp [next, touch_eq hfront hnode hlinked]
  | some other =>
      have htouched := node?_touch hfront hnode hlinked hne
      by_cases hother : other = slot
      · simp [next, htouched, hother]
      · cases hold : (list.unlink node).node? other <;>
          simp [next, htouched, hother, hold]

theorem previous_touch {list : AccessList α} {slot front : Nat} {node : Node α}
    (hfront : list.front ≠ some slot) (hnode : list.node? slot = some node)
    (hlinked : (list.unlink node).front = some front) (hne : front ≠ slot)
    (hback : (list.unlink node).back ≠ none)
    (hlive : (list.unlink node).IsPlace (some front)) :
    (list.touch slot).previous =
      Function.update (Function.update (list.unlink node).previous (some front) (some slot))
        (some slot) none := by
  funext place
  cases place with
  | none =>
      obtain ⟨back, hback⟩ := Option.ne_none_iff_exists'.mp hback
      simp [previous, touch_eq hfront hnode hlinked, hback]
  | some other =>
      have htouched := node?_touch hfront hnode hlinked hne
      by_cases hother : other = slot
      · simp [previous, htouched, hother]
      · cases hold : (list.unlink node).node? other with
        | none =>
            have hfo : other ≠ front := fun heq => by
              simpa [heq ▸ hold] using hlive front rfl
            simp [previous, htouched, hother, hold, hfo]
        | some n =>
            simp [previous, htouched, hother, hold, Function.update_apply, eq_comm (a := other)]

def freshSlot (list : AccessList α) : Nat := list.free.headD list.slots.size

@[simp]
theorem push_fst (list : AccessList α) (value : α) :
    (list.push value).1 = list.freshSlot := by
  cases hfree : list.free <;> simp [push, store, freshSlot, hfree]

@[simp]
theorem front_push (list : AccessList α) (value : α) :
    (list.push value).2.front = some list.freshSlot := by
  rw [← push_fst list value]
  rfl

theorem back_push (list : AccessList α) (value : α) :
    (list.push value).2.back =
      if list.front = none then some list.freshSlot else list.back := by
  rw [← push_fst list value]
  cases hfront : list.front <;> cases hfree : list.free <;>
    simp [push, store, hfront, hfree]

@[simp]
theorem free_push (list : AccessList α) (value : α) :
    (list.push value).2.free = list.free.tail := by
  cases hfront : list.front <;> cases hfree : list.free <;>
    simp [push, store, hfront, hfree]

theorem size_slots_push (list : AccessList α) (value : α) :
    (list.push value).2.slots.size =
      if list.free = [] then list.slots.size + 1 else list.slots.size := by
  cases hfront : list.front <;> cases hfree : list.free <;>
    simp [push, store, hfront, hfree]

@[simp]
theorem size_push (list : AccessList α) (value : α) :
    (list.push value).2.size = list.size + 1 := rfl

theorem node?_store (list : AccessList α) (node : Node α)
    (hfree : ∀ slot ∈ list.free, slot < list.slots.size) (slot : Nat) :
    (list.store node).2.node? slot =
      if slot = list.freshSlot then some node else list.node? slot := by
  cases h : list.free with
  | nil =>
      by_cases hslot : slot = list.slots.size <;>
        simp [store, freshSlot, node?, h, hslot, Array.getElem?_push]
  | cons first rest =>
      have hfirst : first < list.slots.size := hfree first (by simp [h])
      by_cases hslot : slot = first
      · simp [store, freshSlot, node?, h, hslot, hfirst]
      · simp [store, freshSlot, node?, h, hslot, Ne.symm hslot]

theorem node?_push (list : AccessList α) (value : α)
    (hfree : ∀ slot ∈ list.free, slot < list.slots.size)
    (hfront : list.front ≠ some list.freshSlot) (slot : Nat) :
    (list.push value).2.node? slot =
      if slot = list.freshSlot then some ⟨value, none, list.front⟩
      else (list.node? slot).map fun n =>
        { n with before := if list.front = some slot then some list.freshSlot else n.before } := by
  have hpush := push_fst list value
  cases h : list.front with
  | none =>
      have hnode : (list.push value).2.node? slot =
          (list.store ⟨value, none, none⟩).2.node? slot := by
        simp only [push, h]
        rfl
      rw [hnode, node?_store list _ hfree]
      simp
  | some front =>
      have hnode : (list.push value).2.node? slot =
          ((list.store ⟨value, none, some front⟩).2.modifyNode front fun n =>
            { n with before := some list.freshSlot }).node? slot := by
        rw [← hpush]
        simp only [push, h]
        rfl
      have hne : front ≠ list.freshSlot := fun heq => hfront (by rw [h, heq])
      rw [hnode, node?_modifyNode, node?_store list _ hfree]
      by_cases hslot : slot = list.freshSlot
      · simp [hslot, hne]
      · by_cases hf : front = slot <;> simp [hslot, hf]

end TableRouting.AccessList
