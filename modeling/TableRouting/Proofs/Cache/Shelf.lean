import TableRouting.Proofs.Cache.AccessOrder

/-!
# An access list as a plain list

The simplest account of an access list: a plain list of slots and values, most recently
used first, with the slots that were freed and the number of slots there are.  There are
no nodes and no links, and a slot is looked for everywhere.  An access list answers
whatever is asked of it as this list does, and its links never lead astray.
-/

namespace TableRouting

inductive AccessCommand (α : Type) where
  | push (value : α)
  | touch (slot : Nat)
  | remove (slot : Nat)
  | get (slot : Nat)
  /-- Change the value in a slot where it is. -/
  | modify (slot : Nat) (f : α → α)
  | back
  | popBack
  | drain

inductive AccessAnswer (α : Type) where
  | slot (slot : Nat)
  | value (value : Option α)
  | entry (entry : Option (Nat × α))
  | values (values : List α)
  | nothing
  deriving DecidableEq

variable {α : Type}

namespace AccessList

def perform (list : AccessList α) : AccessCommand α → AccessAnswer α × AccessList α
  | .push value =>
    let (slot, list) := list.push value
    (.slot slot, list)
  | .touch slot => (.nothing, list.touch slot)
  | .remove slot =>
    let (value, list) := list.remove slot
    (.value value, list)
  | .get slot => (.value (list.get? slot), list)
  | .modify slot f => (.value (list.get? slot), list.modify slot f)
  | .back => (.entry list.back?, list)
  | .popBack =>
    let (value, list) := list.popBack
    (.value value, list)
  | .drain =>
    let (values, list) := list.drain
    (.values values, list)

def performAll (list : AccessList α) :
    List (AccessCommand α) → List (AccessAnswer α) × AccessList α
  | [] => ([], list)
  | command :: rest =>
    let (answer, list) := list.perform command
    let (answers, list) := list.performAll rest
    (answer :: answers, list)

end AccessList

/-- A plain list of slots and values, most recently used first. -/
structure Shelf (α : Type) where
  entries : List (Nat × α) := []
  /-- The slots that are free again, the one freed last in front. -/
  freed : List Nat := []
  /-- How many slots there are. -/
  issued : Nat := 0

namespace Shelf

def slots (shelf : Shelf α) : List Nat := shelf.entries.map Prod.fst

def find? (shelf : Shelf α) (slot : Nat) : Option (Nat × α) :=
  shelf.entries.find? fun entry => entry.1 = slot

def others (shelf : Shelf α) (slot : Nat) : List (Nat × α) :=
  shelf.entries.filter fun entry => entry.1 ≠ slot

/-- Put a value in front, in the slot freed last, or in a new one if none is free. -/
def push (shelf : Shelf α) (value : α) : Nat × Shelf α :=
  match shelf.freed with
  | slot :: freed => (slot, { shelf with entries := (slot, value) :: shelf.entries, freed })
  | [] =>
    (shelf.issued,
      { shelf with
        entries := (shelf.issued, value) :: shelf.entries
        issued := shelf.issued + 1 })

/-- Take an entry out and free its slot. -/
def remove (shelf : Shelf α) (slot : Nat) : Option α × Shelf α :=
  match shelf.find? slot with
  | some (_, value) =>
    (some value, { shelf with entries := shelf.others slot, freed := slot :: shelf.freed })
  | none => (none, shelf)

def touch (shelf : Shelf α) (slot : Nat) : Shelf α :=
  match shelf.find? slot with
  | some entry => { shelf with entries := entry :: shelf.others slot }
  | none => shelf

def popBack (shelf : Shelf α) : Option α × Shelf α :=
  match shelf.entries.getLast? with
  | some (slot, value) =>
    (some value,
      { shelf with entries := shelf.entries.dropLast, freed := slot :: shelf.freed })
  | none => (none, shelf)

def perform (shelf : Shelf α) : AccessCommand α → AccessAnswer α × Shelf α
  | .push value =>
    let (slot, shelf) := shelf.push value
    (.slot slot, shelf)
  | .touch slot => (.nothing, shelf.touch slot)
  | .remove slot =>
    let (value, shelf) := shelf.remove slot
    (.value value, shelf)
  | .get slot => (.value ((shelf.find? slot).map Prod.snd), shelf)
  | .modify slot f =>
    (.value ((shelf.find? slot).map Prod.snd),
      { shelf with
        entries := shelf.entries.map fun entry =>
          if entry.1 = slot then (entry.1, f entry.2) else entry })
  | .back => (.entry shelf.entries.getLast?, shelf)
  | .popBack =>
    let (value, shelf) := shelf.popBack
    (.value value, shelf)
  | .drain => (.values (shelf.entries.map Prod.snd), {})

def performAll (shelf : Shelf α) : List (AccessCommand α) → List (AccessAnswer α) × Shelf α
  | [] => ([], shelf)
  | command :: rest =>
    let (answer, shelf) := shelf.perform command
    let (answers, shelf) := shelf.performAll rest
    (answer :: answers, shelf)

variable {shelf : Shelf α} {newer older : List (Nat × α)} {slot : Nat} {value : α}

/-- An entry is found by its slot, and the others are those before and after it. -/
theorem find?_of_entries (hentries : shelf.entries = newer ++ (slot, value) :: older)
    (hnodup : shelf.slots.Nodup) :
    shelf.find? slot = some (slot, value) ∧ shelf.others slot = newer ++ older := by
  rw [slots, hentries] at hnodup
  rw [find?, others, hentries]
  exact find?_filter_of_nodup Prod.fst hnodup

theorem find?_eq_none (hslot : slot ∉ shelf.slots) : shelf.find? slot = none := by
  rw [find?, List.find?_eq_none]
  intro entry hentry
  simpa using fun heq : entry.1 = slot => hslot (heq ▸ List.mem_map_of_mem hentry)

/-- A slot in use is that of an entry with others before and after it. -/
theorem exists_entries (hslot : slot ∈ shelf.slots) :
    ∃ newer value older, shelf.entries = newer ++ (slot, value) :: older := by
  obtain ⟨⟨other, value⟩, hentry, rfl⟩ := List.mem_map.mp hslot
  obtain ⟨newer, older, hentries⟩ := List.append_of_mem hentry
  exact ⟨newer, value, older, hentries⟩

end Shelf

namespace AccessList

variable {list : AccessList α} {shelf : Shelf α} {slot : Nat}

theorem freshSlot_cons {free : List Nat} (hfree : list.free = slot :: free) :
    list.freshSlot = slot := by
  rw [freshSlot, hfree]
  rfl

theorem freshSlot_nil (hfree : list.free = []) : list.freshSlot = list.slots.size := by
  rw [freshSlot, hfree]
  rfl

theorem free_remove {node : Node α} (hnode : list.node? slot = some node) :
    (list.remove slot).2.free = slot :: list.free := by
  rw [remove_eq hnode]

theorem size_slots_remove (list : AccessList α) (slot : Nat) :
    (list.remove slot).2.slots.size = list.slots.size := by
  rw [remove]
  split <;> simp

/-- A slot that is not in use has nothing to move. -/
theorem touch_of_node?_eq_none (hnode : list.node? slot = none) : list.touch slot = list := by
  simp [touch, hnode]

theorem remove_of_node?_eq_none (hnode : list.node? slot = none) :
    list.remove slot = (none, list) := by
  simp [remove, hnode]

/-- Moving an entry to the front keeps the slots that are free, and makes no new one. -/
theorem keeps_touch (list : AccessList α) (slot : Nat) :
    (list.touch slot).free = list.free ∧
      (list.touch slot).slots.size = list.slots.size := by
  rw [touch]
  split
  · exact ⟨rfl, rfl⟩
  · split
    · exact ⟨rfl, rfl⟩
    · dsimp only
      split <;> simp

/-- An access list stands for a plain list with its slots. -/
structure Shelved (list : AccessList α) (shelf : Shelf α) : Prop where
  order : Represents list shelf.entries
  free : list.free = shelf.freed
  issued : list.slots.size = shelf.issued

namespace Shelved

theorem empty : Shelved ({} : AccessList α) {} := ⟨.empty, rfl, rfl⟩

theorem node?_eq_none (hshelved : Shelved list shelf) (hslot : slot ∉ shelf.slots) :
    list.node? slot = none :=
  get?_eq_none.mp (hshelved.order.get?_eq_none_iff.mpr hslot)

theorem get?_eq (hshelved : Shelved list shelf) (slot : Nat) :
    list.get? slot = (shelf.find? slot).map Prod.snd := by
  by_cases hslot : slot ∈ shelf.slots
  · obtain ⟨newer, value, older, hentries⟩ := Shelf.exists_entries hslot
    rw [(Shelf.find?_of_entries hentries hshelved.order.nodup).1]
    exact (hshelved.order.live slot value).mpr (by simp [hentries])
  · rw [Shelf.find?_eq_none hslot]
    exact hshelved.order.get?_eq_none_iff.mpr hslot

theorem push (hshelved : Shelved list shelf) (value : α) :
    (list.push value).1 = (shelf.push value).1 ∧
      Shelved (list.push value).2 (shelf.push value).2 := by
  have horder := hshelved.order.push value
  have hfreed := free_push list value
  have hissued := size_slots_push list value
  rw [push_fst, Shelf.push]
  cases hfree : shelf.freed with
  | nil =>
      have hnil : list.free = [] := hshelved.free.trans hfree
      rw [freshSlot_nil hnil, hshelved.issued] at horder ⊢
      rw [if_pos hnil, hshelved.issued] at hissued
      rw [hnil] at hfreed
      exact ⟨rfl, horder, hfreed, hissued⟩
  | cons slot free =>
      have hcons : list.free = slot :: free := hshelved.free.trans hfree
      rw [freshSlot_cons hcons] at horder ⊢
      rw [if_neg (by simp [hcons]), hshelved.issued] at hissued
      rw [hcons] at hfreed
      exact ⟨rfl, horder, hfreed, hissued⟩

theorem touch (hshelved : Shelved list shelf) (slot : Nat) :
    Shelved (list.touch slot) (shelf.touch slot) := by
  by_cases hslot : slot ∈ shelf.slots
  · obtain ⟨newer, value, older, hentries⟩ := Shelf.exists_entries hslot
    obtain ⟨hfind, hothers⟩ := Shelf.find?_of_entries hentries hshelved.order.nodup
    obtain ⟨hfree, hissued⟩ := list.keeps_touch slot
    simp only [Shelf.touch, hfind, hothers]
    have horder := hshelved.order
    rw [hentries] at horder
    exact ⟨horder.touch, hfree.trans hshelved.free, hissued.trans hshelved.issued⟩
  · simp only [Shelf.touch, Shelf.find?_eq_none hslot]
    rwa [touch_of_node?_eq_none (hshelved.node?_eq_none hslot)]

/-- Removing the entry of a slot. -/
theorem remove_entry (hshelved : Shelved list shelf) {newer older : List (Nat × α)} {value : α}
    (hentries : shelf.entries = newer ++ (slot, value) :: older) :
    (list.remove slot).1 = some value ∧
      Shelved (list.remove slot).2
        { shelf with entries := newer ++ older, freed := slot :: shelf.freed } := by
  have horder := hshelved.order
  rw [hentries] at horder
  have hfree := free_remove horder.node?_eq
  rw [hshelved.free] at hfree
  obtain ⟨hvalue, hremoved⟩ := horder.remove
  exact ⟨hvalue, hremoved, hfree, (size_slots_remove list slot).trans hshelved.issued⟩

theorem remove (hshelved : Shelved list shelf) (slot : Nat) :
    (list.remove slot).1 = (shelf.remove slot).1 ∧
      Shelved (list.remove slot).2 (shelf.remove slot).2 := by
  by_cases hslot : slot ∈ shelf.slots
  · obtain ⟨newer, value, older, hentries⟩ := Shelf.exists_entries hslot
    obtain ⟨hfind, hothers⟩ := Shelf.find?_of_entries hentries hshelved.order.nodup
    simp only [Shelf.remove, hfind, hothers]
    exact hshelved.remove_entry hentries
  · simp only [Shelf.remove, Shelf.find?_eq_none hslot]
    rw [remove_of_node?_eq_none (hshelved.node?_eq_none hslot)]
    exact ⟨rfl, hshelved⟩

theorem popBack (hshelved : Shelved list shelf) :
    list.popBack.1 = shelf.popBack.1 ∧ Shelved list.popBack.2 shelf.popBack.2 := by
  rw [AccessList.popBack, hshelved.order.back_eq, List.getLast?_map, Shelf.popBack]
  rcases List.eq_nil_or_concat' shelf.entries with hnil | ⟨newer, ⟨slot, value⟩, hentries⟩
  · rw [hnil]
    exact ⟨rfl, hshelved⟩
  · simp only [hentries, List.getLast?_concat, Option.map_some, List.dropLast_concat]
    obtain ⟨hvalue, hremoved⟩ := hshelved.remove_entry hentries
    rw [List.append_nil] at hremoved
    exact ⟨hvalue, hremoved⟩

theorem modify (hshelved : Shelved list shelf) (slot : Nat) (f : α → α) :
    Shelved (list.modify slot f)
      { shelf with
        entries := shelf.entries.map fun entry =>
          if entry.1 = slot then (entry.1, f entry.2) else entry } where
  order := hshelved.order.modify slot f
  free := hshelved.free
  issued := (size_slots_modifyNode list slot _).trans hshelved.issued

/-- A command is answered as by the plain list, and leaves what the plain list has then. -/
theorem perform (hshelved : Shelved list shelf) (command : AccessCommand α) :
    (list.perform command).1 = (shelf.perform command).1 ∧
      Shelved (list.perform command).2 (shelf.perform command).2 := by
  cases command with
  | push value =>
      obtain ⟨hslot, hpushed⟩ := hshelved.push value
      exact ⟨congrArg AccessAnswer.slot hslot, hpushed⟩
  | touch slot => exact ⟨rfl, hshelved.touch slot⟩
  | remove slot =>
      obtain ⟨hvalue, hremoved⟩ := hshelved.remove slot
      exact ⟨congrArg AccessAnswer.value hvalue, hremoved⟩
  | get slot => exact ⟨congrArg AccessAnswer.value (hshelved.get?_eq slot), hshelved⟩
  | modify slot f =>
      exact ⟨congrArg AccessAnswer.value (hshelved.get?_eq slot), hshelved.modify slot f⟩
  | back => exact ⟨congrArg AccessAnswer.entry hshelved.order.back?_eq, hshelved⟩
  | popBack =>
      obtain ⟨hvalue, hpopped⟩ := hshelved.popBack
      exact ⟨congrArg AccessAnswer.value hvalue, hpopped⟩
  | drain =>
      refine ⟨congrArg AccessAnswer.values ?_, .empty⟩
      rw [toList, hshelved.order.entries_eq]

theorem performAll (hshelved : Shelved list shelf) (commands : List (AccessCommand α)) :
    (list.performAll commands).1 = (shelf.performAll commands).1 ∧
      Shelved (list.performAll commands).2 (shelf.performAll commands).2 := by
  induction commands generalizing list shelf with
  | nil => exact ⟨rfl, hshelved⟩
  | cons command rest ih =>
      obtain ⟨hanswer, hperformed⟩ := hshelved.perform command
      obtain ⟨hanswers, hlast⟩ := ih hperformed
      exact ⟨congrArg₂ List.cons hanswer hanswers, hlast⟩

end Shelved

/-- The links, the slots and the size of an access list are those of a plain list. -/
structure Mirrors (list : AccessList α) (shelf : Shelf α) : Prop where
  /-- What is met from the front on. -/
  entries : list.entries = shelf.entries
  /-- The links to the back visit the slots in turn and then end. -/
  forward : Track list.next none shelf.slots
  /-- The links to the front visit them the other way round. -/
  backward : Track list.previous none shelf.slots.reverse
  distinct : shelf.slots.Nodup
  size : list.size = shelf.entries.length
  get? : ∀ slot, list.get? slot = (shelf.find? slot).map Prod.snd
  /-- A slot that is handed out is not in use. -/
  fresh : ∀ value, (list.push value).1 ∉ shelf.slots
  /-- A slot that is not in use changes nothing. -/
  stale : ∀ slot, slot ∉ shelf.slots → list.touch slot = list ∧ list.remove slot = (none, list)
  freed : list.free = shelf.freed
  freed_nodup : shelf.freed.Nodup
  /-- The free slots are the unused ones. -/
  unused : ∀ slot, slot ∈ shelf.freed ↔ slot < list.slots.size ∧ slot ∉ shelf.slots
  /-- Each link leads to a slot in use. -/
  linked : ∀ place slot, list.next place = some slot ∨ list.previous place = some slot →
    slot < list.slots.size ∧ slot ∈ shelf.slots

/-- A step along a track, or from elsewhere if that leads nowhere, leads onto the track. -/
theorem Track.mem_of_step {step : Option Nat → Option Nat} {slots : List Nat}
    (htrack : Track step none slots) {place : Option Nat} {slot : Nat}
    (hplace : ∀ other, place = some other → other ∈ slots) (hstep : step place = some slot) :
    slot ∈ slots := by
  cases place with
  | none => exact List.mem_of_mem_head? ((step_of_track htrack).symm.trans hstep)
  | some other =>
      obtain ⟨before, after, rfl⟩ := List.append_of_mem (hplace other rfl)
      have hhead := htrack.steps.2.symm.trans hstep
      exact List.mem_append_right _ (List.mem_cons_of_mem _ (List.mem_of_mem_head? hhead))

theorem Shelved.mem_of_link (hshelved : Shelved list shelf) {place : Option Nat}
    (hlink : list.next place = some slot ∨ list.previous place = some slot) :
    slot ∈ shelf.slots := by
  have hplace : ∀ other, place = some other → other ∈ shelf.slots := by
    rintro other rfl
    by_contra hother
    simp [next, previous, hshelved.node?_eq_none hother] at hlink
  rcases hlink with hnext | hprevious
  · exact hshelved.order.forward.mem_of_step hplace hnext
  · have hreverse := hshelved.order.backward.mem_of_step
      (fun other heq => List.mem_reverse.mpr (hplace other heq)) hprevious
    exact List.mem_reverse.mp hreverse

theorem Shelved.lt_size (hshelved : Shelved list shelf) (hslot : slot ∈ shelf.slots) :
    slot < list.slots.size := by
  obtain ⟨⟨other, value⟩, hentry, rfl⟩ := List.mem_map.mp hslot
  exact lt_size_of_get? ((hshelved.order.live other value).mpr hentry)

theorem Shelved.mirrors (hshelved : Shelved list shelf) : Mirrors list shelf where
  entries := hshelved.order.entries_eq
  forward := hshelved.order.forward
  backward := hshelved.order.backward
  distinct := hshelved.order.nodup
  size := hshelved.order.size
  get? := hshelved.get?_eq
  fresh := fun value => by
    rw [push_fst]
    exact hshelved.order.freshSlot_not_mem
  stale := fun slot hslot =>
    have hnode := hshelved.node?_eq_none hslot
    ⟨touch_of_node?_eq_none hnode, remove_of_node?_eq_none hnode⟩
  freed := hshelved.free
  freed_nodup := hshelved.free ▸ hshelved.order.free_nodup
  unused := fun slot => by
    rw [← hshelved.free, hshelved.order.free, hshelved.order.get?_eq_none_iff]
    rfl
  linked := fun _ _ hlink =>
    have hslot := hshelved.mem_of_link hlink
    ⟨hshelved.lt_size hslot, hslot⟩

/-- Whatever is asked of an access list, in whatever order and with whatever slots, it
answers as a plain list does, and mirrors that list afterwards. -/
theorem performAll_mirrors (commands : List (AccessCommand α)) :
    (({} : AccessList α).performAll commands).1 = (({} : Shelf α).performAll commands).1 ∧
      Mirrors (({} : AccessList α).performAll commands).2
        (({} : Shelf α).performAll commands).2 := by
  obtain ⟨hanswers, hshelved⟩ := Shelved.empty.performAll commands
  exact ⟨hanswers, hshelved.mirrors⟩

example :
    (({} : AccessList String).performAll
      [.push "a", .push "b", .push "c", .remove 1, .touch 1, .touch 0, .push "d", .back,
        .drain]).1 =
      [.slot 0, .slot 1, .slot 2, .value (some "b"), .nothing, .nothing, .slot 1,
        .entry (some (2, "c")), .values ["d", "a", "c"]] := by
  decide

end AccessList

end TableRouting
