/-!
# Access lists

A list in order of access with constant-time insertion, removal and moving to the
front. The nodes lie in slots and are linked by slot numbers in both directions,
so a slot is a stable name for an entry while it lives. A freed slot is used
again, the one freed last first. The front is the most recently used entry.
-/

namespace TableRouting

/-- An entry of an access list and its neighbours: `before` is nearer the front. -/
structure AccessList.Node (α : Type) where
  value : α
  before : Option Nat
  after : Option Nat
  deriving Repr

structure AccessList (α : Type) where
  slots : Array (Option (AccessList.Node α)) := #[]
  /-- The unused slots, the one freed last in front. -/
  free : List Nat := []
  front : Option Nat := none
  back : Option Nat := none
  size : Nat := 0
  deriving Repr

namespace AccessList

variable {α : Type}

def node? (list : AccessList α) (slot : Nat) : Option (Node α) :=
  (list.slots[slot]?).join

def modifyNode (list : AccessList α) (slot : Nat) (f : Node α → Node α) : AccessList α :=
  { list with slots := list.slots.modify slot (·.map f) }

def get? (list : AccessList α) (slot : Nat) : Option α :=
  (list.node? slot).map Node.value

def modify (list : AccessList α) (slot : Nat) (f : α → α) : AccessList α :=
  list.modifyNode slot fun node => { node with value := f node.value }

def isEmpty (list : AccessList α) : Bool := list.size == 0

/-- Store a node in a free slot, or in a new one. Returns the slot. -/
def store (list : AccessList α) (node : Node α) : Nat × AccessList α :=
  match list.free with
  | slot :: free => (slot, { list with slots := list.slots.setIfInBounds slot (some node), free })
  | [] => (list.slots.size, { list with slots := list.slots.push (some node) })

def push (list : AccessList α) (value : α) : Nat × AccessList α :=
  let (slot, stored) := list.store ⟨value, none, list.front⟩
  let linked := match list.front with
    | some front => stored.modifyNode front fun node => { node with before := some slot }
    | none => { stored with back := some slot }
  (slot, { linked with front := some slot, size := list.size + 1 })

def unlink (list : AccessList α) (node : Node α) : AccessList α :=
  let list := match node.before with
    | some before => list.modifyNode before fun n => { n with after := node.after }
    | none => { list with front := node.after }
  match node.after with
  | some after => list.modifyNode after fun n => { n with before := node.before }
  | none => { list with back := node.before }

/-- Move an entry to the front. A slot without an entry changes nothing. -/
def touch (list : AccessList α) (slot : Nat) : AccessList α :=
  if list.front = some slot then list
  else
    match list.node? slot with
    | none => list
    | some node =>
      let list := list.unlink node
      let front := list.front
      let list := list.modifyNode slot fun n => { n with before := none, after := front }
      let list := match front with
        | some front => list.modifyNode front fun n => { n with before := some slot }
        | none => list
      { list with front := some slot, back := list.back.or (some slot) }

def remove (list : AccessList α) (slot : Nat) : Option α × AccessList α :=
  match list.node? slot with
  | none => (none, list)
  | some node =>
    let list := list.unlink node
    (some node.value,
      { list with
        slots := list.slots.setIfInBounds slot none
        free := slot :: list.free
        size := list.size - 1 })

def back? (list : AccessList α) : Option (Nat × α) :=
  list.back.bind fun slot => (list.get? slot).map (slot, ·)

def popBack (list : AccessList α) : Option α × AccessList α :=
  match list.back with
  | none => (none, list)
  | some slot => list.remove slot

/-- The entries met from a slot on, in at most `fuel` steps. -/
def walk (list : AccessList α) : Nat → Option Nat → List (Nat × α)
  | 0, _ => []
  | _ + 1, none => []
  | fuel + 1, some slot =>
    match list.node? slot with
    | none => []
    | some node => (slot, node.value) :: list.walk fuel node.after

/-- The entries with their slots, most recently used first. There are no more
entries than slots. -/
def entries (list : AccessList α) : List (Nat × α) :=
  list.walk list.slots.size list.front

def toList (list : AccessList α) : List α := list.entries.map Prod.snd

/-- Remove every entry. Returns the values, most recently used first; the slots
are numbered from zero again. -/
def drain (list : AccessList α) : List α × AccessList α := (list.toList, {})

end AccessList

end TableRouting
