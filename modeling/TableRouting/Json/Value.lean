import TableRouting.Json.Number

/-!
# JSON values

The body of a record is an arbitrary JSON value. An object is a list of fields;
reading keeps it sorted by key, in code-point order, with one field per key.
-/

namespace TableRouting

inductive Json where
  | null
  | bool (b : Bool)
  | num (n : Json.Number)
  | str (s : String)
  | arr (items : List Json)
  | obj (fields : List (String × Json))
  deriving Repr, Inhabited

namespace Json

/-- Insert into a list sorted by key; an entry with the same key is replaced. -/
def insertSorted {α : Type} (key : String) (value : α) : List (String × α) → List (String × α)
  | [] => [(key, value)]
  | (k, v) :: rest =>
    if key < k then (key, value) :: (k, v) :: rest
    else if key = k then (key, value) :: rest
    else (k, v) :: insertSorted key value rest

def lookup? {α : Type} (key : String) : List (String × α) → Option α
  | [] => none
  | (k, v) :: rest => if k = key then some v else lookup? key rest

@[simp] theorem lookup?_nil {α : Type} (key : String) : lookup? (α := α) key [] = none := rfl

/-- Looking up what was just inserted finds it. -/
@[simp] theorem lookup?_insertSorted_self {α : Type} (key : String) (value : α)
    (entries : List (String × α)) : lookup? key (insertSorted key value entries) = some value := by
  induction entries with
  | nil => simp [insertSorted, lookup?]
  | cons entry rest ih =>
    obtain ⟨k, v⟩ := entry
    by_cases hlt : key < k
    · simp [insertSorted, lookup?, hlt]
    · by_cases heq : key = k
      · simp [insertSorted, lookup?, heq]
      · simp [insertSorted, lookup?, hlt, heq, Ne.symm heq, ih]

/-- An insertion leaves the entries of the other keys alone. -/
theorem lookup?_insertSorted_of_ne {α : Type} {key other : String} (h : other ≠ key) (value : α)
    (entries : List (String × α)) :
    lookup? other (insertSorted key value entries) = lookup? other entries := by
  induction entries with
  | nil => simp [insertSorted, lookup?, Ne.symm h]
  | cons entry rest ih =>
    obtain ⟨k, v⟩ := entry
    by_cases hlt : key < k
    · simp [insertSorted, lookup?, hlt, Ne.symm h]
    · by_cases heq : key = k
      · subst heq
        simp [insertSorted, lookup?, Ne.symm h]
      · simp [insertSorted, lookup?, hlt, heq, ih]

/-- The value of a field; only an object has fields. -/
def get? (key : String) : Json → Option Json
  | .obj fields => lookup? key fields
  | _ => none

def string? : Json → Option String
  | .str s => some s
  | _ => none

def bool? : Json → Option Bool
  | .bool b => some b
  | _ => none

def array? : Json → Option (List Json)
  | .arr items => some items
  | _ => none

def object? : Json → Option (List (String × Json))
  | .obj fields => some fields
  | _ => none

def ofNat (n : Nat) : Json := .num (.integer n)

end Json

end TableRouting
