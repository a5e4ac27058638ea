import Std.Data.HashMap
import Std.Data.HashSet

/-!
# Grouping by key

A list of keyed values is split into one list per key. The keys keep the order of
their first appearance, and the values of a key keep theirs. One pass fills the
lists and one finds the keys, so that the number of keys does not matter; what
comes out is the plain description of it, `group_eq`.
-/

namespace TableRouting.Grouping

variable {κ α : Type} [BEq κ] [Hashable κ]

def collect (pairs : List (κ × α)) : Std.HashMap κ (List α) :=
  pairs.foldr (fun pair lists => lists.insert pair.1 (pair.2 :: lists.getD pair.1 [])) {}

/-- The keys that were not seen before, each once, in the order of their first
appearance. -/
def newKeys (seen : Std.HashSet κ) : List κ → List κ
  | [] => []
  | key :: rest =>
    if seen.contains key then newKeys seen rest
    else key :: newKeys (seen.insert key) rest

/-- One list of values per key. -/
def group (pairs : List (κ × α)) : List (κ × List α) :=
  let lists := collect pairs
  (newKeys {} (pairs.map Prod.fst)).map fun key => (key, lists.getD key [])

variable [LawfulBEq κ]

theorem getD_collect (pairs : List (κ × α)) (key : κ) :
    (collect pairs).getD key [] = (pairs.filter fun pair => pair.1 == key).map Prod.snd := by
  induction pairs with
  | nil => simp [collect]
  | cons pair rest ih =>
    simp only [collect, List.foldr_cons] at ih ⊢
    rw [Std.HashMap.getD_insert]
    by_cases h : pair.1 = key
    · subst h
      simp [ih]
    · simp [h, ih]

theorem newKeys_eq (seen : Std.HashSet κ) (keys : List κ) :
    newKeys seen keys = (keys.filter fun key => !seen.contains key).eraseDups := by
  induction keys generalizing seen with
  | nil => simp [newKeys]
  | cons key rest ih =>
    by_cases h : seen.contains key
    · simp [newKeys, h, ih]
    · simp only [newKeys, h, Bool.false_eq_true, if_false, ih, Bool.not_false, List.filter_cons,
        if_true, List.eraseDups_cons, List.filter_filter, Std.HashSet.contains_insert,
        Bool.not_or]
      congr 3
      funext other
      rw [Bool.beq_comm]

/-- The keys appear once each, in the order of their first appearance, and each has
its own values in their order. -/
theorem group_eq (pairs : List (κ × α)) :
    group pairs = (pairs.map Prod.fst).eraseDups.map fun key =>
      (key, (pairs.filter fun pair => pair.1 == key).map Prod.snd) := by
  have h : ((pairs.map Prod.fst).filter fun _ => true) = pairs.map Prod.fst := by
    rw [List.filter_eq_self]
    simp
  simp [group, newKeys_eq, getD_collect, h]

end TableRouting.Grouping
