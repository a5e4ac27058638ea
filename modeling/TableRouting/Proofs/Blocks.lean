import Mathlib.Data.List.Basic

/-!
# Blocks of a list

A list is cut into consecutive blocks of one size, and the last block may be shorter.
Only the size counts: where the blocks begin does not depend on the values.
-/

namespace TableRouting

variable {α : Type}

/-- Consecutive blocks of a size, the last one perhaps shorter.  A size of zero counts
as one. -/
def blocksOf (size : Nat) : List α → List (List α)
  | [] => []
  | value :: rest => (value :: rest.take (size - 1)) :: blocksOf size (rest.drop (size - 1))
termination_by values => values.length
decreasing_by
  rw [List.length_drop, List.length_cons]
  omega

variable {size : Nat}

@[simp] theorem blocksOf_nil : blocksOf size ([] : List α) = [] := by rw [blocksOf]

/-- What fits in a block is one block. -/
theorem blocksOf_of_length_le {values : List α} (hnonempty : values ≠ [])
    (hfits : values.length ≤ size) : blocksOf size values = [values] := by
  cases values with
  | nil => exact absurd rfl hnonempty
  | cons value rest =>
      have hrest : rest.length ≤ size - 1 := by
        rw [List.length_cons] at hfits
        omega
      rw [blocksOf, List.take_of_length_le hrest, List.drop_of_length_le hrest, blocksOf_nil]

/-- A full block comes off the front. -/
theorem blocksOf_append {full : List α} (hnonempty : full ≠ []) (hfull : full.length = size)
    (rest : List α) : blocksOf size (full ++ rest) = full :: blocksOf size rest := by
  cases full with
  | nil => exact absurd rfl hnonempty
  | cons value more =>
      have hmore : size - 1 = more.length := by
        rw [List.length_cons] at hfull
        omega
      rw [List.cons_append, blocksOf, hmore, List.take_left, List.drop_left]

theorem flatten_blocksOf (size : Nat) (values : List α) :
    (blocksOf size values).flatten = values := by
  induction values using blocksOf.induct size with
  | case1 => rw [blocksOf_nil, List.flatten_nil]
  | case2 value rest ih =>
      rw [blocksOf, List.flatten_cons, ih, List.cons_append, List.take_append_drop]

theorem ne_nil_of_mem_blocksOf {values block : List α} (hblock : block ∈ blocksOf size values) :
    block ≠ [] := by
  induction values using blocksOf.induct size with
  | case1 => simp at hblock
  | case2 value rest ih =>
      rw [blocksOf] at hblock
      rcases List.mem_cons.mp hblock with rfl | hlater
      · exact List.cons_ne_nil _ _
      · exact ih hlater

/-- No block is longer than the size. -/
theorem length_le_of_mem_blocksOf (hsize : 0 < size) {values block : List α}
    (hblock : block ∈ blocksOf size values) : block.length ≤ size := by
  induction values using blocksOf.induct size with
  | case1 => simp at hblock
  | case2 value rest ih =>
      rw [blocksOf] at hblock
      rcases List.mem_cons.mp hblock with rfl | hlater
      · rw [List.length_cons, List.length_take]
        omega
      · exact ih hlater

/-- There are as many blocks as it takes. -/
theorem length_blocksOf (hsize : 0 < size) (values : List α) :
    (blocksOf size values).length = (values.length + size - 1) / size := by
  induction values using blocksOf.induct size with
  | case1 =>
      rw [blocksOf_nil, List.length_nil, List.length_nil, Nat.zero_add,
        Nat.div_eq_of_lt (Nat.sub_one_lt_of_lt hsize)]
  | case2 value rest ih =>
      have hrest : (rest.length - (size - 1) + size - 1) / size = rest.length / size := by
        by_cases hlong : size - 1 ≤ rest.length
        · congr 1
          omega
        · rw [Nat.div_eq_of_lt (by omega), Nat.div_eq_of_lt (by omega)]
      have hfirst : rest.length + 1 + size - 1 = rest.length + size := by omega
      rw [blocksOf, List.length_cons, ih, List.length_drop, List.length_cons, hrest, hfirst,
        Nat.add_div_right _ hsize]

/-- Every block but the last is full. -/
theorem length_of_mem_dropLast_blocksOf (hsize : 0 < size) {values block : List α}
    (hblock : block ∈ (blocksOf size values).dropLast) : block.length = size := by
  induction values using blocksOf.induct size with
  | case1 => simp at hblock
  | case2 value rest ih =>
      rw [blocksOf] at hblock
      cases hlater : blocksOf size (rest.drop (size - 1)) with
      | nil =>
          rw [hlater] at hblock
          simp at hblock
      | cons next more =>
          rw [hlater, List.dropLast_cons_cons] at hblock
          rcases List.mem_cons.mp hblock with rfl | hmem
          · -- Something is left after this block, so nothing of it is missing.
            have hleft : rest.drop (size - 1) ≠ [] := by
              intro hnone
              rw [hnone, blocksOf_nil] at hlater
              exact nomatch hlater
            have hlong : size - 1 < rest.length := by
              rw [Ne, List.drop_eq_nil_iff] at hleft
              omega
            rw [List.length_cons, List.length_take]
            omega
          · rw [hlater] at ih
            exact ih hmem

end TableRouting
