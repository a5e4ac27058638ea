/-!
# Cutting lists at separators

Paths are cut at slashes and files at line ends. A list with `n` separators has
`n + 1` pieces, none of which holds a separator.
-/

namespace TableRouting.Text

variable {α : Type} [DecidableEq α]

/-- Cut at every separator, with the current piece kept last element first. -/
def cutFrom (sep : α) (piece : List α) : List α → List (List α)
  | [] => [piece.reverse]
  | x :: rest =>
    if x = sep then piece.reverse :: cutFrom sep [] rest else cutFrom sep (x :: piece) rest

/-- Cut a list at every separator. -/
def cut (sep : α) (list : List α) : List (List α) := cutFrom sep [] list

@[simp] theorem cut_nil (sep : α) : cut sep [] = [[]] := rfl

theorem cutFrom_ne_nil (sep : α) (piece list : List α) : cutFrom sep piece list ≠ [] := by
  induction list generalizing piece with
  | nil => simp [cutFrom]
  | cons x rest ih =>
    by_cases h : x = sep
    · simp [cutFrom, h]
    · simp [cutFrom, h, ih]

end TableRouting.Text
