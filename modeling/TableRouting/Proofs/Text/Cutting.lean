import TableRouting.Text.Cut

/-!
# Cutting what was joined

A list without separators is one piece, and a separator cuts a list into the pieces before
it and those after it.
-/

namespace TableRouting.Text

variable {α : Type} [DecidableEq α]

theorem cutFrom_append (sep : α) (piece first second : List α) :
    cutFrom sep piece (first ++ sep :: second) = cutFrom sep piece first ++ cut sep second := by
  induction first generalizing piece with
  | nil => simp [cutFrom, cut]
  | cons x rest ih =>
      rw [List.cons_append, cutFrom, cutFrom]
      split
      · rw [ih, List.cons_append]
      · exact ih (x :: piece)

theorem cut_append (sep : α) (first second : List α) :
    cut sep (first ++ sep :: second) = cut sep first ++ cut sep second :=
  cutFrom_append sep [] first second

theorem cutFrom_of_not_mem {sep : α} {list : List α} (hsep : sep ∉ list) (piece : List α) :
    cutFrom sep piece list = [piece.reverse ++ list] := by
  induction list generalizing piece with
  | nil => rw [cutFrom, List.append_nil]
  | cons x rest ih =>
      rw [cutFrom, if_neg (Ne.symm (List.ne_of_not_mem_cons hsep)),
        ih (List.not_mem_of_not_mem_cons hsep), List.reverse_cons, List.append_assoc]
      rfl

theorem cut_of_not_mem {sep : α} {list : List α} (hsep : sep ∉ list) : cut sep list = [list] :=
  cutFrom_of_not_mem hsep []

end TableRouting.Text
