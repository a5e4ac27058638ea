import Mathlib.Data.List.Forall2

/-!
# Lists matched place by place

What a member of one list says of the member of another in the same place.
-/

namespace TableRouting

variable {α β : Type}

theorem exists_left_of_forall₂ {R : α → β → Prop} {left : List α} {right : List β}
    (hforall : List.Forall₂ R left right) {second : β} (hsecond : second ∈ right) :
    ∃ first ∈ left, R first second := by
  induction hforall with
  | nil => exact absurd hsecond List.not_mem_nil
  | cons hfirst _ ih =>
      rcases List.mem_cons.mp hsecond with rfl | hlater
      · exact ⟨_, List.mem_cons_self, hfirst⟩
      · obtain ⟨first, hmem, hrelated⟩ := ih hlater
        exact ⟨first, List.mem_cons_of_mem _ hmem, hrelated⟩

/-- A part of the images of some values is made of a part of these values. -/
theorem exists_forall₂_of_sublist_filterMap {f : α → Option β} {values : List α}
    {images : List β} (himages : images.Sublist (values.filterMap f)) :
    ∃ sources, sources.Sublist values ∧
      List.Forall₂ (fun source image => f source = some image) sources images := by
  induction values generalizing images with
  | nil => exact ⟨[], List.Sublist.refl _, List.sublist_nil.mp himages ▸ .nil⟩
  | cons value rest ih =>
      rw [List.filterMap_cons] at himages
      split at himages
      · obtain ⟨sources, hsources, hforall⟩ := ih himages
        exact ⟨sources, hsources.cons value, hforall⟩
      · rename_i image himage
        cases himages with
        | cons _ hlater =>
            obtain ⟨sources, hsources, hforall⟩ := ih hlater
            exact ⟨sources, hsources.cons value, hforall⟩
        | cons_cons _ hlater =>
            obtain ⟨sources, hsources, hforall⟩ := ih hlater
            exact ⟨value :: sources, hsources.cons_cons value, .cons himage hforall⟩

end TableRouting
