import Mathlib.Data.List.DropRight
import TableRouting.Text.Blank

/-!
# Trimming and splitting texts

What is left of a text when it is trimmed is a part of it that begins and ends with
something, so trimming it again changes nothing.  A text splits in one way only at the first
place where a character stands.
-/

namespace TableRouting.Text

variable {text first second : List Char}

theorem trimEnd_eq_rdropWhile (text : List Char) : trimEnd text = text.rdropWhile isBlank := rfl

theorem trimChars_infix (text : List Char) : trimChars text <:+: text :=
  (List.rdropWhile_prefix isBlank _).isInfix.trans (List.dropWhile_suffix isBlank).isInfix

theorem trimChars_eq_nil_iff : trimChars text = [] ↔ ∀ c ∈ text, isBlank c = true := by
  rw [trimChars, trimEnd_eq_rdropWhile, List.rdropWhile_eq_nil_iff]
  constructor
  · intro hrest
    by_contra hsolid
    have hdropped : 0 < (text.dropWhile isBlank).length := by
      apply List.length_pos_iff.mpr
      intro hnil
      exact hsolid (List.dropWhile_eq_nil_iff.mp hnil)
    exact List.dropWhile_get_zero_not isBlank text hdropped (hrest _ (List.getElem_mem hdropped))
  · intro hall c hc
    exact hall c ((List.dropWhile_suffix isBlank).mem hc)

/-- A text that trimming leaves alone begins and ends with something. -/
theorem trimChars_eq_self_iff :
    trimChars text = text ↔ text.dropWhile isBlank = text ∧ trimEnd text = text := by
  constructor
  · intro htrimmed
    have hstart : text.dropWhile isBlank = text := by
      apply (List.dropWhile_suffix isBlank).eq_of_length_le
      calc
        text.length = (trimChars text).length := by rw [htrimmed]
        _ ≤ (text.dropWhile isBlank).length := (List.rdropWhile_prefix isBlank _).length_le
    rw [trimChars, hstart] at htrimmed
    exact ⟨hstart, htrimmed⟩
  · rintro ⟨hstart, hend⟩
    rw [trimChars, hstart, hend]

/-- Trimming a second time changes nothing. -/
theorem trimChars_trimChars (text : List Char) : trimChars (trimChars text) = trimChars text := by
  rw [trimChars_eq_self_iff]
  constructor
  · apply List.dropWhile_eq_self_iff.mpr
    intro hpos hblank
    have hbegins : trimChars text <+: text.dropWhile isBlank := List.rdropWhile_prefix isBlank _
    have hdropped : 0 < (text.dropWhile isBlank).length := Nat.lt_of_lt_of_le hpos hbegins.length_le
    apply List.dropWhile_get_zero_not isBlank text hdropped
    rwa [hbegins.getElem hpos] at hblank
  · exact List.rdropWhile_idempotent isBlank _

/-- Blanks at the end are those of what stands last. -/
theorem trimEnd_append (hsecond : trimEnd second ≠ []) :
    trimEnd (first ++ second) = first ++ trimEnd second := by
  have hsolid : (second.reverse.dropWhile isBlank).isEmpty = false := by
    rw [List.isEmpty_eq_false_iff]
    exact fun hnil => hsecond (congrArg List.reverse hnil)
  simp [trimEnd, List.dropWhile_append, hsolid]

/-- The first place of a character in a text is where it is. -/
theorem append_cons_inj {c : Char} {after rest : List Char} (hfirst : c ∉ first)
    (hsecond : c ∉ second) (hsame : first ++ c :: after = second ++ c :: rest) :
    first = second ∧ after = rest := by
  induction first generalizing second with
  | nil =>
      rcases second with _ | ⟨d, second⟩
      · exact ⟨rfl, (List.cons_eq_cons.mp hsame).2⟩
      · rw [(List.cons_eq_cons.mp hsame).1] at hsecond
        exact absurd List.mem_cons_self hsecond
  | cons x first ih =>
      rcases second with _ | ⟨d, second⟩
      · rw [(List.cons_eq_cons.mp hsame).1] at hfirst
        exact absurd List.mem_cons_self hfirst
      · obtain ⟨rfl, htail⟩ := List.cons_eq_cons.mp hsame
        obtain ⟨rfl, hafter⟩ := ih (List.not_mem_of_not_mem_cons hfirst)
          (List.not_mem_of_not_mem_cons hsecond) htail
        exact ⟨rfl, hafter⟩

end TableRouting.Text
