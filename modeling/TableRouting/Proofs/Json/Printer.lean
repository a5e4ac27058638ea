import TableRouting.Json.Printer

/-!
# Texts without line breaks

The text of a value has no line break, whatever its strings hold, so a value that is
followed by a line break is exactly one line.
-/

namespace TableRouting.Json

namespace Number

theorem newline_not_mem_natText (n : Nat) : '\n' ∉ natText n := by
  intro hmem
  have hdigit := Nat.isDigit_of_mem_toDigits (by decide) (by decide) hmem
  exact absurd hdigit (by decide)

theorem newline_not_mem_layout {digits : List Char} (hdigits : '\n' ∉ digits) (lead : Int) :
    '\n' ∉ layout digits lead := by
  have hlead := newline_not_mem_natText lead.natAbs
  have htake := fun count => mt (List.mem_of_mem_take (i := count)) hdigits
  have hdrop := fun count => mt (List.mem_of_mem_drop (i := count)) hdigits
  unfold layout
  by_cases hpositional : positional lead
  · rw [if_pos hpositional]
    split
    · simp [hdigits]
    · simp only [List.mem_append, List.mem_cons, List.mem_replicate, not_or, htake]
      refine ⟨⟨not_false, by simp⟩, by simp, ?_⟩
      split
      · decide
      · exact hdrop _
  · rw [if_neg hpositional]
    apply mt List.mem_append.mp
    rw [not_or]
    constructor
    · split
      · simpa using hdigits
      · exact hdigits
    · split <;> simp [hlead]

theorem newline_not_mem_text (number : Number) : '\n' ∉ number.text := by
  cases number with
  | integer n =>
      cases n with
      | ofNat n => exact newline_not_mem_natText n
      | negSucc n =>
          exact List.not_mem_cons_of_ne_of_not_mem (by decide) (newline_not_mem_natText _)
  | double bits =>
      rw [text, doubleText]
      generalize Decimal.ofDouble bits = parts
      obtain ⟨negative, value⟩ := parts
      have hsigned {chars : List Char} (hchars : '\n' ∉ chars) :
          '\n' ∉ if negative then '-' :: chars else chars := by
        split
        · exact List.not_mem_cons_of_ne_of_not_mem (by decide) hchars
        · exact hchars
      cases value with
      | none => exact hsigned (by decide)
      | some binary => exact hsigned (newline_not_mem_layout (newline_not_mem_natText _) _)

end Number

theorem newline_ne_hexDigit (n : Nat) : '\n' ≠ hexDigit n :=
  (Nat.digitChar_ne '\n' rfl).symm

/-- A line break is written as a backslash and a letter. -/
theorem newline_not_mem_escapeChar (c : Char) : '\n' ∉ escapeChar c := by
  unfold escapeChar
  split
  · decide
  · decide
  · decide
  · decide
  · decide
  · rename_i hnewline _ _
    split
    · decide
    · split
      · decide
      · split
        · simp [newline_ne_hexDigit]
        · simpa using Ne.symm hnewline

theorem newline_not_mem_stringChars (s : String) : '\n' ∉ stringChars s := by
  simp [stringChars, newline_not_mem_escapeChar]

mutual

theorem newline_not_mem_chars (value : Json) : '\n' ∉ value.chars := by
  match value with
  | .null => decide
  | .bool true => decide
  | .bool false => decide
  | .num n => exact Number.newline_not_mem_text n
  | .str s => exact newline_not_mem_stringChars s
  | .arr items => simp [chars, newline_not_mem_itemsChars items]
  | .obj fields => simp [chars, newline_not_mem_fieldsChars fields]

theorem newline_not_mem_itemsChars (items : List Json) : '\n' ∉ itemsChars items := by
  match items with
  | [] => exact List.not_mem_nil
  | [item] => exact newline_not_mem_chars item
  | item :: next :: rest =>
      have hitem := newline_not_mem_chars item
      have hrest := newline_not_mem_itemsChars (next :: rest)
      simp [itemsChars, hitem, hrest]

theorem newline_not_mem_fieldsChars (fields : List (String × Json)) :
    '\n' ∉ fieldsChars fields := by
  match fields with
  | [] => exact List.not_mem_nil
  | [(key, value)] =>
      have hkey := newline_not_mem_stringChars key
      have hvalue := newline_not_mem_chars value
      simp [fieldsChars, hkey, hvalue]
  | (key, value) :: next :: rest =>
      have hkey := newline_not_mem_stringChars key
      have hvalue := newline_not_mem_chars value
      have hrest := newline_not_mem_fieldsChars (next :: rest)
      simp [fieldsChars, hkey, hvalue, hrest]

end

/-- The text of a value is one line. -/
theorem newline_not_mem_render (value : Json) : '\n' ∉ value.render.toList := by
  rw [render, String.toList_ofList]
  exact newline_not_mem_chars value

end TableRouting.Json
