import TableRouting.Proofs.Text.Trimming
import TableRouting.Text.Lowercase

/-!
# Lower-casing and blanks

No letter has a blank as its lower-case form, and none has nothing.  So a text that begins
and ends with something still does when it is lower-cased.
-/

namespace TableRouting.Text

variable {c d : Char} {before text : List Char}

def blankRanges : List (Nat × Nat) :=
  [(0x09, 0x0D), (0x20, 0x20), (0x85, 0x85), (0xA0, 0xA0), (0x1680, 0x1680), (0x2000, 0x200A),
    (0x2028, 0x2029), (0x202F, 0x202F), (0x205F, 0x205F), (0x3000, 0x3000)]

theorem isBlank_iff (c : Char) :
    isBlank c = true ↔ ∃ range ∈ blankRanges, range.1 ≤ c.toNat ∧ c.toNat ≤ range.2 := by
  simp only [isBlank, blankRanges, Bool.or_eq_true, Bool.and_eq_true, decide_eq_true_eq,
    beq_iff_eq, UInt32.le_iff_toNat_le, List.mem_cons, List.not_mem_nil, or_false,
    exists_eq_or_imp, exists_eq_left, Char.toNat, ← UInt32.toNat_inj]
  simp
  omega

/-- A code point between the blanks, or none at all, is no blank. -/
theorem isBlank_ofNat {n : Nat} (hapart : ∀ range ∈ blankRanges, n < range.1 ∨ range.2 < n) :
    isBlank (Char.ofNat n) = false := by
  by_cases hvalid : n.isValidChar
  · have hcode : (Char.ofNat n).toNat = n := by
      rw [Char.ofNat, dif_pos hvalid]
      rfl
    rw [Bool.eq_false_iff, Ne, isBlank_iff, hcode]
    rintro ⟨range, hrange, hwithin⟩
    have houtside := hapart range hrange
    omega
  · rw [Char.ofNat, dif_neg hvalid]
    rfl

/-- The characters that have a lower-case form do not have it among the blanks. -/
theorem caseShifts_apart : ∀ shift ∈ caseShifts, ∀ range ∈ blankRanges,
    (shift.last : Int) + shift.shift < range.1 ∨
      (range.2 : Int) < shift.first + shift.shift := by
  decide +kernel

theorem isBlank_toLower (hc : c.val < 0x80) (hsolid : isBlank c = false) :
    isBlank c.toLower = false := by
  have hall : ∀ n : Fin 0x80, isBlank (Char.ofNat n) = false →
      isBlank (Char.ofNat n).toLower = false := by
    decide
  have hsame := hall ⟨c.toNat, UInt32.lt_iff_toNat_lt.mp hc⟩
  rw [Char.ofNat_toNat] at hsame
  exact hsame hsolid

/-- What a character that is no blank is lower-cased to holds no blank. -/
theorem isBlank_of_mem_lowerChar (hsolid : isBlank c = false) (hd : d ∈ lowerChar c) :
    isBlank d = false := by
  rw [lowerChar] at hd
  split at hd
  · rename_i hc
    rw [List.mem_singleton.mp hd]
    exact isBlank_toLower hc hsolid
  · split at hd
    · rw [List.mem_cons, List.mem_singleton] at hd
      rcases hd with rfl | rfl <;> rfl
    · split at hd
      · rename_i shift hfound
        rw [List.mem_singleton.mp hd]
        have hrange := List.find?_some hfound
        simp only [Bool.and_eq_true, decide_eq_true_eq] at hrange
        apply isBlank_ofNat
        intro range hblank
        have hapart := caseShifts_apart shift (List.mem_of_find?_eq_some hfound) range hblank
        have hpositive : ∀ range ∈ blankRanges, 0 < range.1 := by decide
        have hfirst := hpositive range hblank
        omega
      · rwa [List.mem_singleton.mp hd]

theorem lowerChar_ne_nil (c : Char) : lowerChar c ≠ [] := by
  rw [lowerChar]
  split
  · exact List.cons_ne_nil _ _
  · split
    · exact List.cons_ne_nil _ _
    · split <;> exact List.cons_ne_nil _ _

/-- A character is lower-cased to something, and to no blank if it is none. -/
theorem exists_lowerFrom_cons (before : List Char) (c : Char) (rest : List Char) :
    ∃ piece, piece ≠ [] ∧ (isBlank c = false → ∀ d ∈ piece, isBlank d = false) ∧
      lowerFrom before (c :: rest) = piece ++ lowerFrom (c :: before) rest := by
  refine ⟨_, ?_, ?_, rfl⟩
  · split
    · exact List.cons_ne_nil _ _
    · exact lowerChar_ne_nil c
  · intro hsolid d hd
    split at hd
    · rw [List.mem_singleton.mp hd]
      split <;> rfl
    · exact isBlank_of_mem_lowerChar hsolid hd

theorem lowerFrom_eq_nil_iff : lowerFrom before text = [] ↔ text = [] := by
  constructor
  · intro hnil
    cases text with
    | nil => rfl
    | cons c rest =>
        obtain ⟨piece, hpiece, -, hlower⟩ := exists_lowerFrom_cons before c rest
        rw [hlower] at hnil
        exact absurd (List.append_eq_nil_iff.mp hnil).1 hpiece
  · rintro rfl
    rfl

/-- A text neither begins nor ends with a blank. -/
structure Solid (text : List Char) : Prop where
  head : ∀ c, text.head? = some c → isBlank c = false
  last : ∀ c, text.getLast? = some c → isBlank c = false

/-- A text that trimming leaves alone is solid at both ends. -/
theorem trimChars_eq_self_iff_solid : trimChars text = text ↔ Solid text := by
  rw [trimChars_eq_self_iff]
  have hends (list : List Char) :
      list.dropWhile isBlank = list ↔ ∀ c, list.head? = some c → isBlank c = false := by
    cases list with
    | nil => simp
    | cons c rest =>
        cases hblank : isBlank c with
        | true =>
            have hshorter := (List.dropWhile_suffix isBlank (l := rest)).length_le
            simp only [List.dropWhile_cons, hblank, if_true, List.head?_cons, Option.some.injEq,
              forall_eq', Bool.true_eq_false, iff_false]
            intro hsame
            have hlength := congrArg List.length hsame
            rw [List.length_cons] at hlength
            omega
        | false => simp [hblank]
  have hlast : trimEnd text = text ↔ text.reverse.dropWhile isBlank = text.reverse := by
    rw [trimEnd, List.reverse_eq_iff]
  rw [hlast, hends, hends, List.head?_reverse]
  exact ⟨fun hboth => ⟨hboth.1, hboth.2⟩, fun hsolid => ⟨hsolid.head, hsolid.last⟩⟩

theorem Solid.lowerFrom (hsolid : Solid text) (before : List Char) :
    Solid (lowerFrom before text) := by
  constructor
  · intro d hd
    cases text with
    | nil => exact nomatch hd
    | cons c rest =>
        obtain ⟨piece, hpiece, hnone, hlower⟩ := exists_lowerFrom_cons before c rest
        rw [hlower, List.head?_append_of_ne_nil _ hpiece] at hd
        exact hnone (hsolid.head c rfl) d (List.mem_of_mem_head? hd)
  · intro d hd
    have hlast := hsolid.last
    clear hsolid
    induction text generalizing before with
    | nil => exact nomatch hd
    | cons c rest ih =>
        obtain ⟨piece, hpiece, hnone, hlower⟩ := exists_lowerFrom_cons before c rest
        rw [hlower] at hd
        by_cases hrest : rest = []
        · subst hrest
          rw [Text.lowerFrom, List.append_nil] at hd
          exact hnone (hlast c rfl) d (List.mem_of_getLast? hd)
        · rw [List.getLast?_append_of_ne_nil _ (mt lowerFrom_eq_nil_iff.mp hrest)] at hd
          refine ih _ hd fun last hmem => hlast last ?_
          rw [← hmem, List.getLast?_cons_of_ne_nil hrest]

/-- Lower-casing a trimmed text leaves nothing to trim. -/
theorem trimChars_lowerChars (htrimmed : trimChars text = text) :
    trimChars (lowerChars text) = lowerChars text :=
  trimChars_eq_self_iff_solid.mpr ((trimChars_eq_self_iff_solid.mp htrimmed).lowerFrom [])

theorem lowerChars_eq_nil_iff : lowerChars text = [] ↔ text = [] := lowerFrom_eq_nil_iff

end TableRouting.Text
