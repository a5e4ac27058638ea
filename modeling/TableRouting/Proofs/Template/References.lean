import TableRouting.Proofs.Template.Pieces
import TableRouting.Proofs.Text.Trimming

/-!
# What a reference stands for

The text between the braces of a reference is trimmed.  It names a field, or a header
after the mark of one.  It is at fault when nothing is left of it, when another reference
opens in it, and when the mark of a header is followed by blanks only.
-/

namespace TableRouting.Template

variable {text name : List Char} {segment : Segment} {fault : TemplateFault}

theorem hasOpening_iff (text : List Char) : hasOpening text = true ↔ opening <:+: text := by
  induction text using hasOpening.induct with
  | case1 rest => simp [hasOpening, opening, List.infix_cons_iff]
  | case2 c rest hno ih =>
      rw [hasOpening, ih, List.infix_cons_iff]
      · constructor
        · exact Or.inr
        · rintro (⟨after, hafter⟩ | hrest)
          · obtain ⟨rfl, rfl⟩ := List.cons_eq_cons.mp hafter
            exact (hno after rfl rfl).elim
          · exact hrest
      · exact hno
  | case3 => simp [hasOpening, opening]

theorem afterMark?_eq_some_iff {mark rest : List Char} :
    afterMark? mark text = some rest ↔ text = mark ++ rest := by
  induction mark generalizing text with
  | nil => simp [afterMark?]
  | cons m mark ih =>
      cases text with
      | nil => simp [afterMark?]
      | cons c text =>
          rw [afterMark?]
          split
          · rename_i hsame
            rw [ih, hsame, List.cons_append, List.cons_inj_right]
          · rename_i hother
            simp [Ne.symm hother]

/-- What the text of a reference stands for. -/
inductive Names (text : List Char) : Segment → Prop
  | field (hname : Text.trimChars text ≠ []) (hplain : Plain (Text.trimChars text))
      (hmark : ¬ headerMark <+: Text.trimChars text) :
      Names text (.field (String.ofList (Text.trimChars text)))
  | header (name : List Char) (hplain : Plain (Text.trimChars text))
      (hmark : Text.trimChars text = headerMark ++ name)
      (hname : ∃ c ∈ name, Text.isBlank c = false) :
      Names text (.header (String.ofList (Text.trimChars name)))

/-- What is wrong with the text of a reference. -/
inductive Faulty (text : List Char) : TemplateFault → Prop
  | empty (hname : Text.trimChars text = []) : Faulty text .emptyReference
  | nested (hopening : opening <:+: Text.trimChars text) : Faulty text .nested
  | nameless (blanks : List Char) (hmark : Text.trimChars text = headerMark ++ blanks)
      (hblanks : ∀ c ∈ blanks, Text.isBlank c = true) : Faulty text .namelessHeader

theorem plain_of_not_mem (hdollar : '$' ∉ text) : Plain text :=
  fun hopening => hdollar (hopening.mem List.mem_cons_self)

theorem Plain.of_infix (hplain : Plain text) (hwithin : name <:+: text) : Plain name :=
  fun hopening => hplain (hopening.trans hwithin)

/-- Neither the mark of a header nor blanks open a reference. -/
theorem plain_headerMark_append {blanks : List Char}
    (hblanks : ∀ c ∈ blanks, Text.isBlank c = true) : Plain (headerMark ++ blanks) := by
  apply plain_of_not_mem
  intro hdollar
  rcases List.mem_append.mp hdollar with hmark | hblank
  · exact absurd hmark (by decide)
  · exact absurd (hblanks '$' hblank) (by decide)

/-- The text of a reference names something, or it is at fault. -/
theorem names_or_faulty (text : List Char) :
    (∃ segment, Names text segment) ∨ ∃ fault, Faulty text fault := by
  by_cases hempty : Text.trimChars text = []
  · exact .inr ⟨_, .empty hempty⟩
  · by_cases hplain : Plain (Text.trimChars text)
    · by_cases hmark : headerMark <+: Text.trimChars text
      · obtain ⟨name, hname⟩ := hmark
        by_cases hblanks : ∀ c ∈ name, Text.isBlank c = true
        · exact .inr ⟨_, .nameless name hname.symm hblanks⟩
        · left
          refine ⟨_, .header name hplain hname.symm ?_⟩
          simpa using hblanks
      · exact .inl ⟨_, .field hempty hplain hmark⟩
    · exact .inr ⟨_, .nested (not_not.mp hplain)⟩

theorem Names.reference_eq (hnames : Names text segment) : reference text = .ok segment := by
  cases hnames with
  | field hname hplain hmark =>
      have hunmarked : afterMark? headerMark (Text.trimChars text) = none := by
        apply Option.eq_none_iff_forall_ne_some.mpr
        intro name hbegins
        exact hmark ⟨name, (afterMark?_eq_some_iff.mp hbegins).symm⟩
      rw [Plain, ← hasOpening_iff] at hplain
      simp [reference, hname, hplain, hunmarked]
  | header name hplain hmark hname =>
      have hfilled : Text.trimChars text ≠ [] := by
        rw [hmark]
        exact List.append_ne_nil_of_left_ne_nil (by decide) name
      have hsolid : Text.trimChars name ≠ [] := by
        intro hnil
        obtain ⟨c, hc, hblank⟩ := hname
        rw [Text.trimChars_eq_nil_iff.mp hnil c hc] at hblank
        exact nomatch hblank
      rw [Plain, ← hasOpening_iff] at hplain
      simp [reference, hfilled, hplain, afterMark?_eq_some_iff.mpr hmark, hsolid]

theorem Faulty.reference_eq (hfaulty : Faulty text fault) : reference text = .error fault := by
  cases hfaulty with
  | empty hname => simp [reference, hname]
  | nested hopening =>
      have hfilled : Text.trimChars text ≠ [] :=
        List.ne_nil_of_mem (hopening.mem List.mem_cons_self)
      simp [reference, hfilled, (hasOpening_iff _).mpr hopening]
  | nameless blanks hmark hblanks =>
      have hfilled : Text.trimChars text ≠ [] := by
        rw [hmark]
        exact List.append_ne_nil_of_left_ne_nil (by decide) blanks
      have hplain : ¬ hasOpening (Text.trimChars text) = true := by
        rw [hasOpening_iff, hmark]
        exact plain_headerMark_append hblanks
      simp [reference, hfilled, hplain, afterMark?_eq_some_iff.mpr hmark,
        Text.trimChars_eq_nil_iff.mpr hblanks]

theorem reference_eq_ok_iff : reference text = .ok segment ↔ Names text segment := by
  refine ⟨fun hok => ?_, Names.reference_eq⟩
  rcases names_or_faulty text with ⟨other, hnames⟩ | ⟨fault, hfaulty⟩
  · rwa [← Except.ok.inj (hnames.reference_eq.symm.trans hok)]
  · exact nomatch hfaulty.reference_eq.symm.trans hok

end TableRouting.Template
