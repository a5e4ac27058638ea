import TableRouting.Proofs.Pairing
import TableRouting.Proofs.Template.Grammar

/-!
# Printing templates

The segments that compiling gives are well formed, and well-formed segments are given by
compiling their print.  Compiling therefore accepts just the templates of the grammar, in
the one way in which each can be read.
-/

namespace TableRouting

/-- A name as it stands between the braces of a reference. -/
structure Nameable (name : String) : Prop where
  nonempty : name ≠ ""
  trimmed : Text.trim name = name
  closed : '}' ∉ name.toList
  plain : Template.Plain name.toList

namespace Segment

def IsLiteral : Segment → Prop
  | literal _ => True
  | _ => False

/-- A literal that is not empty and opens no reference, a name of a field that does not look
like that of a header, or a name of a header. -/
def WellFormed : Segment → Prop
  | literal text => text ≠ "" ∧ Template.Plain text.toList
  | field name => Nameable name ∧ ¬ Template.headerMark <+: name.toList
  | header name => Nameable name

def piece : Segment → Template.Piece
  | literal text => .literal text.toList
  | field name => .reference name.toList
  | header name => .reference (Template.headerMark ++ name.toList)

end Segment

namespace Template

variable {pieces : List Piece} {text : List Char} {segments : List Segment} {segment : Segment}

/-- Segments as compiling gives them: each is well formed, and no two literals stand side
by side. -/
structure WellFormed (segments : List Segment) : Prop where
  each : ∀ segment ∈ segments, segment.WellFormed
  apart : segments.IsChain fun first second => first.IsLiteral → ¬ second.IsLiteral

def print (segments : List Segment) : String :=
  String.ofList (Piece.text (segments.map Segment.piece))

theorem Plain.append {first second : List Char} (hsecond : Plain second) (hfirst : '$' ∉ first) :
    Plain (first ++ second) := by
  induction first with
  | nil => exact hsecond
  | cons c rest ih =>
      intro hopening
      rcases List.infix_cons_iff.mp hopening with hhere | hlater
      · obtain ⟨after, hafter⟩ := hhere
        obtain ⟨rfl, -⟩ := List.cons_eq_cons.mp hafter
        exact hfirst List.mem_cons_self
      · exact ih (List.not_mem_of_not_mem_cons hfirst) hlater

/-! ## Segments that compiling gives -/

theorem nameable_trimChars {name : List Char} (hfilled : Text.trimChars name ≠ [])
    (hclosed : '}' ∉ name) (hplain : Plain name) :
    Nameable (String.ofList (Text.trimChars name)) where
  nonempty hempty := hfilled (by simpa using congrArg String.toList hempty)
  trimmed := by rw [Text.trim, String.toList_ofList, Text.trimChars_trimChars]
  closed := by
    rw [String.toList_ofList]
    exact fun hclosing => hclosed ((Text.trimChars_infix name).mem hclosing)
  plain := by
    rw [String.toList_ofList]
    exact hplain.of_infix (Text.trimChars_infix name)

theorem Names.wellFormed (hnames : Names text segment) (hclosed : '}' ∉ text) :
    segment.WellFormed := by
  have htrimmed : '}' ∉ Text.trimChars text := fun hclosing =>
    hclosed ((Text.trimChars_infix text).mem hclosing)
  cases hnames with
  | field hname hplain hmark =>
      constructor
      · rw [← Text.trimChars_trimChars] at hname ⊢
        exact nameable_trimChars hname htrimmed hplain
      · rwa [String.toList_ofList]
  | header name hplain hmark hname =>
      have hwithin : name <:+: Text.trimChars text := by
        rw [hmark]
        exact (List.suffix_append headerMark name).isInfix
      apply nameable_trimChars
      · intro hnil
        obtain ⟨c, hc, hblank⟩ := hname
        rw [Text.trimChars_eq_nil_iff.mp hnil c hc] at hblank
        exact nomatch hblank
      · exact fun hclosing => htrimmed (hwithin.mem hclosing)
      · exact hplain.of_infix hwithin

theorem map_isLiteral (hgives : List.Forall₂ Gives pieces segments) :
    segments.map Segment.IsLiteral = pieces.map Piece.IsLiteral := by
  induction hgives with
  | nil => rfl
  | cons hfirst hrest ih =>
      rw [List.map_cons, List.map_cons, ih]
      cases hfirst with
      | literal text => rfl
      | reference text segment hnames => cases hnames <;> rfl

theorem Decomposes.wellFormed (hpieces : Decomposes pieces text)
    (hgives : List.Forall₂ Gives pieces segments) : WellFormed segments where
  each segment hsegment := by
    obtain ⟨piece, hpiece, hgiven⟩ := exists_left_of_forall₂ hgives hsegment
    cases hgiven with
    | literal text =>
        obtain ⟨hne, hplain⟩ := hpieces.literals text hpiece
        rw [Segment.WellFormed, String.toList_ofList]
        exact ⟨fun hempty => hne (by simpa using congrArg String.toList hempty), hplain⟩
    | reference text _ hnames => exact hnames.wellFormed (hpieces.closed text hpiece)
  apart := by
    have hkinds : (segments.map Segment.IsLiteral).IsChain
        fun first second => first → ¬ second := by
      rw [map_isLiteral hgives, List.isChain_map]
      exact hpieces.apart
    rwa [List.isChain_map] at hkinds

/-! ## Segments that are printed -/

theorem headerMark_not_mem : '$' ∉ headerMark ∧ '}' ∉ headerMark := by decide

theorem trimChars_eq_of_nameable {name : String} (hname : Nameable name) :
    Text.trimChars name.toList = name.toList := by
  rw [← Text.toList_trim, hname.trimmed]

theorem ne_nil_of_nameable {name : String} (hname : Nameable name) : name.toList ≠ [] :=
  fun hnil => hname.nonempty (String.toList_eq_nil_iff.mp hnil)

/-- The name of a header is read after its mark. -/
theorem names_header {name : String} (hname : Nameable name) :
    Names (headerMark ++ name.toList) (.header name) := by
  have hchars := trimChars_eq_of_nameable hname
  have hfilled := ne_nil_of_nameable hname
  have hend : Text.trimEnd name.toList = name.toList := (Text.trimChars_eq_self_iff.mp hchars).2
  -- The mark has no blanks, so trimming takes nothing from it.
  have hmark : Text.trimChars (headerMark ++ name.toList) = headerMark ++ name.toList := by
    apply Text.trimChars_eq_self_iff.mpr
    refine ⟨rfl, ?_⟩
    rw [Text.trimEnd_append (by rwa [hend]), hend]
  have hsolid : ∃ c ∈ name.toList, Text.isBlank c = false := by
    by_contra hblanks
    apply hfilled
    rw [← hchars, Text.trimChars_eq_nil_iff]
    simpa using hblanks
  have hplain : Plain (Text.trimChars (headerMark ++ name.toList)) := by
    rw [hmark]
    exact hname.plain.append headerMark_not_mem.1
  have hnames := Names.header name.toList hplain hmark hsolid
  rwa [hchars, String.ofList_toList] at hnames

theorem names_field {name : String} (hname : Nameable name)
    (hmark : ¬ headerMark <+: name.toList) : Names name.toList (.field name) := by
  have hchars := trimChars_eq_of_nameable hname
  have hfilled := ne_nil_of_nameable hname
  have hplain := hname.plain
  rw [← hchars] at hfilled hplain hmark
  have hnames := Names.field hfilled hplain hmark
  rwa [hchars, String.ofList_toList] at hnames

theorem gives_piece (hsegment : segment.WellFormed) : Gives segment.piece segment := by
  cases segment with
  | literal text =>
      have hgives := Gives.literal text.toList
      rwa [String.ofList_toList] at hgives
  | field name => exact .reference _ _ (names_field hsegment.1 hsegment.2)
  | header name => exact .reference _ _ (names_header hsegment)

theorem WellFormed.gives (hsegments : WellFormed segments) :
    List.Forall₂ Gives (segments.map Segment.piece) segments := by
  rw [List.forall₂_map_left_iff, List.forall₂_same]
  exact fun segment hsegment => gives_piece (hsegments.each segment hsegment)

theorem isLiteral_piece (segment : Segment) : segment.piece.IsLiteral = segment.IsLiteral := by
  cases segment <;> rfl

theorem WellFormed.decomposes (hsegments : WellFormed segments) :
    Decomposes (segments.map Segment.piece) (print segments).toList where
  text_eq := by rw [print, String.toList_ofList]
  literals literal hliteral := by
    obtain ⟨segment, hsegment, hpiece⟩ := List.mem_map.mp hliteral
    have hwell := hsegments.each segment hsegment
    cases segment with
    | literal text =>
        rw [← Piece.literal.inj hpiece]
        exact ⟨fun hnil => hwell.1 (String.toList_eq_nil_iff.mp hnil), hwell.2⟩
    | field name => exact nomatch hpiece
    | header name => exact nomatch hpiece
  apart := by
    rw [List.isChain_map]
    simp only [isLiteral_piece]
    exact hsegments.apart
  closed reference hreference := by
    obtain ⟨segment, hsegment, hpiece⟩ := List.mem_map.mp hreference
    have hwell := hsegments.each segment hsegment
    cases segment with
    | literal text => exact nomatch hpiece
    | field name =>
        rw [← Piece.reference.inj hpiece]
        exact hwell.1.closed
    | header name =>
        rw [← Piece.reference.inj hpiece]
        intro hclosing
        rcases List.mem_append.mp hclosing with hmark | hname
        · exact headerMark_not_mem.2 hmark
        · exact hwell.closed hname

/-- The print of segments is scanned into them. -/
theorem WellFormed.scanLiteral_print (hsegments : WellFormed segments) :
    scanLiteral [] (print segments).toList = .ok segments :=
  scanLiteral_eq_ok_iff.mpr ⟨_, hsegments.decomposes, hsegments.gives⟩

/-! ## Compiling -/

theorem scanLiteral_eq_nil_iff : scanLiteral [] text = .ok [] ↔ text = [] := by
  rw [scanLiteral_eq_ok_iff]
  constructor
  · rintro ⟨pieces, hpieces, hgives⟩
    rw [← hpieces.text_eq, List.forall₂_nil_right_iff.mp hgives]
    rfl
  · rintro rfl
    exact ⟨[], decomposes_ofLiteral plain_nil, .nil⟩

theorem segmentsOf_eq_ok_iff :
    segmentsOf text = .ok segments ↔ text ≠ [] ∧ scanLiteral [] text = .ok segments := by
  rw [Ne, ← scanLiteral_eq_nil_iff, segmentsOf]
  split
  · rename_i hnil
    simp [hnil]
  · rename_i hother
    exact ⟨fun hok => ⟨hother, hok⟩, And.right⟩

theorem segmentsOf_eq_error_iff {fault : TemplateFault} :
    segmentsOf text = .error fault ↔
      (text = [] ∧ fault = .emptyTemplate) ∨ scanLiteral [] text = .error fault := by
  rw [← scanLiteral_eq_nil_iff, segmentsOf]
  split
  · rename_i hnil
    simp [hnil, eq_comm]
  · rename_i hother
    constructor
    · exact Or.inr
    · rintro (⟨hnil, -⟩ | herror)
      · exact (hother hnil).elim
      · exact herror

/-- A dollar sign before an opening and a brace after a closing one belong to literals. -/
example : segmentsOf ['$', '$', '{', 'a', '}', '}'] =
    .ok [.literal "$", .field "a", .literal "\x7d"] := rfl

variable {source : String} {caseSensitive : Bool} {template : Template}

theorem compile_eq_ok_iff : compile source caseSensitive = .ok template ↔
    ∃ segments, segmentsOf source.toList = .ok segments ∧
      template = ⟨source, segments, caseSensitive⟩ := by
  rw [compile]
  cases segmentsOf source.toList <;> simp [eq_comm]

theorem compile_eq_error_iff {error : EvaluationError} :
    compile source caseSensitive = .error error ↔
      ∃ fault, segmentsOf source.toList = .error fault ∧
        error = .invalidTemplate source fault.message := by
  rw [compile]
  cases segmentsOf source.toList <;> simp [eq_comm]

/-- A template without references has a single literal, or nothing. -/
theorem isConstant_iff (hpieces : Decomposes pieces source.toList)
    (hgives : List.Forall₂ Gives pieces segments) :
    isConstant ⟨source, segments, caseSensitive⟩ = true ↔ Plain source.toList := by
  rcases hpieces.cases with ⟨hplain, rfl⟩ |
    ⟨literal, reference, more, rest, -, -, rfl, htext, -⟩
  · rw [gives_ofLiteral_iff.mp hgives, literalSegment]
    refine ⟨fun _ => hplain, fun _ => ?_⟩
    split <;> rfl
  · constructor
    · intro hconstant
      exfalso
      obtain ⟨later, hlater, rfl⟩ := gives_ofLiteral_append_iff.mp hgives
      obtain ⟨segment, others, hnames, -, rfl⟩ := gives_reference_iff.mp hlater
      have hliteral := List.all_eq_true.mp hconstant segment (by simp)
      cases hnames <;> exact Bool.false_ne_true hliteral
    · intro hplain
      rw [htext] at hplain
      exact absurd hplain (not_plain_append literal _)

/-- How templates are compiled. -/
structure Compiles (caseSensitive : Bool) : Prop where
  /-- A text is accepted just when it is not empty and made of literals and of references that
  name something. -/
  accepts : ∀ source : String,
    (∃ template, compile source caseSensitive = .ok template) ↔
      source ≠ "" ∧ ∃ pieces, Decomposes pieces source.toList ∧
        ∀ reference, Piece.reference reference ∈ pieces → Proper reference
  /-- The segments are what the pieces of the text stand for. -/
  segments : ∀ (source : String) (template : Template),
    compile source caseSensitive = .ok template →
      template.source = source ∧ template.caseSensitive = caseSensitive ∧
        ∃ pieces, Decomposes pieces source.toList ∧
          List.Forall₂ Gives pieces template.segments
  /-- A text is made of pieces in one way only, and these stand for segments in one way. -/
  unique : ∀ (source : String) (pieces others : List Piece),
    Decomposes pieces source.toList → Decomposes others source.toList → pieces = others ∧
      ∀ first second, List.Forall₂ Gives pieces first → List.Forall₂ Gives others second →
        first = second
  wellFormed : ∀ (source : String) (template : Template),
    compile source caseSensitive = .ok template → WellFormed template.segments
  constant : ∀ (source : String) (template : Template),
    compile source caseSensitive = .ok template →
      (template.isConstant = true ↔ Plain source.toList)
  /-- Printed segments are compiled into themselves; there is no template without any. -/
  prints : ∀ segments, WellFormed segments → segments ≠ [] →
    compile (print segments) caseSensitive = .ok ⟨print segments, segments, caseSensitive⟩
  /-- The error is that of the leftmost reference that is not closed or names nothing, or that
  of the empty template. -/
  errors : ∀ (source : String) (error : EvaluationError),
    compile source caseSensitive = .error error ↔
      ∃ fault : TemplateFault, error = .invalidTemplate source fault.message ∧
        ((source = "" ∧ fault = .emptyTemplate) ∨
          ∃ pieces before after, Leftmost source.toList fault pieces before after)
  /-- The scan ends with an answer, and every reference takes up three characters. -/
  ends : ∀ source : String,
    ((∃ template, compile source caseSensitive = .ok template) ∨
      ∃ fault : TemplateFault,
        compile source caseSensitive = .error (.invalidTemplate source fault.message)) ∧
    ∀ pieces, Decomposes pieces source.toList →
      3 * (pieces.countP fun piece => piece matches .reference _) ≤ source.toList.length

/-- Compiling accepts the templates of the grammar and no others, and reads each in the one
way in which it can be read. -/
theorem compile_grammar (caseSensitive : Bool) : Compiles caseSensitive where
  accepts source := by
    simp only [compile_eq_ok_iff, segmentsOf_eq_ok_iff, scanLiteral_eq_ok_iff]
    constructor
    · rintro ⟨-, segments, ⟨hne, pieces, hpieces, hgives⟩, -⟩
      exact ⟨fun hempty => hne (String.toList_eq_nil_iff.mpr hempty), pieces, hpieces,
        exists_gives_iff.mp ⟨segments, hgives⟩⟩
    · rintro ⟨hne, pieces, hpieces, hproper⟩
      obtain ⟨segments, hgives⟩ := exists_gives_iff.mpr hproper
      exact ⟨_, segments, ⟨fun hnil => hne (String.toList_eq_nil_iff.mp hnil), pieces, hpieces,
        hgives⟩, rfl⟩
  segments source template hok := by
    obtain ⟨segments, hsegments, rfl⟩ := compile_eq_ok_iff.mp hok
    exact ⟨rfl, rfl, scanLiteral_eq_ok_iff.mp (segmentsOf_eq_ok_iff.mp hsegments).2⟩
  unique source pieces others hpieces hothers := by
    refine ⟨hpieces.unique hothers, ?_⟩
    intro first second hfirst hsecond
    have hscan := scanLiteral_eq_ok_iff.mpr ⟨pieces, hpieces, hfirst⟩
    exact Except.ok.inj (hscan.symm.trans (scanLiteral_eq_ok_iff.mpr ⟨others, hothers, hsecond⟩))
  wellFormed source template hok := by
    obtain ⟨segments, hsegments, rfl⟩ := compile_eq_ok_iff.mp hok
    obtain ⟨pieces, hpieces, hgives⟩ :=
      scanLiteral_eq_ok_iff.mp (segmentsOf_eq_ok_iff.mp hsegments).2
    exact hpieces.wellFormed hgives
  constant source template hok := by
    obtain ⟨segments, hsegments, rfl⟩ := compile_eq_ok_iff.mp hok
    obtain ⟨pieces, hpieces, hgives⟩ :=
      scanLiteral_eq_ok_iff.mp (segmentsOf_eq_ok_iff.mp hsegments).2
    exact isConstant_iff hpieces hgives
  prints segments hsegments hne := by
    apply compile_eq_ok_iff.mpr
    refine ⟨segments, segmentsOf_eq_ok_iff.mpr ⟨?_, hsegments.scanLiteral_print⟩, rfl⟩
    intro hnil
    have hscan := scanLiteral_eq_nil_iff.mpr hnil
    exact hne (Except.ok.inj (hsegments.scanLiteral_print.symm.trans hscan))
  errors source error := by
    rw [compile_eq_error_iff]
    simp only [segmentsOf_eq_error_iff, scanLiteral_eq_error_iff, String.toList_eq_nil_iff]
    exact exists_congr fun fault => and_comm
  ends source := by
    refine ⟨?_, fun pieces hpieces => hpieces.three_mul_le⟩
    cases hsegments : segmentsOf source.toList with
    | ok segments => exact .inl ⟨_, compile_eq_ok_iff.mpr ⟨segments, hsegments, rfl⟩⟩
    | error fault => exact .inr ⟨fault, compile_eq_error_iff.mpr ⟨fault, hsegments, rfl⟩⟩

end Template

end TableRouting
