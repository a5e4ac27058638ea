import Mathlib.Data.List.Forall2
import TableRouting.Proofs.Template.References

/-!
# The grammar of templates

A template compiles just when its text is taken apart into literals and references that
name something.  Its segments are what the pieces stand for, and printing them and compiling
the print again gives them back.  Otherwise the leftmost reference that is not closed or at
fault decides the error.
-/

namespace TableRouting.Template

variable {pieces : List Piece} {text literal reference rest after acc : List Char}
  {segments : List Segment} {fault : TemplateFault}

/-! ## One round of the scan -/

theorem scanLiteral_cons {c : Char} (hhere : ¬ opening <+: c :: rest) :
    scanLiteral acc (c :: rest) = scanLiteral (c :: acc) rest := by
  rw [scanLiteral]
  rintro after rfl rfl
  exact hhere (List.prefix_append opening after)

/-- A text without an opening is a literal. -/
theorem scanLiteral_plain (hplain : Plain text) (acc : List Char) :
    scanLiteral acc text = .ok (literalSegment (acc.reverse ++ text)) := by
  induction text generalizing acc with
  | nil => rw [scanLiteral, List.append_nil]
  | cons c rest ih =>
      have hhere : ¬ opening <+: c :: rest := fun hprefix => hplain hprefix.isInfix
      rw [scanLiteral_cons hhere, ih hplain.tail, List.reverse_cons, List.append_assoc,
        List.singleton_append]

/-- The first opening begins a reference. -/
theorem scanLiteral_opening (hplain : Plain literal) (acc after : List Char) :
    scanLiteral acc (literal ++ (opening ++ after)) =
      scanReference (literal.reverse ++ acc) [] after := by
  induction literal generalizing acc with
  | nil => rfl
  | cons c rest ih =>
      have hhere : ¬ opening <+: c :: (rest ++ (opening ++ after)) := by
        rintro ⟨more, hmore⟩
        have hsame : [] ++ (opening ++ more) = (c :: rest) ++ (opening ++ after) := hmore
        exact List.cons_ne_nil c rest (append_opening_inj plain_nil hplain hsame).1.symm
      rw [List.cons_append, scanLiteral_cons hhere, ih hplain.tail, List.reverse_cons,
        List.append_assoc, List.singleton_append]

theorem scanReference_unclosed (hafter : '}' ∉ after) (literal text : List Char) :
    scanReference literal text after = .error .unclosed := by
  induction after generalizing text with
  | nil => rw [scanReference]
  | cons c rest ih =>
      rw [scanReference]
      · exact ih (List.not_mem_of_not_mem_cons hafter) (c :: text)
      · rintro rfl
        exact hafter List.mem_cons_self

/-- The next closing brace ends a reference. -/
theorem scanReference_closing (hreference : '}' ∉ reference) (literal text rest : List Char) :
    scanReference literal text (reference ++ '}' :: rest) =
      scanReference literal (reference.reverse ++ text) ('}' :: rest) := by
  induction reference generalizing text with
  | nil => rfl
  | cons c more ih =>
      rw [List.cons_append, List.reverse_cons, List.append_assoc, List.singleton_append,
        ← ih (List.not_mem_of_not_mem_cons hreference)]
      rw [scanReference]
      · rintro rfl
        exact hreference List.mem_cons_self

/-- The scan of a text that begins with a literal and a reference. -/
theorem scanLiteral_closed (hplain : Plain literal) (hreference : '}' ∉ reference)
    (rest : List Char) :
    scanLiteral [] (literal ++ (opening ++ (reference ++ '}' :: rest))) =
      (Template.reference reference).bind fun segment =>
        (scanLiteral [] rest).map fun segments =>
          literalSegment literal ++ segment :: segments := by
  rw [scanLiteral_opening hplain, scanReference_closing hreference, scanReference, List.append_nil,
    List.append_nil, List.reverse_reverse, List.reverse_reverse]
  cases Template.reference reference with
  | error fault => rfl
  | ok segment => cases scanLiteral [] rest <;> rfl

theorem scanLiteral_unclosed (hplain : Plain literal) (hafter : '}' ∉ after) :
    scanLiteral [] (literal ++ (opening ++ after)) = .error .unclosed := by
  rw [scanLiteral_opening hplain, scanReference_unclosed hafter]

/-! ## What is accepted -/

/-- The segment that a piece stands for. -/
inductive Gives : Piece → Segment → Prop
  | literal (text : List Char) : Gives (.literal text) (.literal (String.ofList text))
  | reference (text : List Char) (segment : Segment) (hnames : Names text segment) :
      Gives (.reference text) segment

/-- The segments of pieces after a literal. -/
theorem gives_ofLiteral_append_iff {more : List Piece} :
    List.Forall₂ Gives (Piece.ofLiteral literal ++ more) segments ↔
      ∃ others, List.Forall₂ Gives more others ∧ segments = literalSegment literal ++ others := by
  rw [Piece.ofLiteral, literalSegment]
  split
  · simp
  · rw [List.singleton_append, List.forall₂_cons_left_iff]
    constructor
    · rintro ⟨segment, others, hliteral, hothers, rfl⟩
      cases hliteral
      exact ⟨others, hothers, rfl⟩
    · rintro ⟨others, hothers, rfl⟩
      exact ⟨_, others, .literal literal, hothers, rfl⟩

theorem gives_ofLiteral_iff :
    List.Forall₂ Gives (Piece.ofLiteral text) segments ↔ segments = literalSegment text := by
  have hgives : List.Forall₂ Gives (Piece.ofLiteral text ++ []) segments ↔
      ∃ others, List.Forall₂ Gives [] others ∧ segments = literalSegment text ++ others :=
    gives_ofLiteral_append_iff
  simpa using hgives

theorem gives_reference_iff {more : List Piece} :
    List.Forall₂ Gives (.reference reference :: more) segments ↔
      ∃ segment others, Names reference segment ∧ List.Forall₂ Gives more others ∧
        segments = segment :: others := by
  rw [List.forall₂_cons_left_iff]
  constructor
  · rintro ⟨segment, others, hgives, hothers, rfl⟩
    cases hgives with
    | reference _ _ hnames => exact ⟨segment, others, hnames, hothers, rfl⟩
  · rintro ⟨segment, others, hnames, hothers, rfl⟩
    exact ⟨segment, others, .reference reference segment hnames, hothers, rfl⟩

/-- The scan gives the segments that the pieces of a text stand for. -/
theorem scanLiteral_eq_ok_iff :
    scanLiteral [] text = .ok segments ↔
      ∃ pieces, Decomposes pieces text ∧ List.Forall₂ Gives pieces segments := by
  induction text using scanInduction generalizing segments with
  | plain text hplain =>
      rw [scanLiteral_plain hplain, List.reverse_nil, List.nil_append]
      simp only [decomposes_plain_iff hplain, exists_eq_left, gives_ofLiteral_iff, Except.ok.injEq]
      exact eq_comm
  | unclosed literal after hplain hafter =>
      simp [scanLiteral_unclosed hplain hafter, not_decomposes_unclosed hplain hafter]
  | closed literal reference rest hplain hreference ih =>
      rw [scanLiteral_closed hplain hreference]
      constructor
      · intro hok
        cases hsegment : Template.reference reference with
        | error fault =>
            rw [hsegment] at hok
            exact nomatch hok
        | ok segment =>
            cases hrest : scanLiteral [] rest with
            | error fault =>
                rw [hsegment, hrest] at hok
                exact nomatch hok
            | ok others =>
                rw [hsegment, hrest] at hok
                obtain rfl := Except.ok.inj hok
                obtain ⟨more, hmore, hgives⟩ := ih.mp hrest
                refine ⟨_, hmore.cons_reference hplain hreference, ?_⟩
                apply gives_ofLiteral_append_iff.mpr
                exact ⟨_, gives_reference_iff.mpr
                  ⟨segment, others, reference_eq_ok_iff.mp hsegment, hgives, rfl⟩, rfl⟩
      · rintro ⟨pieces, hpieces, hgives⟩
        obtain ⟨more, rfl, hmore⟩ := (decomposes_closed_iff hplain hreference).mp hpieces
        obtain ⟨later, hlater, rfl⟩ := gives_ofLiteral_append_iff.mp hgives
        obtain ⟨segment, others, hnames, hothers, rfl⟩ := gives_reference_iff.mp hlater
        rw [hnames.reference_eq, ih.mpr ⟨more, hmore, hothers⟩]
        rfl

/-- The text of a reference names something: when it is trimmed it is not empty, opens no
reference, and is not the mark of a header with blanks only. -/
structure Proper (reference : List Char) : Prop where
  filled : Text.trimChars reference ≠ []
  plain : Plain (Text.trimChars reference)
  named : ∀ blanks, Text.trimChars reference = headerMark ++ blanks →
    ∃ c ∈ blanks, Text.isBlank c = false

theorem proper_iff : Proper reference ↔ ∃ segment, Names reference segment := by
  constructor
  · rintro ⟨hfilled, hplain, hnamed⟩
    by_cases hmark : headerMark <+: Text.trimChars reference
    · obtain ⟨name, hname⟩ := hmark
      exact ⟨_, .header name hplain hname.symm (hnamed name hname.symm)⟩
    · exact ⟨_, .field hfilled hplain hmark⟩
  · rintro ⟨segment, hnames⟩
    cases hnames with
    | field hname hplain hmark =>
        exact ⟨hname, hplain, fun blanks hblanks => absurd ⟨blanks, hblanks.symm⟩ hmark⟩
    | header name hplain hmark hname =>
        refine ⟨?_, hplain, ?_⟩
        · rw [hmark]
          exact List.append_ne_nil_of_left_ne_nil (by decide) name
        · intro blanks hblanks
          rwa [← List.append_cancel_left (hmark.symm.trans hblanks)]

/-- Pieces stand for segments just when every reference among them names something. -/
theorem exists_gives_iff :
    (∃ segments, List.Forall₂ Gives pieces segments) ↔
      ∀ reference, Piece.reference reference ∈ pieces → Proper reference := by
  induction pieces with
  | nil => simp
  | cons piece more ih =>
      constructor
      · rintro ⟨segments, hgives⟩ reference hmem
        obtain ⟨segment, others, hfirst, hothers, rfl⟩ := List.forall₂_cons_left_iff.mp hgives
        rcases List.mem_cons.mp hmem with rfl | hlater
        · cases hfirst with
          | reference _ _ hnames => exact proper_iff.mpr ⟨segment, hnames⟩
        · exact ih.mp ⟨others, hothers⟩ reference hlater
      · intro hproper
        obtain ⟨others, hothers⟩ := ih.mpr fun reference hmem =>
          hproper reference (List.mem_cons_of_mem piece hmem)
        cases piece with
        | literal text => exact ⟨_, .cons (.literal text) hothers⟩
        | reference text =>
            obtain ⟨segment, hnames⟩ := proper_iff.mp (hproper text List.mem_cons_self)
            exact ⟨_, .cons (.reference text segment hnames) hothers⟩

/-! ## What is refused -/

/-- What is wrong with the reference that a text continues after its opening. -/
inductive Spoils (after : List Char) : TemplateFault → Prop
  | unclosed (hafter : '}' ∉ after) : Spoils after .unclosed
  | faulty (reference rest : List Char) (fault : TemplateFault)
      (hafter : after = reference ++ '}' :: rest) (hclosed : '}' ∉ reference)
      (hfaulty : Faulty reference fault) : Spoils after fault

/-- The leftmost reference of a text that is not closed or names nothing. -/
structure Leftmost (text : List Char) (fault : TemplateFault) (pieces : List Piece)
    (before after : List Char) : Prop where
  text_eq : text = before ++ (opening ++ after)
  before_eq : Decomposes pieces before
  proper : ∀ reference, Piece.reference reference ∈ pieces → Proper reference
  spoils : Spoils after fault

/-- A spoilt reference right after a literal decides the fault. -/
theorem Spoils.scanLiteral_eq (hspoils : Spoils after fault) (hplain : Plain literal) :
    scanLiteral [] (literal ++ (opening ++ after)) = .error fault := by
  cases hspoils with
  | unclosed hafter => exact scanLiteral_unclosed hplain hafter
  | faulty reference rest _ hafter hclosed hfaulty =>
      rw [hafter, scanLiteral_closed hplain hclosed, hfaulty.reference_eq]
      rfl

theorem Leftmost.scanLiteral_eq {before : List Char}
    (hleftmost : Leftmost text fault pieces before after) :
    scanLiteral [] text = .error fault := by
  obtain ⟨rfl, hpieces, hproper, hspoils⟩ := hleftmost
  -- On the number of pieces: a reference goes together with the literal before it.
  induction hlength : pieces.length using Nat.strongRecOn generalizing pieces before with
  | ind length ih =>
      rcases hpieces.cases with ⟨hplain, -⟩ |
        ⟨literal, reference, more, rest, hplain, hreference, rfl, rfl, hmore⟩
      · exact hspoils.scanLiteral_eq hplain
      · obtain ⟨segment, hnames⟩ := proper_iff.mp (hproper reference (by simp))
        have hrest : scanLiteral [] (rest ++ (opening ++ after)) = .error fault := by
          refine ih more.length ?_ hmore (fun other hother => hproper other (by simp [hother])) rfl
          rw [← hlength]
          simp only [List.length_append, List.length_cons]
          omega
        have htext : literal ++ (opening ++ (reference ++ '}' :: rest)) ++ (opening ++ after) =
            literal ++ (opening ++ (reference ++ '}' :: (rest ++ (opening ++ after)))) := by
          simp
        rw [htext, scanLiteral_closed hplain hreference, hnames.reference_eq, hrest]
        rfl

/-- A text without a leftmost spoilt reference is taken apart. -/
theorem decomposes_or_leftmost (text : List Char) :
    (∃ pieces, Decomposes pieces text ∧
      ∀ reference, Piece.reference reference ∈ pieces → Proper reference) ∨
    ∃ fault pieces before after, Leftmost text fault pieces before after := by
  induction text using scanInduction with
  | plain text hplain =>
      left
      refine ⟨_, decomposes_ofLiteral hplain, ?_⟩
      exact exists_gives_iff.mp ⟨_, gives_ofLiteral_iff.mpr rfl⟩
  | unclosed literal after hplain hafter =>
      right
      refine ⟨_, _, literal, after, rfl, decomposes_ofLiteral hplain, ?_, .unclosed hafter⟩
      exact exists_gives_iff.mp ⟨_, gives_ofLiteral_iff.mpr rfl⟩
  | closed literal reference rest hplain hreference ih =>
      have hliteral := exists_gives_iff.mp
        ⟨_, gives_ofLiteral_iff.mpr (Eq.refl (literalSegment literal))⟩
      rcases names_or_faulty reference with ⟨segment, hnames⟩ | ⟨fault, hfaulty⟩
      · have hproper : ∀ {more : List Piece},
            (∀ other, Piece.reference other ∈ more → Proper other) →
            ∀ other, Piece.reference other ∈
              Piece.ofLiteral literal ++ .reference reference :: more → Proper other := by
          intro more hmore other hother
          rcases List.mem_append.mp hother with hfirst | hlater
          · exact hliteral other hfirst
          · rcases List.mem_cons.mp hlater with hhere | hthere
            · rw [Piece.reference.inj hhere]
              exact proper_iff.mpr ⟨segment, hnames⟩
            · exact hmore other hthere
        rcases ih with ⟨more, hmore, hothers⟩ | ⟨fault, more, before, after, hleftmost⟩
        · exact .inl ⟨_, hmore.cons_reference hplain hreference, hproper hothers⟩
        · -- The spoilt reference stays the leftmost one, since this one names something.
          right
          obtain ⟨rfl, hmore, hothers, hspoils⟩ := hleftmost
          refine ⟨fault, _, _, after, ?_, hmore.cons_reference hplain hreference,
            hproper hothers, hspoils⟩
          simp
      · right
        exact ⟨fault, _, literal, _, rfl, decomposes_ofLiteral hplain, hliteral,
          .faulty reference rest fault rfl hreference hfaulty⟩

theorem scanLiteral_eq_error_iff :
    scanLiteral [] text = .error fault ↔
      ∃ pieces before after, Leftmost text fault pieces before after := by
  constructor
  · intro herror
    rcases decomposes_or_leftmost text with ⟨pieces, hpieces, hproper⟩ |
      ⟨other, pieces, before, after, hleftmost⟩
    · obtain ⟨segments, hgives⟩ := exists_gives_iff.mpr hproper
      exact nomatch herror.symm.trans (scanLiteral_eq_ok_iff.mpr ⟨pieces, hpieces, hgives⟩)
    · rw [Except.error.inj (herror.symm.trans hleftmost.scanLiteral_eq)]
      exact ⟨pieces, before, after, hleftmost⟩
  · rintro ⟨pieces, before, after, hleftmost⟩
    exact hleftmost.scanLiteral_eq

end TableRouting.Template
