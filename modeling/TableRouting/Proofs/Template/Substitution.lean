import TableRouting.Proofs.Batch.Transaction
import TableRouting.Proofs.Cache.Bindings
import TableRouting.Proofs.Template.Printing
import TableRouting.Proofs.Text.Folding
import TableRouting.Template.Resolve

/-!
# Table names by substitution

A template gives a table name by putting what its references stand for in their places,
trimming the text and lower-casing it unless case matters.  The leftmost reference that
stands for nothing decides the failure.  Nothing else of a record has a say: what is put
in place is not read again.
-/

namespace TableRouting

namespace Template

variable {record other : Record} {reference : List Char} {pieces more : List Piece}
  {segment : Segment} {segments : List Segment} {text : String} {filled : List Char}
  {error : EvaluationError}

/-- The text of a value that has one: a string, a number or a truth value. -/
inductive Scalar : Json → String → Prop
  | text (s : String) : Scalar (.str s) s
  | number (n : Json.Number) : Scalar (.num n) (String.ofList n.text)
  | yes : Scalar (.bool true) "true"
  | no : Scalar (.bool false) "false"

/-- What a reference stands for in a record. -/
inductive Stands (record : Record) (reference : List Char) : String → Prop
  | field {path : String} {value : Json} {text : String} (hnames : Names reference (.field path))
      (hvalue : record.get? path = some value) (htext : Scalar value text) :
      Stands record reference text
  | header {name text : String} (hnames : Names reference (.header name))
      (hvalue : record.header? name = some text) : Stands record reference text

/-- Why a reference stands for nothing in a record. -/
inductive Lacks (record : Record) (reference : List Char) : EvaluationError → Prop
  | field {path : String} (hnames : Names reference (.field path))
      (hvalue : record.get? path = none) : Lacks record reference (.missingField path)
  | scalar {path : String} {value : Json} (hnames : Names reference (.field path))
      (hvalue : record.get? path = some value) (htext : ∀ text, ¬ Scalar value text) :
      Lacks record reference (.notScalar path)
  | header {name : String} (hnames : Names reference (.header name))
      (hvalue : record.header? name = none) : Lacks record reference (.missingHeader name)

/-- The text of pieces, with what each reference stands for in its place. -/
inductive Filled (record : Record) : List Piece → List Char → Prop
  | nil : Filled record [] []
  | literal {more : List Piece} {rest : List Char} (text : List Char)
      (hmore : Filled record more rest) : Filled record (.literal text :: more) (text ++ rest)
  | reference {more : List Piece} {rest reference : List Char} {text : String}
      (htext : Stands record reference text) (hmore : Filled record more rest) :
      Filled record (.reference reference :: more) (text.toList ++ rest)

/-- The leftmost reference that stands for nothing in a record. -/
inductive Stumbles (record : Record) (pieces : List Piece) (error : EvaluationError) : Prop
  | intro (before : List Piece) (reference : List Char) (after : List Piece)
      (hpieces : pieces = before ++ .reference reference :: after)
      (hbefore : ∀ earlier, Piece.reference earlier ∈ before → ∃ text, Stands record earlier text)
      (hlacks : Lacks record reference error)

/-! ## Single references -/

theorem scalarText?_eq_some_iff {value : Json} :
    scalarText? value = some text ↔ Scalar value text := by
  constructor
  · intro hsome
    cases value with
    | str s => exact Option.some.inj hsome ▸ .text s
    | num n => exact Option.some.inj hsome ▸ .number n
    | bool b => cases b <;> exact Option.some.inj hsome ▸ by constructor
    | null | arr items | obj fields => exact nomatch hsome
  · rintro (_ | _ | _ | _) <;> rfl

theorem scalarText?_eq_none_iff {value : Json} :
    scalarText? value = none ↔ ∀ text, ¬ Scalar value text := by
  simp only [Option.eq_none_iff_forall_ne_some, Ne, scalarText?_eq_some_iff]

/-- A reference names one thing. -/
theorem Names.unique {another : Segment} (hnames : Names reference segment)
    (hanother : Names reference another) : segment = another :=
  Except.ok.inj (hnames.reference_eq.symm.trans hanother.reference_eq)

theorem Names.segmentText_eq_ok_iff (hnames : Names reference segment) :
    segmentText record segment = .ok text ↔ Stands record reference text := by
  constructor
  · intro hok
    cases segment with
    | literal literal => exact nomatch hnames
    | field path =>
        rw [segmentText] at hok
        split at hok
        · exact nomatch hok
        · rename_i value hvalue
          split at hok
          · exact nomatch hok
          · rename_i given hgiven
            obtain rfl := Except.ok.inj hok
            exact .field hnames hvalue (scalarText?_eq_some_iff.mp hgiven)
    | header name =>
        rw [segmentText] at hok
        split at hok
        · exact nomatch hok
        · rename_i given hgiven
          obtain rfl := Except.ok.inj hok
          exact .header hnames hgiven
  · rintro (⟨hfield, hvalue, htext⟩ | ⟨hheader, hvalue⟩)
    · obtain rfl := hnames.unique hfield
      simp only [segmentText, hvalue, scalarText?_eq_some_iff.mpr htext]
    · obtain rfl := hnames.unique hheader
      simp only [segmentText, hvalue]

theorem Names.segmentText_eq_error_iff (hnames : Names reference segment) :
    segmentText record segment = .error error ↔ Lacks record reference error := by
  constructor
  · intro herror
    cases segment with
    | literal literal => exact nomatch hnames
    | field path =>
        rw [segmentText] at herror
        split at herror
        · rename_i hvalue
          obtain rfl := Except.error.inj herror
          exact .field hnames hvalue
        · rename_i value hvalue
          split at herror
          · rename_i hnone
            obtain rfl := Except.error.inj herror
            exact .scalar hnames hvalue (scalarText?_eq_none_iff.mp hnone)
          · exact nomatch herror
    | header name =>
        rw [segmentText] at herror
        split at herror
        · rename_i hvalue
          obtain rfl := Except.error.inj herror
          exact .header hnames hvalue
        · exact nomatch herror
  · rintro (⟨hfield, hvalue⟩ | ⟨hfield, hvalue, htext⟩ | ⟨hheader, hvalue⟩)
    · obtain rfl := hnames.unique hfield
      simp only [segmentText, hvalue]
    · obtain rfl := hnames.unique hfield
      simp only [segmentText, hvalue, scalarText?_eq_none_iff.mpr htext]
    · obtain rfl := hnames.unique hheader
      simp only [segmentText, hvalue]

/-! ## Whole templates -/

theorem substitute_cons_eq_ok_iff :
    substitute record (segment :: segments) = .ok text ↔
      ∃ first rest, segmentText record segment = .ok first ∧
        substitute record segments = .ok rest ∧ text = first ++ rest := by
  rw [substitute]
  cases segmentText record segment with
  | error e => simp
  | ok first => cases substitute record segments <;> simp [eq_comm]

theorem substitute_cons_eq_error_iff :
    substitute record (segment :: segments) = .error error ↔
      segmentText record segment = .error error ∨
        (∃ first, segmentText record segment = .ok first) ∧
          substitute record segments = .error error := by
  rw [substitute]
  cases segmentText record segment with
  | error e => simp
  | ok first => cases substitute record segments <;> simp

/-- The segments of pieces give the text of the pieces with the references filled in. -/
theorem substitute_eq_ok_iff (hgives : List.Forall₂ Gives pieces segments) :
    substitute record segments = .ok text ↔ Filled record pieces text.toList := by
  induction hgives generalizing text with
  | nil =>
      rw [substitute, Except.ok.injEq]
      constructor
      · rintro rfl
        exact .nil
      · intro hfilled
        generalize hchars : text.toList = chars at hfilled
        cases hfilled
        exact (String.toList_eq_nil_iff.mp hchars).symm
  | cons hpiece hmore ih =>
      rw [substitute_cons_eq_ok_iff]
      constructor
      · rintro ⟨first, rest, hfirst, hrest, rfl⟩
        rw [String.toList_append]
        cases hpiece with
        | literal literal =>
            obtain rfl := Except.ok.inj hfirst
            rw [String.toList_ofList]
            exact .literal literal (ih.mp hrest)
        | reference reference _ hnames =>
            exact .reference (hnames.segmentText_eq_ok_iff.mp hfirst) (ih.mp hrest)
      · intro hfilled
        generalize hchars : text.toList = chars at hfilled
        cases hfilled with
        | literal literal hrest =>
            rename_i rest
            cases hpiece
            refine ⟨String.ofList literal, String.ofList rest, rfl, ih.mpr ?_, ?_⟩
            · rwa [String.toList_ofList]
            · rw [← String.toList_inj, hchars, String.toList_append, String.toList_ofList,
                String.toList_ofList]
        | reference htext hrest =>
            rename_i rest _ first
            cases hpiece with
            | reference _ _ hnames =>
                refine ⟨first, String.ofList rest, hnames.segmentText_eq_ok_iff.mpr htext,
                  ih.mpr ?_, ?_⟩
                · rwa [String.toList_ofList]
                · rw [← String.toList_inj, hchars, String.toList_append, String.toList_ofList]

theorem not_stumbles_nil : ¬ Stumbles record [] error := by
  rintro ⟨before, reference, after, hpieces, -, -⟩
  exact List.cons_ne_nil _ _ (List.append_eq_nil_iff.mp hpieces.symm).2

theorem stumbles_literal_iff (literal : List Char) :
    Stumbles record (.literal literal :: more) error ↔ Stumbles record more error := by
  constructor
  · rintro ⟨before, reference, after, hpieces, hbefore, hlacks⟩
    cases before with
    | nil => exact nomatch (List.cons.inj hpieces).1
    | cons piece before =>
        refine ⟨before, reference, after, (List.cons.inj hpieces).2, ?_, hlacks⟩
        exact fun earlier hearlier => hbefore earlier (List.mem_cons_of_mem piece hearlier)
  · rintro ⟨before, reference, after, rfl, hbefore, hlacks⟩
    refine ⟨.literal literal :: before, reference, after, rfl, ?_, hlacks⟩
    intro earlier hearlier
    exact hbefore earlier ((List.mem_cons.mp hearlier).resolve_left nofun)

theorem stumbles_reference_iff :
    Stumbles record (.reference reference :: more) error ↔
      Lacks record reference error ∨
        (∃ text, Stands record reference text) ∧ Stumbles record more error := by
  constructor
  · rintro ⟨before, other, after, hpieces, hbefore, hlacks⟩
    cases before with
    | nil =>
        obtain rfl := Piece.reference.inj (List.cons.inj hpieces).1
        exact .inl hlacks
    | cons piece before =>
        obtain ⟨rfl, rfl⟩ := List.cons.inj hpieces
        refine .inr ⟨hbefore reference List.mem_cons_self, before, other, after, rfl, ?_, hlacks⟩
        exact fun earlier hearlier => hbefore earlier (List.mem_cons_of_mem _ hearlier)
  · rintro (hlacks | ⟨hstands, before, other, after, rfl, hbefore, hlacks⟩)
    · exact ⟨[], reference, more, rfl, fun _ hmem => absurd hmem List.not_mem_nil, hlacks⟩
    · refine ⟨.reference reference :: before, other, after, rfl, ?_, hlacks⟩
      intro earlier hearlier
      rcases List.mem_cons.mp hearlier with hhere | hlater
      · rwa [Piece.reference.inj hhere]
      · exact hbefore earlier hlater

/-- The leftmost reference that stands for nothing decides how the segments fail. -/
theorem substitute_eq_error_iff (hgives : List.Forall₂ Gives pieces segments) :
    substitute record segments = .error error ↔ Stumbles record pieces error := by
  induction hgives with
  | nil => exact iff_of_false nofun not_stumbles_nil
  | cons hpiece hmore ih =>
      rw [substitute_cons_eq_error_iff, ih]
      cases hpiece with
      | literal literal =>
          rw [stumbles_literal_iff]
          constructor
          · rintro (hfails | ⟨-, hstumbles⟩)
            · exact nomatch hfails
            · exact hstumbles
          · exact fun hstumbles => .inr ⟨⟨_, rfl⟩, hstumbles⟩
      | reference reference _ hnames =>
          simp only [stumbles_reference_iff, hnames.segmentText_eq_error_iff,
            hnames.segmentText_eq_ok_iff]

/-- The references of pieces stand for something just when there is a text with what they
stand for in their places. -/
theorem exists_filled_iff :
    (∃ filled, Filled record pieces filled) ↔
      ∀ reference, Piece.reference reference ∈ pieces → ∃ text, Stands record reference text := by
  induction pieces with
  | nil => exact iff_of_true ⟨[], .nil⟩ fun _ hmem => absurd hmem List.not_mem_nil
  | cons piece more ih =>
      constructor
      · rintro ⟨filled, hfilled⟩ reference hmem
        cases hfilled with
        | literal text hmore =>
            exact ih.mp ⟨_, hmore⟩ reference ((List.mem_cons.mp hmem).resolve_left nofun)
        | reference htext hmore =>
            rcases List.mem_cons.mp hmem with hhere | hlater
            · rw [Piece.reference.inj hhere]
              exact ⟨_, htext⟩
            · exact ih.mp ⟨_, hmore⟩ reference hlater
      · intro hstands
        obtain ⟨rest, hrest⟩ := ih.mpr fun reference hmem =>
          hstands reference (List.mem_cons_of_mem piece hmem)
        cases piece with
        | literal text => exact ⟨_, .literal text hrest⟩
        | reference reference =>
            obtain ⟨text, htext⟩ := hstands reference List.mem_cons_self
            exact ⟨_, .reference htext hrest⟩

/-- Only what the references stand for counts. -/
theorem Filled.of_stands (hfilled : Filled record pieces filled)
    (hstands : ∀ reference, Piece.reference reference ∈ pieces →
      ∀ text, Stands record reference text → Stands other reference text) :
    Filled other pieces filled := by
  induction hfilled with
  | nil => exact .nil
  | literal text hmore ih =>
      exact .literal text (ih fun reference hmem =>
        hstands reference (List.mem_cons_of_mem _ hmem))
  | reference htext hmore ih =>
      refine .reference (hstands _ List.mem_cons_self _ htext) (ih fun reference hmem => ?_)
      exact hstands reference (List.mem_cons_of_mem _ hmem)

/-! ## Names -/

/-- A text as a name: trimmed, and lower-cased unless case matters. -/
def spelled (caseSensitive : Bool) (text : List Char) : List Char :=
  if caseSensitive then Text.trimChars text else Text.lowerChars (Text.trimChars text)

/-- Texts agree up to the blanks at their ends, and up to case unless case matters. -/
structure Agree (caseSensitive : Bool) (first second : List Char) : Prop where
  sensitive : caseSensitive = true → Text.trimChars first = Text.trimChars second
  insensitive : caseSensitive = false →
    Text.lowerChars (Text.trimChars first) = Text.lowerChars (Text.trimChars second)

theorem spelled_eq_spelled_iff {caseSensitive : Bool} {first second : List Char} :
    spelled caseSensitive first = spelled caseSensitive second ↔
      Agree caseSensitive first second := by
  constructor
  · intro hsame
    constructor
    · rintro rfl
      exact hsame
    · rintro rfl
      exact hsame
  · intro hagree
    cases caseSensitive with
    | true => exact hagree.sensitive rfl
    | false => exact hagree.insensitive rfl

theorem spelled_eq_nil_iff {caseSensitive : Bool} :
    spelled caseSensitive filled = [] ↔ Text.trimChars filled = [] := by
  cases caseSensitive with
  | true => exact Iff.rfl
  | false => exact Text.lowerChars_eq_nil_iff

/-- A name has no blanks at its ends. -/
theorem trimChars_spelled (caseSensitive : Bool) (filled : List Char) :
    Text.trimChars (spelled caseSensitive filled) = spelled caseSensitive filled := by
  have htrimmed := Text.trimChars_trimChars filled
  cases caseSensitive with
  | true => exact htrimmed
  | false => exact Text.trimChars_lowerChars htrimmed

/-- With the references of a record filled in, the pieces have a text that is not blank. -/
structure Yields (record : Record) (pieces : List Piece) (filled : List Char) : Prop where
  fills : Filled record pieces filled
  solid : Text.trimChars filled ≠ []

variable {source name : String} {caseSensitive : Bool} {template : Template}

theorem isEmpty_trim_iff (text : String) :
    (Text.trim text).isEmpty = true ↔ Text.trimChars text.toList = [] := by
  rw [String.isEmpty_iff, ← String.toList_eq_nil_iff, Text.toList_trim]

theorem resolve_eq_ok_iff (hgives : List.Forall₂ Gives pieces segments) :
    resolve ⟨source, segments, caseSensitive⟩ record = .ok name ↔
      ∃ filled, Yields record pieces filled ∧ name.toList = spelled caseSensitive filled := by
  have hspelled (text : String) :
      (if caseSensitive then Text.trim text else Text.lower (Text.trim text)).toList =
        spelled caseSensitive text.toList := by
    cases caseSensitive <;> simp [spelled]
  rw [resolve]
  constructor
  · intro hok
    split at hok
    · exact nomatch hok
    · rename_i text htext
      simp only at hok
      split at hok
      · exact nomatch hok
      · rename_i hsolid
        obtain rfl := Except.ok.inj hok
        have hfilled := (substitute_eq_ok_iff hgives).mp htext
        exact ⟨text.toList, ⟨hfilled, mt (isEmpty_trim_iff text).mpr hsolid⟩, hspelled text⟩
  · rintro ⟨filled, ⟨hfilled, hsolid⟩, hname⟩
    rw [← String.toList_ofList (l := filled)] at hfilled hsolid hname
    rw [(substitute_eq_ok_iff hgives).mpr hfilled]
    simp only [mt (isEmpty_trim_iff _).mp hsolid, Bool.false_eq_true, if_false]
    rw [Except.ok.injEq, ← String.toList_inj, hname, hspelled]

theorem resolve_eq_error_iff (hgives : List.Forall₂ Gives pieces segments) :
    resolve ⟨source, segments, caseSensitive⟩ record = .error error ↔
      Stumbles record pieces error ∨
        (∃ filled, Filled record pieces filled ∧ Text.trimChars filled = []) ∧
          error = .emptyTableName source := by
  rw [← substitute_eq_error_iff hgives, resolve]
  cases hsubstitute : substitute record segments with
  | error e =>
      have hnone : ¬ ∃ filled, Filled record pieces filled ∧ Text.trimChars filled = [] := by
        rintro ⟨filled, hfilled, -⟩
        rw [← String.toList_ofList (l := filled), ← substitute_eq_ok_iff hgives,
          hsubstitute] at hfilled
        exact nomatch hfilled
      simp [hnone]
  | ok text =>
      have hfilled := (substitute_eq_ok_iff hgives).mp hsubstitute
      have hblank : (∃ filled, Filled record pieces filled ∧ Text.trimChars filled = []) ↔
          Text.trimChars text.toList = [] := by
        constructor
        · rintro ⟨filled, hother, hnil⟩
          rw [← String.toList_ofList (l := filled), ← substitute_eq_ok_iff hgives,
            hsubstitute] at hother
          rwa [Except.ok.inj hother, String.toList_ofList]
        · exact fun hnil => ⟨_, hfilled, hnil⟩
      rw [hblank, ← isEmpty_trim_iff]
      by_cases hnil : (Text.trim text).isEmpty = true
      · simp [hnil, eq_comm]
      · simp [hnil]

/-- A template whose source is made of these pieces names tables by substitution. -/
structure Substitutes (source : String) (caseSensitive : Bool) (template : Template)
    (pieces : List Piece) : Prop where
  /-- A record has a table just when every reference stands for something and the text is not
  blank. -/
  answers : ∀ record, (∃ name, template.resolve record = .ok name) ↔
    (∀ reference, Piece.reference reference ∈ pieces → ∃ text, Stands record reference text) ∧
      ∀ filled, Filled record pieces filled → Text.trimChars filled ≠ []
  /-- The name of the table is the text, trimmed, and lower-cased unless case matters. -/
  names : ∀ record name, template.resolve record = .ok name ↔
    ∃ filled, Yields record pieces filled ∧ name.toList = spelled caseSensitive filled
  /-- The leftmost reference that stands for nothing decides the failure, or else the text is
  blank. -/
  failures : ∀ record error, template.resolve record = .error error ↔
    Stumbles record pieces error ∨
      (∃ filled, Filled record pieces filled ∧ Text.trimChars filled = []) ∧
        error = .emptyTableName source
  /-- A record has one text, and two whose references stand for the same have one table: what
  is put in place is not read again. -/
  unread : ∀ record other filled another, Filled record pieces filled →
    Filled other pieces another →
    (∀ reference, Piece.reference reference ∈ pieces →
      ∀ text, Stands record reference text → Stands other reference text) →
    filled = another ∧ template.resolve record = template.resolve other
  trimmed : ∀ record name, template.resolve record = .ok name →
    Text.trim name = name ∧ name ≠ ""
  /-- Two records are in one group just when their texts agree. -/
  groups : ∀ (m : Type → Type) (κ ω : Type) (coordinator : Coordinator m κ ω),
    coordinator.resolve = template.resolve → ∀ batch record other filled another,
      record ∈ batch → other ∈ batch → Yields record pieces filled → Yields other pieces another →
      ((∃ group ∈ Coordinator.groupByTable (coordinator.resolved batch),
          record ∈ group.2 ∧ other ∈ group.2) ↔ Agree caseSensitive filled another)
  /-- While their writers are cached, two records have one writer just when their texts
  agree. -/
  writers : ∀ (ω : Type) (outside : Outside ω) (limits : CacheLimits) (clock : Nat)
    (events : List (CallEvent ω)) (shared : SharedCache ω),
    SharedCache.Run outside (.start limits clock) events shared →
    ∀ record other filled another name place id handle,
      Yields record pieces filled → Yields other pieces another →
      template.resolve record = .ok name → template.resolve other = .ok place →
      (shared.cache.lookup name shared.clock).1 = .hit id →
      (shared.cache.lookup place shared.clock).1 = .hit handle →
      (id = handle ↔ Agree caseSensitive filled another)
  /-- A writer that is found for two records, at whatever times, is found for texts that
  agree. -/
  apart : ∀ (ω : Type) (outside : Outside ω) (limits : CacheLimits) (clock : Nat)
    (events : List (CallEvent ω)) (shared : SharedCache ω),
    SharedCache.Run outside (.start limits clock) events shared →
    ∀ record other filled another name place id first second,
      Yields record pieces filled → Yields other pieces another →
      template.resolve record = .ok name → template.resolve other = .ok place →
      .looked first name (.hit id) ∈ events → .looked second place (.hit id) ∈ events →
      Agree caseSensitive filled another

/-- A record stands for one text. -/
theorem Filled.unique (hgives : List.Forall₂ Gives pieces segments) {another : List Char}
    (hfilled : Filled record pieces filled) (hanother : Filled record pieces another) :
    filled = another := by
  rw [← String.toList_ofList (l := filled), ← substitute_eq_ok_iff hgives] at hfilled
  rw [← String.toList_ofList (l := another), ← substitute_eq_ok_iff hgives] at hanother
  exact String.ofList_injective (Except.ok.inj (hfilled.symm.trans hanother))

/-- Two records have tables of one name just when their texts agree. -/
theorem resolve_eq_resolve_iff (hgives : List.Forall₂ Gives pieces segments) {place : String}
    {another : List Char} (hyields : Yields record pieces filled)
    (hother : Yields other pieces another)
    (hname : resolve ⟨source, segments, caseSensitive⟩ record = .ok name)
    (hplace : resolve ⟨source, segments, caseSensitive⟩ other = .ok place) :
    name = place ↔ Agree caseSensitive filled another := by
  obtain ⟨text, htext, hname⟩ := (resolve_eq_ok_iff hgives).mp hname
  obtain ⟨more, hmore, hplace⟩ := (resolve_eq_ok_iff hgives).mp hplace
  rw [hyields.fills.unique hgives htext.fills, hother.fills.unique hgives hmore.fills,
    ← spelled_eq_spelled_iff, ← hname, ← hplace, String.toList_inj]

/-- What a record yields is the name of its table. -/
theorem Yields.exists_resolve (hgives : List.Forall₂ Gives pieces segments) (source : String)
    (caseSensitive : Bool) (hyields : Yields record pieces filled) :
    ∃ name, resolve ⟨source, segments, caseSensitive⟩ record = .ok name :=
  ⟨String.ofList (spelled caseSensitive filled),
    (resolve_eq_ok_iff hgives).mpr ⟨filled, hyields, String.toList_ofList⟩⟩

/-- Two records of a batch are in one group just when they have tables of one name. -/
theorem mem_groupByTable_iff {m : Type → Type} {κ ω : Type} {coordinator : Coordinator m κ ω}
    {batch : List Record} {place : String} (hrecord : record ∈ batch) (hother : other ∈ batch)
    (hname : coordinator.resolve record = .ok name)
    (hplace : coordinator.resolve other = .ok place) :
    (∃ group ∈ Coordinator.groupByTable (coordinator.resolved batch),
      record ∈ group.2 ∧ other ∈ group.2) ↔ name = place := by
  have hmember {table : String} {records : List Record} {found : Record}
      (hgroup : (table, records) ∈ Coordinator.groupByTable (coordinator.resolved batch)) :
      found ∈ records ↔ found ∈ batch ∧ coordinator.resolve found = .ok table := by
    rw [(Grouping.mem_group.mp hgroup).2, ← Coordinator.mem_resolved]
    simp
  constructor
  · rintro ⟨⟨table, records⟩, hgroup, hfirst, hsecond⟩
    have hsame := ((hmember hgroup).mp hfirst).2
    have hagain := ((hmember hgroup).mp hsecond).2
    rw [hname] at hsame
    rw [hplace] at hagain
    exact (Except.ok.inj hsame).trans (Except.ok.inj hagain).symm
  · rintro rfl
    have hresolved := Coordinator.mem_resolved.mpr ⟨hrecord, hname⟩
    have hkey := List.mem_map_of_mem (f := Prod.fst) hresolved
    have hgroup := Grouping.mem_group.mpr ⟨hkey, rfl⟩
    exact ⟨_, hgroup, (hmember hgroup).mpr ⟨hrecord, hname⟩,
      (hmember hgroup).mpr ⟨hother, hplace⟩⟩

/-- Two tables that are looked up at one moment have one writer just when they are one
table. -/
theorem hit_eq_hit_iff {ω : Type} {limits : CacheLimits} {shared : SharedCache ω}
    {place : String} {id handle : Nat} (hsound : SharedCache.Sound limits shared)
    (hfirst : (shared.cache.lookup name shared.clock).1 = .hit id)
    (hsecond : (shared.cache.lookup place shared.clock).1 = .hit handle) :
    id = handle ↔ name = place := by
  have hname := hsound.looks name
  have hplace := hsound.looks place
  rw [hfirst] at hname
  rw [hsecond] at hplace
  constructor
  · rintro rfl
    exact (hname.isOpen_of_hit hsound.coherent).isBound.unique
      (hplace.isOpen_of_hit hsound.coherent).isBound
  · rintro rfl
    exact WriterCache.Lookup.hit.inj (hfirst.symm.trans hsecond)

theorem substitutes_of_gives (hgives : List.Forall₂ Gives pieces segments) (source : String)
    (caseSensitive : Bool) :
    Substitutes source caseSensitive ⟨source, segments, caseSensitive⟩ pieces where
  answers record := by
    rw [← exists_filled_iff]
    constructor
    · rintro ⟨name, hname⟩
      obtain ⟨filled, ⟨hfilled, hsolid⟩, -⟩ := (resolve_eq_ok_iff hgives).mp hname
      exact ⟨⟨filled, hfilled⟩, fun another hanother => hfilled.unique hgives hanother ▸ hsolid⟩
    · rintro ⟨⟨filled, hfilled⟩, hsolid⟩
      exact Yields.exists_resolve hgives source caseSensitive ⟨hfilled, hsolid filled hfilled⟩
  names record name := resolve_eq_ok_iff hgives
  failures record error := resolve_eq_error_iff hgives
  unread record other filled another hfilled hanother hstands := by
    have hsame := (hfilled.of_stands hstands).unique hgives hanother
    subst hsame
    refine ⟨rfl, ?_⟩
    rw [← String.toList_ofList (l := filled)] at hfilled hanother
    rw [resolve, resolve, (substitute_eq_ok_iff hgives).mpr hfilled,
      (substitute_eq_ok_iff hgives).mpr hanother]
  trimmed record name hname := by
    obtain ⟨filled, ⟨-, hsolid⟩, hname⟩ := (resolve_eq_ok_iff hgives).mp hname
    constructor
    · rw [← String.toList_inj, Text.toList_trim, hname, trimChars_spelled]
    · rw [Ne, ← String.toList_eq_nil_iff, hname, spelled_eq_nil_iff]
      exact hsolid
  groups m κ ω coordinator hresolve batch record other filled another hrecord hother hyields
      hanother := by
    obtain ⟨name, hname⟩ := hyields.exists_resolve hgives source caseSensitive
    obtain ⟨place, hplace⟩ := hanother.exists_resolve hgives source caseSensitive
    rw [← resolve_eq_resolve_iff hgives hyields hanother hname hplace]
    rw [← hresolve] at hname hplace
    exact mem_groupByTable_iff hrecord hother hname hplace
  writers ω outside limits clock events shared hrun record other filled another name place id
      handle hyields hanother hname hplace hfirst hsecond := by
    rw [← resolve_eq_resolve_iff hgives hyields hanother hname hplace]
    exact hit_eq_hit_iff ((SharedCache.Sound.start limits clock).run hrun) hfirst hsecond
  apart ω outside limits clock events shared hrun record other filled another name place id
      first second hyields hanother hname hplace hfirst hsecond := by
    rw [← resolve_eq_resolve_iff hgives hyields hanother hname hplace]
    exact hrun.table_unique hfirst hsecond

/-- A compiled template names tables by plain substitution. -/
theorem compile_substitutes (hcompile : compile source caseSensitive = .ok template) :
    ∃ pieces, Decomposes pieces source.toList ∧
      Substitutes source caseSensitive template pieces := by
  obtain ⟨segments, hsegments, rfl⟩ := compile_eq_ok_iff.mp hcompile
  obtain ⟨pieces, hpieces, hgives⟩ :=
    scanLiteral_eq_ok_iff.mp (segmentsOf_eq_ok_iff.mp hsegments).2
  exact ⟨pieces, hpieces, substitutes_of_gives hgives source caseSensitive⟩

/-- Values that look like parts of a template are put in place as they are. -/
theorem compile_substitutes_bracedValue :
    ∃ template pieces, compile " T_$\x7ba\x7d$\x7b header: h \x7d" false = .ok template ∧
      Substitutes " T_$\x7ba\x7d$\x7b header: h \x7d" false template pieces ∧
        template.resolve ⟨"r", .obj [("a", .str "$\x7bheader:x\x7d"), ("x", .str "X")],
          [("h", "$\x7b \x7d ")]⟩ = .ok "t_$\x7bheader:x\x7d$\x7b \x7d" := by
  have hcompile : compile " T_$\x7ba\x7d$\x7b header: h \x7d" false =
      .ok ⟨_, [.literal " T_", .field "a", .header "h"], false⟩ := rfl
  obtain ⟨pieces, -, hsubstitutes⟩ := compile_substitutes hcompile
  exact ⟨_, pieces, rfl, hsubstitutes, by decide +kernel⟩

end Template

end TableRouting
