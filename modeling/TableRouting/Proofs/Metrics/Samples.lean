import TableRouting.Metrics.Exposition
import TableRouting.Proofs.Text.Cutting
import TableRouting.Proofs.Text.Trimming

/-!
# Reading exported metrics back

A reader of the exported text looks at its lines one by one, leaves out empty lines and
comments, and takes every other line for a sample, of a counter or of a table.  It finds
the samples of the metrics if no table has a line break in its name.  A line break is not
escaped: it cuts the sample of its table, and the reader fails.
-/

namespace TableRouting.Metrics

/-- What a line of the exported text says. -/
inductive Sample where
  | scalar (name : String) (value : Nat)
  | ofTable (name table : String) (value : Nat)
  deriving DecidableEq

/-! ## The reader -/

/-- Read the value of a label up to its closing quote, undoing the escapes. -/
def readLabel : List Char → Option (List Char × List Char)
  | [] => none
  | '"' :: rest => some ([], rest)
  | '\\' :: '\\' :: rest => (readLabel rest).map fun (label, rest) => ('\\' :: label, rest)
  | '\\' :: '"' :: rest => (readLabel rest).map fun (label, rest) => ('"' :: label, rest)
  | '\\' :: 'n' :: rest => (readLabel rest).map fun (label, rest) => ('\n' :: label, rest)
  | '\\' :: _ => none
  | c :: rest => (readLabel rest).map fun (label, rest) => (c :: label, rest)

def readNumber (digits : List Char) : Option Nat :=
  if digits.isEmpty ∨ !digits.all Char.isDigit then none else some (Nat.ofDigitChars 10 digits 0)

def isNameChar (c : Char) : Bool := c != ' ' && c != '{'

/-- Read a sample: a name, a table in braces if there is one, and a value. -/
def readSample (line : List Char) : Option Sample :=
  let name := String.ofList (line.takeWhile isNameChar)
  match line.dropWhile isNameChar with
  | ' ' :: digits => (readNumber digits).map (.scalar name)
  | '{' :: 't' :: 'a' :: 'b' :: 'l' :: 'e' :: '=' :: '"' :: rest =>
    match readLabel rest with
    | some (table, '}' :: ' ' :: digits) =>
      (readNumber digits).map (.ofTable name (String.ofList table))
    | _ => none
  | _ => none

/-- A line that is neither empty nor a comment. -/
def isSample : List Char → Bool
  | [] => false
  | c :: _ => c != '#'

def readLines (lines : List (List Char)) : Option (List Sample) :=
  (lines.filter isSample).mapM readSample

def readSamples (text : String) : Option (List Sample) := readLines (Text.cut '\n' text.toList)

/-! ## Lines -/

theorem readLines_append (first second : List (List Char)) :
    readLines (first ++ second) =
      (readLines first).bind fun samples => (readLines second).map (samples ++ ·) := by
  rw [readLines, readLines, readLines, List.filter_append, List.mapM_append]
  cases (first.filter isSample).mapM readSample with
  | none => rfl
  | some samples => cases (second.filter isSample).mapM readSample <;> rfl

/-- Read lines as they are written, each of which may hold line breaks of its own. -/
def readWritten (lines : List String) : Option (List Sample) :=
  readLines (lines.flatMap fun line => Text.cut '\n' line.toList)

theorem readWritten_cons (line : String) (rest : List String) :
    readWritten (line :: rest) =
      (readLines (Text.cut '\n' line.toList)).bind fun samples =>
        (readWritten rest).map (samples ++ ·) := by
  rw [readWritten, List.flatMap_cons, readLines_append]
  rfl

theorem readWritten_nil : readWritten [] = some [] := rfl

theorem readWritten_empty (rest : List String) : readWritten ("" :: rest) = readWritten rest := by
  have hempty : readLines (Text.cut '\n' "".toList) = some [] := rfl
  rw [readWritten_cons, hempty]
  simp

theorem readLines_comment {line : List Char} (hline : '\n' ∉ line)
    (hcomment : isSample line = false) : readLines (Text.cut '\n' line) = some [] := by
  rw [Text.cut_of_not_mem hline, readLines, List.filter_cons_of_neg (by simp [hcomment])]
  rfl

theorem readLines_sample {line : List Char} (hline : '\n' ∉ line)
    (hsample : isSample line = true) :
    readLines (Text.cut '\n' line) = (readSample line).map fun sample => [sample] := by
  rw [Text.cut_of_not_mem hline, readLines, List.filter_cons_of_pos hsample]
  simp only [List.filter_nil, List.mapM_cons, List.mapM_nil]
  cases readSample line <;> rfl

theorem isSample_append {first : List Char} (hfirst : isSample first = true) (rest : List Char) :
    isSample (first ++ rest) = true := by
  cases first with
  | nil => exact absurd hfirst Bool.false_ne_true
  | cons c first => exact hfirst

/-- The text of lines, each of which ends with a line break. -/
def textOf (lines : List String) : List Char := lines.flatMap fun line => line.toList ++ ['\n']

theorem textOf_cons (line : String) (rest : List String) :
    textOf (line :: rest) = line.toList ++ '\n' :: textOf rest := by
  rw [textOf, List.flatMap_cons, List.append_assoc]
  rfl

theorem textOf_append (first second : List String) :
    textOf (first ++ second) = textOf first ++ textOf second := List.flatMap_append

theorem toList_join (lines : List String) :
    (String.join (lines.map (· ++ "\n"))).toList = textOf lines := by
  rw [String.toList_join, List.flatMap_map, textOf]
  exact List.flatMap_congr fun line _ => String.toList_append

theorem cut_textOf (lines : List String) :
    Text.cut '\n' (textOf lines) =
      (lines.flatMap fun line => Text.cut '\n' line.toList) ++ [[]] := by
  induction lines with
  | nil => rfl
  | cons line rest ih =>
      rw [textOf_cons, Text.cut_append, ih, List.flatMap_cons, List.append_assoc]

theorem readSamples_join (lines : List String) :
    readSamples (String.join (lines.map (· ++ "\n"))) = readWritten lines := by
  rw [readSamples, toList_join, cut_textOf, readLines_append, readWritten]
  have hend : readLines [[]] = some [] := rfl
  rw [hend]
  cases readLines _ <;> simp

/-! ## Samples -/

theorem readNumber_toDigits (n : Nat) : readNumber (Nat.toDigits 10 n) = some n := by
  have hdigits : (Nat.toDigits 10 n).all Char.isDigit = true := by
    apply List.all_eq_true.mpr
    exact fun c hc => Nat.isDigit_of_mem_toDigits (by decide) (by decide) hc
  rw [readNumber, hdigits, Nat.ofDigitChars_ten_toDigits]
  simp

theorem lineBreak_not_mem_toDigits (n : Nat) : '\n' ∉ Nat.toDigits 10 n := by
  intro hmem
  have hdigit := Nat.isDigit_of_mem_toDigits (by decide) (by decide) hmem
  exact absurd hdigit (by decide)

theorem escapeLabel_append (first second : List Char) :
    escapeLabel (first ++ second) = escapeLabel first ++ escapeLabel second := List.flatMap_append

theorem escapeLabel_cons (c : Char) (label : List Char) :
    escapeLabel (c :: label) =
      (if c = '\\' then ['\\', '\\'] else if c = '"' then ['\\', '"'] else [c]) ++
        escapeLabel label := List.flatMap_cons

theorem lineBreak_mem_escapeLabel {label : List Char} :
    '\n' ∈ escapeLabel label ↔ '\n' ∈ label := by
  induction label with
  | nil => rfl
  | cons c label ih =>
      rw [escapeLabel_cons, List.mem_append, ih, List.mem_cons]
      apply or_congr_left
      split
      · rename_i hslash
        simp [hslash]
      · split
        · rename_i hquote
          simp [hquote]
        · exact List.mem_singleton

/-- A label is read back up to the quote that closes it, whatever it holds. -/
theorem readLabel_escapeLabel (label rest : List Char) :
    readLabel (escapeLabel label ++ '"' :: rest) = some (label, rest) := by
  induction label with
  | nil => rfl
  | cons c label ih =>
      rw [escapeLabel_cons]
      by_cases hslash : c = '\\'
      · simp [hslash, readLabel, ih]
      · by_cases hquote : c = '"'
        · simp [hquote, readLabel, ih]
        · simp [hslash, hquote, readLabel, ih]

/-- A backslash before an n is not taken for a line break. -/
example : readLabel (escapeLabel ['\\', 'n'] ++ ['"']) = some (['\\', 'n'], []) := rfl

/-- A label that is not closed is not read. -/
theorem readLabel_unclosed (label : List Char) : readLabel (escapeLabel label) = none := by
  induction label with
  | nil => rfl
  | cons c label ih =>
      rw [escapeLabel_cons]
      by_cases hslash : c = '\\'
      · simp [hslash, readLabel, ih]
      · by_cases hquote : c = '"'
        · simp [hquote, readLabel, ih]
        · simp [hslash, hquote, readLabel, ih]

/-- A name of a metric, with a text that explains it. -/
structure Named (name help : String) : Prop where
  solid : ∀ c ∈ name.toList, isNameChar c = true
  line : '\n' ∉ name.toList
  begins : isSample name.toList = true
  help : '\n' ∉ help.toList

def isNamed (name help : List Char) : Bool :=
  (name.all fun c => isNameChar c && c != '\n') && isSample name && help.all (· != '\n')

theorem Named.ofList {name help : List Char} (hnamed : isNamed name help = true) :
    Named (String.ofList name) (String.ofList help) := by
  simp only [isNamed, Bool.and_eq_true, List.all_eq_true, bne_iff_ne] at hnamed
  obtain ⟨⟨hname, hbegins⟩, hhelp⟩ := hnamed
  constructor
  · rw [String.toList_ofList]
    exact fun c hc => (hname c hc).1
  · rw [String.toList_ofList]
    exact fun hmem => (hname _ hmem).2 rfl
  · rwa [String.toList_ofList]
  · rw [String.toList_ofList]
    exact fun hmem => hhelp _ hmem rfl

variable {name help : String}

/-- The name of a metric is read up to what follows it. -/
theorem Named.read (hnamed : Named name help) {c : Char} (hc : isNameChar c = false)
    (rest : List Char) :
    (name.toList ++ c :: rest).takeWhile isNameChar = name.toList ∧
      (name.toList ++ c :: rest).dropWhile isNameChar = c :: rest := by
  rw [List.takeWhile_append_of_pos hnamed.solid, List.dropWhile_append_of_pos hnamed.solid]
  simp [hc]

theorem Named.readSample_scalar (hnamed : Named name help) (value : Nat) :
    readSample (name.toList ++ ' ' :: Nat.toDigits 10 value) = some (.scalar name value) := by
  obtain ⟨hname, hrest⟩ := hnamed.read (c := ' ') rfl (Nat.toDigits 10 value)
  simp only [readSample, hname, hrest, readNumber_toDigits, String.ofList_toList, Option.map_some]

def labelOpening : List Char := ['{', 't', 'a', 'b', 'l', 'e', '=', '"']

theorem toList_sampleLine (name table : String) (value : UInt64) :
    (sampleLine name table value).toList =
      name.toList ++ (labelOpening ++ (escapeLabel table.toList ++
        '"' :: '}' :: ' ' :: Nat.toDigits 10 value.toNat)) := by
  simp [sampleLine, labelOpening]

/-- A sample of a table is read by its label. -/
theorem Named.readSample_label (hnamed : Named name help) (rest : List Char) :
    readSample (name.toList ++ (labelOpening ++ rest)) =
      match readLabel rest with
      | some (table, '}' :: ' ' :: digits) =>
        (readNumber digits).map (.ofTable name (String.ofList table))
      | _ => none := by
  obtain ⟨hname, hrest⟩ := hnamed.read (c := '{') rfl ('t' :: 'a' :: 'b' :: 'l' :: 'e' :: '=' ::
    '"' :: rest)
  simp only [readSample, labelOpening, List.cons_append, List.nil_append, hname, hrest,
    String.ofList_toList]

theorem Named.readSample_sampleLine (hnamed : Named name help) (table : String)
    (value : UInt64) :
    readSample (sampleLine name table value).toList =
      some (.ofTable name table value.toNat) := by
  rw [toList_sampleLine, hnamed.readSample_label, readLabel_escapeLabel]
  simp only [readNumber_toDigits, String.ofList_toList, Option.map_some]

/-- The sample of a table is not read when it breaks off within the name of the table. -/
theorem Named.readSample_broken (hnamed : Named name help) (label : List Char) :
    readSample (name.toList ++ (labelOpening ++ escapeLabel label)) = none := by
  rw [hnamed.readSample_label, readLabel_unclosed]

/-! ## The lines of a metric -/

theorem heading_eq (name help : String) :
    heading name help = ["# HELP " ++ name ++ " " ++ help, "# TYPE " ++ name ++ " counter"] := rfl

theorem scalarLines_eq (name help : String) (value : UInt64) :
    scalarLines name help value =
      heading name help ++ [name ++ " " ++ value.toNat.repr, ""] := rfl

namespace Named

variable (hnamed : Named name help)
include hnamed

/-- The lines before the samples of a metric are comments. -/
theorem readWritten_heading (rest : List String) :
    readWritten (heading name help ++ rest) = readWritten rest := by
  have hhelp : readLines (Text.cut '\n' ("# HELP " ++ name ++ " " ++ help).toList) = some [] := by
    apply readLines_comment
    · simpa using ⟨hnamed.line, hnamed.help⟩
    · simp [isSample]
  have htype : readLines (Text.cut '\n' ("# TYPE " ++ name ++ " counter").toList) = some [] := by
    apply readLines_comment
    · simpa using hnamed.line
    · simp [isSample]
  rw [heading_eq, List.cons_append, List.cons_append, List.nil_append, readWritten_cons,
    readWritten_cons, hhelp, htype]
  simp

theorem readWritten_scalarLines (value : UInt64) (rest : List String) :
    readWritten (scalarLines name help value ++ rest) =
      (readWritten rest).map (.scalar name value.toNat :: ·) := by
  have hvalue : readLines (Text.cut '\n' (name ++ " " ++ value.toNat.repr).toList) =
      some [.scalar name value.toNat] := by
    have hline : (name ++ " " ++ value.toNat.repr).toList =
        name.toList ++ ' ' :: Nat.toDigits 10 value.toNat := by
      simp
    have hsolid : '\n' ∉ name.toList ++ ' ' :: Nat.toDigits 10 value.toNat := by
      simpa [lineBreak_not_mem_toDigits] using hnamed.line
    rw [hline, readLines_sample hsolid (isSample_append hnamed.begins _),
      hnamed.readSample_scalar]
    rfl
  rw [scalarLines_eq, List.append_assoc, hnamed.readWritten_heading, List.cons_append,
    List.singleton_append, readWritten_cons, hvalue, readWritten_empty]
  rfl

/-- The samples of tables are read if no name of a table has a line break. -/
theorem readWritten_tables {values : List (String × UInt64)}
    (hplain : ∀ pair ∈ values, '\n' ∉ pair.1.toList) (rest : List String) :
    readWritten (values.map (fun (table, value) => sampleLine name table value) ++ rest) =
      (readWritten rest).map
        ((values.map fun (table, value) => .ofTable name table value.toNat) ++ ·) := by
  induction values with
  | nil => simp
  | cons pair values ih =>
      obtain ⟨table, value⟩ := pair
      obtain ⟨htable, hplain⟩ := List.forall_mem_cons.mp hplain
      have hline : '\n' ∉ (sampleLine name table value).toList := by
        simpa [toList_sampleLine, labelOpening, lineBreak_mem_escapeLabel,
          lineBreak_not_mem_toDigits] using ⟨hnamed.line, htable⟩
      have hsample : isSample (sampleLine name table value).toList = true := by
        rw [toList_sampleLine]
        exact isSample_append hnamed.begins _
      have hread : readLines (Text.cut '\n' (sampleLine name table value).toList) =
          some [.ofTable name table value.toNat] := by
        rw [readLines_sample hline hsample, hnamed.readSample_sampleLine]
        rfl
      rw [List.map_cons, List.cons_append, readWritten_cons, hread, ih hplain]
      cases readWritten rest <;> rfl

/-- The sample of a table with a line break in its name is not read. -/
theorem readLines_broken {table : String} (hbreak : '\n' ∈ table.toList) (value : UInt64) :
    readLines (Text.cut '\n' (sampleLine name table value).toList) = none := by
  obtain ⟨before, after, htable, hbefore⟩ := List.eq_append_cons_of_mem hbreak
  have hescaped : escapeLabel table.toList = escapeLabel before ++ '\n' :: escapeLabel after := by
    rw [htable, escapeLabel_append, escapeLabel_cons]
    rfl
  have hline : (sampleLine name table value).toList =
      (name.toList ++ (labelOpening ++ escapeLabel before)) ++ '\n' :: (escapeLabel after ++
        '"' :: '}' :: ' ' :: Nat.toDigits 10 value.toNat) := by
    rw [toList_sampleLine, hescaped]
    simp only [List.append_assoc, List.cons_append]
  -- The line is cut within the label, and what comes before the cut is not closed.
  have hpiece : '\n' ∉ name.toList ++ (labelOpening ++ escapeLabel before) := by
    simpa [labelOpening, lineBreak_mem_escapeLabel] using ⟨hnamed.line, hbefore⟩
  rw [hline, Text.cut_append, readLines_append,
    readLines_sample hpiece (isSample_append hnamed.begins _), hnamed.readSample_broken]
  rfl

theorem readWritten_tables_broken {values : List (String × UInt64)}
    (hbreak : ∃ pair ∈ values, '\n' ∈ pair.1.toList) (rest : List String) :
    readWritten (values.map (fun (table, value) => sampleLine name table value) ++ rest) =
      none := by
  induction values with
  | nil => simp at hbreak
  | cons pair values ih =>
      obtain ⟨broken, hmem, hbroken⟩ := hbreak
      rw [List.map_cons, List.cons_append, readWritten_cons]
      rcases List.mem_cons.mp hmem with rfl | hlater
      · rw [hnamed.readLines_broken hbroken]
        rfl
      · rw [ih ⟨broken, hlater, hbroken⟩]
        exact Option.bind_fun_none _

end Named

end TableRouting.Metrics
