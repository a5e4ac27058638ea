import Mathlib.Data.List.Forall2
import TableRouting.Proofs.Json.Printer
import TableRouting.Proofs.Json.RoundTrip
import TableRouting.Proofs.RecordFile.Lines
import TableRouting.Proofs.Text.Encoding

/-!
# Reading record files

A file is read just when each of its lines is blank or stands for a record, and then gives
one record for every line that is not blank, in order.  Otherwise the first line that stands
for none decides the failure.  Records that were written on lines of their own, among
whatever blank lines and with either line end, are read back.
-/

namespace TableRouting

/-! ## Values as records -/

namespace RecordFile

variable {fields : List (String × Json)} {value : Json} {record : Record} {number : Nat}
  {error : RecordFileError}

/-- A value is an object with these fields, among them an identifier that is a string, and a
value. -/
inductive Shaped (fields : List (String × Json)) : Json → Prop
  | obj {id : String} {body : Json} (hid : Json.lookup? "id" fields = some (.str id))
      (hbody : Json.lookup? "value" fields = some body) : Shaped fields (.obj fields)

/-- Fields make up a record.  The headers may be left out; if they are there, they are an
object of strings. -/
structure Makes (fields : List (String × Json)) (record : Record) : Prop where
  id : Json.lookup? "id" fields = some (.str record.id)
  value : Json.lookup? "value" fields = some record.value
  headers : (Json.lookup? "headers" fields = none ∧ record.headers = []) ∨
    Json.lookup? "headers" fields =
      some (.obj (record.headers.map fun header => (header.1, .str header.2)))

theorem string?_eq_some_iff {text : String} : value.string? = some text ↔ value = .str text := by
  cases value <;> simp [Json.string?]

theorem headersOfJson?_eq_some_iff {headers : List (String × String)} :
    Record.headersOfJson? value = some headers ↔
      value = .obj (headers.map fun header => (header.1, .str header.2)) := by
  cases value with
  | obj fields =>
      rw [Record.headersOfJson?, Json.obj.injEq]
      induction fields generalizing headers with
      | nil => cases headers <;> simp
      | cons field rest ih =>
          obtain ⟨name, value⟩ := field
          rw [List.mapM_cons]
          simp only [Option.bind_eq_bind, Option.pure_def, Option.bind_eq_some_iff,
            Option.map_eq_some_iff, string?_eq_some_iff, Option.some.injEq, ih]
          constructor
          · rintro ⟨header, ⟨text, rfl, rfl⟩, more, rfl, rfl⟩
            rfl
          · intro hfields
            cases headers with
            | nil => exact nomatch hfields
            | cons header more =>
                obtain ⟨hfirst, hmore⟩ := List.cons.inj hfields
                obtain ⟨rfl, rfl⟩ := Prod.mk.inj hfirst
                exact ⟨header, ⟨header.2, rfl, rfl⟩, more, hmore, rfl⟩
  | null | bool | num | str | arr => simp [Record.headersOfJson?]

theorem isRecordShaped_iff : isRecordShaped value = true ↔ ∃ fields, Shaped fields value := by
  rw [isRecordShaped, Bool.and_eq_true, Option.isSome_iff_exists, Option.isSome_iff_exists]
  constructor
  · rintro ⟨⟨id, hid⟩, body, hbody⟩
    obtain ⟨found, hfound, hstring⟩ := Option.bind_eq_some_iff.mp hid
    rw [string?_eq_some_iff.mp hstring] at hfound
    cases value with
    | obj fields => exact ⟨fields, .obj hfound hbody⟩
    | null | bool | num | str | arr => exact nomatch hfound
  · rintro ⟨fields, ⟨hid, hbody⟩⟩
    exact ⟨⟨_, Option.bind_eq_some_iff.mpr ⟨_, hid, rfl⟩⟩, _, hbody⟩

/-- The fields of an object are decoded as the record that they make up. -/
theorem ofJson?_obj_eq_some_iff :
    Record.ofJson? (.obj fields) = some record ↔ Makes fields record := by
  simp only [Record.ofJson?, Option.bind_eq_bind, Option.bind_eq_some_iff, string?_eq_some_iff]
  constructor
  · rintro ⟨id, ⟨_, hid, rfl⟩, body, hbody, hrest⟩
    split at hrest
    · rename_i found hfound
      obtain ⟨headers, hheaders, hmade⟩ := Option.bind_eq_some_iff.mp hrest
      obtain rfl := Option.some.inj hmade
      refine ⟨hid, hbody, .inr ?_⟩
      rw [hfound, headersOfJson?_eq_some_iff.mp hheaders]
    · rename_i hnone
      obtain rfl := Option.some.inj hrest
      exact ⟨hid, hbody, .inl ⟨hnone, rfl⟩⟩
  · obtain ⟨name, value, headers⟩ := record
    rintro ⟨hid, hbody, hheaders⟩
    refine ⟨_, ⟨_, hid, rfl⟩, _, hbody, ?_⟩
    rcases hheaders with ⟨hnone, rfl⟩ | hsome
    · rw [hnone]
      rfl
    · rw [hsome]
      exact Option.bind_eq_some_iff.mpr ⟨headers, headersOfJson?_eq_some_iff.mpr rfl, rfl⟩

/-- What a value stands for on a line. -/
inductive Means (number : Nat) (value : Json) : Record → Prop
  | record {fields : List (String × Json)} {record : Record} (hshaped : Shaped fields value)
      (hmakes : Makes fields record) : Means number value record
  | body (hshaped : ∀ fields, ¬ Shaped fields value) :
      Means number value { id := s!"line:{number}", value }

theorem Shaped.eq_obj (hshaped : Shaped fields value) : value = .obj fields := by
  cases hshaped
  rfl

theorem ofValue_of_shaped (hshaped : Shaped fields value) (number : Nat) :
    ofValue number value = match Record.ofJson? (.obj fields) with
      | some record => .ok record
      | none => .error (.notRecord number) := by
  obtain rfl := hshaped.eq_obj
  exact if_pos (isRecordShaped_iff.mpr ⟨fields, hshaped⟩)

theorem ofValue_of_not_shaped (hshaped : ∀ fields, ¬ Shaped fields value) (number : Nat) :
    ofValue number value = .ok { id := s!"line:{number}", value } :=
  if_neg fun hrecord =>
    let ⟨fields, hfields⟩ := isRecordShaped_iff.mp hrecord
    hshaped fields hfields

theorem ofValue_eq_ok_iff : ofValue number value = .ok record ↔ Means number value record := by
  constructor
  · intro hok
    by_cases hshaped : ∃ fields, Shaped fields value
    · obtain ⟨fields, hshaped⟩ := hshaped
      rw [ofValue_of_shaped hshaped] at hok
      split at hok
      · rename_i made hmade
        obtain rfl := Except.ok.inj hok
        exact .record hshaped (ofJson?_obj_eq_some_iff.mp hmade)
      · exact nomatch hok
    · rw [ofValue_of_not_shaped (not_exists.mp hshaped)] at hok
      rw [← Except.ok.inj hok]
      exact .body (not_exists.mp hshaped)
  · rintro (⟨hshaped, hmakes⟩ | hshaped)
    · rw [ofValue_of_shaped hshaped, ofJson?_obj_eq_some_iff.mpr hmakes]
    · exact ofValue_of_not_shaped hshaped number

theorem ofValue_eq_error_iff : ofValue number value = .error error ↔
    ∃ fields, Shaped fields value ∧ (∀ record, ¬ Makes fields record) ∧
      error = .notRecord number := by
  constructor
  · intro herror
    by_cases hshaped : ∃ fields, Shaped fields value
    · obtain ⟨fields, hshaped⟩ := hshaped
      rw [ofValue_of_shaped hshaped] at herror
      split at herror
      · exact nomatch herror
      · rename_i hnone
        refine ⟨fields, hshaped, ?_, (Except.error.inj herror).symm⟩
        intro record hmakes
        simp [ofJson?_obj_eq_some_iff.mpr hmakes] at hnone
    · rw [ofValue_of_not_shaped (not_exists.mp hshaped)] at herror
      exact nomatch herror
  · rintro ⟨fields, hshaped, hmakes, rfl⟩
    rw [ofValue_of_shaped hshaped]
    cases hmade : Record.ofJson? (.obj fields) with
    | none => rfl
    | some record => exact absurd (ofJson?_obj_eq_some_iff.mp hmade) (hmakes record)

/-! ## Single lines -/

variable {line : List UInt8}

def Blank (line : List UInt8) : Prop :=
  ∃ text, Text.encode text = line ∧ ∀ c ∈ text.toList, Text.isBlank c = true

/-- What the line of a number stands for. -/
inductive Stands (number : Nat) (line : List UInt8) (record : Record) : Prop
  | intro {text : String} {value : Json} (htext : Text.encode text = line)
      (hparse : Json.parse? text = some value) (hmeans : Means number value record)

/-- Why the line of a number stands for nothing. -/
inductive Offends (number : Nat) (line : List UInt8) : RecordFileError → Prop
  | notText (htext : ∀ text, Text.encode text ≠ line) : Offends number line .notText
  | notJson {text : String} (htext : Text.encode text = line) (hparse : Json.parse? text = none) :
      Offends number line (.notJson number)
  | notRecord {text : String} {value : Json} {fields : List (String × Json)}
      (htext : Text.encode text = line) (hparse : Json.parse? text = some value)
      (hshaped : Shaped fields value) (hmakes : ∀ record, ¬ Makes fields record) :
      Offends number line (.notRecord number)

/-- A line is valid JSON, and a record if it is shaped like one. -/
def Legible (line : List UInt8) : Prop :=
  ∃ text value, Text.encode text = line ∧ Json.parse? text = some value ∧
    ∀ fields, Shaped fields value → ∃ record, Makes fields record

theorem legible_iff (number : Nat) : Legible line ↔ ∃ record, Stands number line record := by
  constructor
  · rintro ⟨text, value, htext, hparse, hmakes⟩
    by_cases hshaped : ∃ fields, Shaped fields value
    · obtain ⟨fields, hshaped⟩ := hshaped
      obtain ⟨record, hmakes⟩ := hmakes fields hshaped
      exact ⟨record, htext, hparse, .record hshaped hmakes⟩
    · exact ⟨_, htext, hparse, .body (not_exists.mp hshaped)⟩
  · rintro ⟨record, ⟨htext, hparse, hmeans⟩⟩
    refine ⟨_, _, htext, hparse, ?_⟩
    intro fields hfields
    cases hmeans with
    | record hshaped hmakes =>
        obtain rfl := Json.obj.inj (hshaped.eq_obj.symm.trans hfields.eq_obj)
        exact ⟨record, hmakes⟩
    | body hshaped => exact absurd hfields (hshaped fields)

/-- Whether the text of a line is blank. -/
theorem blank_encode_iff (text : String) :
    Blank (Text.encode text) ↔ Text.isBlankText text = true := by
  rw [Text.isBlankText, List.all_eq_true]
  constructor
  · rintro ⟨other, hother, hblank⟩
    rwa [Text.encode_injective hother] at hblank
  · exact fun hblank => ⟨text, rfl, hblank⟩

instance (line : List UInt8) : Decidable (Blank line) :=
  match hread : String.fromUTF8? ⟨line.toArray⟩ with
  | none => isFalse fun ⟨text, htext, _⟩ => by
      simp [Text.fromUTF8?_eq_some_iff.mpr htext] at hread
  | some text => decidable_of_iff (Text.isBlankText text = true) (by
      rw [← Text.fromUTF8?_eq_some_iff.mp hread, blank_encode_iff])

/-- What becomes of a line: it is blank, or stands for a record, or for none. -/
inductive LineOutcome (number : Nat) (line : List UInt8) :
    Except RecordFileError (Option Record) → Prop
  | blank (hblank : Blank line) : LineOutcome number line (.ok none)
  | record {record : Record} (hblank : ¬ Blank line) (hstands : Stands number line record) :
      LineOutcome number line (.ok (some record))
  | error {error : RecordFileError} (hblank : ¬ Blank line) (hoffends : Offends number line error) :
      LineOutcome number line (.error error)

theorem lineOutcome_ofLine (number : Nat) (line : List UInt8) :
    LineOutcome number line (ofLine number line) := by
  rw [ofLine]
  split
  · rename_i hread
    have htext (text : String) : Text.encode text ≠ line := fun hsame => by
      simp [Text.fromUTF8?_eq_some_iff.mpr hsame] at hread
    exact .error (fun ⟨text, hsame, _⟩ => htext text hsame) (.notText htext)
  · rename_i text hread
    obtain rfl := Text.fromUTF8?_eq_some_iff.mp hread
    split
    · rename_i hblank
      exact .blank ((blank_encode_iff text).mpr hblank)
    · rename_i hblank
      have hblank := mt (blank_encode_iff text).mp hblank
      split
      · rename_i hparse
        exact .error hblank (.notJson rfl hparse)
      · rename_i value hparse
        cases hvalue : ofValue number value with
        | ok record => exact .record hblank ⟨rfl, hparse, ofValue_eq_ok_iff.mp hvalue⟩
        | error error =>
            obtain ⟨fields, hshaped, hmakes, rfl⟩ := ofValue_eq_error_iff.mp hvalue
            exact .error hblank (.notRecord rfl hparse hshaped hmakes)

/-- A line stands for one record. -/
theorem Stands.ofLine_eq (hstands : Stands number line record) (hblank : ¬ Blank line) :
    ofLine number line = .ok (some record) := by
  obtain ⟨rfl, hparse, hmeans⟩ := hstands
  rw [ofLine, Text.fromUTF8?_eq_some_iff.mpr rfl]
  simp only
  rw [if_neg (mt (blank_encode_iff _).mpr hblank), hparse]
  simp only
  rw [ofValue_eq_ok_iff.mpr hmeans]
  rfl

/-- A line stands for nothing in one way. -/
theorem Offends.ofLine_eq (hoffends : Offends number line error) (hblank : ¬ Blank line) :
    ofLine number line = .error error := by
  cases hoffends with
  | notText htext =>
      cases hread : String.fromUTF8? ⟨line.toArray⟩ with
      | none => rw [ofLine, hread]
      | some text => exact absurd (Text.fromUTF8?_eq_some_iff.mp hread) (htext text)
  | notJson htext hparse =>
      subst htext
      rw [ofLine, Text.fromUTF8?_eq_some_iff.mpr rfl]
      simp only
      rw [if_neg (mt (blank_encode_iff _).mpr hblank), hparse]
  | notRecord htext hparse hshaped hmakes =>
      subst htext
      rw [ofLine, Text.fromUTF8?_eq_some_iff.mpr rfl]
      simp only
      rw [if_neg (mt (blank_encode_iff _).mpr hblank), hparse]
      simp only
      rw [ofValue_eq_error_iff.mpr ⟨_, hshaped, hmakes, rfl⟩]
      rfl

theorem ofLine_of_blank (hblank : Blank line) (number : Nat) : ofLine number line = .ok none := by
  have houtcome := lineOutcome_ofLine number line
  generalize ofLine number line = outcome at houtcome
  cases houtcome with
  | blank _ => rfl
  | record hother _ | error hother _ => exact absurd hblank hother

/-! ## Lines in order -/

variable {pieces : List (List UInt8)} {records : List Record}

/-- The lines that are not blank, with their numbers. -/
def numbered (number : Nat) (pieces : List (List UInt8)) : List (List UInt8 × Nat) :=
  (pieces.zipIdx number).filter fun entry => ¬ Blank entry.1

theorem numbered_of_blank (hblank : Blank line) (number : Nat) (pieces : List (List UInt8)) :
    numbered number (line :: pieces) = numbered (number + 1) pieces := by
  simp [numbered, hblank]

theorem numbered_of_not_blank (hblank : ¬ Blank line) (number : Nat)
    (pieces : List (List UInt8)) :
    numbered number (line :: pieces) = (line, number) :: numbered (number + 1) pieces := by
  simp [numbered, hblank]

/-- The records are those that the lines stand for. -/
theorem ofLines_eq_ok_iff : ofLines number pieces = .ok records ↔
    List.Forall₂ (fun entry record => Stands entry.2 entry.1 record)
      (numbered number pieces) records := by
  induction pieces generalizing number records with
  | nil =>
      rw [ofLines, Except.ok.injEq]
      exact ⟨fun hnil => hnil ▸ .nil, fun hall => by cases hall; rfl⟩
  | cons line rest ih =>
      rw [ofLines]
      have houtcome := lineOutcome_ofLine number line
      cases hline : ofLine number line with
      | error error =>
          rw [hline] at houtcome
          cases houtcome with
          | error hblank hoffends =>
              rw [numbered_of_not_blank hblank]
              refine iff_of_false (by simp) ?_
              intro hall
              obtain ⟨record, more, hstands, -, -⟩ := List.forall₂_cons_left_iff.mp hall
              cases hline.symm.trans (hstands.ofLine_eq hblank)
      | ok found =>
          rw [hline] at houtcome
          cases houtcome with
          | blank hblank =>
              rw [numbered_of_blank hblank]
              exact ih
          | record hblank hstands =>
              rename_i record
              rw [numbered_of_not_blank hblank, List.forall₂_cons_left_iff]
              simp only
              constructor
              · intro hok
                cases hrest : ofLines (number + 1) rest with
                | error error =>
                    rw [hrest] at hok
                    cases hok
                | ok more =>
                    rw [hrest] at hok
                    exact ⟨record, more, hstands, ih.mp hrest, (Except.ok.inj hok).symm⟩
              · rintro ⟨other, more, hother, hmore, rfl⟩
                have hsame := hline.symm.trans (hother.ofLine_eq hblank)
                rw [ih.mpr hmore, Option.some.inj (Except.ok.inj hsame)]
                rfl

/-- A line stands for a record, unless it is blank or cannot be read. -/
theorem blank_or_legible_iff (number : Nat) :
    Blank line ∨ Legible line ↔ ∀ error, ofLine number line ≠ .error error := by
  have houtcome := lineOutcome_ofLine number line
  generalize hline : ofLine number line = outcome at houtcome
  cases houtcome with
  | blank hblank => exact iff_of_true (.inl hblank) nofun
  | record hblank hstands => exact iff_of_true (.inr ((legible_iff number).mpr ⟨_, hstands⟩)) nofun
  | error hblank hoffends =>
      refine iff_of_false ?_ fun hnone => hnone _ rfl
      rintro (hother | hlegible)
      · exact hblank hother
      · obtain ⟨record, hstands⟩ := (legible_iff number).mp hlegible
        exact nomatch hline.symm.trans (hstands.ofLine_eq hblank)

theorem exists_ofLines_iff : (∃ records, ofLines number pieces = .ok records) ↔
    ∀ line ∈ pieces, Blank line ∨ Legible line := by
  induction pieces generalizing number with
  | nil => exact iff_of_true ⟨[], rfl⟩ (List.forall_mem_nil _)
  | cons line rest ih =>
      rw [List.forall_mem_cons, blank_or_legible_iff number, ← @ih (number + 1), ofLines]
      cases ofLine number line with
      | error error => simp
      | ok found =>
          cases found with
          | none => simp
          | some record => cases ofLines (number + 1) rest <;> simp [Except.map]

/-- A line that is not blank fails for what is wrong with it. -/
theorem ofLine_eq_error_iff :
    ofLine number line = .error error ↔ ¬ Blank line ∧ Offends number line error := by
  constructor
  · intro herror
    have houtcome := lineOutcome_ofLine number line
    rw [herror] at houtcome
    cases houtcome with
    | error hblank hoffends => exact ⟨hblank, hoffends⟩
  · rintro ⟨hblank, hoffends⟩
    exact hoffends.ofLine_eq hblank

theorem ofLines_cons_eq_error_iff : ofLines number (line :: pieces) = .error error ↔
    ofLine number line = .error error ∨
      (Blank line ∨ Legible line) ∧ ofLines (number + 1) pieces = .error error := by
  rw [blank_or_legible_iff number, ofLines]
  cases ofLine number line with
  | error found => simp
  | ok found =>
      cases found with
      | none => simp
      | some record => cases ofLines (number + 1) pieces <;> simp [Except.map]

/-- The failure is that of the first line that stands for nothing. -/
theorem ofLines_eq_error_iff : ofLines number pieces = .error error ↔
    ∃ before line after, pieces = before ++ line :: after ∧
      (∀ earlier ∈ before, Blank earlier ∨ Legible earlier) ∧
        ¬ Blank line ∧ Offends (number + before.length) line error := by
  induction pieces generalizing number with
  | nil => simp [ofLines]
  | cons line rest ih =>
      rw [ofLines_cons_eq_error_iff, ofLine_eq_error_iff, ih]
      constructor
      · rintro (⟨hblank, hoffends⟩ | ⟨hreads, before, other, after, rfl, hbefore, hblank, hoffends⟩)
        · exact ⟨[], line, rest, rfl, List.forall_mem_nil _, hblank, hoffends⟩
        · refine ⟨line :: before, other, after, rfl, List.forall_mem_cons.mpr ⟨hreads, hbefore⟩,
            hblank, ?_⟩
          rwa [List.length_cons, Nat.add_comm before.length, ← Nat.add_assoc]
      · rintro ⟨before, other, after, hpieces, hbefore, hblank, hoffends⟩
        cases before with
        | nil =>
            obtain ⟨rfl, -⟩ := List.cons.inj hpieces
            exact .inl ⟨hblank, hoffends⟩
        | cons first before =>
            obtain ⟨rfl, rfl⟩ := List.cons.inj hpieces
            obtain ⟨hreads, hbefore⟩ := List.forall_mem_cons.mp hbefore
            refine .inr ⟨hreads, before, other, after, rfl, hbefore, hblank, ?_⟩
            rwa [List.length_cons, Nat.add_comm before.length, ← Nat.add_assoc] at hoffends

/-! ## Written records -/

/-- A record that is read back from its text: its body is, one level down, and its headers are
in the order of their names. -/
structure Readable (record : Record) : Prop where
  value : record.value.Readable (Json.nestingLimit - 1)
  headers : (record.headers.map Prod.fst).Pairwise (· < ·)

/-- The texts of a record, which lists its headers in any order. -/
inductive TextOf (record : Record) : String → Prop
  | intro (headers : List (String × String)) (hheaders : headers.Perm record.headers) :
      TextOf record (Record.toJson { record with headers }).render

/-- What a line of a written file holds: blanks, or a record. -/
inductive Holds (text : String) : List Record → Prop
  | blank (hblank : ∀ c ∈ text.toList, Text.isBlank c = true) (hfree : '\n' ∉ text.toList) :
      Holds text []
  | record {record : Record} (htext : TextOf record text) : Holds text [record]

inductive LineEnd where
  | feed
  | returnFeed

def LineEnd.bytes : LineEnd → List UInt8
  | feed => [lineFeed]
  | returnFeed => [carriageReturn, lineFeed]

/-- A file that holds records, line by line.  The last line needs no end. -/
inductive Written : List Record → List UInt8 → Prop
  | nil : Written [] []
  | last {text : String} {records : List Record} (hholds : Holds text records) :
      Written records (Text.encode text)
  | line {text : String} {first records : List Record} {bytes : List UInt8}
      (hholds : Holds text first) (ending : LineEnd) (hmore : Written records bytes) :
      Written (first ++ records) (Text.encode text ++ (ending.bytes ++ bytes))

/-- What the text of a record is read as. -/
theorem TextOf.reads {text : String} (htext : TextOf record text) (hreadable : Readable record) :
    ∃ fields, Json.parse? text = some (.obj fields) ∧ Makes fields record := by
  obtain ⟨headers, hheaders⟩ := htext
  have hbody := hreadable.value.reads
  have hlisted : Json.Reads 1 (Json.obj (headers.map fun header => (header.1, .str header.2))).chars
      (.obj (record.headers.map fun header => (header.1, .str header.2))) := by
    have hsorted : ((record.headers.map fun header => (header.1, Json.str header.2)).map
        Prod.fst).Pairwise (· < ·) := by
      rw [List.map_map]
      exact hreadable.headers
    rw [← Json.sortFields_of_perm (hheaders.map _) hsorted]
    exact .obj (List.forall₂_same.mpr fun field hfield => ⟨rfl, by
      obtain ⟨header, -, rfl⟩ := List.mem_map.mp hfield
      exact Json.reads_str header.2⟩)
  have hfields : List.Forall₂ (Json.ReadsField (Json.nestingLimit - 1))
      [("id", .str record.id), ("value", record.value),
        ("headers", .obj (headers.map fun header => (header.1, .str header.2)))]
      [("id", .str record.id), ("value", record.value),
        ("headers", .obj (record.headers.map fun header => (header.1, .str header.2)))] :=
    .cons ⟨rfl, (Json.reads_str record.id).mono (Nat.zero_le _)⟩
      (.cons ⟨rfl, hbody⟩ (.cons ⟨rfl, hlisted.mono (by decide)⟩ .nil))
  refine ⟨_, (Json.Reads.obj hfields).parse? (Nat.le_refl _), ?_, ?_, .inr ?_⟩ <;>
    simp [Json.sortFields, Json.lookup?_insertSorted_of_ne]

/-- The text of a record begins and ends with a brace. -/
theorem TextOf.toList_eq {text : String} (htext : TextOf record text) :
    ∃ inside, text.toList = '\x7b' :: (inside ++ ['\x7d']) := by
  obtain ⟨headers, hheaders⟩ := htext
  exact ⟨_, String.toList_ofList⟩

theorem Holds.newline_not_mem {text : String} {first : List Record} (hholds : Holds text first) :
    lineFeed ∉ Text.encode text := by
  intro hmem
  obtain ⟨c, hc, hvalue⟩ := Text.mem_of_mem_encode (by decide) hmem
  obtain rfl : c = '\n' := Char.toNat_inj.mp hvalue
  cases hholds with
  | blank hblank hfree => exact hfree hc
  | record htext =>
      obtain ⟨headers, hheaders⟩ := htext
      exact Json.newline_not_mem_render _ hc

/-- What a line holds is what is read from it. -/
theorem Holds.ofLine_eq {text : String} {first : List Record} (hholds : Holds text first)
    (hreadable : ∀ record ∈ first, Readable record) (number : Nat) :
    ofLine number (Text.encode text) = .ok first.head? := by
  cases hholds with
  | blank hblank hfree => exact ofLine_of_blank ⟨text, rfl, hblank⟩ number
  | record htext =>
      rename_i record
      obtain ⟨fields, hparse, hmakes⟩ :=
        htext.reads (hreadable record List.mem_cons_self)
      have hsolid : ¬ Blank (Text.encode text) := by
        obtain ⟨inside, hinside⟩ := htext.toList_eq
        rintro ⟨other, hother, hblank⟩
        rw [Text.encode_injective hother, hinside] at hblank
        exact absurd (hblank _ List.mem_cons_self) (by decide)
      exact Stands.ofLine_eq ⟨rfl, hparse, .record (.obj hmakes.id hmakes.value) hmakes⟩ hsolid

/-- A line of a written file is one line, and says what it holds. -/
theorem Holds.lines_eq {text : String} {first : List Record} (hholds : Holds text first)
    (hreadable : ∀ record ∈ first, Readable record) (ending : LineEnd) (bytes : List UInt8) :
    ∃ piece, lines (Text.encode text ++ (ending.bytes ++ bytes)) = piece :: lines bytes ∧
      ∀ number, ofLine number piece = .ok first.head? := by
  have hfree := hholds.newline_not_mem
  have hmore := layout_lines bytes
  cases ending with
  | returnFeed =>
      exact ⟨_, (Layout.returnFeed _ hfree hmore).lines_eq, hholds.ofLine_eq hreadable⟩
  | feed =>
      by_cases hreturn : (Text.encode text).getLast? = some carriageReturn
      · -- A carriage return among the blanks belongs to the end of the line.
        obtain ⟨front, c, hchars, hvalue, hbytes⟩ := Text.getLast?_of_encode (by decide) hreturn
        obtain rfl : c = '\r' := Char.toNat_inj.mp hvalue
        have hlayout : Layout (Text.encode (String.ofList front) :: lines bytes)
            (Text.encode text ++ (LineEnd.feed.bytes ++ bytes)) := by
          rw [hbytes, List.append_assoc]
          refine .returnFeed _ (fun hmem => hfree ?_) hmore
          rw [hbytes]
          exact List.mem_append_left _ hmem
        refine ⟨_, hlayout.lines_eq, ?_⟩
        cases hholds with
        | blank hblank _ =>
            refine fun number => ofLine_of_blank ⟨_, rfl, fun d hd => hblank d ?_⟩ number
            rw [String.toList_ofList] at hd
            rw [hchars]
            exact List.mem_append_left _ hd
        | record htext =>
            obtain ⟨inside, hinside⟩ := htext.toList_eq
            rw [hinside, ← List.cons_append] at hchars
            exact absurd (List.append_inj' hchars rfl).2 (by decide)
      · exact ⟨_, (Layout.feed _ hfree hreturn hmore).lines_eq, hholds.ofLine_eq hreadable⟩

/-- A line holds one record at most. -/
theorem Holds.ofLines_cons_eq {text : String} {first more : List Record} {piece : List UInt8}
    (hholds : Holds text first) (hline : ofLine number piece = .ok first.head?)
    (hmore : ofLines (number + 1) pieces = .ok more) :
    ofLines number (piece :: pieces) = .ok (first ++ more) := by
  rw [ofLines, hline]
  cases hholds with
  | blank => exact hmore
  | record => simp [hmore, Except.map]

/-- A last line without an end is one line that says what it holds, or is empty. -/
theorem Holds.ofLines_eq {text : String} (hholds : Holds text records)
    (hreadable : ∀ record ∈ records, Readable record) (number : Nat) :
    ofLines number (lines (Text.encode text)) = .ok records := by
  rw [lines_of_not_mem hholds.newline_not_mem]
  split
  · rename_i hempty
    cases hholds with
    | blank => rfl
    | record htext =>
        obtain ⟨inside, hinside⟩ := htext.toList_eq
        rw [List.isEmpty_iff, Text.encode_eq_flatMap, hinside] at hempty
        exact absurd hempty (List.cons_ne_nil _ _)
  · have hnone : ofLines (number + 1) [] = .ok [] := rfl
    have hline := hholds.ofLines_cons_eq (hholds.ofLine_eq hreadable number) hnone
    rwa [List.append_nil] at hline

/-- Records that were written are read back. -/
theorem Written.ofLines_eq {bytes : List UInt8} (hwritten : Written records bytes)
    (hreadable : ∀ record ∈ records, Readable record) (number : Nat) :
    ofLines number (lines bytes) = .ok records := by
  induction hwritten generalizing number with
  | nil => rfl
  | last hholds => exact hholds.ofLines_eq hreadable number
  | line hholds ending hmore ih =>
      obtain ⟨hfirst, hrest⟩ := List.forall_mem_append.mp hreadable
      obtain ⟨piece, hlines, hline⟩ := hholds.lines_eq hfirst ending _
      rw [hlines]
      exact hholds.ofLines_cons_eq (hline number) (ih hrest (number + 1))

/-! ## Whole files -/

/-- What it means that a file with these lines is read line by line. -/
structure ReadsLines (file : ByteArray) (pieces : List (List UInt8)) : Prop where
  /-- The file is read just when every line that is not blank is valid JSON, and a record if it
  is shaped like one. -/
  succeeds : (∃ records, RecordFile.records file = .ok records) ↔
    ∀ line ∈ pieces, ¬ Blank line → Legible line
  /-- There is one record for each line that is not blank, in order; the lines are numbered from
  one, blank ones included. -/
  records : ∀ records, RecordFile.records file = .ok records ↔
    List.Forall₂ (fun entry record => Stands entry.2 entry.1 record) (numbered 1 pieces) records
  /-- The failure is that of the first line that stands for nothing. -/
  fails : ∀ error, RecordFile.records file = .error error ↔
    ∃ before line after, pieces = before ++ line :: after ∧
      (∀ earlier ∈ before, Blank earlier ∨ Legible earlier) ∧
        ¬ Blank line ∧ Offends (before.length + 1) line error

/-- What it means that files are read as they were written. -/
structure ReadsFiles : Prop where
  /-- A file is made of lines in one way, and is read line by line. -/
  lines : ∀ file : ByteArray, ∃ pieces, Layout pieces file.data.toList ∧
    (∀ others, Layout others file.data.toList → others = pieces) ∧ ReadsLines file pieces
  /-- Records that were written on lines of their own are read back. -/
  written : ∀ (records : List Record) (file : ByteArray), Written records file.data.toList →
    (∀ record ∈ records, Readable record) → RecordFile.records file = .ok records

theorem records_eq (file : ByteArray) :
    RecordFile.records file = ofLines 1 (RecordFile.lines file.data.toList) := by
  rw [RecordFile.records, Text.toList_eq_data]

theorem readsLines (file : ByteArray) : ReadsLines file (RecordFile.lines file.data.toList) where
  succeeds := by
    rw [records_eq, exists_ofLines_iff]
    exact forall₂_congr fun line hline => or_iff_not_imp_left
  records records := by rw [records_eq, ofLines_eq_ok_iff]
  fails error := by
    rw [records_eq, ofLines_eq_error_iff]
    simp only [Nat.add_comm 1]

/-- Record files are read line by line, and as they were written. -/
theorem records_readsFiles : ReadsFiles where
  lines file := ⟨_, layout_lines _, fun _ hothers => layout_iff.mp hothers, readsLines file⟩
  written records file hwritten hreadable := by
    rw [records_eq]
    exact hwritten.ofLines_eq hreadable 1

/-- A blank line with the longer end, a record that lists its headers the other way round, and
a record without a line end. -/
theorem records_readsFiles_bothEnds :
    ∃ (record : Record) (file : ByteArray), Readable record ∧
      Written ([] ++ ([record] ++ [record])) file.data.toList ∧
        RecordFile.records file = .ok [record, record] := by
  have hreadable : Readable
      ⟨"r", .obj [("n", .num (.integer (-7)))], [("a", "x"), ("b", "\x22")]⟩ := by
    constructor
    · refine .obj (List.pairwise_singleton _ _) ?_
      exact List.forall_mem_singleton.mpr (.integer _ ⟨by decide, by decide⟩)
    · decide
  generalize hrecord :
    (⟨"r", .obj [("n", .num (.integer (-7)))], [("a", "x"), ("b", "\x22")]⟩ : Record) = record
    at hreadable
  have hturned := TextOf.intro record.headers.reverse (List.reverse_perm _)
  have hplain := TextOf.intro record.headers (List.Perm.refl _)
  have hblank : Holds "\t" [] := .blank (List.forall_mem_singleton.mpr rfl) (by decide)
  have hwritten := Written.line hblank .returnFeed
    (.line (.record hturned) .feed (.last (.record hplain)))
  refine ⟨record, ⟨_⟩, hreadable, hwritten, records_readsFiles.written _ ⟨_⟩ hwritten ?_⟩
  simpa using hreadable

end RecordFile

end TableRouting
