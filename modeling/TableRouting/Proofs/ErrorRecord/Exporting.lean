import TableRouting.ErrorRecord.Export
import TableRouting.Proofs.Json.Printer

/-!
# What an export leaves behind

An output takes a text whole, or refuses it before its end.  An export takes the error
records out of the log before it writes the first of them.  So the log is empty
afterwards in any case; the records before a refusal are lines of the output, and the
one that was refused and those behind it are neither in the output nor in the log.
-/

namespace TableRouting

def Output.bytes (text : String) : List UInt8 := text.toUTF8.data.toList

def ErrorRecord.line (record : ErrorRecord) : List UInt8 :=
  Output.bytes record.toJson.render ++ Output.bytes "\n"

def ErrorRecord.lines (records : List ErrorRecord) : List UInt8 :=
  records.flatMap ErrorRecord.line

/-- An output takes a text whole or refuses it before its end, and keeps what it has
taken. -/
structure Output.Takes {σ : Type} (output : Output (StateM σ)) (taken : σ → List UInt8) :
    Prop where
  put : ∀ text world, ∃ part rest, Output.bytes text = part ++ rest ∧
    taken (output.put text world).2 = taken world ++ part ∧
    ((output.put text world).1 = true ↔ rest = [])
  flush : ∀ world, taken (output.flush world).2 = taken world

namespace ErrorLog

/-- How writing the lines of error records ends, and what the output has got then. -/
inductive Written (records : List ErrorRecord) (before after : List UInt8) :
    Except SinkError Unit → Prop
  | all (hafter : after = before ++ ErrorRecord.lines records) :
      Written records before after (.ok ())
  /-- A record was refused before its end. -/
  | record {written : List ErrorRecord} {record : ErrorRecord} {rest : List ErrorRecord}
      {part missing : List UInt8} (hsplit : records = written ++ record :: rest)
      (htext : Output.bytes record.toJson.render = part ++ missing) (hmissing : missing ≠ [])
      (hafter : after = before ++ ErrorRecord.lines written ++ part) :
      Written records before after (.error (.serialization "error records"))
  /-- The end of a line was refused. -/
  | newline {written : List ErrorRecord} {record : ErrorRecord} {rest : List ErrorRecord}
      (hsplit : records = written ++ record :: rest)
      (hafter : after =
        before ++ ErrorRecord.lines written ++ Output.bytes record.toJson.render) :
      Written records before after (.error (.io "error records"))

/-- How an export ends, and what the output has got then. -/
inductive Exported (records : List ErrorRecord) (before after : List UInt8) :
    Except SinkError Nat → Prop
  | done (hafter : after = before ++ ErrorRecord.lines records) :
      Exported records before after (.ok records.length)
  | unflushed (hafter : after = before ++ ErrorRecord.lines records) :
      Exported records before after (.error (.io "error records"))
  | stopped {e : SinkError} (hwritten : Written records before after (.error e)) :
      Exported records before after (.error e)

/-- Every error record is a line of the output, or is held in order behind those. -/
def Saved (records held : List ErrorRecord) (before after : List UInt8) : Prop :=
  ∃ written part, records = written ++ held ∧
    after = before ++ ErrorRecord.lines written ++ part ∧ '\n'.toUInt8 ∉ part

variable {σ : Type} {output : Output (StateM σ)} {taken : σ → List UInt8}
  {records : List ErrorRecord} {before after : List UInt8}

theorem Written.cons {record : ErrorRecord} {answer : Except SinkError Unit}
    (hwritten : Written records (before ++ record.line) after answer) :
    Written (record :: records) before after answer := by
  have hlines (others : List ErrorRecord) : before ++ record.line ++ ErrorRecord.lines others =
      before ++ ErrorRecord.lines (record :: others) := by
    rw [ErrorRecord.lines, ErrorRecord.lines, List.flatMap_cons, List.append_assoc]
  cases hwritten with
  | all hafter => exact .all (hafter.trans (hlines records))
  | record hsplit htext hmissing hafter =>
      exact .record (congrArg (record :: ·) hsplit) htext hmissing (hlines _ ▸ hafter)
  | newline hsplit hafter =>
      exact .newline (congrArg (record :: ·) hsplit) (hlines _ ▸ hafter)

theorem bind_run {α β : Type} {x : StateM σ α} {f : α → StateM σ β} {world : σ} :
    (x >>= f) world = f (x world).1 (x world).2 := rfl

/-- A text that is accepted is taken whole. -/
theorem taken_of_accepted (htakes : output.Takes taken) {text : String} {world between : σ}
    (hput : output.put text world = (true, between)) :
    taken between = taken world ++ Output.bytes text := by
  obtain ⟨part, missing, htext, htaken, hwhole⟩ := htakes.put text world
  rw [hput] at htaken hwhole
  obtain rfl := hwhole.mp rfl
  rw [htext, List.append_nil]
  exact htaken

/-- Of a text that is refused, something is missing. -/
theorem taken_of_refused (htakes : output.Takes taken) {text : String} {world between : σ}
    (hput : output.put text world = (false, between)) :
    ∃ part missing, Output.bytes text = part ++ missing ∧ missing ≠ [] ∧
      taken between = taken world ++ part := by
  obtain ⟨part, missing, htext, htaken, hwhole⟩ := htakes.put text world
  rw [hput] at htaken hwhole
  exact ⟨part, missing, htext, fun hnil => absurd (hwhole.mpr hnil) Bool.false_ne_true, htaken⟩

theorem before_lines_nil : before ++ ErrorRecord.lines [] = before := List.append_nil before

/-- Writing goes through the records until one is refused. -/
theorem written_writeLines (htakes : output.Takes taken) (records : List ErrorRecord)
    (world : σ) :
    Written records (taken world) (taken (writeLines output records world).2)
      (writeLines output records world).1 := by
  induction records generalizing world with
  | nil => exact .all before_lines_nil.symm
  | cons record rest ih =>
      rw [writeLines, bind_run]
      cases htext : output.put record.toJson.render world with
      | mk accepted between =>
          cases accepted with
          | false =>
              obtain ⟨part, missing, hparts, hmissing, htaken⟩ := taken_of_refused htakes htext
              exact .record rfl hparts hmissing
                (htaken.trans (congrArg (· ++ part) before_lines_nil.symm))
          | true =>
              have htaken := taken_of_accepted htakes htext
              simp only [if_true]
              rw [bind_run]
              cases hend : output.put "\n" between with
              | mk ended later =>
                  cases ended with
                  | false =>
                      -- The end of a line is one byte, so nothing of it was taken.
                      obtain ⟨part, missing, hparts, hmissing, hlater⟩ :=
                        taken_of_refused htakes hend
                      have hnothing : part = [] := by
                        have hlength := congrArg List.length hparts
                        have hone : (Output.bytes "\n").length = 1 := rfl
                        rw [hone, List.length_append] at hlength
                        have hmore := List.length_pos_iff.mpr hmissing
                        exact List.length_eq_zero_iff.mp (by omega)
                      rw [hnothing, List.append_nil, htaken] at hlater
                      exact .newline rfl
                        (hlater.trans (congrArg (· ++ _) before_lines_nil.symm))
                  | true =>
                      have hlater := taken_of_accepted htakes hend
                      rw [htaken, List.append_assoc] at hlater
                      have hrest := ih later
                      rw [hlater] at hrest
                      exact hrest.cons

/-- An output that refused a record, or the end of its line, has got fewer bytes than all
the lines have. -/
theorem Written.length_lt {e : SinkError} (hwritten : Written records before after (.error e)) :
    after.length < (before ++ ErrorRecord.lines records).length := by
  cases hwritten with
  | record hsplit htext hmissing hafter =>
      have hlength := congrArg List.length htext
      have hmore := List.length_pos_iff.mpr hmissing
      rw [hsplit, hafter]
      simp only [ErrorRecord.lines, ErrorRecord.line, List.flatMap_append, List.flatMap_cons,
        List.length_append] at hlength ⊢
      omega
  | newline hsplit hafter =>
      have hone : (Output.bytes "\n").length = 1 := rfl
      rw [hsplit, hafter]
      simp only [ErrorRecord.lines, ErrorRecord.line, List.flatMap_append, List.flatMap_cons,
        List.length_append]
      omega

/-- With nothing held, the error records are saved if the output has got all lines. -/
theorem Exported.saved_iff {answer : Except SinkError Nat}
    (hexported : Exported records before after answer) :
    Saved records [] before after ↔ after = before ++ ErrorRecord.lines records := by
  constructor
  · rintro ⟨written, part, hrecords, hafter, -⟩
    rw [List.append_nil] at hrecords
    subst hrecords
    cases hexported with
    | done hall => exact hall
    | unflushed hall => exact hall
    | stopped hwritten =>
        have hlength := congrArg List.length hafter
        rw [List.length_append] at hlength
        have hshort := hwritten.length_lt
        omega
  · intro hafter
    exact ⟨records, [], (List.append_nil _).symm, hafter.trans (List.append_nil _).symm,
      List.not_mem_nil⟩

/-- What an export does to a log of error records and to its output. -/
structure Exports (log : ErrorLog) (before : List UInt8) (answer : Except SinkError Nat)
    (left : ErrorLog) (after : List UInt8) : Prop where
  exported : Exported log.records.toList before after answer
  /-- Nothing is held afterwards, whatever the output took. -/
  emptied : left = { log with records := #[] }
  counted : ∀ count, answer = .ok count →
    count = log.records.size ∧ after = before ++ ErrorRecord.lines log.records.toList
  oneLine : ∀ record ∈ log.records.toList, '\n' ∉ record.toJson.render.toList
  /-- No error record is lost exactly if the output took the lines of all. -/
  saved_iff : Saved log.records.toList left.records.toList before after ↔
    after = before ++ ErrorRecord.lines log.records.toList

theorem exported_writeNdjson (htakes : output.Takes taken) (log : ErrorLog) (world : σ) :
    Exported log.records.toList (taken world) (taken (log.writeNdjson output world).2)
        (log.writeNdjson output world).1.1 ∧
      (log.writeNdjson output world).1.2 = { log with records := #[] } := by
  have hwritten := written_writeLines htakes log.records.toList world
  rw [writeNdjson, drain]
  simp only [bind_run]
  generalize writeLines output log.records.toList world = ended at hwritten
  obtain ⟨e | done, between⟩ := ended
  · exact ⟨.stopped hwritten, rfl⟩
  · cases hwritten with
    | all hall =>
        have hflush := (htakes.flush between).trans hall
        simp only
        rw [bind_run]
        cases hflushed : output.flush between with
        | mk flushed last =>
            rw [hflushed] at hflush
            cases flushed with
            | false => exact ⟨.unflushed hflush, rfl⟩
            | true => exact ⟨.done hflush, rfl⟩

/-- An export empties the log, and saves the error records exactly if its output takes the
lines of all of them. -/
theorem writeNdjson_exports (htakes : output.Takes taken) (log : ErrorLog) (world : σ) :
    Exports log (taken world) (log.writeNdjson output world).1.1
      (log.writeNdjson output world).1.2 (taken (log.writeNdjson output world).2) := by
  obtain ⟨hexported, hleft⟩ := exported_writeNdjson htakes log world
  refine ⟨hexported, hleft, ?_, ?_, ?_⟩
  · intro count hanswer
    rw [hanswer] at hexported
    cases hexported with
    | done hafter => exact ⟨Array.length_toList, hafter⟩
  · exact fun record _ => Json.newline_not_mem_render record.toJson
  · rw [hleft]
    exact hexported.saved_iff

end ErrorLog

/-- An output with room for so many bytes. -/
def Output.bounded (room : Nat) : Output (StateM (List UInt8)) where
  put text := modifyGet fun taken =>
    (decide ((bytes text).length ≤ room - taken.length),
      taken ++ (bytes text).take (room - taken.length))
  flush := pure true

theorem Output.takes_bounded (room : Nat) : (Output.bounded room).Takes id where
  put := by
    intro text taken
    refine ⟨(bytes text).take (room - taken.length), (bytes text).drop (room - taken.length),
      (List.take_append_drop _ _).symm, rfl, ?_⟩
    have hanswer : ((bounded room).put text taken).1 =
        decide ((bytes text).length ≤ room - taken.length) := rfl
    rw [hanswer, decide_eq_true_iff, List.drop_eq_nil_iff]
  flush := fun _ => rfl

def ErrorLog.single : ErrorLog :=
  { records := #[{
      record := { id := "1", value := .null }
      code := "TABSINK_01"
      message := ""
      table := none }] }

/-- An output that takes three bytes of the one error record loses it. -/
theorem ErrorLog.writeNdjson_exports_bounded :
    let ended := single.writeNdjson (Output.bounded 3) []
    (Output.bounded 3).Takes id ∧ Exports single [] ended.1.1 ended.1.2 ended.2 ∧
      ¬ Saved single.records.toList ended.1.2.records.toList [] ended.2 := by
  have hexports := writeNdjson_exports (Output.takes_bounded 3) single []
  refine ⟨Output.takes_bounded 3, hexports, ?_⟩
  intro hsaved
  have hlength := congrArg List.length (hexports.saved_iff.mp hsaved)
  revert hlength
  decide

end TableRouting
