import TableRouting.Proofs.JsonLines.Writing

/-!
# The history of a writer

A writer is given groups of records to write, each with a connection of its own, until
it is released.  Whatever came before, a write adds the lines of its records to the
connection; after the release every write is refused.
-/

namespace TableRouting.JsonLines

inductive WriterCall where
  | write (connection : Connection) (records : List Record)
  | close

def WriterCall.releases : WriterCall → Bool
  | write _ _ => false
  | close => true

namespace TableWriter

abbrev Answer := Except StoreError WriteReport × Connection

def after (writer : TableWriter) : WriterCall → TableWriter
  | .write connection records => (writer.write connection records).2.1
  | .close => writer.close

def answer? (writer : TableWriter) : WriterCall → Option Answer
  | .write connection records =>
    let (result, _, connection) := writer.write connection records
    some (result, connection)
  | .close => none

def afterAll (writer : TableWriter) (calls : List WriterCall) : TableWriter :=
  calls.foldl after writer

def answers (writer : TableWriter) : List WriterCall → List Answer
  | [] => []
  | call :: rest => (writer.answer? call).toList ++ (writer.after call).answers rest

def answerFor (spec : WriterSpec) (table : String) (released : Bool) (connection : Connection)
    (records : List Record) : Answer :=
  if released then (.error (.writerClosed table), connection)
  else (.ok (report spec records),
    connection.appendAll ⟨spec.schema, table⟩ (lines spec table records))

def answersFor (spec : WriterSpec) (table : String) (released : Bool) :
    List WriterCall → List Answer
  | [] => []
  | .write connection records :: rest =>
    answerFor spec table released connection records :: answersFor spec table released rest
  | .close :: rest => answersFor spec table true rest

variable {writer : TableWriter} {table : String} {spec : WriterSpec}

theorem afterAll_cons (writer : TableWriter) (call : WriterCall) (rest : List WriterCall) :
    writer.afterAll (call :: rest) = (writer.after call).afterAll rest := rfl

theorem closed_close (writer : TableWriter) : writer.close.closed = true := by
  rw [TableWriter.close]
  split
  · assumption
  · rfl

theorem Fits.answer_write (hfits : writer.Fits table spec) (connection : Connection)
    (records : List Record) :
    writer.answer? (.write connection records) =
      some (answerFor spec table writer.closed connection records) := by
  cases hclosed : writer.closed with
  | true => simp [answer?, answerFor, TableWriter.write, hclosed, hfits.table_eq]
  | false =>
      obtain ⟨_, _, _, hwrite⟩ := hfits.write hclosed connection records
      simp [answer?, answerFor, hwrite]

/-- After a call the writer is as it was made, and closed if it was released. -/
theorem Fits.after (hfits : writer.Fits table spec) (call : WriterCall) :
    (writer.after call).Fits table spec ∧
      (writer.after call).closed = (writer.closed || call.releases) := by
  cases call with
  | close =>
      refine ⟨hfits.close, ?_⟩
      rw [TableWriter.after, closed_close, WriterCall.releases, Bool.or_true]
  | write connection records =>
      rw [TableWriter.after, WriterCall.releases, Bool.or_false]
      cases hclosed : writer.closed with
      | true =>
          rw [TableWriter.write, if_pos hclosed]
          exact ⟨hfits, hclosed⟩
      | false =>
          obtain ⟨later, hlater, hopen, hwrite⟩ := hfits.write hclosed connection records
          rw [hwrite]
          exact ⟨hlater, hopen⟩

theorem Fits.afterAll (hfits : writer.Fits table spec) (calls : List WriterCall) :
    (writer.afterAll calls).Fits table spec ∧
      (writer.afterAll calls).closed = (writer.closed || calls.any WriterCall.releases) := by
  induction calls generalizing writer with
  | nil => exact ⟨hfits, (Bool.or_false _).symm⟩
  | cons call rest ih =>
      obtain ⟨hafter, hclosed⟩ := hfits.after call
      obtain ⟨hrest, hend⟩ := ih hafter
      refine ⟨hrest, hend.trans ?_⟩
      rw [hclosed, List.any_cons, Bool.or_assoc]

/-- The writes answer what the settings say, whatever was written before. -/
theorem Fits.answers (hfits : writer.Fits table spec) (calls : List WriterCall) :
    writer.answers calls = answersFor spec table writer.closed calls := by
  induction calls generalizing writer with
  | nil => rfl
  | cons call rest ih =>
      obtain ⟨hafter, hclosed⟩ := hfits.after call
      rw [TableWriter.answers, ih hafter, hclosed]
      cases call with
      | write connection records =>
          rw [hfits.answer_write, answersFor, WriterCall.releases, Bool.or_false]
          rfl
      | close =>
          rw [answersFor, WriterCall.releases, Bool.or_true]
          rfl

/-- Whatever was written before, a write answers for its own records. -/
theorem write_afterAll (hcreate : create table spec = .ok writer) {calls : List WriterCall}
    (hkept : calls.any WriterCall.releases = false) (connection : Connection)
    (records : List Record) :
    ∃ after : TableWriter, (writer.afterAll calls).write connection records =
      (.ok (report spec records), after,
        connection.appendAll ⟨spec.schema, table⟩ (lines spec table records)) := by
  obtain ⟨hfits, hopen⟩ := fits_of_create hcreate
  obtain ⟨hthen, hclosed⟩ := hfits.afterAll calls
  rw [hopen, Bool.false_or, hkept] at hclosed
  obtain ⟨after, -, -, hwrite⟩ := hthen.write hclosed connection records
  exact ⟨after, hwrite⟩

/-- After its release a writer refuses to write. -/
theorem write_afterAll_of_released (hcreate : create table spec = .ok writer)
    {calls : List WriterCall} (hreleased : calls.any WriterCall.releases = true)
    (connection : Connection) (records : List Record) :
    (writer.afterAll calls).write connection records =
      (.error (.writerClosed table), writer.afterAll calls, connection) := by
  obtain ⟨hfits, -⟩ := fits_of_create hcreate
  obtain ⟨hthen, hclosed⟩ := hfits.afterAll calls
  rw [hreleased, Bool.or_true] at hclosed
  rw [TableWriter.write, if_pos hclosed, hthen.table_eq]

end TableWriter

end TableRouting.JsonLines
