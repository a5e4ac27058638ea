import TableRouting.CommandLine.Dispatch
import TableRouting.CommandLine.Failure

/-!
# Reports of runs

What a run of the program leaves behind apart from files: a text on the output, the
problems of the configuration that a check found, and the failure, if any.
-/

namespace TableRouting.CommandLine

/-- A duration in milliseconds with two places, in the largest unit of which it
holds one. -/
def durationText (milliseconds : Nat) : String :=
  if milliseconds = 0 then "0.00ns"
  else if milliseconds < 1000 then s!"{milliseconds}.00ms"
  else
    let hundredths := (milliseconds + 5) / 10
    let places := hundredths % 100
    let whole := hundredths / 100
    if places < 10 then s!"{whole}.0{places}s" else s!"{whole}.{places}s"

structure WriteResult where
  summary : Summary
  /-- How long the write took, in milliseconds. -/
  elapsed : Nat
  writersReleased : Nat
  releaseErrors : Nat
  /-- The metrics as text. -/
  metrics : String

namespace WriteResult

def summaryLine (report : WriteResult) : String :=
  let ⟨batches, written, errored, discarded⟩ := report.summary
  let elapsed := durationText report.elapsed
  let totals := s!"Wrote {written} records in {batches} batches"
  totals ++ s!" ({errored} errored, {discarded} discarded) in {elapsed}"

def releaseLine (report : WriteResult) : String :=
  let ⟨_, _, released, errors, _⟩ := report
  s!"Released {released} writers, {errors} release errors"

def text (report : WriteResult) : String :=
  report.summaryLine ++ "\n" ++ report.releaseLine ++ "\n" ++ report.metrics

end WriteResult

/-- What a run of the program leaves behind. -/
structure RunReport where
  exitCode : ExitCode := .success
  output : String := ""
  failure : Option Failure := none
  /-- The problems that a check of the configuration found. -/
  issues : List ConfigIssue := []

namespace RunReport

def failed (failure : Failure) : RunReport where
  exitCode := failure.exitCode
  failure := some failure

def succeeded (output : String) : RunReport where
  output

end RunReport

end TableRouting.CommandLine
