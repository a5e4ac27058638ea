import TableRouting.FileTree.Basic
import TableRouting.RecordFile
import TableRouting.Sink.Error

/-!
# Failures of the program

A failed run says in one sentence what could not be done, and ends with an exit
code that tells apart whose fault it was: the configuration's, a batch's, the
machine's, or anything else's.
-/

namespace TableRouting.CommandLine

/-- How a run of the program ends. -/
inductive ExitCode where
  | success
  /-- The configuration cannot be used. -/
  | config
  /-- A batch was rolled back. Mistakes in the arguments share this code. -/
  | write
  /-- Something could not be read from or written to a file. -/
  | io
  | other
  deriving DecidableEq, Repr

def ExitCode.number : ExitCode → UInt32
  | .success => 0
  | .config => 1
  | .write => 2
  | .io => 3
  | .other => 10

/-- Why a run failed. -/
inductive Failure where
  /-- The configuration file cannot be read as text. -/
  | configUnreadable (path : String)
  /-- The configuration file does not hold a configuration. -/
  | configInvalid (path : String)
  | batchSizeZero
  | inputUnreadable (path : String)
  | inputInvalid (path : String) (error : RecordFileError)
  /-- The sink could not be opened, or the error records could not be written. -/
  | sink (error : SinkError)
  | errorsNotCreated (path : String)
  | batch (index : Nat) (error : SinkError)
  deriving DecidableEq, Repr

def ExitCode.ofSinkError : SinkError → ExitCode
  | .config _ | .invalidConfig _ => .config
  | .write _ => .write
  | .io _ => .io
  | .serialization _ | .closed => .other

namespace Failure

def message : Failure → String
  | .configUnreadable path | .configInvalid path => s!"Failed to load configuration from {path}"
  | .batchSizeZero => "Batch size must be greater than zero"
  | .inputUnreadable path | .inputInvalid path _ => s!"Failed to read {path}"
  | .sink error => error.message
  | .errorsNotCreated path => s!"Failed to create {path}"
  | .batch index _ => s!"Batch {index} failed"

/-- The exit code. A record file that is not text is the machine's fault. -/
def exitCode : Failure → ExitCode
  | .configUnreadable _ | .inputUnreadable _ | .errorsNotCreated _ => .io
  | .inputInvalid _ .notText => .io
  | .configInvalid _ => .config
  | .batchSizeZero | .inputInvalid .. => .other
  | .sink error | .batch _ error => .ofSinkError error

end Failure

end TableRouting.CommandLine
