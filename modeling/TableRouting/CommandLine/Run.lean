import TableRouting.CommandLine.Arguments
import TableRouting.CommandLine.Report
import TableRouting.Config.File
import TableRouting.ErrorRecord.Export
import TableRouting.JsonLines.Source
import TableRouting.Sink.Basic

/-!
# Runs of the program

A write reads a record file and hands its records in batches to a sink over a
JSON-lines store; the error records may be saved, and they are even when a batch
failed. A check opens a sink and closes it again. Both are effects of the machine
that the program runs on.
-/

namespace TableRouting.CommandLine

def versionText : String := "tabsink 0.1.0\n"

def usageLines : List String :=
  ["Usage: tabsink [OPTIONS] <COMMAND>",
    "",
    "Commands:",
    "  write     Write a record file through the sink",
    "  validate  Check a configuration file",
    "",
    "Options:",
    "  -c, --config <FILE>  Configuration file",
    "  -v, --verbose...     Log more",
    "  -h, --help           Show this text",
    "  -V, --version        Show the version",
    "",
    "Options of write:",
    "  -i, --input <FILE>     Record file, one JSON value per line",
    "  -o, --output <TARGET>  Connection string in place of the configured one",
    "  --batch-size <N>       Records per batch",
    "  --workers <N>          Workers that hand in batches",
    "  --errors <FILE>        File for error records"]

def usageText : String := String.join (usageLines.map (· ++ "\n"))

/-- The configuration file that is read when none is given. -/
def defaultConfigPath : String := "config.toml"

/-- The state of a run with a sink, over the effects of the machine. -/
abbrev RunT (m : Type → Type) := CacheT JsonLines.TableWriter (JsonLines.SessionT m)

/-- A sink over a JSON-lines store. -/
abbrev FileSink (m : Type → Type) :=
  Sink (JsonLines.SessionT m) JsonLines.Connection JsonLines.TableWriter

variable {m : Type → Type} [Monad m] [Host m]

def loadConfig (path : String) : m (Except Failure Config) := do
  match ← Host.read path with
  | .error _ => pure (.error (.configUnreadable path))
  | .ok bytes =>
    match String.fromUTF8? bytes with
    | none => pure (.error (.configUnreadable path))
    | some text =>
      match Config.ofToml? text with
      | some config => pure (.ok config)
      | none => pure (.error (.configInvalid path))

def loadRecords (path : String) : m (Except Failure (List Record)) := do
  match ← Host.read path with
  | .error _ => pure (.error (.inputUnreadable path))
  | .ok bytes => pure ((RecordFile.records bytes).mapError (.inputInvalid path))

def openSink (config : Config) : RunT m (Except SinkError (FileSink m)) :=
  Sink.openWith config {} JsonLines.provide JsonLines.route

def fileOutput (path : String) : Output m where
  put text := do
    return (← Host.append path text).toBool
  flush := pure true

def saveErrors (path : String) : JsonLines.SessionT m (Except Failure Unit) := do
  match ← liftM (Host.truncate path : m (Except FileError Unit)) with
  | .error _ => pure (.error (.errorsNotCreated path))
  | .ok () =>
    let session ← get
    let (result, errors) ← liftM (session.errors.writeNdjson (fileOutput path) : m _)
    set { session with errors }
    match result with
    | .ok _ => pure (.ok ())
    | .error e => pure (.error (.sink e))

def saveErrorsIfAsked (path : Option String) : JsonLines.SessionT m (Except Failure Unit) :=
  match path with
  | some path => saveErrors path
  | none => pure (.ok ())

def writeThrough : WriteBatch (StateT (FileSink m) (RunT m)) := fun batch sink =>
  sink.writeBatch batch

def writeAll (sink : FileSink m) (options : WriteOptions) (records : List Record) :
    RunT m (Except Failure WriteResult) := do
  let batches := batchesOf options.batchSize records
  let started ← liftM (Host.now : m Nat)
  let (result, sink) ← (dispatch writeThrough batches options.workers).run sink
  match ← liftM (saveErrorsIfAsked (m := m) options.errors) with
  | .error e =>
    let _ ← sink.close
    pure (.error e)
  | .ok () =>
    let metrics ← sink.metricsText
    let (released, _) ← sink.close
    match result with
    | .error (index, e) => pure (.error (.batch index e))
    | .ok summary =>
      let finished ← liftM (Host.now : m Nat)
      pure (.ok {
        summary
        elapsed := finished - started
        writersReleased := released.writersReleased
        releaseErrors := released.errors.length
        metrics })

def sessionOf (config : Config) : JsonLines.Session where
  errors := { policy := config.sink.onRecordError }

def write (config : Config) (options : WriteOptions) : m (Except Failure WriteResult) := do
  if options.batchSize = 0 then pure (.error .batchSizeZero)
  else
    match ← loadRecords options.input with
    | .error e => pure (.error e)
    | .ok records =>
      let run : RunT m (Except Failure WriteResult) := do
        match ← openSink config with
        | .error e => pure (.error (.sink e))
        | .ok sink => writeAll sink options records
      (run.run' {}).run' (sessionOf config)

/-- Check a configuration by opening its sink and closing it again. -/
def validate (config : Config) : m RunReport := do
  let run : RunT m RunReport := do
    match ← openSink config with
    | .error e =>
      let issues := match e with
        | .invalidConfig issues => issues
        | _ => []
      pure { RunReport.failed (.sink e) with issues }
    | .ok sink =>
      let _ ← sink.close
      pure (.succeeded "Configuration is valid\n")
  (run.run' {}).run' (sessionOf config)

/-- The configuration with another connection string, if one is given. -/
def withOutput (config : Config) : Option String → Config
  | some connectionString =>
    { config with connection := { config.connection with connectionString } }
  | none => config

def carryOut (invocation : Invocation) : m RunReport := do
  match ← loadConfig (invocation.config.getD defaultConfigPath) with
  | .error e => pure (.failed e)
  | .ok config =>
    match invocation.command with
    | .validate => validate config
    | .write options =>
      match ← write (withOutput config options.output) options with
      | .error e => pure (.failed e)
      | .ok report => pure (.succeeded report.text)

def run (arguments : List String) : m RunReport :=
  match Invocation.ofArguments arguments with
  | .ok invocation => carryOut invocation
  | .error .help => pure (.succeeded usageText)
  | .error .version => pure (.succeeded versionText)
  | .error .misuse => pure { exitCode := .write }

end TableRouting.CommandLine
