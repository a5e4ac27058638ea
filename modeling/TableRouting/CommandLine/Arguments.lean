/-!
# Arguments

The program is called with options and one command, which has options of its own.
An option has a long name and perhaps a letter; letters may be run together after
one dash, and a value follows its option as the next argument or, after an equals
sign, in the same one. A letter's value may also follow it directly. Two options
may be given on either side of the command.

Arguments are read from left to right and the first that settles the matter does:
a question for help or the version is answered before a later mistake is seen.
-/

namespace TableRouting.CommandLine

structure WriteOptions where
  /-- The record file. -/
  input : String
  /-- A connection string in place of the configured one. -/
  output : Option String := none
  /-- The most records in a batch. -/
  batchSize : Nat := 1000
  /-- How many workers hand in batches. -/
  workers : Nat := 1
  /-- A file for the error records. -/
  errors : Option String := none
  deriving DecidableEq, Repr

inductive Command where
  | write (options : WriteOptions)
  | validate
  deriving DecidableEq, Repr

structure Invocation where
  command : Command
  /-- The configuration file. -/
  config : Option String := none
  /-- How often more logging was asked for. -/
  verbosity : Nat := 0
  deriving DecidableEq, Repr

/-- Why arguments are no call. -/
inductive Unserved where
  | help
  | version
  | misuse
  deriving DecidableEq, Repr

/-- The options of the program and its commands. -/
inductive Switch where
  | config
  | verbose
  | help
  | version
  | input
  | output
  | batchSize
  | workers
  | errors
  deriving DecidableEq, Repr

namespace Switch

/-- The long name, which is written after two dashes. -/
def name : Switch → String
  | .config => "config"
  | .verbose => "verbose"
  | .help => "help"
  | .version => "version"
  | .input => "input"
  | .output => "output"
  | .batchSize => "batch-size"
  | .workers => "workers"
  | .errors => "errors"

def letter? : Switch → Option Char
  | .config => some 'c'
  | .verbose => some 'v'
  | .help => some 'h'
  | .version => some 'V'
  | .input => some 'i'
  | .output => some 'o'
  | .batchSize | .workers | .errors => none

def takesValue : Switch → Bool
  | .verbose | .help | .version => false
  | _ => true

end Switch

/-- The place of an option: before the command, or after it. -/
inductive Scope where
  | program
  | write
  | validate
  deriving DecidableEq, Repr

def Scope.switches : Scope → List Switch
  | .program => [.config, .verbose, .help, .version]
  | .write => [.config, .verbose, .help, .input, .output, .batchSize, .workers, .errors]
  | .validate => [.config, .verbose, .help]

def Scope.named? (scope : Scope) (name : String) : Option Switch :=
  scope.switches.find? fun switch => switch.name = name

def Scope.lettered? (scope : Scope) (letter : Char) : Option Switch :=
  scope.switches.find? fun switch => switch.letter? = some letter

/-- What options in one place have said. -/
structure Settings where
  config : Option String := none
  verbosity : Nat := 0
  input : Option String := none
  output : Option String := none
  batchSize : Option Nat := none
  workers : Option Nat := none
  errors : Option String := none
  deriving DecidableEq, Repr

/-- The value of digits, the most significant first; none if one is no digit. -/
def digitsValue? (value : Nat) : List Char → Option Nat
  | [] => some value
  | c :: rest => if c.isDigit then digitsValue? (10 * value + (c.toNat - '0'.toNat)) rest else none

/-- A count: digits, perhaps after a plus sign, for a 64-bit number. -/
def count? (text : String) : Option Nat :=
  let digits := match text.toList with
    | '+' :: rest => rest
    | digits => digits
  if digits.isEmpty then none
  else (digitsValue? 0 digits).bind fun n => if n < UInt64.size then some n else none

/-- Say something that may be said once. -/
def once {α : Type} (said : Option α) (value : Option α) : Except Unserved (Option α) :=
  match said, value with
  | none, some value => .ok (some value)
  | _, _ => .error .misuse

def path? (text : String) : Option String := if text.isEmpty then none else some text

namespace Settings

/-- Take in an option with its value. Only the option for more logging may be
repeated. -/
def add (settings : Settings) (switch : Switch) (value : String) : Except Unserved Settings :=
  match switch with
  | .help => .error .help
  | .version => .error .version
  | .verbose => .ok { settings with verbosity := settings.verbosity + 1 }
  | .config => do return { settings with config := ← once settings.config (path? value) }
  | .input => do return { settings with input := ← once settings.input (path? value) }
  | .output => do return { settings with output := ← once settings.output (some value) }
  | .errors => do return { settings with errors := ← once settings.errors (path? value) }
  | .batchSize => do
    return { settings with batchSize := ← once settings.batchSize (count? value) }
  | .workers => do return { settings with workers := ← once settings.workers (count? value) }

end Settings

/-- What options have said, and the option whose value is still to come. -/
abbrev Reading := Settings × Option Switch

/-- Read the letters after one dash. A letter whose option takes a value takes what
follows it, less an equals sign in front; if nothing follows, the next argument. -/
def readLetters (scope : Scope) (settings : Settings) : List Char → Except Unserved Reading
  | [] => .ok (settings, none)
  | letter :: rest =>
    match scope.lettered? letter with
    | none => .error .misuse
    | some switch =>
      if switch.takesValue then
        match rest with
        | [] => .ok (settings, some switch)
        | '=' :: value => (settings.add switch (String.ofList value)).map (·, none)
        | value => (settings.add switch (String.ofList value)).map (·, none)
      else
        match settings.add switch "" with
        | .error e => .error e
        | .ok settings => readLetters scope settings rest

/-- Read what follows two dashes: a long name, perhaps with an equals sign and a
value. -/
def readName (scope : Scope) (settings : Settings) (text : List Char) :
    Except Unserved Reading :=
  let name := text.takeWhile (· ≠ '=')
  match scope.named? (String.ofList name), text.drop name.length with
  | none, _ => .error .misuse
  | some switch, [] =>
    if switch.takesValue then .ok (settings, some switch)
    else (settings.add switch "").map (·, none)
  | some switch, _ :: value =>
    if switch.takesValue then (settings.add switch (String.ofList value)).map (·, none)
    else .error .misuse

inductive Argument where
  /-- No option. A single dash is none. -/
  | word (text : String)
  /-- Two dashes and nothing else: no options follow. -/
  | endOfOptions
  | longName (text : List Char)
  | letters (text : List Char)

def Argument.ofText (text : String) : Argument :=
  match text.toList with
  | ['-', '-'] => .endOfOptions
  | '-' :: '-' :: rest => .longName rest
  | ['-'] => .word text
  | '-' :: rest => .letters rest
  | _ => .word text

/-- Arguments read so far: what the options said, and the first word with the
arguments after it. -/
abbrev ReadArguments := Settings × Option (String × List String)

/-- Read options up to the first word. Nothing may follow the end of the options,
since no argument of the program is anything else. -/
def readOptions (scope : Scope) : Reading → List String → Except Unserved ReadArguments
  | (settings, none), [] => .ok (settings, none)
  | (_, some _), [] => .error .misuse
  | (settings, awaited), argument :: rest =>
    match Argument.ofText argument, awaited with
    | .word value, some switch =>
      match settings.add switch value with
      | .error e => .error e
      | .ok settings => readOptions scope (settings, none) rest
    | _, some _ => .error .misuse
    | .word word, none => .ok (settings, some (word, rest))
    | .endOfOptions, none => if rest.isEmpty then .ok (settings, none) else .error .misuse
    | .longName text, none =>
      match readName scope settings text with
      | .error e => .error e
      | .ok reading => readOptions scope reading rest
    | .letters text, none =>
      match readLetters scope settings text with
      | .error e => .error e
      | .ok reading => readOptions scope reading rest

def readCommand (scope : Scope) (arguments : List String) : Except Unserved Settings :=
  match readOptions scope ({}, none) arguments with
  | .error e => .error e
  | .ok (settings, none) => .ok settings
  | .ok (_, some _) => .error .misuse

def WriteOptions.ofSettings? (settings : Settings) : Option WriteOptions :=
  settings.input.map fun input =>
    { input
      output := settings.output
      batchSize := settings.batchSize.getD 1000
      workers := settings.workers.getD 1
      errors := settings.errors }

/-- A call of the program. What is said after the command goes before what is said
in front of it. -/
def Invocation.ofSettings (before after : Settings) (command : Command) : Invocation where
  command
  config := after.config.or before.config
  verbosity := if after.verbosity = 0 then before.verbosity else after.verbosity

/-- The names of commands after which help is given. -/
def helpTopics : List (List String) := [[], ["write"], ["validate"], ["help"]]

def Invocation.ofArguments (arguments : List String) : Except Unserved Invocation := do
  match ← readOptions .program ({}, none) arguments with
  | (before, some ("write", rest)) =>
    let after ← readCommand .write rest
    match WriteOptions.ofSettings? after with
    | some options => return .ofSettings before after (.write options)
    | none => throw .misuse
  | (before, some ("validate", rest)) =>
    let after ← readCommand .validate rest
    return .ofSettings before after .validate
  | (_, some ("help", rest)) => throw (if rest ∈ helpTopics then .help else .misuse)
  | _ => throw .misuse

end TableRouting.CommandLine
