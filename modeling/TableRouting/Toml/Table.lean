import TableRouting.Json.Value

/-!
# TOML tables under construction

While a document is read, a table remembers how it came to be, because that
decides who may still add to it: a header may define a table that other headers
only passed through, and dotted keys may extend only what dotted keys made.
-/

namespace TableRouting.Toml

/-- How a table came to be. -/
inductive Origin where
  /-- Defined by its own header. -/
  | header
  /-- Passed through by the header of another table. -/
  | passed
  /-- Made by a dotted key. -/
  | dotted
  deriving DecidableEq, Repr

/-- An entry of a table. Values, closed inline tables included, cannot be
extended. The tables of an array of tables are kept last one first. -/
inductive Node where
  | value (json : Json)
  | table (origin : Origin) (entries : List (String × Node))
  | tables (reversed : List (List (String × Node)))

/-- The entries of a table, in the order in which they were made. -/
abbrev Entries := List (String × Node)

/-- Change the entry of a key that is present. -/
def replaceEntry (key : String) (node : Node) : Entries → Entries
  | [] => []
  | (k, v) :: rest => if k = key then (k, node) :: rest else (k, v) :: replaceEntry key node rest

/-- Apply a change to the table at a path of headers. Missing tables on the way
are passed through; in an array of tables the way leads into the last one. -/
def atHeader (change : Entries → Option Entries) : List String → Entries → Option Entries
  | [], entries => change entries
  | key :: path, entries =>
    match Json.lookup? key entries with
    | none => (atHeader change path []).map fun inner => entries ++ [(key, .table .passed inner)]
    | some (.table origin inner) =>
      (atHeader change path inner).map fun inner => replaceEntry key (.table origin inner) entries
    | some (.tables (last :: others)) =>
      (atHeader change path last).map fun last =>
        replaceEntry key (.tables (last :: others)) entries
    | _ => none

def defineTable (key : String) (entries : Entries) : Option Entries :=
  match Json.lookup? key entries with
  | none => some (entries ++ [(key, .table .header [])])
  | some (.table .passed inner) => some (replaceEntry key (.table .header inner) entries)
  | _ => none

/-- Begin a new table of an array of tables. -/
def appendTable (key : String) (entries : Entries) : Option Entries :=
  match Json.lookup? key entries with
  | none => some (entries ++ [(key, .tables [[]])])
  | some (.tables others) => some (replaceEntry key (.tables ([] :: others)) entries)
  | _ => none

/-- Give a value to a key in a table, which must be new. -/
private def addValue (key : String) (json : Json) (entries : Entries) : Option Entries :=
  match Json.lookup? key entries with
  | none => some (entries ++ [(key, .value json)])
  | some _ => none

/-- Give a value to a dotted key. The last table on the way must be made by
dotted keys; `origin` is that of the table at hand and `direct` says that no dot
was followed yet. -/
def assign (json : Json) (key : String) (origin : Origin) (direct : Bool) :
    List String → Entries → Option Entries
  | [], entries => if direct ∨ origin = .dotted then addValue key json entries else none
  | step :: path, entries =>
    match Json.lookup? step entries with
    | none =>
      (assign json key .dotted false path []).map fun inner =>
        entries ++ [(step, .table .dotted inner)]
    | some (.table .header _) => none
    | some (.table origin inner) =>
      (assign json key origin false path inner).map fun inner =>
        replaceEntry step (.table origin inner) entries
    | some (.tables (last :: others)) =>
      (assign json key .header false path last).map fun last =>
        replaceEntry step (.tables (last :: others)) entries
    | _ => none

mutual

/-- The finished value of an entry. -/
def Node.toJson : Node → Json
  | .value json => json
  | .table _ entries => .obj (entriesJson entries)
  | .tables reversed => .arr (tablesJson reversed [])

def entriesJson : List (String × Node) → List (String × Json)
  | [] => []
  | (key, node) :: rest => (key, node.toJson) :: entriesJson rest

/-- The finished tables of an array of tables, in the order of the document. -/
def tablesJson : List (List (String × Node)) → List Json → List Json
  | [], done => done
  | entries :: rest, done => tablesJson rest (.obj (entriesJson entries) :: done)

end

end TableRouting.Toml
