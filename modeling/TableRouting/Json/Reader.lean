import TableRouting.Json.Token

/-!
# Reading JSON texts

A stack machine turns tokens into a value. Each token acts on the stack of open
arrays and objects, so reading needs no look-ahead and no bound other than the
limit on nesting: at most 127 arrays and objects may be open at once.

The reader feeds the machine while it scans, one character at a time.
-/

namespace TableRouting.Json

/-- An open array or object. Items are kept last one first; the fields of an
object are kept sorted. -/
inductive Frame where
  | array (items : List Json)
  | object (fields : List (String × Json)) (key : String)
  deriving Repr

/-- What the tokens read so far ask for. -/
inductive Build where
  /-- A value. After an opening bracket, `closable` is true and the array may end. -/
  | value (closable : Bool) (stack : List Frame)
  /-- A key, inside an object with these fields. -/
  | key (closable : Bool) (fields : List (String × Json)) (stack : List Frame)
  /-- The colon after a key. -/
  | colon (fields : List (String × Json)) (key : String) (stack : List Frame)
  /-- A comma or a closing bracket: a value is complete inside the top frame. -/
  | next (value : Json) (frame : Frame) (stack : List Frame)
  /-- Nothing more. -/
  | done (value : Json)
  deriving Repr

/-- The most arrays and objects that may be open at once. -/
def nestingLimit : Nat := 127

def Build.complete (json : Json) : List Frame → Build
  | [] => .done json
  | frame :: stack => .next json frame stack

def Build.start (stack : List Frame) : Token → Option Build
  | .openArray =>
    if stack.length < nestingLimit then some (.value true (.array [] :: stack)) else none
  | .openObject =>
    if stack.length < nestingLimit then some (.key true [] stack) else none
  | .literal json => some (complete json stack)
  | _ => none

/-- Act on one token, or refuse it. -/
def Build.step : Build → Token → Option Build
  | .value true (.array [] :: stack), .closeArray => some (complete (.arr []) stack)
  | .value _ stack, token => start stack token
  | .key true _ stack, .closeObject => some (complete (.obj []) stack)
  | .key _ fields stack, .literal (.str name) => some (.colon fields name stack)
  | .colon fields name stack, .colon => some (.value false (.object fields name :: stack))
  | .next json (.array items) stack, .comma => some (.value false (.array (json :: items) :: stack))
  | .next json (.array items) stack, .closeArray =>
    some (complete (.arr (json :: items).reverse) stack)
  | .next json (.object fields name) stack, .comma =>
    some (.key false (insertSorted name json fields) stack)
  | .next json (.object fields name) stack, .closeObject =>
    some (complete (.obj (insertSorted name json fields)) stack)
  | _, _ => none

def Build.run : Build → List Token → Option Build
  | build, [] => some build
  | build, token :: rest =>
    match build.step token with
    | some after => run after rest
    | none => none

theorem Build.run_append (build : Build) (first second : List Token) :
    build.run (first ++ second) = (build.run first).bind (·.run second) := by
  induction first generalizing build with
  | nil => rfl
  | cons token rest ih =>
    cases h : build.step token with
    | none => simp [run, h]
    | some after => simp [run, h, ih]

/-- Scan and build over the rest of a text. -/
def readFrom : Scan → Build → List Char → Option (Scan × Build)
  | scan, build, [] => some (scan, build)
  | scan, build, c :: rest =>
    match scan.step c with
    | none => none
    | some (scan, tokens) =>
      match build.run tokens with
      | none => none
      | some build => readFrom scan build rest

/-- The value of a whole text, or none if it is not one. -/
def ofChars? (text : List Char) : Option Json := do
  let (scan, build) ← readFrom .between (.value false []) text
  let tokens ← scan.finish?
  match ← build.run tokens with
  | .done value => some value
  | _ => none

/-- The value of a whole string, or none if it is not one. -/
def parse? (text : String) : Option Json := ofChars? text.toList

end TableRouting.Json
