/-!
# Failures of table-name templates

A template can be malformed, which is found when it is compiled, or fail for one
record: something it refers to is missing or not a scalar, or nothing is left of
the name.
-/

namespace TableRouting

inductive TemplateFault where
  | unclosed
  | emptyReference
  | nested
  | namelessHeader
  | emptyTemplate
  deriving DecidableEq, Repr

def TemplateFault.message : TemplateFault → String
  | .unclosed => "unclosed '$\x7b'"
  | .emptyReference => "empty reference '$\x7b\x7d'"
  | .nested => "nested references are not supported"
  | .namelessHeader => "header reference without a name"
  | .emptyTemplate => "template is empty"

/-- Why no table name came out of a template. -/
inductive EvaluationError where
  | invalidTemplate (template message : String)
  | missingField (field : String)
  | missingHeader (header : String)
  | notScalar (field : String)
  | emptyTableName (template : String)
  deriving DecidableEq, Repr

def EvaluationError.message : EvaluationError → String
  | .invalidTemplate template message => s!"Invalid template '{template}': {message}"
  | .missingField field => s!"Field '{field}' not found in record"
  | .missingHeader header => s!"Header '{header}' not found in record"
  | .notScalar field => s!"Field '{field}' is not a scalar value"
  | .emptyTableName template => s!"Template '{template}' resolved to an empty table name"

end TableRouting
