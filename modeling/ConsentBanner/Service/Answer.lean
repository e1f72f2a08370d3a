import ConsentBanner.Generation.Failure
import ConsentBanner.Schema

/-!
Answers of the service. Refusals are documents that name an error, describe it and may tell its details.
-/

namespace ConsentBanner.Service

inductive Content where
  | document (v : Json)
  | text (s : String)
deriving Repr

structure Answer where
  status : Nat := 200
  contentType : String := "application/json"
  /-- How a browser is to store the content. -/
  disposition : Option String := none
  content : Content
deriving Repr

namespace Answer

def ofDocument (fields : List (String × Json)) : Answer := { content := .document (.obj fields) }

def page (html : String) : Answer := { contentType := "text/html; charset=utf-8", content := .text html }

/-- The characters that a header can carry. -/
def isHeaderChar (c : Char) : Bool := c.toNat < 256

def refusal (status : Nat) (error message : String) (details : Json := .null) : Answer where
  status := status
  content := .document (.obj [("error", .str error), ("message", .str message), ("details", details)])

def notFound : Answer := refusal 404 "http_404" "Not Found"

def methodNotAllowed : Answer := refusal 405 "http_405" "Method Not Allowed"

/-- The refusal of a body that cannot be read at all. -/
def unreadableBody : Answer := refusal 400 "http_400" "There was an error parsing the body"

def internalError : Answer := refusal 500 "internal_server_error" "An unexpected error occurred"

/-- The refusal of a request with issues, each told with its place in the body. -/
def invalidRequest (issues : List Issue) : Answer :=
  refusal 422 "validation_error" "Request validation failed" <| .obj [("validation_errors", .arr (issues.map fun i =>
    .obj [("field", .str (Text.join " -> " i.path)), ("message", .str i.problem.message),
      ("type", .str i.problem.code)]))]

def ofFailure : Generation.Failure → Answer
  | .invalidTemplate errors =>
    refusal 422 "template_validation_error" "Template validation failed"
      (.obj [("validation_errors", .arr (errors.map .str))])
  | .stage s message =>
    refusal 500 "generation_error" (Generation.stageMessage s message) (.obj [("stage", .str (Named.name s))])
  | .fault _ => internalError

/-- The answer to what was read from a request. -/
def ofChecked {α : Type} (answer : α → Answer) : Checked α → Answer
  | .valid a => answer a
  | .invalid issues => invalidRequest issues
  | .fault .unreadable => unreadableBody
  | .fault _ => internalError

/-- The answer to the outcome of a generation. -/
def ofOutcome {α : Type} (answer : α → Answer) : Except Generation.Failure α → Answer
  | .ok a => answer a
  | .error f => ofFailure f

/-- A download under a file name; a name that no header can carry is an internal error. -/
def download (contentType name text : String) : Answer :=
  if name.toList.all isHeaderChar then
    { contentType := contentType
      disposition := some ("attachment; filename=\"" ++ name ++ "\"")
      content := .text text }
  else internalError

end Answer

end ConsentBanner.Service
