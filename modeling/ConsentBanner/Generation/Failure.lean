import ConsentBanner.Template.Write
import ConsentBanner.Text.Search
import ConsentBanner.Time.Moment

/-!
Failures of a generation: invalid templates, and stages that produce nothing.
-/

namespace ConsentBanner.Generation

/-- A stage of a generation. -/
inductive Stage where
  | validation
  | markup
  | styles
  | panel
  | assembly
  | minify
  | exporting
deriving DecidableEq, Repr

instance : Named Stage where
  all := [.validation, .markup, .styles, .panel, .assembly, .minify, .exporting]
  name
    | .validation => "validation"
    | .markup => "markup"
    | .styles => "styles"
    | .panel => "panel"
    | .assembly => "assembly"
    | .minify => "minify"
    | .exporting => "export"

inductive Severity where
  | low
  | medium
  | high
  | critical
deriving DecidableEq, Repr

instance : Named Severity where
  all := [.low, .medium, .high, .critical]
  name
    | .low => "low"
    | .medium => "medium"
    | .high => "high"
    | .critical => "critical"

/-- What is recorded of a stage that failed. -/
structure Context where
  stage : Stage
  operation : String := "generate"
  templateId : Option String := none
  severity : Severity := .medium
  metadata : Json := .obj []
deriving Repr

/-- The record of a failure at a moment. -/
def Context.json (c : Context) (moment : Moment) : Json := .obj [
  ("stage", .str (Named.name c.stage)), ("operation", .str c.operation), ("template_id", optional c.templateId),
  ("timestamp", .str moment.text), ("severity", .str (Named.name c.severity)), ("metadata", c.metadata)]

/-- Why nothing was generated. -/
inductive Failure where
  /-- Everything that is wrong with a template. -/
  | invalidTemplate (errors : List String)
  | stage (s : Stage) (message : String)
  | fault (f : Fault)
deriving DecidableEq, Repr

def stageMessage (s : Stage) (message : String) : String :=
  Named.name s ++ " generation failed: " ++ message

/-- The first five errors and the number of the others. -/
def invalidMessage (errors : List String) : String :=
  "Template validation failed: " ++ Text.join "; " (errors.take 5) ++
    (if 5 < errors.length then " (+" ++ toString (errors.length - 5) ++ " more)" else "")

end ConsentBanner.Generation
