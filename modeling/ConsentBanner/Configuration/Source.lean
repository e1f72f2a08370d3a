import ConsentBanner.Configuration.Basic
import ConsentBanner.Yaml.Reader

/-!
Configurations out of files. The settings of the base file come first; over them are laid the file of the
environment, the block of the environment in either file, and values given from outside. Where one document is laid over
another, objects are merged field by field at every depth, and any other value replaces what lies under it.
-/

namespace ConsentBanner

/-- The fields of the object that is the value of a field. -/
def Json.fields? (v : Json) : Option (List (String × Json)) :=
  match v.bare with
  | .obj fields => some fields
  | _ => none

/-- The key of a field whose key is no text: the one that is there already, if it is there. -/
def Json.keyUnder (under : Option Json) (key : Json) : Json :=
  match under with
  | some (.keyed own _) => own
  | _ => key

mutual

/-- The fields of an object after the fields of another are laid over them. -/
def Fields.overlay (base : List (String × Json)) : List (String × Json) → List (String × Json)
  | [] => base
  | (k, v) :: rest => Fields.overlay (Fields.set k (Json.overlay (Fields.get? k base) v) base) rest

/-- A value laid over the value, if any, that stands in its place. -/
def Json.overlay (under : Option Json) : Json → Json
  | .obj fields => .obj ((under.bind Json.fields?).elim fields (Fields.overlay · fields))
  | .keyed key (.obj fields) =>
    .keyed (Json.keyUnder under key) (.obj ((under.bind Json.fields?).elim fields (Fields.overlay · fields)))
  | .keyed key v => .keyed (Json.keyUnder under key) v
  | v => v

end

namespace Json

/-- A document laid over another. Both have to be objects; an object without fields changes a list or a set no
more than it changes an object. -/
def merge (base upper : Json) : Except Fault Json :=
  match base, upper with
  | .obj base, .obj upper => .ok (.obj (Fields.overlay base upper))
  | .arr items, .obj [] => .ok (.arr items)
  | .set members, .obj [] => .ok (.set members)
  | .arr _, .obj _ | .set _, .obj _ => .error .wrongKind
  | _, _ => .error .lacksParts

end Json

/-- Where configurations come from. -/
structure Source where
  /-- The texts of the files of a folder, by name. -/
  files : List (String × String) := []
  /-- The environment that applies when none is asked for. -/
  environment : String := "development"
  /-- A base address given from outside. -/
  baseUrl : Option String := none
  /-- A platform identifier given from outside, ignored when it is no integer. -/
  cmpId : Option String := none
deriving Repr

/-- Why there is no configuration. -/
inductive LoadError where
  /-- The base file is missing. -/
  | missing
  /-- A file cannot be read, or its parts do not fit together. -/
  | fault (f : Fault)
  /-- Settings have values of the wrong kind. -/
  | invalid (issues : List Issue)
  /-- A setting has a name that is no text. -/
  | foreignKey
deriving DecidableEq, Repr

namespace LoadError

/-- The text of the errors that are about settings. -/
def message : LoadError → String
  | invalid issues =>
    let n := issues.length
    "Invalid generator configuration: " ++ toString n ++ " validation error" ++ (if n == 1 then "" else "s") ++
      " for GeneratorConfiguration"
  | foreignKey => "Invalid generator configuration: keywords must be strings"
  | _ => ""

/-- Whether the default configuration stands in for the one that could not be loaded. -/
def hasDefault : LoadError → Bool
  | missing => true
  | fault f => f == .badValue
  | invalid _ => true
  | foreignKey => true

end LoadError

namespace Source

/-- A document with at least no fields: what counts as unset is an empty object. -/
def orEmpty (v : Json) : Json := if v.isSet then v else .obj []

/-- The document of a file. -/
def document (text : String) : Except Fault Json := (Yaml.parse text).map orEmpty

/-- The block of an environment, when there is one. -/
def block? (environment : String) : Json → Except Fault (Option Json)
  | .obj blocks => .ok (Fields.get? environment blocks)
  | .arr items | .set items => if items.any (Json.same (.str environment)) then .error .wrongKind else .ok none
  | .str s => if Text.contains environment s then .error .wrongKind else .ok none
  | _ => .error .wrongKind

/-- The fields of a document. -/
def fields : Json → Except Fault (List (String × Json))
  | .obj fields => .ok fields
  | .arr _ | .set _ => .error .wrongKind
  | _ => .error .lacksParts

/-- Whether the names of settings are texts. -/
def haveNames (fields : List (String × Json)) : Bool :=
  fields.all fun (_, v) =>
    match v with
    | .keyed .. => false
    | _ => true

/-- The settings that are given from outside. -/
def overrides (s : Source) : List (String × Json) :=
  (match s.baseUrl with
    | some "" | none => []
    | some url => [("defaults", Json.obj [("base_url", .str (Text.dropTrailingSlashes url))])]) ++
  (match (s.cmpId.filter (· != "")).bind Text.integer? with
    | none => []
    | some id => [("cmp", Json.obj [("cmp_id", .int id)])])

/-- The settings of an environment. -/
def settings (s : Source) (environment base : String) : Except Fault (List (String × Json)) := do
  let document ← document base
  let merged ←
    match Fields.get? ("generator." ++ environment ++ ".yaml") s.files with
    | none => pure document
    | some text => do document.merge (← Source.document text)
  let all ← fields merged
  let blocks := orEmpty ((Fields.get? "environments" all).getD .null)
  let own := Fields.erase "environments" all
  let own ←
    match ← block? environment blocks with
    | none => pure own
    | some block => (Json.merge (.obj own) block).bind fields
  return Fields.overlay own s.overrides

/-- The configuration of an environment, or of the usual one. -/
def load (s : Source) (requested : Option String) : Except LoadError Configuration := do
  let environment := Text.orDefault requested s.environment
  match Fields.get? "generator.yaml" s.files with
  | none => throw .missing
  | some base =>
    let fields ← (s.settings environment base).mapError .fault
    if !haveNames fields then throw .foreignKey
    match Configuration.read (.obj (Fields.set "environment" (.str environment) fields)) with
    | .valid c => return c
    | .invalid issues => throw (.invalid issues)
    | .fault f => throw (.fault f)

/-- The configuration that stands in for one that cannot be loaded. -/
def default (s : Source) : Configuration := { environment := s.environment }

/-- The configuration in use, and whether it is the one already held: another is loaded when none is held,
when one is forced, and when another environment is asked for. -/
def current (s : Source) (held : Option Configuration) (requested : Option String) (force : Bool) :
    Except LoadError (Configuration × Bool) :=
  match held.filter fun c => !force && requested.all (· == c.environment) with
  | some c => .ok (c, true)
  | none =>
    match s.load requested with
    | .ok c => .ok (c, false)
    | .error e => if e.hasDefault then .ok (s.default, false) else .error e

end Source

end ConsentBanner
