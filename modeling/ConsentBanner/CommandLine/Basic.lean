import ConsentBanner.CommandLine.Command
import ConsentBanner.CommandLine.Outcome
import ConsentBanner.Generation.Basic
import ConsentBanner.Json.Reader
import ConsentBanner.Json.Writer

/-!
Running commands. Templates are read from files in JSON or YAML, and what is generated is printed or written
to a file.
-/

namespace ConsentBanner.CommandLine

def version : String := "1.0.0"

/-- Where commands run: a folder, the source of configurations, and the stages of generations. -/
structure Setup where
  folder : Folder := {}
  source : Source
  stages : Generation.Stages := .standard

/-- The steps of a command, each of which may end it. -/
abbrev Step := Except Ending

def refuse {α : Type} (r : Refusal) : Step α := .error (.refused r)

/-- The document of a template file. The ending of its name tells how it is written. -/
def readDocument (template : Path) (text : String) : Step Json :=
  if [".yaml", ".yml"].contains (Text.lowerAscii template.suffix) then
    match Yaml.parse text with
    | .ok v => .ok v
    | .error .unreadable => refuse (.unreadableTemplate template "not a YAML document")
    | .error .badValue => refuse (.unreadableTemplate template "a value is out of range")
    | .error f => .error (.fault f)
  else
    match Json.parse text with
    | .ok v => .ok v
    | .error (.malformed remaining) =>
      refuse (.unreadableTemplate template ("not a JSON document at " ++ toString (text.length - remaining)))
    | .error .tooManyDigits => refuse (.unreadableTemplate template "an integer has too many digits")

/-- The object in a template file. -/
def readTemplate (folder : Folder) (template : Path) : Step Json := do
  match folder.reach? template with
  | none => refuse (.missingTemplate template)
  | some place =>
    match folder.file? place with
    | some text =>
      match ← readDocument template text with
      | .obj fields => return .obj fields
      | _ => refuse .noObject
    | none =>
      if folder.hasFolder place then refuse (.unreadableTemplate template "a folder")
      else refuse (.missingTemplate template)

def configuration (source : Source) (environment : Option String) : Step Configuration :=
  match source.current none environment false with
  | .ok (c, _) => .ok c
  | .error e => .error (.unconfigured e)

/-- The outcome of a generation, or the refusal of what it failed on. -/
def ofFailure {α : Type} (outcome : Except Generation.Failure α) : Step α :=
  match outcome with
  | .ok a => .ok a
  | .error (.invalidTemplate errors) => refuse (.invalidTemplate errors)
  | .error (.stage s message) => refuse (.failedStage s message)
  | .error (.fault f) => .error (.fault f)

/-- The options of a configuration with overrides. -/
def optionsOf (config : Configuration) (overrides : List (String × Json)) : Step Options :=
  match Generation.defaultOptions config overrides with
  | .valid options => .ok options
  | .invalid issues => refuse (.invalidOptions issues)
  | .fault f => .error (.fault f)

def textOrNull (s : Option String) : Json := (s.map Json.str).getD .null

/-- Writes a file and tells of it. -/
def write (folder : Folder) (out : Path) (text report : String) : Step Outcome :=
  match folder.writable out.place with
  | .error e => .error (.unwritten e)
  | .ok () => .ok { output := report ++ "\n", written := [(out, text)] }

def validate (s : Setup) (template : Path) (environment : Option String) (asDocument : Bool) : Step Outcome := do
  let document ← readTemplate s.folder template
  let config ← configuration s.source environment
  let complaints ← (Validation.normalizedComplaints config.limits document).mapError .fault
  let errors := complaints.map (·.message)
  if asDocument then
    let report := Json.obj [("is_valid", .bool errors.isEmpty), ("errors", .arr (errors.map .str))]
    return { output := report.renderIndented ++ "\n", ending := if errors.isEmpty then .done else .negative }
  else if errors.isEmpty then return { output := "✅ Template " ++ template.text ++ " is valid\n" }
  else refuse (.invalidTemplate errors)

/-- The options that an order sets. What is only switched on stays unset when it is off. -/
def GenerateOrder.overrides (order : GenerateOrder) : List (String × Json) := [
  ("format", .str order.format), ("minify", .bool order.minify), ("base_url", textOrNull order.baseUrl),
  ("domain_id", textOrNull order.domainId), ("force_gdpr", if order.forceGdpr then .bool true else .null),
  ("cookie_expiry", (order.cookieExpiry.map Json.int).getD .null),
  ("include_google_consent_mode", .bool order.consentMode), ("language", textOrNull order.language),
  ("banner_id", textOrNull order.bannerId)]

/-- A line for every stage whose fallback was used. -/
def fallbackNotices (a : Generation.Artifacts) : String :=
  let notice (used : Bool) (stage : String) : String :=
    if used then "⚠️  " ++ stage ++ " generation failed; fallback used\n" else ""
  notice a.markupFallback "markup" ++ notice a.stylesheetFallback "stylesheet"

def writeReport (a : Generation.Artifacts) (out : Path) : String :=
  "✅ Wrote " ++ Named.name a.format ++ " for " ++ a.bannerId ++ " to " ++ out.text ++ " (" ++
    toString a.download.length ++ " bytes)"

def generate (s : Setup) (order : GenerateOrder) : Step Outcome := do
  if !Named.isName ArtifactFormat order.format then refuse (.unsupportedFormat order.format)
  let document ← readTemplate s.folder order.template
  let config ← configuration s.source order.environment
  let options ← optionsOf config order.overrides
  let artifacts ← ofFailure (Generation.generate s.stages config options document)
  match order.out with
  | none => return { output := artifacts.download ++ "\n" }
  | some out =>
    let o ← write s.folder out artifacts.download (writeReport artifacts out)
    return { o with notices := fallbackNotices artifacts }

/-- The screens that a picture can be taken for. -/
def devices : List String := ["mobile", "tablet", "desktop"]

/-- The page of a template; it is printed unless it is written or only a picture is asked for. -/
def preview (s : Setup) (order : PreviewOrder) : Step Outcome := do
  let document ← readTemplate s.folder order.template
  let config ← configuration s.source order.environment
  let options ← optionsOf config [("language", textOrNull order.language)]
  let page ← ofFailure (Generation.preview s.stages config options document)
  let o ←
    match order.out with
    | some out => write s.folder out page ("✅ Wrote preview to " ++ out.text)
    | none => pure { output := if order.screenshot.isNone then page ++ "\n" else "" }
  if order.screenshot.isNone then return o
  else if devices.contains order.device then return { o with ending := .refused .noBrowser }
  else return { o with ending := .refused (.unknownDevice order.device) }

def Command.steps (s : Setup) : Command → Step Outcome
  | .help => .ok { output := Refusal.usageLine }
  | .version => .ok { output := "BannerKit CLI v" ++ CommandLine.version ++ "\n" }
  | .validate template environment asDocument => CommandLine.validate s template environment asDocument
  | .generate order => CommandLine.generate s order
  | .preview order => CommandLine.preview s order

/-- The outcome of a command line. -/
def run (s : Setup) (texts : List String) : Outcome :=
  match Command.ofTexts? texts with
  | none => .refusal .usage
  | some command =>
    match command.steps s with
    | .ok o => o
    | .error ending => { ending := ending }

end ConsentBanner.CommandLine
