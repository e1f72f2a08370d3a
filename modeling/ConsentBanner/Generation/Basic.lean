import ConsentBanner.Asset.Reference
import ConsentBanner.Asset.Template
import ConsentBanner.Client.Config
import ConsentBanner.Client.Setup
import ConsentBanner.Client.Skeleton
import ConsentBanner.Generation.Failure
import ConsentBanner.Markup.Banner
import ConsentBanner.Markup.Node
import ConsentBanner.Panel.Basic
import ConsentBanner.Script.Token
import ConsentBanner.Stylesheet.Banner
import ConsentBanner.Stylesheet.Kind
import ConsentBanner.Text.Search
import ConsentBanner.Validation.Basic

/-!
Generation of everything a banner needs from a template. A template with complaints generates nothing. The
stages for markup, stylesheet and panel each have a fallback for when they fail, and a script that cannot be
made compact stays as it is.
-/

namespace ConsentBanner.Generation

/-- The parts of a banner that go into its script as they are. -/
structure Parts where
  markup : String
  stylesheet : String
  kindStyles : String
  panel : String
deriving DecidableEq, Repr

/-- A value for each slot of the skeleton. -/
def slotValues (c : ClientConfig) (components : List Component) (p : Parts) : List (String × Json) := [
  ("cmp", c.scriptPlatform),
  ("config", c.scriptSettings),
  ("banner_id", .str c.bannerId),
  ("base_url", .str c.baseUrl),
  ("domain_id", .str c.domainId),
  ("components", .arr (Component.jsonAll components)),
  ("markup", .str p.markup),
  ("stylesheet", .str p.stylesheet),
  ("layout_css", .str p.kindStyles),
  ("panel", .str p.panel),
  ("consent_mode", .str (if c.consentMode then Client.consentModeSource else ""))]

/-- The start of a document in a language, up to its title. -/
def documentHead (language title : String) : List String := [
  "<!DOCTYPE html>",
  "<html lang=\"" ++ Markup.escape language ++ "\">",
  "<head>",
  "<meta charset=\"utf-8\">",
  "<meta name=\"viewport\" content=\"width=device-width, initial-scale=1\">",
  "<title>" ++ Markup.escape title ++ "</title>"]

/-- A document that runs a script. -/
def scriptDocument (script bannerId language : String) : String :=
  Text.join "\n" (documentHead language ("Consent banner " ++ bannerId) ++ [
    "</head>", "<body>", "<script>", script, "</script>", "</body>", "</html>"])

/-- A document that shows a banner and its preferences without running them. -/
def previewDocument (language bannerId stylesheet kindStyles markup panel : String) : String :=
  Text.join "\n" (documentHead language ("Preview " ++ bannerId) ++ [
    "<style>" ++ stylesheet, kindStyles ++ "</style>", "</head>", "<body>", markup, panel, "</body>",
    "</html>"])

/-- The stages of a generation, each of which may fail with a message. -/
structure Stages where
  markup : (language : String) → Template → Except String String
  stylesheet : Template → Except String String
  panel : ThemeColors → (texts : Json) → (language : String) → Except String String
  assemble : List (String × Json) → Except String String
  compact : String → Except String String

/-- The message of a fault inside a stage. -/
def faultMessage : Fault → String
  | .lacksParts => "a value has no parts"
  | .wrongKind => "a value is of the wrong kind"
  | _ => "a value is not acceptable"

def Stages.standard : Stages where
  markup := fun language t => .ok (Markup.ofTemplate language t)
  stylesheet := fun t => (Stylesheet.ofTemplate t).mapError Stylesheet.Failure.message
  panel := fun colors texts language => (Panel.ofTheme colors texts language).mapError faultMessage
  assemble := fun values => (Client.skeleton.fill values).mapError Script.SkeletonError.message
  compact := fun script => .ok (Script.compact script)

/-- The options of a generation that is given overrides alone, of which none may stand for the generation
itself. -/
def defaultOptions (config : Configuration) (overrides : List (String × Json)) : Checked Options :=
  if overrides.any fun (k, _) => k == Script.Skeleton.ownName then .fault .wrongKind
  else Options.ofConfiguration config overrides

/-- What a generation makes. -/
structure Artifacts where
  bannerId : String
  markup : String
  stylesheet : String
  panel : String
  script : String
  format : ArtifactFormat
  /-- The document around the script, when that is asked for. -/
  document : Option String
  /-- Whether the markup and the stylesheet are fallbacks. -/
  markupFallback : Bool
  stylesheetFallback : Bool
deriving Repr

/-- What is downloaded. -/
def Artifacts.download (a : Artifacts) : String :=
  match a.format, a.document with
  | .document, some d => d
  | _, _ => a.script

/-- The line that tells of an issue. -/
def issueLine (i : Issue) : String := i.location ++ ": " ++ i.problem.message

def checkedTemplate : Checked Template → Except Failure Template
  | .valid t => .ok t
  | .invalid issues => .error (.invalidTemplate (issues.map issueLine))
  | .fault f => .error (.fault f)

/-- The template of a document without complaints, with its offsets as percentages and its images at absolute
addresses. -/
def prepare (limits : Limits) (options : Options) (template : Json) : Except Failure Template := do
  let complaints ← (Validation.normalizedComplaints limits template).mapError Failure.fault
  if !complaints.isEmpty then throw (.invalidTemplate (complaints.map (·.message)))
  let normalized ← (Template.normalizePositions template).mapError Failure.fault
  checkedTemplate (Template.read (Asset.resolveTemplate options.baseUrl normalized))

/-- The identifier of a banner: that of the options, else that of the template. -/
def bannerId (options : Options) (t : Template) : String := Text.orDefault options.bannerId t.bannerId

/-- The outcome of a stage, or its fallback and that it was used. -/
def orFallback (outcome : Except String String) (fallback : String) : String × Bool :=
  match outcome with
  | .ok s => (s, false)
  | .error _ => (fallback, true)

/-- The markup with its images at absolute addresses, and whether it is the fallback. -/
def markupPart (stages : Stages) (options : Options) (t : Template) : String × Bool :=
  let (markup, failed) := orFallback (stages.markup options.language t) (Markup.fallback t.layout.desktop)
  (Asset.absoluteReferences markup options.baseUrl, failed)

def stylesheetPart (stages : Stages) (t : Template) : String × Bool :=
  orFallback (stages.stylesheet t) Stylesheet.fallback

def panelPart (stages : Stages) (options : Options) (t : Template) : String :=
  let texts := Json.obj (t.settings.texts.map fun (language, texts) => (language, .obj (textFields texts)))
  (orFallback (stages.panel t.theme.colors texts options.language) Panel.fallback).1

/-- The script, compact when that is asked for and succeeds. -/
def scriptPart (stages : Stages) (options : Options) (identity : Identity) (t : Template) (parts : Parts) :
    Except Failure String := do
  let config := ClientConfig.ofTemplate t options identity (bannerId options t)
  match stages.assemble (slotValues config t.components parts) with
  | .error message => throw (.stage .assembly message)
  | .ok script => return if options.minify then (orFallback (stages.compact script) script).1 else script

/-- Everything a banner needs. -/
def generate (stages : Stages) (config : Configuration) (options : Options) (template : Json) :
    Except Failure Artifacts := do
  let t ← prepare config.limits options template
  let (markup, markupFallback) := markupPart stages options t
  let (stylesheet, stylesheetFallback) := stylesheetPart stages t
  let panel := panelPart stages options t
  let script ← scriptPart stages options config.identity t
    ⟨markup, stylesheet, Stylesheet.ofKind t.layout.desktop, panel⟩
  let id := bannerId options t
  return {
    bannerId := id, markup := markup, stylesheet := stylesheet, panel := panel, script := script
    format := options.format
    document :=
      if options.format = .document then some (scriptDocument script id options.language) else none
    markupFallback := markupFallback, stylesheetFallback := stylesheetFallback }

/-- A page that shows a banner. -/
def preview (stages : Stages) (config : Configuration) (options : Options) (template : Json) :
    Except Failure String := do
  let t ← prepare config.limits options template
  return previewDocument options.language (bannerId options t) (stylesheetPart stages t).1
    (Stylesheet.ofKind t.layout.desktop) (markupPart stages options t).1 (panelPart stages options t)

end ConsentBanner.Generation
