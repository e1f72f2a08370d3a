import ConsentBanner.Generation.Basic
import ConsentBanner.Service.Answer
import ConsentBanner.Service.Request
import ConsentBanner.Text.Utf8

/-!
The service that validates templates, generates banners and tells how it is doing.
-/

namespace ConsentBanner.Service

def version : String := "1.0.0"

/-- What the service offers. -/
inductive Route where
  | root
  | health
  | validate
  | generate
  | download
  | preview
deriving DecidableEq, Repr

namespace Route

/-- The names on the way to a place, one name further: a dot stays there, and two dots leave the last name. -/
def step (names : List String) (name : String) : List String :=
  if name == "." then names else if name == ".." then names.dropLast else names ++ [name]

/-- What follows the host at the start of a path, or the whole path if there is none. -/
def withoutHost : List Char → List Char
  | '/' :: '/' :: cs => cs.dropWhile (· != '/')
  | cs => cs

/-- The path of a request from the root on, without its query and its encoding. -/
def plainPath (path : String) : String :=
  let path := withoutHost (Text.splitOnce '?' (Text.splitOnce '#' path).1).1.toList
  let names := (Text.split '/' (String.ofList (path.dropWhile (· == '/')))).foldl step []
  Text.percentDecode ("/" ++ Text.join "/" names)

/-- The route of a path, which may have trailing slashes. -/
def ofPath? (path : String) : Option Route :=
  let path := plainPath path
  match Text.split '/' (Text.dropTrailingSlashes path) with
  | [""] => if path.length ≤ 1 then some root else none
  | ["", "health"] => some health
  | ["", "api", "banners", "validate"] => some validate
  | ["", "api", "banners", "generate"] => some generate
  | ["", "api", "banners", "export"] => some download
  | ["", "api", "banners", "preview"] => some preview
  | _ => none

/-- The only method of a route. -/
def method : Route → String
  | root => "GET"
  | health => "GET"
  | _ => "POST"

end Route

/-- What the service is and where it is described. -/
def about : Answer := .ofDocument [
  ("message", .str "BannerKit API"), ("version", .str version), ("documentation", .str "/docs"),
  ("openapi", .str "/openapi.json")]

/-- How the service is doing: worse when settings do not fit together. -/
def health (config : Configuration) : Answer :=
  let state := if config.issues.isEmpty then "healthy" else "degraded"
  .ofDocument [
    ("status", .str state), ("version", .str version),
    ("services", .obj [("generator", .str "healthy"), ("configuration", .str state)])]

def validation (config : Configuration) (template : Json) : Answer :=
  match Validation.normalizedComplaints config.limits template with
  | .ok complaints => .ofDocument [
      ("is_valid", .bool complaints.isEmpty), ("errors", .arr (complaints.map fun c => .str c.message))]
  | .error _ => .internalError

/-- The options of an order; options that cannot be used are an internal error. -/
def withOptions (config : Configuration) (order : Order) (answer : Options → Answer) : Answer :=
  match Generation.defaultOptions config order.overrides with
  | .valid options => answer options
  | _ => .internalError

def artifacts (a : Generation.Artifacts) : Answer := .ofDocument [
  ("banner_id", .str a.bannerId), ("format", .str (Named.name a.format)), ("markup", .str a.markup),
  ("stylesheet", .str a.stylesheet), ("panel", .str a.panel), ("script", .str a.script),
  ("html_document", (a.document.map Json.str).getD .null),
  ("fallbacks", .obj [("markup", .bool a.markupFallback), ("stylesheet", .bool a.stylesheetFallback)])]

/-- The script or the document of a banner as a file. -/
def file (a : Generation.Artifacts) : Answer :=
  match a.format with
  | .script => .download "application/javascript; charset=utf-8" (a.bannerId ++ ".js") a.download
  | .document => .download "text/html; charset=utf-8" (a.bannerId ++ ".html") a.download

/-- The answer of a route to a request with its method. -/
def serve (stages : Generation.Stages) (config : Configuration) (r : Request) : Route → Answer
  | .root => about
  | .health => health config
  | .validate => .ofChecked (validation config) r.template
  | .generate => .ofChecked (fun order => withOptions config order fun options =>
      .ofOutcome artifacts (Generation.generate stages config options order.template)) r.order
  | .download => .ofChecked (fun order => withOptions config order fun options =>
      .ofOutcome file (Generation.generate stages config options order.template)) r.order
  | .preview => .ofChecked (fun order => withOptions config order fun options =>
      .ofOutcome .page (Generation.preview stages config options order.template)) r.order

/-- The full answer to a request. -/
def answer (stages : Generation.Stages) (config : Configuration) (r : Request) : Answer :=
  match Route.ofPath? r.path with
  | none => .notFound
  | some route => if r.method.toUpper == route.method then serve stages config r route else .methodNotAllowed

/-- The answer to a request as it is sent: without its content when only the head is asked for. -/
def respond (stages : Generation.Stages) (config : Configuration) (r : Request) : Answer :=
  let a := answer stages config r
  if r.method.toUpper == "HEAD" then { a with content := .text "" } else a

end ConsentBanner.Service
