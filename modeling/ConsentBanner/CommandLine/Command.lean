import ConsentBanner.CommandLine.Arguments
import ConsentBanner.Text.Integer

/-!
The commands that can be given.
-/

namespace ConsentBanner.CommandLine

/-- What is to be generated from a template. -/
structure GenerateOrder where
  template : Path
  out : Option Path
  format : String
  minify : Bool
  baseUrl : Option String
  domainId : Option String
  forceGdpr : Bool
  cookieExpiry : Option Int
  consentMode : Bool
  language : Option String
  bannerId : Option String
  environment : Option String
deriving Repr

/-- What is to be shown of a template. -/
structure PreviewOrder where
  template : Path
  out : Option Path
  screenshot : Option Path
  device : String
  language : Option String
  environment : Option String
deriving Repr

inductive Command where
  | help
  | version
  | validate (template : Path) (environment : Option String) (asDocument : Bool)
  | generate (order : GenerateOrder)
  | preview (order : PreviewOrder)
deriving Repr

namespace Command

def valued (setting : String) (texts : List String) : List Spelling := texts.map fun t => ⟨t, setting, .value⟩

def switch (setting : String) (means : Bool) (texts : List String) : List Spelling :=
  texts.map fun t => ⟨t, setting, .nothing means⟩

def helpSpellings : List Spelling := switch "help" true ["--help"]

def commonSpellings : List Spelling :=
  valued "env" ["--env", "-e"] ++ switch "verbose" true ["--verbose", "-v"] ++ helpSpellings

def validateSpellings : List Spelling := switch "json" true ["--json"] ++ commonSpellings

def generateSpellings : List Spelling :=
  valued "out" ["--out", "-o"] ++ valued "format" ["--format"] ++ switch "minify" true ["--minify"] ++
    switch "minify" false ["--no-minify"] ++ valued "base-url" ["--base-url"] ++
    valued "domain-id" ["--domain-id"] ++ switch "force-gdpr" true ["--force-gdpr"] ++
    valued "cookie-expiry" ["--cookie-expiry"] ++ switch "consent-mode" true ["--consent-mode"] ++
    switch "consent-mode" false ["--no-consent-mode"] ++ valued "language" ["--language", "-l"] ++
    valued "banner-id" ["--banner-id"] ++ commonSpellings

def previewSpellings : List Spelling :=
  valued "out" ["--out", "-o"] ++ valued "screenshot" ["--screenshot"] ++ valued "device" ["--device", "-d"] ++
    valued "language" ["--language", "-l"] ++ commonSpellings

def path? (name : String) (a : Arguments) : Option Path := (a.value? name).map Path.ofText

/-- The only operand, a path. -/
def operand? (a : Arguments) : Option Path :=
  match a.operands with
  | [text] => some (Path.ofText text)
  | _ => none

/-- An option that is an integer: nothing when it is missing, a failure when it is none. -/
def integer? (name : String) (a : Arguments) : Option (Option Int) :=
  match a.value? name with
  | none => some none
  | some text => (Text.integer? text).map some

def validate? (a : Arguments) : Option Command :=
  (operand? a).map fun template => validate template (a.value? "env") (a.truth "json" false)

def generate? (a : Arguments) : Option Command := do
  let template ← operand? a
  let cookieExpiry ← integer? "cookie-expiry" a
  return generate {
    template := template
    out := path? "out" a
    format := (a.value? "format").getD "javascript"
    minify := a.truth "minify" true
    baseUrl := a.value? "base-url"
    domainId := a.value? "domain-id"
    forceGdpr := a.truth "force-gdpr" false
    cookieExpiry := cookieExpiry
    consentMode := a.truth "consent-mode" true
    language := a.value? "language"
    bannerId := a.value? "banner-id"
    environment := a.value? "env" }

def preview? (a : Arguments) : Option Command :=
  (operand? a).map fun template => preview {
    template := template
    out := path? "out" a
    screenshot := path? "screenshot" a
    device := (a.value? "device").getD "desktop"
    language := a.value? "language"
    environment := a.value? "env" }

/-- The command of arguments that follow its name; a call for help goes before everything else. -/
def ofArguments? (spellings : List Spelling) (make : Arguments → Option Command) (texts : List String) :
    Option Command := do
  let a ← Arguments.read? spellings texts
  if a.truth "help" false then return help
  make a

def named? (name : String) (texts : List String) : Option Command :=
  if name == "version" then
    ofArguments? helpSpellings (fun a => if a.operands.isEmpty then some version else none) texts
  else if name == "validate" then ofArguments? validateSpellings validate? texts
  else if name == "generate" then ofArguments? generateSpellings generate? texts
  else if name == "preview" then ofArguments? previewSpellings preview? texts
  else none

/-- A call for help, which may come again but not with other options. -/
def helpThen? : List String → Option Command
  | [] => some help
  | text :: texts =>
    if text == "--help" then helpThen? texts
    else if Text.startsWith "-" text && text != "-" && text != "--" then none
    else some help

/-- The command of a list of texts; none when they are no proper use. -/
def ofTexts? : List String → Option Command
  | [] => none
  | "--" :: name :: texts => named? name texts
  | name :: texts => if name == "--help" then helpThen? texts else named? name texts

/-- The environment that a command asks for. -/
def environment? : Command → Option String
  | validate _ environment _ => environment
  | generate order => order.environment
  | preview order => order.environment
  | _ => none

/-- The template that a command reads. -/
def template? : Command → Option Path
  | validate template _ _ => some template
  | generate order => some order.template
  | preview order => some order.template
  | _ => none

end Command

end ConsentBanner.CommandLine
