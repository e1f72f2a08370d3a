import ConsentBanner.Configuration.Basic
import ConsentBanner.Text.Blank

/-!
The options of one generation.
-/

namespace ConsentBanner

open Reader

/-- What is downloaded: the script, or a document around it. -/
inductive ArtifactFormat where
  | script
  | document
deriving DecidableEq, Repr

instance : Named ArtifactFormat where
  all := [.script, .document]
  name
    | .script => "javascript"
    | .document => "html"

structure Options where
  minify : Bool := true
  consentMode : Bool := true
  forceGdpr : Bool := false
  cookieExpiry : Int := 365
  baseUrl : String := "http://localhost:3000"
  domainId : String := ""
  format : ArtifactFormat := .script
  language : String := "en"
  bannerId : Option String := none
deriving DecidableEq, Repr

namespace Options

/-- An identifier of any kind as a text; none at all is the empty one. -/
def readDomainId : Reader String
  | .null => .valid ""
  | v => .valid v.display

def readFields (fields : List (String × Json)) : Checked Options :=
  Options.mk
    <$> field fields ["minify"] true bool
    <*> field fields ["includeGoogleConsentMode", "include_google_consent_mode"] true bool
    <*> field fields ["forceGDPR", "force_gdpr"] false bool
    <*> field fields ["cookieExpiry", "cookie_expiry"] 365 (intAtLeast 1)
    <*> field fields ["baseUrl", "base_url"] "http://localhost:3000"
      (fun v => Text.dropTrailingSlashes <$> string v)
    <*> field fields ["domainId", "domain_id"] "" readDomainId
    <*> field fields ["format"] .script (oneOf ArtifactFormat)
    <*> field fields ["language"] "en" string
    <*> field fields ["bannerId", "banner_id"] none (nullable string)

def read : Reader Options := model "GenerationOptions" readFields

/-- The names that mean the configuration and the options themselves. -/
def reservedNames : List String := ["config", "cls"]

/-- The options of a configuration with overrides; an override by null is none. -/
def ofConfiguration (c : Configuration) (overrides : List (String × Json)) : Checked Options :=
  if overrides.any fun (k, _) => reservedNames.contains k then .fault .wrongKind
  else
    readFields ((overrides.filter fun (_, v) => !v.isNull).foldl (fun fields (k, v) => Fields.set k v fields)
      c.defaults.fields)

/-- The options with the names that requests use, or with plain ones. -/
def json (aliased : Bool) (o : Options) : Json :=
  let name (requested plain : String) := if aliased then requested else plain
  .obj [("minify", .bool o.minify),
    (name "includeGoogleConsentMode" "include_google_consent_mode", .bool o.consentMode),
    (name "forceGDPR" "force_gdpr", .bool o.forceGdpr), (name "cookieExpiry" "cookie_expiry", .int o.cookieExpiry),
    (name "baseUrl" "base_url", .str o.baseUrl), (name "domainId" "domain_id", .str o.domainId),
    ("format", .str (Named.name o.format)), ("language", .str o.language),
    (name "bannerId" "banner_id", (o.bannerId.map Json.str).getD .null)]

end Options

end ConsentBanner
