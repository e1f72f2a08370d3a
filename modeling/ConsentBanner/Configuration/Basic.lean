import ConsentBanner.Schema

/-!
The configuration of a generator: limits on templates, defaults of options, and the identity that banners
report.
-/

namespace ConsentBanner

open Reader

/-- The greatest sizes of a template. -/
structure Limits where
  maxWidth : Int := 1920
  maxHeight : Int := 1080
  maxComponents : Int := 50
  maxNesting : Int := 5
  maxTextLength : Int := 5000
deriving DecidableEq, Repr

/-- Options that apply where a request gives none. -/
structure OptionDefaults where
  minify : Bool := true
  consentMode : Bool := true
  forceGdpr : Bool := false
  /-- In days. -/
  cookieExpiry : Int := 365
  baseUrl : String := "http://localhost:3000"
  domainId : String := ""
  language : String := "en"
deriving DecidableEq, Repr

/-- What a banner reports about the platform that made it. -/
structure Identity where
  cmpId : Int := 28
  cmpVersion : Int := 1
  tcfPolicyVersion : Int := 4
  apiVersion : String := "2.2"
  publisherCountry : String := "ES"
  gvlVersion : Int := 3
deriving DecidableEq, Repr

structure Configuration where
  environment : String := "development"
  limits : Limits := {}
  defaults : OptionDefaults := {}
  identity : Identity := {}
deriving DecidableEq, Repr

namespace Limits

def read : Reader Limits :=
  model "ValidationLimits" fun fields =>
    Limits.mk
      <$> field fields ["max_width"] 1920 (intAtLeast 1)
      <*> field fields ["max_height"] 1080 (intAtLeast 1)
      <*> field fields ["max_components"] 50 (intAtLeast 1)
      <*> field fields ["max_nesting"] 5 (intAtLeast 1)
      <*> field fields ["max_text_length"] 5000 (intAtLeast 1)

def json (l : Limits) : Json := .obj [
  ("max_width", .int l.maxWidth), ("max_height", .int l.maxHeight),
  ("max_components", .int l.maxComponents), ("max_nesting", .int l.maxNesting),
  ("max_text_length", .int l.maxTextLength)]

end Limits

namespace OptionDefaults

def read : Reader OptionDefaults :=
  model "GenerationDefaults" fun fields =>
    OptionDefaults.mk
      <$> field fields ["minify"] true bool
      <*> field fields ["include_google_consent_mode"] true bool
      <*> field fields ["force_gdpr"] false bool
      <*> field fields ["cookie_expiry"] 365 (intAtLeast 1)
      <*> field fields ["base_url"] "http://localhost:3000" string
      <*> field fields ["domain_id"] "" string
      <*> field fields ["language"] "en" string

def fields (d : OptionDefaults) : List (String × Json) := [
  ("minify", .bool d.minify), ("include_google_consent_mode", .bool d.consentMode),
  ("force_gdpr", .bool d.forceGdpr), ("cookie_expiry", .int d.cookieExpiry), ("base_url", .str d.baseUrl),
  ("domain_id", .str d.domainId), ("language", .str d.language)]

end OptionDefaults

namespace Identity

def read : Reader Identity :=
  model "CMPIdentity" fun fields =>
    Identity.mk
      <$> field fields ["cmp_id"] 28 int
      <*> field fields ["cmp_version"] 1 int
      <*> field fields ["tcf_policy_version"] 4 int
      <*> field fields ["api_version"] "2.2" string
      <*> field fields ["publisher_cc"] "ES" string
      <*> field fields ["gvl_version"] 3 int

def json (i : Identity) : Json := .obj [
  ("cmp_id", .int i.cmpId), ("cmp_version", .int i.cmpVersion),
  ("tcf_policy_version", .int i.tcfPolicyVersion), ("api_version", .str i.apiVersion),
  ("publisher_cc", .str i.publisherCountry), ("gvl_version", .int i.gvlVersion)]

end Identity

namespace Configuration

def read : Reader Configuration :=
  model "GeneratorConfiguration" fun fields =>
    Configuration.mk
      <$> field fields ["environment"] "development" string
      <*> field fields ["limits"] {} Limits.read
      <*> field fields ["defaults"] {} OptionDefaults.read
      <*> field fields ["cmp"] {} Identity.read

def json (c : Configuration) : Json := .obj [
  ("environment", .str c.environment), ("limits", c.limits.json), ("defaults", .obj c.defaults.fields),
  ("cmp", c.identity.json)]

/-- Settings that do not fit together. -/
def issues (c : Configuration) : List String :=
  let url := c.defaults.baseUrl
  (if Text.startsWith "http://" url || Text.startsWith "https://" url then []
    else ["defaults.base_url must be an http(s) URL: " ++ url]) ++
  (if url.toList.getLast? == some '/' then ["defaults.base_url should not end with a slash"] else []) ++
  (if c.limits.maxComponents < c.limits.maxNesting then ["limits.max_nesting exceeds limits.max_components"]
    else [])

end Configuration

end ConsentBanner
