import ConsentBanner.Configuration.Options
import ConsentBanner.Consent.Region
import ConsentBanner.Consent.Vocabulary
import ConsentBanner.Template.Read
import ConsentBanner.Template.Write

/-!
What a banner knows when its page loads.
-/

namespace ConsentBanner

open Reader

structure ClientConfig where
  bannerId : String
  animationType : String := "fade"
  /-- In milliseconds. -/
  animationDuration : Number := .int 300
  /-- After how many seconds the banner rejects by itself. -/
  autoHide : TimedPolicy := {}
  /-- After how many seconds the banner asks again. -/
  reshow : TimedPolicy := {}
  useOverlay : Bool := false
  forceGdpr : Bool := false
  cookieExpiry : Int := 365
  consentMode : Bool := true
  baseUrl : String := ""
  domainId : String := ""
  language : String := "en"
  breakpoints : Breakpoints := .standard
  floatingIcon : FloatingIcon := {}
  identity : Identity := {}
deriving Repr

/-- The policy with its time as a floating point number. -/
def TimedPolicy.exact (p : TimedPolicy) : TimedPolicy := { p with seconds := .float p.seconds.toDouble }

namespace ClientConfig

def ofTemplate (t : Template) (o : Options) (identity : Identity) (bannerId : String) : ClientConfig where
  bannerId := bannerId
  animationType := Named.name t.animation.kind
  animationDuration := .float t.animation.duration.toDouble
  autoHide := t.settings.behaviour.autoHide.exact
  reshow := t.settings.behaviour.reshow.exact
  useOverlay := t.layout.desktop.kind == .modal
  forceGdpr := o.forceGdpr
  cookieExpiry := o.cookieExpiry
  consentMode := o.consentMode
  baseUrl := o.baseUrl
  domainId := o.domainId
  language := o.language
  breakpoints := t.settings.breakpoints
  floatingIcon := t.settings.floatingIcon
  identity := identity

def anyNumber : Reader Number := fun v => Number.float <$> number v

def readFields (fields : List (String × Json)) : Checked ClientConfig :=
  (fun bannerId animationType animationDuration hides hideDelay reshows reshowInterval overlay force expiry
      mode baseUrl domainId language breakpoints icon identity =>
    { bannerId := bannerId, animationType := animationType, animationDuration := animationDuration,
      autoHide := ⟨hides, hideDelay⟩, reshow := ⟨reshows, reshowInterval⟩, useOverlay := overlay,
      forceGdpr := force, cookieExpiry := expiry, consentMode := mode, baseUrl := baseUrl,
      domainId := domainId, language := language, breakpoints := breakpoints, floatingIcon := icon,
      identity := identity : ClientConfig })
  <$> requiredField fields "banner_id" string
  <*> field fields ["animation_type"] "fade" string
  <*> field fields ["animation_duration"] (.int 300) anyNumber
  <*> field fields ["auto_hide_enabled"] false bool
  <*> field fields ["auto_hide_delay"] (.int 0) anyNumber
  <*> field fields ["reshow_enabled"] false bool
  <*> field fields ["reshow_interval"] (.int 0) anyNumber
  <*> field fields ["use_overlay"] false bool
  <*> field fields ["force_gdpr"] false bool
  <*> field fields ["cookie_expiry"] 365 int
  <*> field fields ["google_consent_mode"] true bool
  <*> field fields ["base_url"] "" string
  <*> field fields ["domain_id"] "" string
  <*> field fields ["language"] "en" string
  <*> field fields ["breakpoints"] .standard Breakpoints.read
  <*> field fields ["floating_icon"] {} FloatingIcon.read
  <*> field fields ["cmp"] {} Identity.read

def breakpointsJson (b : Breakpoints) : Json := .obj [("mobile", .int b.mobile), ("tablet", .int b.tablet)]

def json (c : ClientConfig) : Json := .obj [
  ("banner_id", .str c.bannerId), ("animation_type", .str c.animationType),
  ("animation_duration", .float c.animationDuration.toDouble),
  ("auto_hide_enabled", .bool c.autoHide.enabled), ("auto_hide_delay", .float c.autoHide.seconds.toDouble),
  ("reshow_enabled", .bool c.reshow.enabled), ("reshow_interval", .float c.reshow.seconds.toDouble),
  ("use_overlay", .bool c.useOverlay), ("force_gdpr", .bool c.forceGdpr),
  ("cookie_expiry", .int c.cookieExpiry), ("google_consent_mode", .bool c.consentMode),
  ("base_url", .str c.baseUrl), ("domain_id", .str c.domainId), ("language", .str c.language),
  ("breakpoints", breakpointsJson c.breakpoints),
  ("floating_icon", .obj [("enabled", .bool c.floatingIcon.enabled),
    ("position", .str (Named.name c.floatingIcon.position)), ("color", .str c.floatingIcon.color),
    ("background_color", .str c.floatingIcon.backgroundColor), ("size", .int c.floatingIcon.size)]),
  ("cmp", c.identity.json)]

/-- The settings inside the script. -/
def scriptSettings (c : ClientConfig) : Json := .obj [
  ("animation", .obj [("type", .str c.animationType), ("duration", c.animationDuration.json)]),
  ("autoHide", .obj [("enabled", .bool c.autoHide.enabled), ("delay", c.autoHide.seconds.json)]),
  ("reshow", .obj [("enabled", .bool c.reshow.enabled), ("interval", c.reshow.seconds.json)]),
  ("useOverlay", .bool c.useOverlay), ("forceGDPR", .bool c.forceGdpr),
  ("cookieExpiry", .int c.cookieExpiry), ("googleConsentMode", .bool c.consentMode),
  ("language", .str c.language),
  ("floatingIcon", .obj [("enabled", .bool c.floatingIcon.enabled),
    ("position", .str (Named.name c.floatingIcon.position))])]

def namesByNumber (table : List (Int × String)) : Json :=
  .obj (table.map fun (id, name) => (toString id, .str name))

/-- The names and numbers that the script asks about. -/
def catalogue : Json := .obj [
  ("purposes", namesByNumber Purpose.known), ("vendors", namesByNumber Vendor.known),
  ("specialFeatures", namesByNumber SpecialFeature.known),
  ("categories", .obj ((Named.all : List Category).map fun c => (Named.name c, .arr (c.purposes.map .int)))),
  ("legitimateInterestPurposes", .arr (Purpose.legitimateInterest.map .int))]

/-- The identity, the catalogue and the rules of regions inside the script. -/
def scriptPlatform (c : ClientConfig) : Json := .obj [
  ("cmpId", .int c.identity.cmpId), ("cmpVersion", .int c.identity.cmpVersion),
  ("tcfPolicyVersion", .int c.identity.tcfPolicyVersion), ("apiVersion", .str c.identity.apiVersion),
  ("publisherCC", .str c.identity.publisherCountry), ("gvlVersion", .int c.identity.gvlVersion),
  ("catalogue", catalogue),
  ("gdpr", .obj [("timezonePrefixes", .arr (Region.timezoneStarts.map .str)),
    ("languages", .arr (Region.europeanLanguages.map .str))]),
  ("breakpoints", breakpointsJson c.breakpoints)]

end ClientConfig

end ConsentBanner
