import ConsentBanner.Browser.Basic
import ConsentBanner.Client.Config
import ConsentBanner.Consent.Basic
import ConsentBanner.Consent.Report
import ConsentBanner.Consent.Store
import ConsentBanner.Signal.Api
import ConsentBanner.Template.Placement

/-!
A session: one banner on one page, from load to the next.
-/

namespace ConsentBanner

/-- Where a banner is in its life on a page. -/
inductive Phase where
  | init
  | evaluateConsent
  | bannerVisible
  | hidden
  | applyConsent
  | persistCookie
  | reportToServer
deriving DecidableEq, Repr

instance : Named Phase where
  all := [.init, .evaluateConsent, .bannerVisible, .hidden, .applyConsent, .persistCookie, .reportToServer]
  name
    | .init => "init"
    | .evaluateConsent => "evaluate_consent"
    | .bannerVisible => "banner_visible"
    | .hidden => "hidden"
    | .applyConsent => "apply_consent"
    | .persistCookie => "persist_cookie"
    | .reportToServer => "report_to_server"

/-- What the page tells of its visitor, in whatever form. -/
structure Environment where
  timezone : Json := .null
  languages : Json := .arr [.str "en-US"]
  privacySignal : Bool := false
  userAgent : Json := .str "Mozilla/5.0"
  viewportWidth : Json := .int 1280
deriving Repr

/-- The position and the style of a component on the device at hand. -/
structure Placement where
  position : Option (List (Side × String))
  style : List (String × Json)
deriving Repr

structure Session where
  config : ClientConfig
  environment : Environment
  components : List Component
  browser : Browser
  server : Server
  api : Signal.Api
  phase : Phase := .init
  /-- Every phase so far, the first one first. -/
  history : List Phase := [.init]
  consent : Option Consent := none
  preferencesOpen : Bool := false
  iconVisible : Bool := false
  /-- The reports that are still to be sent. -/
  pending : List Report := []
  /-- What was told to the tags in the page. -/
  modeUpdates : List Json := []
  placements : List (String × Placement) := []
  /-- When the banner was last shown. -/
  shownAt : Option Number := none
  /-- What happened at the consent interface. -/
  events : List Signal.Event := []
deriving Repr

/-- Why an event is not accepted. -/
inductive Refusal where
  | action (name : String) (phase : Phase)
  | icon (phase : Phase)
  | started (phase : Phase)
deriving DecidableEq, Repr

def Refusal.message : Refusal → String
  | action name phase => name ++ " not allowed in state " ++ Named.name phase
  | icon phase => "Floating icon is not shown in state " ++ Named.name phase
  | started phase => "start() called in state " ++ Named.name phase

/-- Why a step of a session ends early. -/
inductive Stop where
  | refused (r : Refusal)
  | fault (f : Fault)
  | invalid (issues : List Issue)
deriving Repr

/-- A step of a session. What it did before it stopped stays done. -/
abbrev SessionM (α : Type) := ExceptT Stop (StateM Session) α

namespace SessionM

def lift {α : Type} : Except Fault α → SessionM α
  | .ok a => pure a
  | .error f => throw (.fault f)

def checked {α : Type} : Checked α → SessionM α
  | .valid a => pure a
  | .invalid issues => throw (.invalid issues)
  | .fault f => throw (.fault f)

end SessionM

namespace Session

def store (s : Session) : ConsentStore := ⟨s.config.bannerId, .int s.config.cookieExpiry⟩

/-- The session of a page before it starts. -/
def create (config : ClientConfig) (environment : Environment) (components : List Component)
    (browser : Browser) (server : Server) : Except Fault Session := do
  let reason ← Region.reason config.forceGdpr environment.privacySignal environment.timezone
    environment.languages
  return {
    config := config, environment := environment, components := components, browser := browser,
    server := server, api := { identity := config.identity, gdprApplies := reason.applies } }

end Session

end ConsentBanner
