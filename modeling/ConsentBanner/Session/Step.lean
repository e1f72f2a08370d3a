import ConsentBanner.Session.Basic

/-!
The steps of a session.

A page starts in `init`, passes through `evaluateConsent` and shows or hides its banner. A decision leads a
visible banner through `applyConsent`, `persistCookie` and `reportToServer` to `hidden`. A hidden banner
comes back when its consent is due again, or by the floating button.
-/

namespace ConsentBanner.Session

open SessionM (lift checked)

/-- The session in a phase, with what the visitor sees of it. -/
def inPhase (phase : Phase) (s : Session) : Session :=
  let s := { s with phase := phase, history := s.history ++ [phase] }
  match phase with
  | .bannerVisible => { s with api := { s.api with display := "visible" }, iconVisible := false }
  | .hidden => { s with api := { s.api with display := "hidden" }, iconVisible := s.config.floatingIcon.enabled }
  | _ => s

def enter (phase : Phase) : SessionM Unit := modify (inPhase phase)

/-- The class of devices of a viewport; a width that is no number has none. -/
def deviceOf (b : Breakpoints) (width : Json) : Except Fault Device :=
  match Number.ofScalar? width with
  | some w => .ok (b.deviceForWidth w)
  | none => .error .wrongKind

def device : SessionM Device := do
  let s ← get
  lift (deviceOf s.config.breakpoints s.environment.viewportWidth)

mutual

/-- The placements of a component and those inside it, over those before. -/
def placeTree (d : Device) (placed : List (String × Placement)) : Component → List (String × Placement)
  | .node data children =>
    placeForest d (Fields.set data.id ⟨data.effectivePosition d, data.effectiveStyle d⟩ placed) children

/-- The placements of a forest, the last tree first. -/
def placeForest (d : Device) (placed : List (String × Placement)) :
    List Component → List (String × Placement)
  | [] => placed
  | c :: rest => placeTree d (placeForest d placed rest) c

end

/-- Places every component anew for a width of the viewport. -/
def resize (width : Json) : SessionM (List (String × Placement)) := do
  modify fun s => { s with environment := { s.environment with viewportWidth := width } }
  let d ← device
  modify fun s => { s with placements := placeForest d [] s.components }
  return (← get).placements

def showBanner : SessionM Unit := do
  modify fun s => { s with shownAt := some s.browser.now, preferencesOpen := false }
  discard (resize (← get).environment.viewportWidth)
  enter .bannerVisible

/-- Whether a decision of a given moment is due again. -/
def isDue (policy : TimedPolicy) (decided : Moment) (now : Number) : Except Fault Bool := do
  if !policy.enabled then return false
  if !policy.seconds.exceeds 0 then return true
  let elapsed ← now.minus (.int (← decided.epochMillis))
  return elapsed.compare? policy.seconds.thousandfold != some .lt

/-- Whether the visitor is to be asked: there is no decision, or it is due again. -/
def shouldShow : SessionM Bool := do
  let s ← get
  match (← lift (s.store.load s.browser)).bind (·.lastUpdated) with
  | none => return true
  | some decided => lift (isDue s.config.reshow decided s.browser.now)

/-- The visitor's identifier, written again. -/
def identify : SessionM String := do
  let (id, browser) ← lift (Visitor.identify (← get).browser)
  modify fun s => { s with browser := browser }
  return id

def start : SessionM Phase := do
  let s ← get
  if s.phase != .init then throw (.refused (.started s.phase))
  enter .evaluateConsent
  let consent ← lift (s.store.load s.browser)
  modify fun s => { s with consent := consent }
  let due ← shouldShow
  discard identify
  if due then showBanner else enter .hidden
  return (← get).phase

/-- The switches of categories; none when they are not set. -/
def categorySwitches (categories : Json) : Except Fault (List (String × Json)) :=
  if categories.isSet then
    match categories with
    | .obj fields => .ok fields
    | _ => .error .lacksParts
  else .ok []

/-- The consent that a deciding action makes at a moment. -/
def consentOf (action : ActionKind) (categories : Json) (now : Moment) : Except Fault Consent :=
  match action with
  | .acceptAll => .ok (Consent.acceptAll (Vendor.known.map (·.1)) now)
  | .rejectAll => .ok (Consent.rejectAll (Vendor.known.map (·.1)) now)
  | _ => do Consent.ofCategories (← categorySwitches categories) [] now

/-- The consent of a decision, which keeps the moment of the first one. -/
def decide (action : ActionKind) (categories : Json) : SessionM Consent := do
  let s ← get
  let now ← lift (Moment.ofMillis s.browser.now)
  let decided ← lift (consentOf action categories now)
  match s.consent.bind (·.created) with
  | some created => return { decided with created := some created }
  | none => return decided

/-- The first of the visitor's languages. -/
def firstLanguage (languages : Json) : Except Fault Json :=
  if !languages.isSet then .ok (.str "en")
  else
    match languages with
    | .obj _ => .error .missingKey
    | v => do return ((← v.members).head?).getD .null

def reportMetadata : SessionM ReportMetadata := do
  let e := (← get).environment
  let language ← lift (firstLanguage e.languages)
  let d ← device
  checked (ReportMetadata.read (.obj [
    ("user_agent", e.userAgent), ("language", language), ("device_type", .str (Named.name d))]))

def isDecision : ActionKind → Bool
  | .acceptAll | .rejectAll | .savePreferences => true
  | _ => false

/-- Writes a consent where the browser keeps it. -/
def persist (c : Consent) : SessionM Unit := do
  let s ← get
  let browser ← lift (s.store.save c s.browser)
  modify fun s => { s with browser := browser }

/-- The report of a decision, with how and where it was made. -/
def reportOf (action : ActionKind) (decided : Consent) : SessionM Report := do
  let s ← get
  let time ← lift (s.shownAt.mapM fun shown => s.browser.now.minus shown)
  let id ← identify
  let metadata ← reportMetadata
  let interaction ← checked (Interaction.ofAction (.str (Named.name action)) ((time.map Number.json).getD .null))
  return Report.ofConsent id decided interaction (some metadata)

/-- Makes a decision the consent of the page, which tells its tags if they are to know. -/
def adopt (decided : Consent) : SessionM Unit := do
  modify fun s => { s with consent := some decided }
  if (← get).config.consentMode then
    modify fun s => { s with modeUpdates := s.modeUpdates ++ [decided.mode] }

/-- Queues the report of a decision and tells the listeners. -/
def enqueue (report : Report) : SessionM Unit :=
  modify fun s =>
    { s with
      pending := s.pending ++ [report]
      events := s.events ++ (s.api.notify s.consent "useractioncomplete").1
      preferencesOpen := false }

/-- Carries a decision out: in the page, in the cookie, and as a report to be sent. -/
def applyDecision (action : ActionKind) (categories : Json) : SessionM Unit := do
  enter .applyConsent
  let decided ← decide action categories
  adopt decided
  enter .persistCookie
  persist decided
  enter .reportToServer
  enqueue (← reportOf action decided)
  enter .hidden

/-- Opens the preferences of a banner, which is shown if it was hidden. -/
def showPreferences : SessionM Phase := do
  let s ← get
  if s.phase != .bannerVisible && s.phase != .hidden then
    throw (.refused (.action (Named.name ActionKind.showPreferences) s.phase))
  if s.phase == .hidden then showBanner
  modify fun s => { s with preferencesOpen := true }
  return (← get).phase

/-- An action on a visible banner. Closing shuts open preferences before the banner. -/
def act (action : Option ActionKind) (categories : Json) : SessionM Unit := do
  match action with
  | some .close =>
    if (← get).preferencesOpen then modify fun s => { s with preferencesOpen := false } else enter .hidden
  | some action => if isDecision action then applyDecision action categories
  | none => pure ()

/-- An action of the visitor, by name. Unknown actions do nothing to a visible banner. -/
def handle (name : String) (categories : Json) : SessionM Phase := do
  let s ← get
  match (Named.ofName? name : Option ActionKind) with
  | some .showPreferences => showPreferences
  | action =>
    if s.phase != .bannerVisible then throw (.refused (.action name s.phase))
    act action categories
    return (← get).phase

def clickIcon : SessionM Phase := do
  let s ← get
  if !s.iconVisible then throw (.refused (.icon s.phase))
  showPreferences

/-- Whether a banner that was shown at a time is to hide by itself. -/
def hidesItself (policy : TimedPolicy) (shownAt : Option Number) (now : Number) : Except Fault Bool :=
  match shownAt with
  | some shown => do
    if !(policy.enabled && policy.seconds.exceeds 0) then return false
    let order := (← now.minus shown).compare? policy.seconds.thousandfold
    return order == some .gt || order == some .eq
  | none => .ok false

/-- What time alone does: a visible banner hides, a hidden one comes back. -/
def tick : SessionM Phase := do
  let s ← get
  match s.phase with
  | .bannerVisible =>
    if ← lift (hidesItself s.config.autoHide s.shownAt s.browser.now) then enter .hidden
  | .hidden =>
    if s.config.reshow.enabled && s.config.reshow.seconds.exceeds 0 then
      if ← lift (s.store.hasConsent s.browser) then
        if ← shouldShow then showBanner
  | _ => pure ()
  return (← get).phase

/-- Forgets the decision and asks again. -/
def reset : SessionM Phase := do
  modify fun s => { s with browser := s.store.clear s.browser, consent := none }
  enter .evaluateConsent
  showBanner
  return (← get).phase

/-- Keeps what the server made of a decision with the consent. -/
def storeTcString (tcString : Option Json) : SessionM Unit := do
  let s ← get
  match tcString, s.consent with
  | some t, some c =>
    let c := { c with tcString := t }
    modify fun s => { s with consent := some c }
    persist c
  | _, _ => pure ()

/-- Sends the reports that were given, oldest first, each taken off the queue before it is sent. -/
def sendAll : List Report → SessionM Unit
  | [] => pure ()
  | r :: rest => do
    let s ← get
    let (tcString, server) := r.deliver s.config.baseUrl s.config.domainId s.server
    modify fun s => { s with pending := rest, server := server }
    storeTcString tcString
    sendAll rest

/-- Sends every pending report; the number of those that were sent. -/
def flush : SessionM Nat := do
  let reports := (← get).pending
  sendAll reports
  return reports.length

def advance (seconds : Json) : SessionM Unit := do
  let browser ← lift ((← get).browser.advance seconds)
  modify fun s => { s with browser := browser }

def setCookie (cookie : String) : SessionM Unit :=
  modify fun s => { s with browser := s.browser.setCookie cookie }

/-- Takes over what a call of the consent interface came to. -/
def react (r : Signal.Reaction) : SessionM Unit := do
  modify fun s => { s with api := r.api, events := s.events ++ r.events }
  match r.failure with
  | some f => throw (.fault f)
  | none => pure ()

def callApi (command version : Json) (listener : Option Signal.Listener) (parameter : Json) :
    SessionM Unit := do
  let s ← get
  react (s.api.call s.consent command version listener parameter)

/-- A message from another frame; whether it was a call. -/
def receive (message : Json) : SessionM Bool := do
  let s ← get
  let (r, isCall) := s.api.receive s.consent message
  react r
  return isCall

end ConsentBanner.Session
