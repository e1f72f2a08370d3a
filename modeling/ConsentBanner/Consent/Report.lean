import ConsentBanner.Consent.Basic
import ConsentBanner.Template.Write
import ConsentBanner.Text.Blank

/-!
Reports of decisions, and their delivery to the server, which may answer, refuse or be out of reach.
-/

namespace ConsentBanner

open Reader

/-- The answer to one question, with the name of what was asked about. -/
structure Decided where
  id : Int
  name : String
  allowed : Bool
deriving DecidableEq, Repr

/-- The answers of a consent by ascending number. -/
structure Decisions where
  purposes : List Decided := []
  vendors : List Decided := []
  specialFeatures : List Decided := []
deriving DecidableEq, Repr

/-- How a decision came about. -/
structure Interaction where
  action : String
  /-- Milliseconds from when the banner was shown. -/
  timeToDecision : Option Int := none
  customized : Option Bool := none
deriving DecidableEq, Repr

/-- Where a decision was made. -/
structure ReportMetadata where
  userAgent : String := ""
  language : String := ""
  deviceType : String := "desktop"
deriving DecidableEq, Repr

structure Report where
  userId : String
  decisions : Decisions
  interaction : Interaction
  metadata : Option ReportMetadata := none
deriving DecidableEq, Repr

namespace Decisions

def named (name : Json → String) (a : Answers) : List Decided :=
  a.sorted.map fun (id, allowed) => ⟨id, name (.int id), allowed⟩

def ofConsent (c : Consent) : Decisions where
  purposes := named Purpose.name c.purposes
  vendors := named Vendor.name c.vendors
  specialFeatures := named SpecialFeature.name c.specialFeatures

def decidedFields (d : Decided) : List (String × Json) :=
  [("id", .int d.id), ("name", .str d.name), ("allowed", .bool d.allowed)]

def json (d : Decisions) : Json := .obj [
  ("purposes", .arr (d.purposes.map fun p => .obj (decidedFields p ++ [("legalBasis", .str "consent")]))),
  ("vendors", .arr (d.vendors.map fun v => .obj (decidedFields v))),
  ("specialFeatures", .arr (d.specialFeatures.map fun f => .obj (decidedFields f)))]

end Decisions

namespace Interaction

def read : Reader Interaction :=
  model "BannerInteraction" fun fields =>
    Interaction.mk
      <$> requiredField fields "type" string
      <*> field fields ["timeToDecision", "time_to_decision"] none (nullable int)
      <*> field fields ["customizationOpened", "customization_opened"] none (nullable bool)

/-- How an action came about that was taken after a number of milliseconds; without a number it took none. -/
def ofAction (action timeToDecision : Json) : Checked Interaction :=
  read (.obj [("type", action),
    ("time_to_decision", if timeToDecision.isNull then .int 0 else timeToDecision),
    ("customization_opened", .bool (action.asString? == some "save_preferences"))])

end Interaction

namespace ReportMetadata

def read : Reader ReportMetadata :=
  model "ReportMetadata" fun fields =>
    ReportMetadata.mk
      <$> field fields ["userAgent", "user_agent"] "" string
      <*> field fields ["language"] "" string
      <*> field fields ["deviceType", "device_type"] "desktop" string

def json (m : ReportMetadata) : Json := .obj [
  ("userAgent", .str m.userAgent), ("language", .str m.language), ("deviceType", .str m.deviceType)]

end ReportMetadata

namespace Report

def ofConsent (userId : String) (c : Consent) (interaction : Interaction)
    (metadata : Option ReportMetadata) : Report where
  userId := userId
  decisions := Decisions.ofConsent c
  interaction := interaction
  metadata := some (metadata.getD {})

/-- The report that is sent when the whole one is too large: the necessary purpose alone. -/
def reduced (r : Report) : Report where
  userId := r.userId
  decisions := { purposes := [⟨Purpose.necessary, "Storage and access", true⟩] }
  interaction := ⟨r.interaction.action, none, none⟩
  metadata := none

/-- The body of the report; what is not known is left out. -/
def json (r : Report) : Json := .obj (givenFields [
  ("userId", .str r.userId), ("decisions", r.decisions.json),
  ("bannerInteraction", .obj (givenFields [("type", .str r.interaction.action),
    ("timeToDecision", nullableJson Json.int r.interaction.timeToDecision),
    ("customizationOpened", nullableJson Json.bool r.interaction.customized)])),
  ("metadata", nullableJson ReportMetadata.json r.metadata)])

end Report

/-- What comes of a request. -/
inductive Response where
  | answered (status : Int) (body : Json)
  | unreachable
deriving Repr

/-- The server as a page meets it: the answers that are still to come, and the requests so far. Without a
further answer it accepts everything. -/
structure Server where
  responses : List Response := []
  requests : List (String × Json) := []
deriving Repr

namespace Server

def post (s : Server) (url : String) (payload : Json) : Response × Server :=
  match s.responses with
  | [] => (.answered 200 (.obj []), { s with requests := s.requests ++ [(url, payload)] })
  | r :: rest => (r, { responses := rest, requests := s.requests ++ [(url, payload)] })

end Server

/-- Where reports of a domain go. -/
def consentEndpoint (baseUrl domainId : String) : String :=
  Text.dropTrailingSlashes baseUrl ++ "/api/v1/consent/domain/" ++ domainId

/-- The set text that the body of an answer gives for a decision. -/
def tcStringOf? (body : Json) : Option Json :=
  let s := (body.getD "data").getD "tcString"
  if s.isSet then some s else none

namespace Report

/-- Sends a report to the endpoint of a domain, if there is one. A report that is too large is sent once more,
reduced. What the server made of the decision comes back. -/
def deliver (baseUrl domainId : String) (r : Report) (s : Server) : Option Json × Server :=
  if domainId.isEmpty then (none, s)
  else
    let url := consentEndpoint baseUrl domainId
    match s.post url r.json with
    | (.unreachable, s) => (none, s)
    | (.answered status body, s) =>
      if status = 413 then (none, (s.post url r.reduced.json).2)
      else if 200 ≤ status ∧ status < 300 then (tcStringOf? body, s)
      else (none, s)

end Report

end ConsentBanner
