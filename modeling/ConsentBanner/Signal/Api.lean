import ConsentBanner.Configuration.Basic
import ConsentBanner.Consent.Basic
import ConsentBanner.Json.Members
import ConsentBanner.Json.Reader

/-!
The consent interface that other scripts call: what it answers with, questions, and listeners that hear of every
decision.
-/

namespace ConsentBanner.Signal

/-- The state of the interface itself. -/
def pingData (identity : Identity) (gdprApplies : Bool) (display : String) : Json := .obj [
  ("gdprApplies", .bool gdprApplies), ("cmpLoaded", .bool true), ("cmpStatus", .str "loaded"),
  ("displayStatus", .str display), ("apiVersion", .str identity.apiVersion),
  ("cmpVersion", .int identity.cmpVersion), ("cmpId", .int identity.cmpId),
  ("gvlVersion", .int identity.gvlVersion), ("tcfPolicyVersion", .int identity.tcfPolicyVersion)]

/-- The answers for the vendors that are asked about, refused where nothing was decided. -/
def selectVendors (vendors : Answers) : Option (List Int) → Answers
  | none => vendors
  | some ids => Answers.ofPairs (ids.map fun id => (id, (vendors.get? id).getD false))

/-- The consent as the interface tells it. A vendor's legitimate interest follows its consent. -/
def tcData (identity : Identity) (gdprApplies : Bool) (consent : Option Consent) (eventStatus : String)
    (vendorIds : Option (List Int)) (listenerId : Option Int) : Json :=
  let c := consent.getD {}
  let vendors := (selectVendors c.vendors vendorIds).sorted.json
  let interests := c.purposes.filter fun (id, _) => Purpose.legitimateInterest.contains id
  .obj ([
    ("tcString", c.tcString), ("tcfPolicyVersion", .int identity.tcfPolicyVersion),
    ("cmpId", .int identity.cmpId), ("cmpVersion", .int identity.cmpVersion),
    ("gdprApplies", .bool gdprApplies), ("eventStatus", .str eventStatus), ("cmpStatus", .str "loaded"),
    ("isServiceSpecific", .bool true), ("useNonStandardTexts", .bool false),
    ("publisherCC", .str identity.publisherCountry), ("purposeOneTreatment", .bool false),
    ("purpose", .obj [("consents", c.purposes.sorted.json),
      ("legitimateInterests", (Answers.sorted interests).json)]),
    ("vendor", .obj [("consents", vendors), ("legitimateInterests", vendors)]),
    ("specialFeatureOptins", c.specialFeatures.sorted.json)] ++
    (match listenerId with
      | some id => [("listenerId", .int id)]
      | none => []))

/-- The vendors that a parameter asks about; all of them when it is not set. -/
def requestedVendors (parameter : Json) : Except Fault (Option (List Int)) :=
  if parameter.isSet then do return some (← (← parameter.members).mapM Json.integer)
  else .ok none

/-- What an answer goes to. -/
inductive Listener where
  /-- A function of the page, which may fail on one kind of event. -/
  | page (label : String) (failsOn : Option Json)
  /-- A caller in another frame, which may have sent its call as a text. -/
  | frame (asText : Bool) (callId : Json)
deriving Repr

/-- What happens outside when an answer is given. -/
inductive Event where
  | called (label : String) (data : Json) (success : Bool)
  | posted (message : Json)
deriving Repr

namespace Listener

/-- The message that answers a call from another frame. -/
def returnMessage (data : Json) (success : Bool) (callId : Json) : Json :=
  .obj [("__tcfapiReturn", .obj [("returnValue", data), ("success", .bool success), ("callId", callId)])]

/-- What happens when a listener is answered. -/
def event (data : Json) (success : Bool) : Listener → Event
  | page label _ => .called label data success
  | frame asText callId =>
    let message := returnMessage data success callId
    .posted (if asText then .str (message.render .spacedAscii) else message)

/-- Whether a listener fails on an answer. -/
def fails (data : Json) : Listener → Bool
  | page _ (some status) =>
    match data.get? "eventStatus" with
    | some s => s.same status
    | none => false
  | _ => false

end Listener

structure Api where
  identity : Identity
  gdprApplies : Bool
  display : String := "hidden"
  /-- The registered listeners by number, the first one first. -/
  listeners : List (Int × Listener) := []
  /-- The number that was given last. -/
  lastId : Int := 0
deriving Repr

/-- The interface after a call, what happened, and how the call failed if it did. -/
structure Reaction where
  api : Api
  events : List Event := []
  failure : Option Fault := none
deriving Repr

namespace Api

def data (a : Api) (consent : Option Consent) (eventStatus : String) (vendorIds : Option (List Int))
    (listenerId : Option Int) : Json :=
  tcData a.identity a.gdprApplies consent eventStatus vendorIds listenerId

/-- Gives an answer. -/
def answer (a : Api) (l : Listener) (data : Json) (success : Bool) : Reaction where
  api := a
  events := [l.event data success]
  failure := if l.fails data then some .listenerFailed else none

def answerData (a : Api) (consent : Option Consent) (l : Listener) (parameter : Json) : Reaction :=
  match requestedVendors parameter with
  | .ok ids => a.answer l (a.data consent "tcloaded" ids none) true
  | .error f => { api := a, failure := some f }

def addListener (a : Api) (consent : Option Consent) (l : Listener) : Reaction :=
  let id := a.lastId + 1
  let a := { a with lastId := id, listeners := a.listeners ++ [(id, l)] }
  a.answer l (a.data consent "tcloaded" none (some id)) true

/-- The listener number that a parameter is. -/
def listenerId? : Json → Option Int
  | .int n => some n
  | .bool b => some (if b then 1 else 0)
  | _ => none

def isListener (a : Api) (id : Int) : Bool := a.listeners.any (·.1 == id)

def removeListener (a : Api) (l : Listener) (parameter : Json) : Reaction :=
  match listenerId? parameter with
  | some id =>
    let removed := a.isListener id
    ({ a with listeners := a.listeners.filter (·.1 != id) } : Api).answer l (.bool removed) removed
  | none => a.answer l (.bool false) false

/-- Whether a version is supported; none at all stands for the latest one. -/
def isSupported (version : Json) : Bool :=
  version.isNull || version.same (.int 2) || version.same (.float (Double.ofDecimal false 22 (-1)))

/-- A call of the interface. Without a listener nothing happens. -/
def call (a : Api) (consent : Option Consent) (command version : Json) (listener : Option Listener)
    (parameter : Json) : Reaction :=
  match listener with
  | none => { api := a }
  | some l =>
    if !isSupported version then a.answer l .null false
    else
      match command with
      | .str "ping" => a.answer l (pingData a.identity a.gdprApplies a.display) true
      | .str "getTCData" => a.answerData consent l parameter
      | .str "addEventListener" => a.addListener consent l
      | .str "removeEventListener" => a.removeListener l parameter
      | command => if command.isScalar then a.answer l .null false else { api := a, failure := some .wrongKind }

/-- Tells every listener of the consent: what happens, and how many listeners did not fail. -/
def notify (a : Api) (consent : Option Consent) (eventStatus : String) : List Event × Nat :=
  let told := a.listeners.map fun (id, l) =>
    let data := a.data consent eventStatus none (some id)
    (l.event data true, l.fails data)
  (told.map (·.1), (told.filter (!·.2)).length)

/-- The call that a message from another frame makes, and whether it was a text. -/
def frameCall? (message : Json) : Option (Bool × Json) :=
  let (asText, value) := match message with
    | .str s => (true, (Json.parse? s).getD .null)
    | v => (false, v)
  match value.get? "__tcfapiCall" with
  | some (.obj call) => some (asText, .obj call)
  | _ => none

/-- A message from another frame, and whether it was a call. -/
def receive (a : Api) (consent : Option Consent) (message : Json) : Reaction × Bool :=
  match frameCall? message with
  | some (asText, c) =>
    (a.call consent (c.getD "command") (c.getD "version") (some (.frame asText (c.getD "callId")))
      (c.getD "parameter"), true)
  | none => ({ api := a }, false)

end Api

end ConsentBanner.Signal
