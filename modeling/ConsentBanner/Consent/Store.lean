import ConsentBanner.Browser.Basic
import ConsentBanner.Consent.Basic
import ConsentBanner.Json.Reader

/-!
Consent in the browser: a cookie and a storage entry for each banner, and one identifier for the visitor.
-/

namespace ConsentBanner

namespace Consent

/-- The stored text of a consent. -/
def encode (c : Consent) : String := c.json.render .compactAscii

/-- The consent of a stored text, when it is usable. The necessary purpose is always allowed. -/
def decode? (raw : String) : Except Fault (Option Consent) :=
  if raw.isEmpty then .ok none
  else
    match Json.parse? (Text.percentDecode raw) with
    | some (.obj fields) =>
      match read (.obj fields) with
      | .valid c => .ok (some { c with purposes := c.purposes.set Purpose.necessary true })
      | .invalid _ => .ok none
      | .fault f => .error f
    | _ => .ok none

end Consent

/-- Where a banner keeps its consent. -/
structure ConsentStore where
  bannerId : String
  /-- In days. -/
  cookieExpiry : Number := .int 365
deriving DecidableEq, Repr

namespace ConsentStore

def cookieName (s : ConsentStore) : String := s.bannerId ++ "-consent"

def load (s : ConsentStore) (b : Browser) : Except Fault (Option Consent) :=
  Consent.decode? ((b.jar.get? s.cookieName).getD "")

/-- Whether a decision is stored that says when it was made. -/
def hasConsent (s : ConsentStore) (b : Browser) : Except Fault Bool := do
  return ((← s.load b).bind (·.lastUpdated)).isSome

def save (s : ConsentStore) (c : Consent) (b : Browser) : Except Fault Browser := do
  let cookie ← Cookie.format s.cookieName c.encode s.cookieExpiry b.now
  return (b.setCookie cookie).setItem s.cookieName c.encode

def clear (s : ConsentStore) (b : Browser) : Browser :=
  (b.setCookie (Cookie.expired s.cookieName)).setItem s.cookieName ""

end ConsentStore

namespace Visitor

def key : String := "cmp_user_id"

/-- How many days the identifier lasts. -/
def cookieDays : Number := .int 365

/-- An identifier from the time and random characters. -/
def newId (b : Browser) : String := "user_" ++ b.now.text ++ "_" ++ b.randomText

/-- The identifier that the browser holds or, when it holds none, a new one. -/
def current (b : Browser) : String :=
  match (b.jar.get? key).getD "", (Fields.get? key b.storage).getD "" with
  | "", "" => newId b
  | "", stored => stored
  | cookie, _ => cookie

/-- The visitor's identifier, which is written again whenever it is asked for. -/
def identify (b : Browser) : Except Fault (String × Browser) := do
  let id := current b
  let cookie ← Cookie.format key id cookieDays b.now
  return (id, (b.setCookie cookie).setItem key id)

end Visitor

end ConsentBanner
