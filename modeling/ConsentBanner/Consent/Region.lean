import ConsentBanner.Json.Members
import ConsentBanner.Named
import ConsentBanner.Text.Case
import ConsentBanner.Text.Search

/-!
Whether a visitor has the rights of the GDPR: when in doubt, yes.
-/

namespace ConsentBanner.Region

/-- The first rule by which the regulation applies. -/
inductive Reason where
  | config
  | privacySignal
  | timezone
  | language
  | default
deriving DecidableEq, Repr

instance : Named Reason where
  all := [.config, .privacySignal, .timezone, .language, .default]
  name
    | .config => "config"
    | .privacySignal => "gpc"
    | .timezone => "timezone"
    | .language => "language"
    | .default => "default"

def timezoneStarts : List String := ["Europe/", "Atlantic/Canary", "Atlantic/Faroe", "Atlantic/Madeira"]

def europeanLanguages : List String := [
  "fr", "de", "es", "it", "pt", "nl", "el", "bg", "hr", "cs", "da", "et", "fi", "hu", "ga", "lv", "lt", "mt",
  "pl", "ro", "sk", "sl", "sv"]

def isEuropeanTimezone (zone : String) : Bool := timezoneStarts.any (Text.startsWith · zone)

/-- Whether the language before the first dash of a tag is a European one. -/
def isEuropeanLanguage (tag : String) : Bool :=
  europeanLanguages.contains (Text.lower (Text.splitOnce '-' tag).1)

/-- Whether a time zone is European; one that is not set is not, and one that is no text has no start. -/
def timezoneApplies (zone : Json) : Except Fault Bool :=
  match zone with
  | .str s => .ok (isEuropeanTimezone s)
  | v => if v.isSet then .error .lacksParts else .ok false

/-- Whether one of the languages is European; those that are not set are passed over. -/
def languageApplies : List Json → Except Fault Bool
  | [] => .ok false
  | .str s :: rest => if isEuropeanLanguage s then .ok true else languageApplies rest
  | v :: rest => if v.isSet then .error .lacksParts else languageApplies rest

/-- The first rule that applies. -/
def reason (forced privacySignal : Bool) (timezone languages : Json) : Except Fault Reason := do
  if forced then return .config
  if privacySignal then return .privacySignal
  if ← timezoneApplies timezone then return .timezone
  if ← languageApplies (← languages.members) then return .language
  return .default

/-- Whether the regulation applies for a reason. -/
def Reason.applies : Reason → Bool
  | config | privacySignal | timezone | language | default => true

end ConsentBanner.Region
