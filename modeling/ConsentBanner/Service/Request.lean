import ConsentBanner.Configuration.Options
import ConsentBanner.Json.Encoding
import ConsentBanner.Schema

/-!
Requests to the service: the documents in their bodies, and the template and options that those hold.
-/

namespace ConsentBanner.Service

open Reader

/-- A request as it comes in. -/
structure Request where
  method : String
  path : String
  contentType : Option String := none
  body : String := ""
deriving Repr

/-- Whether a content type announces a JSON document; so does none at all. -/
def announcesJson (contentType : Option String) : Bool :=
  match contentType with
  | none | some "" => true
  | some s =>
    match Text.split '/' (Text.lowerAscii (Text.trim (Text.splitOnce ';' s).1)) with
    | ["application", kind] => kind == "json" || "+json".toList.isSuffixOf kind.toList
    | _ => false

/-- The document of a text. One that breaks the grammar is reported at the place where it does. -/
def documentOf (text : List Char) : Checked Json :=
  match Json.parseList text with
  | .ok .null => .reject .missing
  | .ok v => .valid v
  | .error (.malformed remaining) =>
    (Checked.reject (.malformedJson "JSON decode error")).under (toString (text.length - remaining))
  | .error .tooManyDigits => .fault .unreadable

/-- The document of a body, which has to be there. -/
def Request.document (r : Request) : Checked Json :=
  if r.body.isEmpty then .reject .missing
  else if !announcesJson r.contentType then .reject .notAttributes
  else
    match Json.sentText? r.body.toList with
    | some text => documentOf text
    | none => .fault .unreadable

/-- The fields of an object. -/
def attributes {α : Type} (read : List (String × Json) → Checked α) : Reader α
  | .obj fields => read fields
  | _ => .reject .notAttributes

/-- A template is any object. -/
def templateOf (fields : List (String × Json)) : Checked Json :=
  requiredField fields "template" fun v => Json.obj <$> dictionary any v

/-- An option that a request may set: its plain name, its other names, and its values. -/
structure Setting where
  name : String
  aliases : List String := []
  read : Reader Json

def settings : List Setting := [
  { name := "minify", read := fun v => .bool <$> bool v },
  { name := "include_google_consent_mode", aliases := ["includeGoogleConsentMode"], read := fun v => .bool <$> bool v },
  { name := "force_gdpr", aliases := ["forceGDPR"], read := fun v => .bool <$> bool v },
  { name := "cookie_expiry", aliases := ["cookieExpiry"], read := fun v => .int <$> intAtLeast 1 v },
  { name := "base_url", aliases := ["baseUrl"], read := fun v => .str <$> string v },
  { name := "domain_id", aliases := ["domainId"], read := fun v => .str <$> string v },
  { name := "format", read := fun v => (fun f => .str (Named.name f)) <$> oneOf ArtifactFormat v },
  { name := "language", read := fun v => .str <$> string v },
  { name := "banner_id", aliases := ["bannerId"], read := fun v => .str <$> string v }]

/-- The options that a request sets, by their plain names. -/
def overridesOf (fields : List (String × Json)) : Checked (List (String × Json)) :=
  (fun found : List (Option (String × Json)) => found.filterMap id) <$>
    Checked.all (fun s : Setting =>
      (Option.map (s.name, ·)) <$> field fields (s.aliases ++ [s.name]) none (nullable s.read)) settings

/-- A template and options for it. -/
structure Order where
  template : Json
  overrides : List (String × Json)

/-- The template that a request is about. -/
def Request.template (r : Request) : Checked Json := r.document.andThen (attributes templateOf)

/-- The template that a request is about, and the options that it sets. -/
def Request.order (r : Request) : Checked Order :=
  r.document.andThen <| attributes fun fields =>
    Order.mk <$> templateOf fields <*> field fields ["options"] [] (attributes overridesOf)

end ConsentBanner.Service
