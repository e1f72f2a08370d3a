import ConsentBanner.Consent.Vocabulary
import ConsentBanner.Fault
import ConsentBanner.Json.Basic

/-!
The texts of the preferences panel, and how overrides by language replace them.
-/

namespace ConsentBanner.Panel

/-- A text of the panel. -/
inductive Caption where
  | title
  | description
  | tabGeneral
  | tabVendors
  | tabPurposes
  | acceptAll
  | rejectAll
  | save
  | close
  | category (c : Category)
  | categoryDescription (c : Category)
deriving DecidableEq, Repr

instance : Named Caption where
  all := [.title, .description, .tabGeneral, .tabVendors, .tabPurposes, .acceptAll, .rejectAll, .save, .close] ++
    (Named.all : List Category).flatMap fun c => [.category c, .categoryDescription c]
  name
    | .title => "title"
    | .description => "description"
    | .tabGeneral => "tabGeneral"
    | .tabVendors => "tabVendors"
    | .tabPurposes => "tabPurposes"
    | .acceptAll => "acceptAll"
    | .rejectAll => "rejectAll"
    | .save => "save"
    | .close => "close"
    | .category c => Named.name c
    | .categoryDescription c => Named.name c ++ "Description"

/-- The text of a caption that no override gives. -/
def Caption.default : Caption → String
  | title => "Privacy preferences"
  | description =>
    "We use cookies and similar technologies to provide and improve our services. " ++
    "Use the controls below to choose which kinds of processing you allow."
  | tabGeneral => "General"
  | tabVendors => "Vendors"
  | tabPurposes => "Purposes"
  | acceptAll => "Accept all"
  | rejectAll => "Reject all"
  | save => "Save preferences"
  | close => "Close"
  | category .necessary => "Necessary"
  | category .analytics => "Analytics"
  | category .marketing => "Marketing"
  | category .personalization => "Personalization"
  | categoryDescription .necessary => "Required for the site to work. These cannot be turned off."
  | categoryDescription .analytics => "Help us measure how the site is used so we can improve it."
  | categoryDescription .marketing => "Used to show you advertising relevant to your interests."
  | categoryDescription .personalization => "Let us adapt content to your preferences."

/-- The languages to ask, best first. -/
def languages (overrides : List (String × Json)) (language : String) : List String :=
  language :: "en" :: (overrides.map (·.1)).filter fun l => l != language && l != "en"

/-- The override of a caption in a language, if it is set. The texts of a language have to have parts. -/
def override? (overrides : List (String × Json)) (c : Caption) (language : String) :
    Except Fault (Option Json) :=
  let texts := (Fields.get? language overrides).getD .null
  if !texts.isSet then .ok none
  else
    match texts with
    | .obj texts =>
      let v := (Fields.get? (Named.name c) texts).getD .null
      .ok (if v.isSet then some v else none)
    | _ => .error .lacksParts

/-- The first override of a caption among languages, else its default. -/
def resolve (overrides : List (String × Json)) (c : Caption) : List String → Except Fault Json
  | [] => .ok (.str c.default)
  | l :: rest => do
    match ← override? overrides c l with
    | some v => return v
    | none => resolve overrides c rest

def resolveAll (overrides : List (String × Json)) (languages : List String) :
    List Caption → Except Fault (List (Caption × Json))
  | [] => .ok []
  | c :: rest => do return (c, ← resolve overrides c languages) :: (← resolveAll overrides languages rest)

/-- The texts of a panel. Overrides that are not set change nothing; others have to be by language. -/
def captions (overrides : Json) (language : String) : Except Fault (List (Caption × Json)) :=
  if !overrides.isSet then resolveAll [] [] Named.all
  else
    match overrides with
    | .obj overrides => resolveAll overrides (languages overrides language) Named.all
    | .str _ | .arr _ => .error .lacksParts
    | _ => .error .wrongKind

end ConsentBanner.Panel
