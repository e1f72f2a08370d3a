import ConsentBanner.Consent.Vocabulary
import ConsentBanner.Json.Members
import ConsentBanner.Json.Writer
import ConsentBanner.Text.Integer
import ConsentBanner.Time.Reader

/-!
Consent: what a visitor allows, and when that was decided.
-/

namespace ConsentBanner

/-- Answers by number, in the order in which they were given. -/
abbrev Answers := List (Int × Bool)

namespace Answers

def get? (id : Int) : Answers → Option Bool
  | [] => none
  | (k, b) :: rest => if k == id then some b else get? id rest

/-- Writes an answer: in place when there is one, at the end otherwise. -/
def set (id : Int) (allowed : Bool) : Answers → Answers
  | [] => [(id, allowed)]
  | (k, b) :: rest => if k == id then (k, allowed) :: rest else (k, b) :: set id allowed rest

def ofPairs (pairs : List (Int × Bool)) : Answers := pairs.foldl (fun a (id, allowed) => a.set id allowed) []

/-- The same answer to each of several questions. -/
def all (allowed : Bool) (ids : List Int) : Answers := ofPairs (ids.map (·, allowed))

/-- The answers by ascending number. -/
def sorted (a : Answers) : Answers := a.mergeSort fun x y => decide (x.1 ≤ y.1)

def json (a : Answers) : Json := .obj (a.map fun (id, allowed) => (toString id, .bool allowed))

/-- The answers under texts that are integers; others are passed over. Any unset value has none. -/
def read (v : Json) : Checked Answers :=
  if !v.isSet then .valid []
  else
    match v with
    | .obj fields =>
      .valid (ofPairs (fields.filterMap fun (k, allowed) => (Text.integer? k).map (·, allowed.isSet)))
    | _ => .fault .lacksParts

end Answers

/-- A visitor's consent. -/
structure Consent where
  purposes : Answers := []
  vendors : Answers := []
  specialFeatures : Answers := []
  created : Option Moment := none
  lastUpdated : Option Moment := none
  /-- What the server made of the decision, in whatever form it was sent. -/
  tcString : Json := .str ""
deriving Repr

namespace Consent

open Reader

/-- The vendors that a consent is about: those of a collection, or all that are known when there is none. -/
def vendorIds : Json → Except Fault (List Int)
  | .null => .ok (Vendor.known.map (·.1))
  | v => do Json.integers (← v.keys)

/-- Everything allowed. -/
def acceptAll (vendors : List Int) (now : Moment) : Consent where
  purposes := Answers.all true (Purpose.known.map (·.1))
  vendors := Answers.all true vendors
  specialFeatures := Answers.all true (SpecialFeature.known.map (·.1))
  created := some now
  lastUpdated := some now

/-- Only the necessary purpose allowed. -/
def rejectAll (vendors : List Int) (now : Moment) : Consent where
  purposes := Purpose.known.map fun (id, _) => (id, id == Purpose.necessary)
  vendors := Answers.all false vendors
  specialFeatures := Answers.all false (SpecialFeature.known.map (·.1))
  created := some now
  lastUpdated := some now

/-- The answers of categories over those before; names of no category change nothing. -/
def decideCategories (before : Answers) : List (String × Json) → Answers
  | [] => before
  | (name, allowed) :: rest =>
    let ids := ((Named.ofName? name).map Category.purposes).getD []
    decideCategories (ids.foldl (fun a id => a.set id allowed.isSet) before) rest

/-- The answers of single vendors over those before; each has to be under an integer. -/
def decideVendors (before : Answers) : List (String × Json) → Except Fault Answers
  | [] => .ok before
  | (key, allowed) :: rest =>
    match Text.integer? key with
    | some id => decideVendors (before.set id allowed.isSet) rest
    | none => .error .badValue

/-- The decision of the preferences: categories as switched, and all else refused. -/
def ofCategories (categories vendors : List (String × Json)) (now : Moment) : Except Fault Consent := do
  let refused := Answers.all false (Purpose.known.map (·.1))
  return {
    purposes := (decideCategories refused categories).set Purpose.necessary true
    vendors := ← decideVendors (Answers.all false (Vendor.known.map (·.1))) vendors
    specialFeatures := Answers.all false (SpecialFeature.known.map (·.1))
    created := some now
    lastUpdated := some now }

/-- Whether a category is allowed: all of its purposes are. -/
def allows (c : Consent) (category : Category) : Bool :=
  category.purposes.all fun id => (c.purposes.get? id).getD false

def categories (c : Consent) : List (Category × Bool) := Named.all.map fun k => (k, c.allows k)

def momentJson (m : Option Moment) : Json := (m.map fun m => Json.str m.text).getD .null

/-- The form in which consent is stored. -/
def json (c : Consent) : Json := .obj [
  ("purposes", c.purposes.json), ("vendors", c.vendors.json), ("specialFeatures", c.specialFeatures.json),
  ("created", momentJson c.created), ("lastUpdated", momentJson c.lastUpdated), ("tcString", c.tcString)]

def read : Reader Consent :=
  model "ConsentState" fun fields =>
    Consent.mk
      <$> field fields ["purposes"] [] Answers.read
      <*> field fields ["vendors"] [] Answers.read
      <*> field fields ["specialFeatures", "special_features"] [] Answers.read
      <*> field fields ["created"] none (nullable Moment.read)
      <*> field fields ["lastUpdated", "last_updated"] none (nullable Moment.read)
      <*> field fields ["tcString", "tc_string"] (.str "") (fun v => Json.str <$> string v)

def grant (allowed : Bool) : Json := .str (if allowed then "granted" else "denied")

/-- The kinds of storage that a decision grants to tags in the page. -/
def mode (c : Consent) : Json := .obj [
  ("ad_storage", grant (c.allows .marketing)), ("analytics_storage", grant (c.allows .analytics)),
  ("personalization_storage", grant (c.allows .personalization)), ("functionality_storage", grant true),
  ("security_storage", grant true)]

end Consent

end ConsentBanner
