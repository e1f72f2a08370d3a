import ConsentBanner.Json.Display
import ConsentBanner.Named

/-!
What a visitor consents to: purposes, vendors and special features by number, and categories of purposes.
-/

namespace ConsentBanner

namespace Purpose

/-- The purposes by number. -/
def known : List (Int × String) := [
  (1, "Store and access information on device"),
  (2, "Select basic ads"),
  (3, "Create a personalised ads profile"),
  (4, "Select personalised ads"),
  (5, "Create a personalised content profile"),
  (6, "Select personalised content"),
  (7, "Measure ad performance"),
  (8, "Measure content performance"),
  (9, "Apply market research"),
  (10, "Develop and improve products")]

/-- The purpose without which no decision can be stored. -/
def necessary : Int := 1

/-- The purposes that may rest on legitimate interest. -/
def legitimateInterest : List Int := [2, 3, 5, 7, 8, 9, 10]

end Purpose

/-- The vendors that are asked about by default. -/
def Vendor.known : List (Int × String) := [
  (1, "Google"),
  (2, "Meta Platforms, Inc."),
  (7, "MediaMath"),
  (28, "OneTrust LLC"),
  (91, "Criteo"),
  (128, "Xandr, Inc."),
  (132, "Index Exchange"),
  (755, "Google Advertising Products"),
  (765, "TrueData"),
  (802, "Roku")]

def SpecialFeature.known : List (Int × String) := [
  (1, "Use precise geolocation data"),
  (2, "Actively scan device characteristics")]

/-- The name of a value in a table, where numbers are looked up whatever their kind, or one made from the
value. -/
def nameIn (table : List (Int × String)) (noun : String) (id : Json) : String :=
  match table.find? fun (n, _) => (Json.int n).same id with
  | some (_, name) => name
  | none => noun ++ " " ++ id.display

def Purpose.name (id : Json) : String := nameIn Purpose.known "Purpose" id

def Vendor.name (id : Json) : String := nameIn Vendor.known "Vendor" id

def SpecialFeature.name (id : Json) : String := nameIn SpecialFeature.known "Feature" id

/-- A group of purposes that a visitor decides on together. -/
inductive Category where
  | necessary
  | analytics
  | marketing
  | personalization
deriving DecidableEq, Repr

instance : Named Category where
  all := [.necessary, .analytics, .marketing, .personalization]
  name
    | .necessary => "necessary"
    | .analytics => "analytics"
    | .marketing => "marketing"
    | .personalization => "personalization"

def Category.purposes : Category → List Int
  | .necessary => [1]
  | .analytics => [7, 8, 9, 10]
  | .marketing => [2, 3, 4]
  | .personalization => [5, 6]

end ConsentBanner
