import ConsentBanner.Number.Double
import ConsentBanner.Time.Moment

/-!
Documents. Objects keep the order of their fields, and integers are told from other numbers, because both
show wherever a document is written again. JSON texts hold seven kinds of values; YAML texts also hold days,
moments, bytes, pairs and sets, and objects with keys that are no texts.
-/

namespace ConsentBanner

/-- A value of a document. -/
inductive Json where
  | null
  | bool (b : Bool)
  | int (n : Int)
  | float (x : Double)
  | str (s : String)
  | arr (items : List Json)
  | obj (fields : List (String × Json))
  | date (d : Date)
  | moment (m : Moment)
  | bytes (bs : List Nat)
  | pair (first second : Json)
  | set (members : List Json)
  /-- The value of a field whose key is no text, with that key. The field has a name that begins with a
  question mark. -/
  | keyed (key value : Json)
deriving Repr, Inhabited

namespace Fields

/-- The value under a key. -/
def get? {α : Type} (key : String) : List (String × α) → Option α
  | [] => none
  | (k, v) :: rest => if k == key then some v else get? key rest

/-- Writes under a key: in place when the key is there, at the end otherwise. -/
def set {α : Type} (key : String) (value : α) : List (String × α) → List (String × α)
  | [] => [(key, value)]
  | (k, v) :: rest => if k == key then (k, value) :: rest else (k, v) :: set key value rest

def erase {α : Type} (key : String) (fields : List (String × α)) : List (String × α) :=
  fields.filter (·.1 != key)

def has {α : Type} (key : String) (fields : List (String × α)) : Bool := (get? key fields).isSome

/-- Writes under a key that is not there yet. -/
def setDefault {α : Type} (key : String) (value : α) (fields : List (String × α)) : List (String × α) :=
  if has key fields then fields else fields ++ [(key, value)]

/-- The fields with each key once: the last value of a key at the place of its first. -/
def ofPairs {α : Type} (pairs : List (String × α)) : List (String × α) :=
  pairs.foldl (fun fields (k, v) => set k v fields) []

end Fields

namespace Json

/-- The value under a key of an object; none for any other value. -/
def get? (key : String) : Json → Option Json
  | obj fields => Fields.get? key fields
  | _ => none

/-- The value under a key, null when it is missing. -/
def getD (key : String) (v : Json) : Json := (v.get? key).getD .null

def isNull : Json → Bool
  | null => true
  | _ => false

def asString? : Json → Option String
  | str s => some s
  | _ => none

/-- Whether a value counts as set: nulls, false, zeros and empty texts, lists and objects do not. -/
def isSet : Json → Bool
  | null => false
  | bool b => b
  | int n => n != 0
  | float x => !x.isZero
  | str s => !s.isEmpty
  | arr items => !items.isEmpty
  | obj fields => !fields.isEmpty
  | date _ => true
  | moment _ => true
  | bytes bs => !bs.isEmpty
  | pair _ _ => true
  | set members => !members.isEmpty
  | keyed _ v => v.isSet

/-- A value that can be a key: one without parts, or a pair of such values. -/
def isScalar : Json → Bool
  | arr _ => false
  | obj _ => false
  | set _ => false
  | pair a b => a.isScalar && b.isScalar
  | _ => true

/-- The value of a field apart from its key. -/
def bare : Json → Json
  | keyed _ v => v
  | v => v

/-- The numeric value of a number or a truth value. -/
def number? : Json → Option (Int ⊕ Double)
  | bool b => some (.inl (if b then 1 else 0))
  | int n => some (.inl n)
  | float x => some (.inr x)
  | _ => none

/-- Equality of numbers across their kinds. A document has one NaN, which is itself. -/
def sameNumber : Int ⊕ Double → Int ⊕ Double → Bool
  | .inl a, .inl b => a == b
  | .inl a, .inr y => y.compareInt? a == some .eq
  | .inr x, .inl b => x.compareInt? b == some .eq
  | .inr x, .inr y => x == y || x.compare? y == some .eq

mutual

/-- Equality of documents: numbers by value whatever their kind, objects and sets whatever their order. -/
def same : Json → Json → Bool
  | null, null => true
  | str a, str b => a == b
  | arr a, arr b => sameItems a b
  | obj a, obj b => a.length == b.length && sameFields a b
  | date a, date b => a == b
  | moment a, moment b => a.same b
  | bytes a, bytes b => a == b
  | pair a b, pair c d => same a c && same b d
  | set a, set b => a.length == b.length && sameMembers a b
  | keyed _ a, keyed _ b => same a b
  | a, b =>
    match a.number?, b.number? with
    | some x, some y => sameNumber x y
    | _, _ => false

def sameItems : List Json → List Json → Bool
  | [], [] => true
  | a :: as, b :: bs => same a b && sameItems as bs
  | _, _ => false

/-- Every member has an equal one among the others. -/
def sameMembers : List Json → List Json → Bool
  | [], _ => true
  | a :: rest, others => others.any (same a) && sameMembers rest others

/-- Every field has an equal one among the others. -/
def sameFields : List (String × Json) → List (String × Json) → Bool
  | [], _ => true
  | (k, v) :: rest, others =>
    (match Fields.get? k others with
      | some w => same v w
      | none => false) && sameFields rest others

end

end Json

end ConsentBanner
