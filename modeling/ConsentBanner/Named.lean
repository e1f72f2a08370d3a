/-!
Finite types whose values have written names.
-/

namespace ConsentBanner

/-- A type with finitely many values, each with a name. -/
class Named (α : Type) where
  all : List α
  name : α → String

namespace Named

/-- The value with a given name. -/
def ofName? {α : Type} [Named α] (s : String) : Option α := all.find? fun a => name a == s

/-- The names in order. -/
def names (α : Type) [Named α] : List String := (all : List α).map name

def isName (α : Type) [Named α] (s : String) : Bool := (ofName? s : Option α).isSome

end Named

end ConsentBanner
