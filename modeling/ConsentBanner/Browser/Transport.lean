import ConsentBanner.Json.Encoding

/-!
Requests with a JSON body and the answers to them.
-/

namespace ConsentBanner.Transport

/-- A request as it goes out. -/
structure Request where
  method : String := "POST"
  url : String
  contentType : String := "application/json"
  accept : String := "application/json"
  body : Json
deriving Repr

mutual

/-- Whether a document has a written form: every number in it is finite. -/
def isWritable : Json → Bool
  | .float x => x.isFinite
  | .arr items => areWritable items
  | .obj fields => fieldsAreWritable fields
  | _ => true

def areWritable : List Json → Bool
  | [] => true
  | v :: rest => isWritable v && areWritable rest

def fieldsAreWritable : List (String × Json) → Bool
  | [] => true
  | (_, v) :: rest => isWritable v && fieldsAreWritable rest

end

/-- The document of an answer's content: nothing when there is none or it is no document. -/
def decodeBody (content : String) : Json :=
  ((Json.sentText? content.toList).bind fun text => (Json.parseList text).toOption).getD .null

/-- Whether a status says that all went well. -/
def isOk (status : Int) : Bool := decide (200 ≤ status ∧ status < 300)

end ConsentBanner.Transport
