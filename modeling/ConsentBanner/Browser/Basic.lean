import ConsentBanner.Json.Basic
import ConsentBanner.Json.Members
import ConsentBanner.Number.Basic
import ConsentBanner.Text.Blank
import ConsentBanner.Text.Case
import ConsentBanner.Text.Search
import ConsentBanner.Text.Utf8
import ConsentBanner.Time.Clock

/-!
What a page finds in its browser: cookies in their written form, with a jar that remembers every write, storage and a
clock.
-/

namespace ConsentBanner

/-- A jar of cookies. -/
structure CookieJar where
  /-- The values by name. -/
  cookies : List (String × String) := []
  /-- Every cookie that was written, the first one first. -/
  writes : List String := []
deriving DecidableEq, Repr

namespace CookieJar

def get? (j : CookieJar) (name : String) : Option String := Fields.get? name j.cookies

/-- The name and the value that a written cookie sets. -/
def pair (cookie : String) : String × String :=
  let (name, value) := Text.splitOnce '=' (Text.splitOnce ';' cookie).1
  (Text.trim name, value.getD "")

def set (j : CookieJar) (cookie : String) : CookieJar where
  cookies := Fields.set (pair cookie).1 (pair cookie).2 j.cookies
  writes := j.writes ++ [cookie]

/-- The attributes after the value of a written cookie with the given name. -/
def attributesOf? (name cookie : String) : Option (List (String × String)) :=
  match (Text.split ';' cookie).map Text.trim with
  | first :: rest =>
    if (Text.splitOnce '=' first).1 == name then
      some (Fields.ofPairs (rest.map fun part =>
        let (key, value) := Text.splitOnce '=' part
        (Text.lower key, value.getD "")))
    else none
  | [] => none

/-- The attributes of the last write of a cookie. -/
def attributes (j : CookieJar) (name : String) : List (String × String) :=
  (j.writes.reverse.findSome? (attributesOf? name)).getD []

end CookieJar

namespace Cookie

/-- A cookie for the whole site that expires after a number of days. -/
def format (name value : String) (days nowMs : Number) : Except Fault String := do
  let expiry ← (← Moment.ofMillis nowMs).addDays days
  return name ++ "=" ++ Text.percentEncode value ++ "; expires=" ++ expiry.cookieText ++
    "; path=/; SameSite=Lax"

/-- A cookie that has expired. -/
def expired (name : String) : String :=
  name ++ "=; expires=Thu, 01 Jan 1970 00:00:00 GMT; path=/; SameSite=Lax"

end Cookie

structure Browser where
  jar : CookieJar := {}
  storage : List (String × String) := []
  /-- Milliseconds since the start of 1970. -/
  now : Number := .int 1700000000000
  /-- The random characters that a new identifier takes. -/
  randomText : String := "0000000000000"
deriving DecidableEq, Repr

namespace Browser

def setCookie (b : Browser) (cookie : String) : Browser := { b with jar := b.jar.set cookie }

def setItem (b : Browser) (key value : String) : Browser :=
  { b with storage := Fields.set key value b.storage }

/-- The whole milliseconds of a number of seconds. A text is read after it was written a thousand times. -/
def millis : Json → Except Fault Int
  | .str s => (Json.str (String.join (List.replicate 1000 s))).integer
  | v =>
    match Number.ofScalar? v with
    | some seconds => seconds.thousandfold.json.integer
    | none => .error .wrongKind

/-- The clock set forward. -/
def advance (b : Browser) (seconds : Json) : Except Fault Browser := do
  return { b with now := ← b.now.plus (.int (← millis seconds)) }

end Browser

end ConsentBanner
