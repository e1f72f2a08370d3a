import ConsentBanner.Json.Basic
import ConsentBanner.Text.Blank
import ConsentBanner.Text.Search

/-!
Absolute addresses of images, for banners that run on other sites, and image references inside finished markup:
sources of image tags and background images of styles.
-/

namespace ConsentBanner.Asset

def isAbsolute (url : String) : Bool :=
  ["http://", "https://", "data:"].any fun start => Text.startsWith start url

/-- The public path of an image that the editor serves directly. -/
def publicPath (url : String) : String :=
  if Text.startsWith "/direct-image/" url then
    match Text.split '/' url with
    | _ :: _ :: banner :: file :: _ =>
      "/templates/images/" ++ banner ++ "/" ++ (Text.splitOnce '?' file).1
    | _ => url
  else url

/-- The absolute form of an image reference. -/
def absoluteUrl (url baseUrl : String) : String :=
  let base := Text.dropTrailingSlashes baseUrl
  if isAbsolute url then url
  else if Text.startsWith "/" url then base ++ publicPath url
  else base ++ "/" ++ url

/-- Equality of a lower case letter and a character but for case, with the letters of other alphabets
whose case forms are the same. -/
def matchesLetter (letter c : Char) : Bool :=
  c == letter || c.toLower == letter ||
    (letter == 'i' && (c == '\u0130' || c == '\u0131')) ||
    (letter == 'k' && c == '\u212a') || (letter == 's' && c == '\u017f')

/-- What follows a lower case pattern at the start of a text, whatever the case of the text. -/
def afterIgnoringCase? : (pattern text : List Char) → Option (List Char)
  | [], text => some text
  | _ :: _, [] => none
  | p :: pattern, c :: text =>
    if matchesLetter p c then afterIgnoringCase? pattern text else none

def isQuotationMark (c : Char) : Bool := c == '\x22' || c == '\x27'

/-- An address under one of the folders that hold stored images. -/
def isRooted (url : List Char) : Bool :=
  ["/templates", "/images", "/assets"].any fun folder =>
    match afterIgnoringCase? folder.toList url with
    | some rest => !rest.isEmpty
    | none => false

/-- An address relative to the page. -/
def isRelative (url : List Char) : Bool :=
  !url.isEmpty && ["/", "http:", "https:", "data:"].all fun start =>
    (afterIgnoringCase? start.toList url).isNone

/-- A quoted address after the source attribute: the address and the text after its closing mark. -/
def quotedAddress? (text : List Char) : Option (List Char × List Char) :=
  match afterIgnoringCase? "src=".toList text with
  | some (q :: rest) =>
    if isQuotationMark q then
      match rest.dropWhile (!isQuotationMark ·) with
      | _ :: after => some (rest.takeWhile (!isQuotationMark ·), after)
      | [] => none
    else none
  | _ => none

/-- An acceptable source attribute at the start of a text inside a tag: its address, the attributes after it,
and the text after the tag. -/
def sourceHere? (accept : List Char → Bool) (text : List Char) :
    Option (List Char × List Char × List Char) :=
  match quotedAddress? text with
  | some (url, after) =>
    if accept url then
      match after.dropWhile (· != '>') with
      | _ :: rest => some (url, after.takeWhile (· != '>'), rest)
      | [] => none
    else none
  | none => none

/-- The first acceptable source attribute inside a tag: the attributes before it, its address, those after
it, and the text after the tag. -/
def findSource? (accept : List Char → Bool) (text : List Char) :
    Option (List Char × List Char × List Char × List Char) :=
  match sourceHere? accept text, text with
  | some found, _ => some ([], found)
  | none, c :: rest =>
    if c == '>' then none
    else (findSource? accept rest).map fun (before, found) => (c :: before, found)
  | none, [] => none

/-- An image tag at the start of a text with an acceptable address: the tag with that address replaced and
the text after it. -/
def imageTag? (accept : List Char → Bool) (base text : List Char) :
    Option (List Char × List Char) :=
  match afterIgnoringCase? "<img".toList text with
  | some (c :: rest) =>
    if Text.isBlank c then
      (findSource? accept (rest.dropWhile Text.isBlank)).map fun (before, url, after, rest) =>
        ("<img ".toList ++ before ++ "src=\"".toList ++ base ++ url ++ '\x22' :: (after ++ ['>']), rest)
    else none
  | _ => none

def dropMark (p : Char → Bool) : List Char → List Char
  | c :: rest => if p c then rest else c :: rest
  | [] => []

/-- A background image at the start of a text with a rooted address. -/
def background? (base text : List Char) : Option (List Char × List Char) :=
  match afterIgnoringCase? "background-image:".toList text with
  | none => none
  | some rest =>
    match afterIgnoringCase? "url(".toList (rest.dropWhile Text.isBlank) with
    | none => none
    | some rest =>
      let inside (c : Char) : Bool := !isQuotationMark c && c != ')'
      let rest := dropMark isQuotationMark rest
      let url := rest.takeWhile inside
      match dropMark isQuotationMark (rest.dropWhile inside) with
      | ')' :: after =>
        if isRooted url then
          some ("background-image: url('".toList ++ base ++ url ++ "')".toList, after)
        else none
      | _ => none

/-- Replaces the stretches that `found?` recognises at their start, left to right; of a recognised stretch
`skip` characters are still to be dropped. -/
def replaceFrom (found? : List Char → Option (List Char × List Char)) :
    (skip : Nat) → List Char → List Char
  | _, [] => []
  | skip + 1, _ :: cs => replaceFrom found? skip cs
  | 0, c :: cs =>
    match found? (c :: cs) with
    | some (written, rest) => written ++ replaceFrom found? (cs.length - rest.length) cs
    | none => c :: replaceFrom found? 0 cs

/-- The markup with stored and relative images made absolute by what comes before their addresses. -/
def absoluteList (base markup : List Char) : List Char :=
  let markup := replaceFrom (imageTag? isRooted base) 0 markup
  let markup := replaceFrom (background? base) 0 markup
  replaceFrom (imageTag? isRelative (base ++ ['/'])) 0 markup

/-- The markup with stored and relative images made absolute. -/
def absoluteReferences (markup baseUrl : String) : String :=
  String.ofList (absoluteList (Text.dropTrailingSlashes baseUrl).toList markup.toList)

end ConsentBanner.Asset
