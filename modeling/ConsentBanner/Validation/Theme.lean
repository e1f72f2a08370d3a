import ConsentBanner.Json.Members
import ConsentBanner.Text.Blank
import ConsentBanner.Text.Integer
import ConsentBanner.Validation.Component

/-!
Checks of the theme and the settings of a raw template. The colours that a theme may name are three or six hexadecimal
digits, the functions `rgb` and `rgba`, and words.
-/

namespace ConsentBanner.Validation

/-- White space, then one to three digits, then white space: the text after them. -/
def afterChannel? (cs : List Char) : Option (List Char) :=
  let cs := cs.dropWhile Text.isBlank
  let digits := cs.takeWhile Text.isDecimalDigit
  if 1 ≤ digits.length ∧ digits.length ≤ 3 then
    some ((cs.dropWhile Text.isDecimalDigit).dropWhile Text.isBlank)
  else none

/-- Three channels with commas between them: the text after them. -/
def afterChannels? (cs : List Char) : Option (List Char) :=
  match afterChannel? cs with
  | some (',' :: cs) =>
    match afterChannel? cs with
    | some (',' :: cs) => afterChannel? cs
    | _ => none
  | _ => none

/-- Zero, one, or a fraction. -/
def isAlpha (cs : List Char) : Bool :=
  match cs with
  | ['0'] | ['1'] => true
  | '0' :: '.' :: digits | '.' :: digits => !digits.isEmpty && digits.all Text.isDecimalDigit
  | _ => false

/-- An alpha value within white space and the closing parenthesis. -/
def isAlphaEnd (cs : List Char) : Bool :=
  match cs.reverse with
  | ')' :: rest => isAlpha (Text.trimList rest.reverse)
  | _ => false

def isColorText (cs : List Char) : Bool :=
  match cs with
  | '#' :: digits => (digits.length == 3 || digits.length == 6) && digits.all Text.isHexDigit
  | 'r' :: 'g' :: 'b' :: '(' :: rest => afterChannels? rest == some [')']
  | 'r' :: 'g' :: 'b' :: 'a' :: '(' :: rest =>
    match afterChannels? rest with
    | some (',' :: rest) => isAlphaEnd rest
    | _ => false
  | cs => !cs.isEmpty && cs.all Char.isAlpha

/-- The text without one line feed at its end. -/
def dropFinalNewline (cs : List Char) : List Char :=
  match cs.reverse with
  | '\n' :: rest => rest.reverse
  | _ => cs

/-- Whether a text names a colour; a final line feed is let through. -/
def isColor (s : String) : Bool := isColorText (dropFinalNewline s.toList)

def checkColor (field : String × Json) : List Complaint :=
  let name := (Json.keyOf field).display
  match field.2.bare with
  | .str s => if s.isEmpty || isColor s then [] else [.color name (.str s)]
  | v => if v.isSet then [.color name v] else []

/-- A theme with fonts has a primary one. -/
def lacksPrimaryFont : Json → Bool
  | .null => false
  | .obj fonts => fonts.any (·.2.isSet) && !((Fields.get? "primary" fonts).getD .null).isSet
  | _ => true

def checkTheme : Json → List Complaint
  | .null => []
  | .obj theme =>
    (match Fields.get? "colors" theme with
      | some (.obj colors) => colors.flatMap checkColor
      | _ => []) ++
    (if lacksPrimaryFont ((Fields.get? "fonts" theme).getD .null) then [.noPrimaryFont] else [])
  | _ => [.themeNotObject]

/-- A number that is not below zero. -/
def isDuration (v : Json) : Bool :=
  match Number.ofJson? v with
  | some x => !x.isNegative
  | none => false

def checkAnimation : Json → Except Fault (List Complaint)
  | .null => .ok []
  | .obj animation => do
    let known ← isNameOf AnimationKind ((Fields.get? "type" animation).getD .null)
    return (if known then [] else [.animationKind]) ++
      (if isDuration ((Fields.get? "duration" animation).getD .null) then [] else [.animationDuration])
  | _ => .ok [.animationKind, .animationDuration]

/-- A policy has a switch and a time. -/
def checkPolicy (policy key : String) : Json → List Complaint
  | .null => []
  | v =>
    (match v.getD "enabled" with
      | .bool _ => []
      | _ => [.policySwitch policy]) ++
    (if isDuration (v.getD key) then [] else [.policyTime policy key])

def checkSettings : Json → Except Fault (List Complaint)
  | .null => .ok []
  | .obj settings => do
    let animation ← checkAnimation ((Fields.get? "animation" settings).getD .null)
    let behaviour :=
      match Fields.get? "behaviour" settings with
      | some (.obj policies) =>
        checkPolicy "autoHide" "delay" ((Fields.get? "autoHide" policies).getD .null) ++
          checkPolicy "reshow" "interval" ((Fields.get? "reshow" policies).getD .null)
      | _ => []
    return animation ++ behaviour
  | _ => .ok [.settingsNotObject]

end ConsentBanner.Validation
