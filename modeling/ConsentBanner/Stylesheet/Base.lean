import ConsentBanner.Fault
import ConsentBanner.Stylesheet.Color
import ConsentBanner.Stylesheet.Rule
import ConsentBanner.Template.Basic
import ConsentBanner.Text.Blank

/-!
The rules that a theme gives: fonts, colours and the look of each kind of component. Why a stylesheet cannot be
written.
-/

namespace ConsentBanner.Stylesheet

/-- A rule whose values are all texts. -/
def textRule (selector : String) (declarations : List (String × String)) : String :=
  rule selector (declarations.map fun (property, v) => (property, .str v))

/-- The texts that are not empty, one a line. -/
def lines (texts : List String) : String := Text.join "\n" (texts.filter (!·.isEmpty))

/-- The primary font before the secondary one. -/
def fontFamily (f : ThemeFonts) : String :=
  let primary := Text.orDefault f.primary "sans-serif"
  match f.secondary with
  | some "" | none => primary
  | some secondary => primary ++ ", " ++ secondary

def controlRules (primary border : String) : List String := [
  textRule ".cmp-checkbox, .cmp-toggle" [
    ("display", "flex"), ("align-items", "center"), ("margin", "5px 0"), ("user-select", "none")],
  textRule ".cmp-checkbox input" [("margin-right", "8px")],
  textRule ".cmp-toggle" [("position", "relative"), ("padding-left", "50px")],
  textRule ".cmp-toggle input" [("opacity", "0"), ("width", "0"), ("height", "0"), ("position", "absolute")],
  textRule ".cmp-toggle-slider" [
    ("position", "absolute"), ("left", "0"), ("top", "0"), ("width", "40px"), ("height", "20px"),
    ("background-color", border), ("border-radius", "34px"), ("transition", ".3s")],
  textRule ".cmp-toggle-slider:before" [
    ("content", "\"\""), ("position", "absolute"), ("height", "16px"), ("width", "16px"), ("left", "2px"),
    ("bottom", "2px"), ("background-color", "white"), ("border-radius", "50%"), ("transition", ".3s")],
  textRule ".cmp-toggle input:checked + .cmp-toggle-slider" [("background-color", primary)],
  textRule ".cmp-toggle input:checked + .cmp-toggle-slider:before" [("transform", "translateX(20px)")]]

def containerRules (border : String) : List String := [
  textRule ".cmp-container" [
    ("position", "relative"), ("min-height", "40px"), ("overflow", "visible"), ("width", "100%")],
  textRule ".cmp-container--flex" [("display", "flex"), ("flex-wrap", "wrap"), ("gap", "10px")],
  textRule ".cmp-container--grid" [
    ("display", "grid"), ("grid-template-columns", "repeat(auto-fit, minmax(100px, 1fr))"), ("gap", "10px")],
  textRule ".cmp-container--libre > *" [("position", "absolute")],
  textRule ".cmp-container--flex > *, .cmp-container--grid > *" [("position", "relative")],
  textRule ".cmp-panel" [
    ("border", "1px solid " ++ border), ("border-radius", "4px"), ("overflow", "hidden"), ("margin", "5px 0")],
  textRule ".cmp-panel-header" [
    ("padding", "10px 15px"), ("border-bottom", "1px solid " ++ border), ("font-weight", "bold")],
  textRule ".cmp-panel-body" [("padding", "15px")],
  textRule ".cmp-image img, .cmp-logo img" [("max-width", "100%"), ("height", "auto")]]

/-- The rules of a theme. -/
def base (theme : Theme) : String :=
  let primary := Text.orDefault theme.colors.primary "#4CAF50"
  let border := Text.orDefault theme.colors.border "#cccccc"
  lines ([
    textRule ".cmp-banner" [
      ("font-family", fontFamily theme.fonts), ("font-size", "14px"),
      ("color", Text.orDefault theme.colors.text "#000000"),
      ("background-color", Text.orDefault theme.colors.background "#ffffff"),
      ("display", "flex"), ("flex-wrap", "wrap"), ("padding", "15px"), ("box-sizing", "border-box"),
      ("z-index", "2147483647"), ("pointer-events", "auto"), ("overscroll-behavior", "contain")],
    textRule ".cmp-banner *" [("box-sizing", "border-box")],
    textRule ".cmp-button" [
      ("background-color", primary), ("color", "#ffffff"), ("border", "none"), ("padding", "10px 20px"),
      ("border-radius", "4px"), ("cursor", "pointer"), ("font-size", "14px"),
      ("transition", "background-color 0.2s"), ("text-align", "center")],
    textRule ".cmp-button:hover" [("background-color", adjustColor primary (-20))],
    textRule ".cmp-link" [
      ("color", primary), ("text-decoration", "underline"), ("cursor", "pointer"), ("font-size", "14px")],
    textRule ".cmp-link:hover" [("color", adjustColor primary (-20))]]
    ++ controlRules primary border ++ containerRules border)

inductive Failure where
  | endlessDuration
  | undefinedDuration
  /-- A length beyond all floating point numbers. -/
  | hugeLength
deriving DecidableEq, Repr

namespace Failure

def message : Failure → String
  | endlessDuration => "cannot convert float infinity to integer"
  | undefinedDuration => "cannot convert float NaN to integer"
  | hugeLength => "int too large to convert to float"

def fault : Failure → Fault
  | endlessDuration => .overflow
  | undefinedDuration => .badValue
  | hugeLength => .overflow

end Failure

end ConsentBanner.Stylesheet
