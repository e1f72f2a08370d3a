import ConsentBanner.Json.Display
import ConsentBanner.Markup.Collapse
import ConsentBanner.Markup.Node
import ConsentBanner.Panel.Caption
import ConsentBanner.Template.Basic
import ConsentBanner.Text.Blank

/-!
The preferences panel: tabs for categories, vendors and purposes, and the buttons that decide.
-/

namespace ConsentBanner.Panel

open Markup

/-- The colours of a panel. -/
structure Palette where
  primary : String := "#0078d7"
  secondary : String := "#f0f0f0"
  text : String := "#333333"
  background : String := "#ffffff"
deriving DecidableEq, Repr

/-- The colours of a theme over the default ones. -/
def Palette.ofColors (c : ThemeColors) : Palette :=
  let p : Palette := {}
  { primary := Text.orDefault c.primary p.primary, secondary := Text.orDefault c.secondary p.secondary
    text := Text.orDefault c.text p.text, background := Text.orDefault c.background p.background }

/-- What a panel shows. -/
structure Content where
  palette : Palette
  captions : List (Caption × Json)

namespace Content

def caption (p : Content) (c : Caption) : String :=
  match p.captions.find? (·.1 == c) with
  | some (_, v) => v.display
  | none => c.default

def headerNode (p : Content) : Node :=
  element "div" [("class", "cmp-preferences-header"),
    ("style", "display:flex;justify-content:space-between;align-items:center;padding:20px 24px;" ++
      "border-bottom:1px solid " ++ p.palette.secondary ++ ";")] [
    element "h2" [("id", "cmp-preferences-title"), ("style", "margin:0;font-size:22px;")]
      [.text (p.caption .title)],
    element "button" [("type", "button"), ("class", "cmp-close-preferences"), ("data-cmp-action", "close"),
      ("aria-label", p.caption .close),
      ("style", "background:none;border:none;cursor:pointer;font-size:26px;color:" ++ p.palette.text ++ ";")]
      [.reference "times"]]

def tabNode (p : Content) (active : Bool) (id : String) (c : Caption) : Node :=
  let (line, color) :=
    if active then (p.palette.primary, p.palette.primary) else ("transparent", p.palette.text)
  element "button" [("type", "button"), ("role", "tab"),
    ("class", if active then "cmp-pref-tab cmp-pref-tab--active" else "cmp-pref-tab"), ("data-tab", id),
    ("aria-selected", if active then "true" else "false"),
    ("style", "flex:1;padding:14px;background:none;border:none;cursor:pointer;border-bottom:3px solid " ++
      line ++ ";color:" ++ color ++ ";")]
    [.text (p.caption c)]

def tabsNode (p : Content) : Node :=
  element "div" [("class", "cmp-preferences-tabs"), ("role", "tablist"),
    ("style", "display:flex;border-bottom:1px solid " ++ p.palette.secondary ++ ";")] [
    p.tabNode true "general" .tabGeneral,
    p.tabNode false "vendors" .tabVendors,
    p.tabNode false "purposes" .tabPurposes]

/-- The switch of a category, fixed for the necessary one. -/
def switchNode (p : Content) (c : Category) : Node :=
  let locked := c == .necessary
  element "label" [("class", "cmp-switch"),
    ("style", "position:relative;display:inline-block;width:48px;height:24px;")] [
    .empty false "input" (
      valued [("type", "checkbox"), ("data-category", Named.name c),
        ("data-purposes", Text.join "," (c.purposes.map fun n => toString n))] ++
      (if locked then [.flag "checked", .flag "disabled"] else []) ++
      valued [("aria-label", p.caption (.category c)), ("style", "opacity:0;width:0;height:0;")]),
    element "span" [("class", "cmp-switch-slider"),
      ("style", "position:absolute;top:0;left:0;right:0;bottom:0;border-radius:24px;background-color:" ++
        (if locked then p.palette.primary else "#cccccc") ++ ";")] []]

def categoryNode (p : Content) (c : Category) : Node :=
  element "div" [("class", "cmp-pref-category"), ("data-category", Named.name c),
    ("style", "display:flex;justify-content:space-between;align-items:flex-start;padding:12px 0;" ++
      "border-top:1px solid " ++ p.palette.secondary ++ ";")] [
    element "div" [("style", "flex:1;margin-right:16px;")] [
      element "h3" [("style", "margin:0 0 6px 0;font-size:16px;")] [.text (p.caption (.category c))],
      element "p" [("style", "margin:0;font-size:13px;opacity:0.8;")]
        [.text (p.caption (.categoryDescription c))]],
    p.switchNode c]

def vendorNode (p : Content) (vendor : Int × String) : Node :=
  element "li" [
    ("style", "display:flex;justify-content:space-between;align-items:center;padding:8px 0;" ++
      "border-bottom:1px solid " ++ p.palette.secondary ++ ";")] [
    element "span" [] [.text vendor.2],
    .empty false "input" (valued [("type", "checkbox"), ("data-vendor", toString vendor.1),
      ("aria-label", vendor.2)])]

def purposeNode (p : Content) (purpose : Int × String) : Node :=
  element "li" [("data-purpose", toString purpose.1),
    ("style", "padding:8px 0;border-bottom:1px solid " ++ p.palette.secondary ++ ";")]
    [.text (toString purpose.1 ++ ". " ++ purpose.2)]

def tabPanel (id display : String) (children : List Node) : Node :=
  element "div" [("class", "cmp-pref-content"), ("data-content", id), ("role", "tabpanel"),
    ("style", "display:" ++ display ++ ";")] children

def listNode (name : String) (children : List Node) : Node :=
  element "ul" [("class", name), ("style", "list-style:none;margin:0;padding:0;")] children

def bodyNode (p : Content) : Node :=
  element "div" [("class", "cmp-preferences-body"), ("style", "flex:1;overflow-y:auto;padding:20px 24px;")] [
    tabPanel "general" "block" (
      element "p" [("style", "margin:0 0 16px 0;line-height:1.6;")] [.text (p.caption .description)] ::
      (Named.all : List Category).map p.categoryNode),
    tabPanel "vendors" "none" [listNode "cmp-vendor-list" (Vendor.known.map p.vendorNode)],
    tabPanel "purposes" "none" [listNode "cmp-purpose-list" (Purpose.known.map p.purposeNode)]]

def footerButton (action style label : String) : Node :=
  element "button" [("type", "button"), ("data-cmp-action", action), ("style", style)] [.text label]

def footerNode (p : Content) : Node :=
  let muted := "background-color:" ++ p.palette.secondary ++ ";color:" ++ p.palette.text ++ ";"
  let shape := "border-radius:6px;padding:10px 18px;cursor:pointer;"
  element "div" [("class", "cmp-preferences-footer"),
    ("style", "display:flex;justify-content:flex-end;gap:10px;padding:16px 24px;border-top:1px solid " ++
      p.palette.secondary ++ ";")] [
    footerButton "reject_all" (muted ++ "border:none;" ++ shape) (p.caption .rejectAll),
    footerButton "save_preferences" (muted ++ "border:1px solid " ++ p.palette.primary ++ ";" ++ shape)
      (p.caption .save),
    footerButton "accept_all"
      ("background-color:" ++ p.palette.primary ++ ";color:#ffffff;border:none;" ++ shape)
      (p.caption .acceptAll)]

def backdropStyle : String :=
  "display:none;position:fixed;top:0;left:0;width:100%;height:100%;background-color:rgba(0,0,0,0.5);" ++
  "z-index:2147483647;"

def node (p : Content) : Node :=
  element "div" [("id", "cmp-preferences"), ("class", "cmp-preferences"), ("role", "dialog"),
    ("aria-modal", "true"), ("aria-labelledby", "cmp-preferences-title"), ("style", backdropStyle)] [
    element "div" [("class", "cmp-preferences-container"),
      ("style", "position:absolute;top:50%;left:50%;transform:translate(-50%,-50%);width:90%;" ++
        "max-width:720px;max-height:90vh;overflow:hidden;display:flex;flex-direction:column;" ++
        "background-color:" ++ p.palette.background ++ ";color:" ++ p.palette.text ++
        ";border-radius:12px;box-shadow:0 10px 40px rgba(0,0,0,0.2);")]
      [p.headerNode, p.tabsNode, p.bodyNode, p.footerNode]]

end Content

def plainButton (action label : String) : Node :=
  element "button" [("type", "button"), ("data-cmp-action", action)] [.text label]

/-- The panel with three buttons that stands in where there is no other. -/
def fallbackNode : Node :=
  element "div" [("id", "cmp-preferences"), ("class", "cmp-preferences"), ("role", "dialog"),
    ("style", Content.backdropStyle)] [
    element "div" [
      ("style", "position:absolute;top:50%;left:50%;transform:translate(-50%,-50%);background:#ffffff;" ++
        "color:#333333;padding:24px;border-radius:8px;")] [
      element "p" [] [.text "Privacy preferences"],
      plainButton "reject_all" "Reject all", .text " ", plainButton "accept_all" "Accept all", .text " ",
      plainButton "close" "Close"]]

def fallback : String := fallbackNode.render

/-- The panel with the colours of a theme and texts for a language. -/
def ofTheme (colors : ThemeColors) (overrides : Json) (language : String) : Except Fault String := do
  let captions ← captions overrides language
  return collapse (Content.node ⟨Palette.ofColors colors, captions⟩).render

end ConsentBanner.Panel
