import ConsentBanner.Proofs.Generation.EndTag
import ConsentBanner.Proofs.Markup.Button

/-!
Stages that fail. A generation whose markup or stylesheet cannot be made has a fallback in its place; everything else is what
it is without the failure, and the script is made of the artifacts there are.
-/

namespace ConsentBanner.Generation

open Validation

/-- The usual stages, but that for the markup or the stylesheet fails where a message is given for it. -/
def Stages.failing (markup stylesheet : Option String) : Stages :=
  { Stages.standard with
    markup := fun language t => markup.elim (Stages.standard.markup language t) .error
    stylesheet := fun t => stylesheet.elim (Stages.standard.stylesheet t) .error }

/-- Artifacts of stages that may fail, beside those of the usual stages. -/
structure Contained (stages : Stages) (config : Configuration) (options : Options) (t : Template)
    (usual artifacts : Artifacts) : Prop where
  markup : artifacts.markup =
    match stages.markup options.language t with
    | .ok _ => usual.markup
    | .error _ => Markup.fallback t.layout.desktop
  stylesheet : artifacts.stylesheet =
    match stages.stylesheet t with
    | .ok _ => usual.stylesheet
    | .error _ => Stylesheet.fallback
  markupFallback : artifacts.markupFallback = true ↔ ∃ message, stages.markup options.language t = .error message
  stylesheetFallback : artifacts.stylesheetFallback = true ↔ ∃ message, stages.stylesheet t = .error message
  panel : artifacts.panel = usual.panel
  bannerId : artifacts.bannerId = usual.bannerId
  format : artifacts.format = usual.format
  script : ∃ filled, Client.skeleton.fill
      (slotValues (ClientConfig.ofTemplate t options config.identity artifacts.bannerId) t.components
        ⟨artifacts.markup, artifacts.stylesheet, Stylesheet.ofKind t.layout.desktop, artifacts.panel⟩) = .ok filled ∧
    artifacts.script = if options.minify then Script.compact filled else filled
  document : artifacts.document =
    if options.format = .document then some (scriptDocument artifacts.script artifacts.bannerId options.language) else none

variable {config : Configuration} {options : Options} {template : Json} {t : Template} {markup stylesheet : Option String}

theorem orFallback_flag {outcome : Except String String} {fallback : String} :
    (orFallback outcome fallback).2 = true ↔ ∃ message, outcome = .error message := by
  cases outcome with
  | ok s => simp [orFallback]
  | error message => simp [orFallback]

/-- The markup stays as it is where its addresses are made absolute if it is the fallback. -/
theorem markupPart_failing : (markupPart (.failing markup stylesheet) options t).1 =
    match (Stages.failing markup stylesheet).markup options.language t with
    | .ok _ => (markupPart .standard options t).1
    | .error _ => Markup.fallback t.layout.desktop := by
  cases markup with
  | none => rfl
  | some message => exact Markup.absoluteReferences_fallback t.layout.desktop options.baseUrl

theorem stylesheetPart_failing : (stylesheetPart (.failing markup stylesheet) t).1 =
    match (Stages.failing markup stylesheet).stylesheet t with
    | .ok _ => (stylesheetPart .standard t).1
    | .error _ => Stylesheet.fallback := by
  cases stylesheet with
  | none =>
    change (orFallback (Stages.standard.stylesheet t) Stylesheet.fallback).1 =
      match Stages.standard.stylesheet t with
      | .ok _ => (orFallback (Stages.standard.stylesheet t) Stylesheet.fallback).1
      | .error _ => Stylesheet.fallback
    cases Stages.standard.stylesheet t with
    | ok s => rfl
    | error message => rfl
  | some message => rfl

theorem scriptPart_failing (options : Options) (identity : Identity) (t : Template) (parts : Parts) :
    ∃ filled, Client.skeleton.fill
        (slotValues (ClientConfig.ofTemplate t options identity (bannerId options t)) t.components parts) = .ok filled ∧
      scriptPart (.failing markup stylesheet) options identity t parts =
        .ok (if options.minify then Script.compact filled else filled) := by
  refine ⟨_, fill_slotValues _ _ _, ?_⟩
  rw [scriptPart]
  simp only [Stages.failing, Stages.standard, fill_slotValues, mapError_ok]
  rfl

theorem generate_of_scriptPart {stages : Stages} {script : String} (h : prepare config.limits options template = .ok t)
    (hscript : scriptPart stages options config.identity t ⟨(markupPart stages options t).1, (stylesheetPart stages t).1,
      Stylesheet.ofKind t.layout.desktop, panelPart stages options t⟩ = .ok script) :
    ∃ artifacts, generate stages config options template = .ok artifacts ∧
      artifacts.markup = (markupPart stages options t).1 ∧ artifacts.markupFallback = (markupPart stages options t).2 ∧
      artifacts.stylesheet = (stylesheetPart stages t).1 ∧
      artifacts.stylesheetFallback = (stylesheetPart stages t).2 ∧
      artifacts.panel = panelPart stages options t ∧ artifacts.bannerId = bannerId options t ∧
      artifacts.format = options.format ∧ artifacts.script = script ∧
      artifacts.document =
        if options.format = .document then some (scriptDocument script (bannerId options t) options.language) else none := by
  have hgenerate : generate stages config options template = .ok _ :=
    bind_eq_ok.2 ⟨t, h, bind_eq_ok.2 ⟨script, hscript, rfl⟩⟩
  exact ⟨_, hgenerate, rfl, rfl, rfl, rfl, rfl, rfl, rfl, rfl, rfl⟩

end ConsentBanner.Generation
