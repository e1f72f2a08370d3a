import ConsentBanner.Client.Api
import ConsentBanner.Client.Decision
import ConsentBanner.Client.Lifecycle
import ConsentBanner.Client.Rendering
import ConsentBanner.Client.Setup
import ConsentBanner.Script.Skeleton

/-!
The skeleton of the script that runs a banner in a page.
-/

namespace ConsentBanner.Client

open Script

/-- The variables of the script that a slot gives a value, with their slots. -/
def parameters : List (String × String) := [
  ("cmp", "cmp"),
  ("config", "config"),
  ("bannerId", "banner_id"),
  ("baseUrl", "base_url"),
  ("domainId", "domain_id"),
  ("components", "components"),
  ("bannerMarkup", "markup"),
  ("bannerStyles", "stylesheet"),
  ("layoutStyles", "layout_css"),
  ("preferencesMarkup", "panel")]

def parameterSegments : List Segment :=
  parameters.flatMap fun (name, slot) =>
    [.text ("  var " ++ name ++ " = ").toList, .slot slot, .text [';', '\n']]

/-- The script source from the variables to the place of the consent mode. -/
def bodySource : String := String.join [
  setup, stubSource, frameSource, storageSource, consentSource, regionSource, decisionSource,
  placementSource, controllerSource, dataSource, dispatchSource, modeSource, reportSource, bannerSource,
  preferencesSource, applySource, eventSource, insertSource, emergencySource, showSource, lifecycleSource,
  fallbackSource]

def segments : List Segment :=
  .text "\n(function () \x7b\n  'use strict';\n\n".toList ::
    (parameterSegments ++ [.text bodySource.toList, .slot "consent_mode", .text ("\n" ++ entrySource).toList])

/-- The skeleton; only the consent mode is script text. -/
def skeleton : Skeleton where
  segments := segments
  rawSlots := ["consent_mode"]
  raw_mem := by decide

end ConsentBanner.Client
