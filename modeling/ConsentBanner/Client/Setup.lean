/-!
Blocks of script source, and the source that names what the rest of it uses: constants, guards, and the wait for the
document.
-/

namespace ConsentBanner.Client

/-- The given lines, each with a line feed after it. -/
def block (lines : List String) : String := String.join (lines.map (· ++ "\n"))

def setup : String := block [
  "",
  "  var COOKIE_NAME = bannerId + '-consent';",
  "  var USER_ID_KEY = 'cmp_user_id';",
  "  var DAY_MS = 86400000;",
  "  var catalogue = cmp.catalogue;",
  "  var FALLBACK_CHAIN = \x7b",
  "    mobile: ['mobile', 'tablet', 'desktop'],",
  "    tablet: ['tablet', 'desktop'],",
  "    desktop: ['desktop']",
  "  \x7d;",
  "  var POSITION_KEYS = ['top', 'left', 'right', 'bottom'];",
  "  var ICON_MARKUP = '<svg viewBox=\"0 0 24 24\" aria-hidden=\"true\" focusable=\"false\">' +",
  "    '<circle cx=\"12\" cy=\"12\" r=\"10\" fill=\"currentColor\"/>' +",
  "    '<circle cx=\"8\" cy=\"9\" r=\"1.6\" fill=\"#ffffff\"/><circle cx=\"15\" cy=\"8\"" ++
    " r=\"1.2\" fill=\"#ffffff\"/>' +",
  "    '<circle cx=\"14\" cy=\"15\" r=\"1.8\" fill=\"#ffffff\"/><circle cx=\"8.5\" cy=\"15.5\"" ++
    " r=\"1.1\" fill=\"#ffffff\"/></svg>';",
  "",
  "  function warn(label, error) \x7b",
  "    if (window.console && console.warn) \x7b",
  "      console.warn('[cmp] ' + label + ' failed', error);",
  "    \x7d",
  "  \x7d",
  "",
  "  function guard(label, fn) \x7b",
  "    try \x7b",
  "      fn();",
  "      return true;",
  "    \x7d catch (e) \x7b",
  "      warn(label, e);",
  "      return false;",
  "    \x7d",
  "  \x7d",
  "",
  "  function onReady(fn) \x7b",
  "    if (document.readyState === 'loading') \x7b",
  "      document.addEventListener('DOMContentLoaded', fn, false);",
  "    \x7d else \x7b",
  "      fn();",
  "    \x7d",
  "  \x7d",
  ""]

/-- The script source that denies everything optional before the visitor decides. -/
def consentModeSource : String := block [
  "",
  "  window.dataLayer = window.dataLayer || [];",
  "  if (typeof window.gtag !== 'function') \x7b",
  "    window.gtag = function() \x7b window.dataLayer.push(arguments); \x7d;",
  "  \x7d",
  "  window.gtag('consent', 'default', \x7b",
  "    'ad_storage': 'denied',",
  "    'analytics_storage': 'denied',",
  "    'personalization_storage': 'denied',",
  "    'functionality_storage': 'granted',",
  "    'security_storage': 'granted',",
  "    'wait_for_update': 500",
  "  \x7d);"]

end ConsentBanner.Client
