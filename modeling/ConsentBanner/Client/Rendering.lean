import ConsentBanner.Client.Setup

/-!
The script source that places components on the device at hand, puts the banner into the page, and shows and hides it
with the floating button and the preferences.
-/

namespace ConsentBanner.Client

def placementSource : String := block [
  "  function deviceType() \x7b",
  "    var width = window.innerWidth || document.documentElement.clientWidth || 1280;",
  "    if (width <= cmp.breakpoints.mobile) \x7b",
  "      return 'mobile';",
  "    \x7d",
  "    if (width <= cmp.breakpoints.tablet) \x7b",
  "      return 'tablet';",
  "    \x7d",
  "    return 'desktop';",
  "  \x7d",
  "",
  "  function pickForDevice(byDevice, device) \x7b",
  "    if (!byDevice) \x7b",
  "      return null;",
  "    \x7d",
  "    var chain = FALLBACK_CHAIN[device] || FALLBACK_CHAIN.desktop;",
  "    for (var i = 0; i < chain.length; i++) \x7b",
  "      var candidate = byDevice[chain[i]];",
  "      if (candidate && typeof candidate === 'object') \x7b",
  "        for (var key in candidate) \x7b",
  "          if (candidate.hasOwnProperty(key)) \x7b",
  "            return candidate;",
  "          \x7d",
  "        \x7d",
  "      \x7d",
  "    \x7d",
  "    return null;",
  "  \x7d",
  "",
  "  function selectorFor(id) \x7b",
  "    var value = String(id);",
  "    if (window.CSS && CSS.escape) \x7b",
  "      value = CSS.escape(value);",
  "    \x7d else \x7b",
  "      value = value.split('\"').join('\\\\\"');",
  "    \x7d",
  "    return '[data-component-id=\"' + value + '\"]';",
  "  \x7d",
  "",
  "  function applyStyles(element, styles) \x7b",
  "    for (var property in styles) \x7b",
  "      if (!styles.hasOwnProperty(property)) \x7b",
  "        continue;",
  "      \x7d",
  "      var value = styles[property];",
  "      if (typeof value === 'string' || typeof value === 'number') \x7b",
  "        element.style[property] = value;",
  "      \x7d",
  "    \x7d",
  "  \x7d",
  "",
  "  function applyPlacements() \x7b",
  "    var device = deviceType();",
  "    var stack = components.slice();",
  "    while (stack.length) \x7b",
  "      var component = stack.pop();",
  "      var element = document.querySelector(selectorFor(component.id));",
  "      if (element) \x7b",
  "        var position = pickForDevice(component.position, device);",
  "        if (position) \x7b",
  "          for (var i = 0; i < POSITION_KEYS.length; i++) \x7b",
  "            if (position[POSITION_KEYS[i]] !== undefined) \x7b",
  "              element.style[POSITION_KEYS[i]] = position[POSITION_KEYS[i]];",
  "            \x7d",
  "          \x7d",
  "        \x7d",
  "        var styles = pickForDevice(component.style, device);",
  "        if (styles) \x7b",
  "          applyStyles(element, styles);",
  "        \x7d",
  "      \x7d",
  "      var children = component.children || [];",
  "      for (var j = 0; j < children.length; j++) \x7b",
  "        stack.push(children[j]);",
  "      \x7d",
  "    \x7d",
  "  \x7d",
  ""]

def insertSource : String := block [
  "    function injectStyles() \x7b",
  "      if (document.getElementById(bannerId + '-styles')) \x7b",
  "        return;",
  "      \x7d",
  "      var style = document.createElement('style');",
  "      style.id = bannerId + '-styles';",
  "      style.textContent = bannerStyles + '\\n' + layoutStyles;",
  "      (document.head || document.documentElement).appendChild(style);",
  "    \x7d",
  "",
  "    function renderBanner() \x7b",
  "      var holder = document.createElement('div');",
  "      holder.innerHTML = bannerMarkup;",
  "      var root = holder.firstElementChild;",
  "      if (!root) \x7b",
  "        throw new Error('banner markup is empty');",
  "      \x7d",
  "      document.body.appendChild(root);",
  "      if (config.useOverlay && root.id !== 'cmp-modal-container') \x7b",
  "        var overlay = document.createElement('div');",
  "        overlay.id = bannerId + '-overlay';",
  "        overlay.style.cssText =" ++
    " 'position:fixed;top:0;left:0;width:100%;height:100%;background:rgba(0,0,0,0.5);z-index:2147483645;';",
  "        document.body.appendChild(overlay);",
  "      \x7d",
  "    \x7d",
  "",
  "    function renderPreferences() \x7b",
  "      if (document.getElementById('cmp-preferences')) \x7b",
  "        return;",
  "      \x7d",
  "      var holder = document.createElement('div');",
  "      holder.innerHTML = preferencesMarkup;",
  "      if (holder.firstElementChild) \x7b",
  "        document.body.appendChild(holder.firstElementChild);",
  "      \x7d",
  "    \x7d",
  "",
  "    function bindEvents() \x7b",
  "      if (runtime.bound) \x7b",
  "        return;",
  "      \x7d",
  "      document.addEventListener('click', onClick, false);",
  "      window.addEventListener('resize', onResize, false);",
  "      runtime.bound = true;",
  "    \x7d",
  "",
  "    function removeBanner() \x7b",
  "      var existing = document.getElementById('cmp-modal-container') ||" ++
    " document.getElementById('cmp-banner');",
  "      if (existing && existing.parentNode) \x7b",
  "        existing.parentNode.removeChild(existing);",
  "      \x7d",
  "    \x7d",
  ""]

def emergencySource : String := block [
  "    function createEmergencyBanner() \x7b",
  "      removeBanner();",
  "      var banner = document.createElement('div');",
  "      banner.id = 'cmp-banner';",
  "      banner.className = 'cmp-banner cmp-banner--emergency';",
  "      banner.setAttribute('role', 'dialog');",
  "      banner.style.cssText =" ++
    " 'position:fixed;bottom:0;left:0;right:0;background:#ffffff;color:#000000;padding:15px;' +",
  "        'z-index:2147483647;box-shadow:0 -2px 10px" ++
    " rgba(0,0,0,0.1);display:flex;justify-content:space-between;align-items:center;';",
  "      banner.innerHTML = '<div><p style=\"margin:0\">This site uses cookies to improve your" ++
    " experience.</p></div>' +",
  "        '<div style=\"display:flex;gap:10px\">' +",
  "        '<button type=\"button\" data-cmp-action=\"reject_all\"" ++
    " style=\"background:#f44336;color:white;border:none;padding:8px" ++
    " 15px;cursor:pointer;border-radius:4px;\">Reject</button>' +",
  "        '<button type=\"button\" data-cmp-action=\"accept_all\"" ++
    " style=\"background:#4CAF50;color:white;border:none;padding:8px" ++
    " 15px;cursor:pointer;border-radius:4px;\">Accept</button>' +",
  "        '</div>';",
  "      document.body.appendChild(banner);",
  "      var buttons = banner.getElementsByTagName('button');",
  "      for (var i = 0; i < buttons.length; i++) \x7b",
  "        buttons[i].onclick = function (event) \x7b",
  "          event.preventDefault();",
  "          event.stopPropagation();",
  "          handleAction(this.getAttribute('data-cmp-action'));",
  "        \x7d;",
  "      \x7d",
  "      runtime.shownAt = Date.now();",
  "      enter('banner_visible');",
  "    \x7d",
  ""]

def bannerSource : String := block [
  "    function hideBanner() \x7b",
  "      var container = document.getElementById('cmp-modal-container');",
  "      var banner = document.getElementById('cmp-banner');",
  "      var overlay = document.getElementById(bannerId + '-overlay');",
  "      if (banner) \x7b",
  "        banner.className += ' cmp-banner--hiding';",
  "      \x7d",
  "      if (runtime.hideTimer) \x7b",
  "        clearTimeout(runtime.hideTimer);",
  "      \x7d",
  "      runtime.hideTimer = setTimeout(function () \x7b",
  "        runtime.hideTimer = null;",
  "        var nodes = [container || banner, overlay];",
  "        for (var i = 0; i < nodes.length; i++) \x7b",
  "          if (nodes[i] && nodes[i].parentNode) \x7b",
  "            nodes[i].parentNode.removeChild(nodes[i]);",
  "          \x7d",
  "        \x7d",
  "      \x7d, config.animation.duration);",
  "      hidePreferences();",
  "      enter('hidden');",
  "      guard('floating icon', showFloatingIcon);",
  "    \x7d",
  "",
  "    function showFloatingIcon() \x7b",
  "      if (!config.floatingIcon.enabled || !document.body) \x7b",
  "        return;",
  "      \x7d",
  "      var icon = document.getElementById('cmp-floating-icon');",
  "      if (!icon) \x7b",
  "        icon = document.createElement('button');",
  "        icon.id = 'cmp-floating-icon';",
  "        icon.type = 'button';",
  "        icon.setAttribute('aria-label', 'Cookie settings');",
  "        icon.setAttribute('title', 'Cookie settings');",
  "        icon.setAttribute('data-position', config.floatingIcon.position);",
  "        icon.innerHTML = ICON_MARKUP;",
  "        icon.onclick = function (event) \x7b",
  "          event.preventDefault();",
  "          handleAction('show_preferences');",
  "        \x7d;",
  "        document.body.appendChild(icon);",
  "      \x7d",
  "      icon.style.display = '';",
  "    \x7d",
  "",
  "    function hideFloatingIcon() \x7b",
  "      var icon = document.getElementById('cmp-floating-icon');",
  "      if (icon) \x7b",
  "        icon.style.display = 'none';",
  "      \x7d",
  "    \x7d",
  ""]

def preferencesSource : String := block [
  "    function showPreferences() \x7b",
  "      var panel = document.getElementById('cmp-preferences');",
  "      if (!panel) \x7b",
  "        guard('preferences markup', renderPreferences);",
  "        panel = document.getElementById('cmp-preferences');",
  "      \x7d",
  "      if (!panel) \x7b",
  "        return;",
  "      \x7d",
  "      var categories = toCategories((runtime.consent || buildConsent(false)).purposes);",
  "      var inputs = panel.querySelectorAll('input[data-category]');",
  "      for (var i = 0; i < inputs.length; i++) \x7b",
  "        var category = inputs[i].getAttribute('data-category');",
  "        inputs[i].checked = category === 'necessary' || !!categories[category];",
  "      \x7d",
  "      var vendors = (runtime.consent && runtime.consent.vendors) || \x7b\x7d;",
  "      var vendorInputs = panel.querySelectorAll('input[data-vendor]');",
  "      for (var j = 0; j < vendorInputs.length; j++) \x7b",
  "        vendorInputs[j].checked = !!vendors[vendorInputs[j].getAttribute('data-vendor')];",
  "      \x7d",
  "      panel.style.display = 'block';",
  "      runtime.preferencesOpen = true;",
  "    \x7d",
  "",
  "    function hidePreferences() \x7b",
  "      var panel = document.getElementById('cmp-preferences');",
  "      if (panel) \x7b",
  "        panel.style.display = 'none';",
  "      \x7d",
  "      runtime.preferencesOpen = false;",
  "    \x7d",
  "",
  "    function selectTab(name) \x7b",
  "      var tabs = document.querySelectorAll('#cmp-preferences [data-tab]');",
  "      for (var i = 0; i < tabs.length; i++) \x7b",
  "        var active = tabs[i].getAttribute('data-tab') === name;",
  "        tabs[i].setAttribute('aria-selected', active ? 'true' : 'false');",
  "      \x7d",
  "      var panes = document.querySelectorAll('#cmp-preferences [data-content]');",
  "      for (var j = 0; j < panes.length; j++) \x7b",
  "        panes[j].style.display = panes[j].getAttribute('data-content') === name ? 'block' : 'none';",
  "      \x7d",
  "    \x7d",
  ""]

end ConsentBanner.Client
