import ConsentBanner.Client.Setup

/-!
The script source of what a browser keeps, of what applies to a visitor, of decisions as they are sent and of what
follows them: consent mode, blocked scripts and reports.
-/

namespace ConsentBanner.Client

def storageSource : String := block [
  "  // Browser storage",
  "  function readCookie(name) \x7b",
  "    var parts = document.cookie ? document.cookie.split(';') : [];",
  "    for (var i = 0; i < parts.length; i++) \x7b",
  "      var pair = parts[i].trim();",
  "      var eq = pair.indexOf('=');",
  "      if (eq > 0 && pair.substring(0, eq) === name) \x7b",
  "        try \x7b",
  "          return decodeURIComponent(pair.substring(eq + 1));",
  "        \x7d catch (e) \x7b",
  "          return null;",
  "        \x7d",
  "      \x7d",
  "    \x7d",
  "    return null;",
  "  \x7d",
  "",
  "  function writeCookie(name, value, days) \x7b",
  "    var expires = new Date(Date.now() + days * DAY_MS).toUTCString();",
  "    document.cookie = name + '=' + encodeURIComponent(value) +",
  "      '; expires=' + expires + '; path=/; SameSite=Lax';",
  "  \x7d",
  "",
  "  function storageGet(key) \x7b",
  "    try \x7b",
  "      return window.localStorage ? window.localStorage.getItem(key) : null;",
  "    \x7d catch (e) \x7b",
  "      return null;",
  "    \x7d",
  "  \x7d",
  "",
  "  function storageSet(key, value) \x7b",
  "    try \x7b",
  "      if (window.localStorage) \x7b",
  "        window.localStorage.setItem(key, value);",
  "      \x7d",
  "    \x7d catch (e) \x7b",
  "      warn('localStorage', e);",
  "    \x7d",
  "  \x7d",
  "",
  "  function getUserId() \x7b",
  "    var userId = readCookie(USER_ID_KEY) || storageGet(USER_ID_KEY);",
  "    if (!userId) \x7b",
  "      userId = 'user_' + Date.now() + '_' + Math.random().toString(36).substring(2, 15);",
  "    \x7d",
  "    writeCookie(USER_ID_KEY, userId, 365);",
  "    storageSet(USER_ID_KEY, userId);",
  "    return userId;",
  "  \x7d",
  ""]

/-- Reading, writing and expiry of the stored consent. -/
def consentSource : String := block [
  "  function loadConsent() \x7b",
  "    var raw = readCookie(COOKIE_NAME);",
  "    if (!raw) \x7b",
  "      return null;",
  "    \x7d",
  "    try \x7b",
  "      var parsed = JSON.parse(raw);",
  "      if (!parsed || typeof parsed !== 'object') \x7b",
  "        return null;",
  "      \x7d",
  "      parsed.purposes = parsed.purposes || \x7b\x7d;",
  "      parsed.purposes['1'] = true;",
  "      parsed.vendors = parsed.vendors || \x7b\x7d;",
  "      parsed.specialFeatures = parsed.specialFeatures || \x7b\x7d;",
  "      return parsed;",
  "    \x7d catch (e) \x7b",
  "      warn('consent cookie parse', e);",
  "      return null;",
  "    \x7d",
  "  \x7d",
  "",
  "  function persistConsent(consent) \x7b",
  "    var encoded = JSON.stringify(consent);",
  "    writeCookie(COOKIE_NAME, encoded, config.cookieExpiry);",
  "    storageSet(COOKIE_NAME, encoded);",
  "  \x7d",
  "",
  "  function shouldShowBanner(stored) \x7b",
  "    if (!stored || !stored.lastUpdated) \x7b",
  "      return true;",
  "    \x7d",
  "    if (!config.reshow.enabled) \x7b",
  "      return false;",
  "    \x7d",
  "    if (config.reshow.interval > 0) \x7b",
  "      var last = new Date(stored.lastUpdated).getTime();",
  "      if (isNaN(last)) \x7b",
  "        return true;",
  "      \x7d",
  "      if (Date.now() - last < config.reshow.interval * 1000) \x7b",
  "        return false;",
  "      \x7d",
  "    \x7d",
  "    return true;",
  "  \x7d",
  ""]

def regionSource : String := block [
  "  function detectGdpr() \x7b",
  "    if (config.forceGDPR) \x7b",
  "      return true;",
  "    \x7d",
  "    if (navigator.globalPrivacyControl) \x7b",
  "      return true;",
  "    \x7d",
  "    try \x7b",
  "      var zone = Intl.DateTimeFormat().resolvedOptions().timeZone || '';",
  "      for (var i = 0; i < cmp.gdpr.timezonePrefixes.length; i++) \x7b",
  "        if (zone.indexOf(cmp.gdpr.timezonePrefixes[i]) === 0) \x7b",
  "          return true;",
  "        \x7d",
  "      \x7d",
  "      var languages = navigator.languages || [navigator.language];",
  "      for (var j = 0; j < languages.length; j++) \x7b",
  "        var code = String(languages[j] || '').split('-')[0].toLowerCase();",
  "        if (cmp.gdpr.languages.indexOf(code) !== -1) \x7b",
  "          return true;",
  "        \x7d",
  "      \x7d",
  "    \x7d catch (e) \x7b",
  "      warn('gdpr detection', e);",
  "    \x7d",
  "    return true;",
  "  \x7d",
  ""]

def decisionSource : String := block [
  "  // Consent representation: numeric ids as string keys",
  "  function buildConsent(allowAll) \x7b",
  "    var consent = \x7b purposes: \x7b\x7d, vendors: \x7b\x7d, specialFeatures: \x7b\x7d \x7d;",
  "    var key;",
  "    for (key in catalogue.purposes) \x7b",
  "      if (catalogue.purposes.hasOwnProperty(key)) \x7b",
  "        consent.purposes[key] = allowAll || key === '1';",
  "      \x7d",
  "    \x7d",
  "    for (key in catalogue.vendors) \x7b",
  "      if (catalogue.vendors.hasOwnProperty(key)) \x7b",
  "        consent.vendors[key] = allowAll;",
  "      \x7d",
  "    \x7d",
  "    for (key in catalogue.specialFeatures) \x7b",
  "      if (catalogue.specialFeatures.hasOwnProperty(key)) \x7b",
  "        consent.specialFeatures[key] = allowAll;",
  "      \x7d",
  "    \x7d",
  "    return consent;",
  "  \x7d",
  "",
  "  function toCategories(purposes) \x7b",
  "    var result = \x7b\x7d;",
  "    for (var category in catalogue.categories) \x7b",
  "      if (!catalogue.categories.hasOwnProperty(category)) \x7b",
  "        continue;",
  "      \x7d",
  "      var ids = catalogue.categories[category];",
  "      var granted = true;",
  "      for (var i = 0; i < ids.length; i++) \x7b",
  "        if (!purposes[String(ids[i])]) \x7b",
  "          granted = false;",
  "        \x7d",
  "      \x7d",
  "      result[category] = granted;",
  "    \x7d",
  "    return result;",
  "  \x7d",
  "",
  "  function consentFromControls() \x7b",
  "    var consent = buildConsent(false);",
  "    var inputs = document.querySelectorAll('#cmp-preferences input[data-category]," ++
    " #cmp-banner input[data-category]');",
  "    for (var i = 0; i < inputs.length; i++) \x7b",
  "      var ids = catalogue.categories[inputs[i].getAttribute('data-category')] || [];",
  "      for (var j = 0; j < ids.length; j++) \x7b",
  "        if (inputs[i].checked) \x7b",
  "          consent.purposes[String(ids[j])] = true;",
  "        \x7d",
  "      \x7d",
  "    \x7d",
  "    consent.purposes['1'] = true;",
  "    var vendorInputs = document.querySelectorAll('#cmp-preferences input[data-vendor]');",
  "    for (var k = 0; k < vendorInputs.length; k++) \x7b",
  "      consent.vendors[vendorInputs[k].getAttribute('data-vendor')] = !!vendorInputs[k].checked;",
  "    \x7d",
  "    return consent;",
  "  \x7d",
  "",
  "  function toDecisions(consent) \x7b",
  "    var decisions = \x7b purposes: [], vendors: [], specialFeatures: [] \x7d;",
  "    var key;",
  "    for (key in consent.purposes) \x7b",
  "      if (consent.purposes.hasOwnProperty(key)) \x7b",
  "        decisions.purposes.push(\x7b",
  "          id: Number(key),",
  "          name: catalogue.purposes[key] || ('Purpose ' + key),",
  "          allowed: !!consent.purposes[key],",
  "          legalBasis: 'consent'",
  "        \x7d);",
  "      \x7d",
  "    \x7d",
  "    for (key in consent.vendors) \x7b",
  "      if (consent.vendors.hasOwnProperty(key)) \x7b",
  "        decisions.vendors.push(\x7b",
  "          id: Number(key),",
  "          name: catalogue.vendors[key] || ('Vendor ' + key),",
  "          allowed: !!consent.vendors[key]",
  "        \x7d);",
  "      \x7d",
  "    \x7d",
  "    for (key in consent.specialFeatures) \x7b",
  "      if (consent.specialFeatures.hasOwnProperty(key)) \x7b",
  "        decisions.specialFeatures.push(\x7b",
  "          id: Number(key),",
  "          name: catalogue.specialFeatures[key] || ('Feature ' + key),",
  "          allowed: !!consent.specialFeatures[key]",
  "        \x7d);",
  "      \x7d",
  "    \x7d",
  "    return decisions;",
  "  \x7d",
  ""]

def modeSource : String := block [
  "    function updateConsentMode(categories) \x7b",
  "      if (!config.googleConsentMode || typeof window.gtag !== 'function') \x7b",
  "        return;",
  "      \x7d",
  "      window.gtag('consent', 'update', \x7b",
  "        'ad_storage': categories.marketing ? 'granted' : 'denied',",
  "        'analytics_storage': categories.analytics ? 'granted' : 'denied',",
  "        'personalization_storage': categories.personalization ? 'granted' : 'denied',",
  "        'functionality_storage': 'granted',",
  "        'security_storage': 'granted'",
  "      \x7d);",
  "    \x7d",
  "",
  "    function activateScripts(categories) \x7b",
  "      var blocked = document.querySelectorAll('script[type=\"text/plain\"][data-category]');",
  "      for (var i = 0; i < blocked.length; i++) \x7b",
  "        var original = blocked[i];",
  "        if (!categories[original.getAttribute('data-category')]) \x7b",
  "          continue;",
  "        \x7d",
  "        var script = document.createElement('script');",
  "        for (var j = 0; j < original.attributes.length; j++) \x7b",
  "          var attribute = original.attributes[j];",
  "          if (attribute.name !== 'type') \x7b",
  "            script.setAttribute(attribute.name, attribute.value);",
  "          \x7d",
  "        \x7d",
  "        script.text = original.text;",
  "        original.parentNode.replaceChild(script, original);",
  "      \x7d",
  "    \x7d",
  ""]

def reportSource : String := block [
  "    function post(url, payload) \x7b",
  "      return fetch(url, \x7b",
  "        method: 'POST',",
  "        headers: \x7b 'Content-Type': 'application/json', 'Accept': 'application/json' \x7d,",
  "        body: JSON.stringify(payload)",
  "      \x7d);",
  "    \x7d",
  "",
  "    function reportToServer(consent, action, timeToDecision) \x7b",
  "      if (!domainId) \x7b",
  "        warn('consent report', 'no domain id');",
  "        return;",
  "      \x7d",
  "      if (typeof fetch !== 'function') \x7b",
  "        return;",
  "      \x7d",
  "      var url = baseUrl + '/api/v1/consent/domain/' + domainId;",
  "      var userId = getUserId();",
  "      var payload = \x7b",
  "        userId: userId,",
  "        decisions: toDecisions(consent),",
  "        bannerInteraction: \x7b",
  "          type: action,",
  "          timeToDecision: timeToDecision,",
  "          customizationOpened: action === 'save_preferences'",
  "        \x7d,",
  "        metadata: \x7b",
  "          userAgent: navigator.userAgent,",
  "          language: navigator.language || config.language,",
  "          deviceType: deviceType()",
  "        \x7d",
  "      \x7d;",
  "      post(url, payload).then(function (response) \x7b",
  "        if (response.status === 413) \x7b",
  "          return post(url, \x7b",
  "            userId: userId,",
  "            decisions: \x7b",
  "              purposes: [\x7b id: 1, name: 'Storage and access', allowed: true, legalBasis:" ++
    " 'consent' \x7d],",
  "              vendors: [],",
  "              specialFeatures: []",
  "            \x7d,",
  "            bannerInteraction: \x7b type: action \x7d",
  "          \x7d).then(function (retry) \x7b",
  "            if (!retry.ok) \x7b",
  "              warn('reduced consent report', retry.status);",
  "            \x7d",
  "          \x7d);",
  "        \x7d",
  "        if (!response.ok) \x7b",
  "          warn('consent report', response.status);",
  "          return null;",
  "        \x7d",
  "        return response.json().then(function (body) \x7b",
  "          if (body && body.data && body.data.tcString && runtime.consent) \x7b",
  "            runtime.consent.tcString = body.data.tcString;",
  "            persistConsent(runtime.consent);",
  "          \x7d",
  "        \x7d);",
  "      \x7d)['catch'](function (error) \x7b",
  "        warn('consent report', error);",
  "      \x7d);",
  "    \x7d",
  ""]

end ConsentBanner.Client
