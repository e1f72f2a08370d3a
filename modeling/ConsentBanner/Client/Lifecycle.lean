import ConsentBanner.Client.Setup

/-!
The script source that turns clicks into decisions, starts the controller, shows the banner again and resets it, and
that starts everything with what stands in when that fails.
-/

namespace ConsentBanner.Client

def applySource : String := block [
  "    function applyDecision(consent, action) \x7b",
  "      enter('apply_consent');",
  "      var now = new Date().toISOString();",
  "      consent.created = (runtime.consent && runtime.consent.created) || now;",
  "      consent.lastUpdated = now;",
  "      consent.tcString = '';",
  "      runtime.consent = consent;",
  "      var categories = toCategories(consent.purposes);",
  "      guard('consent mode update', function () \x7b",
  "        updateConsentMode(categories);",
  "      \x7d);",
  "      guard('script activation', function () \x7b",
  "        activateScripts(categories);",
  "      \x7d);",
  "      if (window.dataLayer && window.dataLayer.push) \x7b",
  "        window.dataLayer.push(\x7b event: 'consent_update', consent_action: action," ++
    " consent_categories: categories \x7d);",
  "      \x7d",
  "",
  "      enter('persist_cookie');",
  "      guard('consent cookie', function () \x7b",
  "        persistConsent(consent);",
  "      \x7d);",
  "",
  "      enter('report_to_server');",
  "      var timeToDecision = runtime.shownAt ? Date.now() - runtime.shownAt : 0;",
  "      guard('consent report', function () \x7b",
  "        reportToServer(consent, action, timeToDecision);",
  "      \x7d);",
  "      notifyListeners('useractioncomplete');",
  "      hideBanner();",
  "      scheduleReshow();",
  "    \x7d",
  "",
  "    function handleAction(action) \x7b",
  "      if (action === 'show_preferences') \x7b",
  "        if (runtime.state === 'hidden') \x7b",
  "          showBanner();",
  "        \x7d",
  "        showPreferences();",
  "        return;",
  "      \x7d",
  "      if (action === 'close') \x7b",
  "        if (runtime.preferencesOpen) \x7b",
  "          hidePreferences();",
  "        \x7d else \x7b",
  "          hideBanner();",
  "        \x7d",
  "        return;",
  "      \x7d",
  "      if (action === 'accept_all') \x7b",
  "        applyDecision(buildConsent(true), action);",
  "      \x7d else if (action === 'reject_all') \x7b",
  "        applyDecision(buildConsent(false), action);",
  "      \x7d else if (action === 'save_preferences') \x7b",
  "        applyDecision(consentFromControls(), action);",
  "      \x7d",
  "    \x7d",
  ""]

def eventSource : String := block [
  "    function onClick(event) \x7b",
  "      var target = event.target;",
  "      while (target && target !== document) \x7b",
  "        if (target.getAttribute && target.getAttribute('data-tab') && target.closest &&" ++
    " target.closest('#cmp-preferences')) \x7b",
  "          selectTab(target.getAttribute('data-tab'));",
  "          return;",
  "        \x7d",
  "        if (target.getAttribute && target.getAttribute('data-cmp-action')) \x7b",
  "          break;",
  "        \x7d",
  "        target = target.parentNode;",
  "      \x7d",
  "      if (!target || target === document) \x7b",
  "        return;",
  "      \x7d",
  "      if (!target.closest || !target.closest('#cmp-banner, #cmp-preferences')) \x7b",
  "        return;",
  "      \x7d",
  "      var action = target.getAttribute('data-cmp-action');",
  "      if (action === 'custom' || action === 'none') \x7b",
  "        return;",
  "      \x7d",
  "      event.preventDefault();",
  "      handleAction(action);",
  "    \x7d",
  "",
  "    function onResize() \x7b",
  "      if (runtime.resizeTimer) \x7b",
  "        clearTimeout(runtime.resizeTimer);",
  "      \x7d",
  "      runtime.resizeTimer = setTimeout(function () \x7b",
  "        guard('repositioning', applyPlacements);",
  "      \x7d, 100);",
  "    \x7d",
  ""]

def showSource : String := block [
  "    function showBanner() \x7b",
  "      runtime.shownAt = Date.now();",
  "      guard('floating icon', hideFloatingIcon);",
  "      if (runtime.hideTimer) \x7b",
  "        clearTimeout(runtime.hideTimer);",
  "        runtime.hideTimer = null;",
  "      \x7d",
  "      var existing = document.getElementById('cmp-banner');",
  "      if (existing) \x7b",
  "        existing.className = existing.className.split(' cmp-banner--hiding').join('');",
  "        enter('banner_visible');",
  "        return;",
  "      \x7d",
  "      var rendered = guard('style injection', injectStyles) &&",
  "        guard('banner markup', renderBanner) &&",
  "        guard('event listeners', bindEvents);",
  "      if (!rendered) \x7b",
  "        guard('emergency banner', createEmergencyBanner);",
  "        return;",
  "      \x7d",
  "      guard('preferences markup', renderPreferences);",
  "      guard('positioning', applyPlacements);",
  "      enter('banner_visible');",
  "      if (config.autoHide.enabled && config.autoHide.delay > 0) \x7b",
  "        setTimeout(function () \x7b",
  "          if (runtime.state === 'banner_visible') \x7b",
  "            hideBanner();",
  "          \x7d",
  "        \x7d, config.autoHide.delay * 1000);",
  "      \x7d",
  "    \x7d",
  "",
  "    // Reshow falls due interval seconds after the stored decision",
  "    function scheduleReshow() \x7b",
  "      if (!config.reshow.enabled || !(config.reshow.interval > 0)) \x7b",
  "        return;",
  "      \x7d",
  "      var last = runtime.consent && runtime.consent.lastUpdated ?",
  "        new Date(runtime.consent.lastUpdated).getTime() : Date.now();",
  "      if (isNaN(last)) \x7b",
  "        last = Date.now();",
  "      \x7d",
  "      var delay = config.reshow.interval * 1000 - (Date.now() - last);",
  "      if (runtime.reshowTimer) \x7b",
  "        clearTimeout(runtime.reshowTimer);",
  "      \x7d",
  "      runtime.reshowTimer = setTimeout(function () \x7b",
  "        runtime.reshowTimer = null;",
  "        if (runtime.state === 'hidden' && shouldShowBanner(loadConsent())) \x7b",
  "          showBanner();",
  "        \x7d",
  "      \x7d, Math.max(0, Math.min(delay, 2147483647)));",
  "    \x7d",
  ""]

def lifecycleSource : String := block [
  "    function start() \x7b",
  "      enter('evaluate_consent');",
  "      runtime.gdprApplies = detectGdpr();",
  "      // Reading consent and deciding visibility happen in one step",
  "      var stored = loadConsent();",
  "      var show = shouldShowBanner(stored);",
  "      runtime.consent = stored;",
  "      guard('user id', getUserId);",
  "      if (show) \x7b",
  "        showBanner();",
  "      \x7d else \x7b",
  "        enter('hidden');",
  "        guard('script activation', function () \x7b",
  "          activateScripts(toCategories(stored.purposes));",
  "        \x7d);",
  "        if (guard('style injection', injectStyles)) \x7b",
  "          guard('floating icon', showFloatingIcon);",
  "        \x7d",
  "        scheduleReshow();",
  "      \x7d",
  "    \x7d",
  "",
  "    function reset() \x7b",
  "      writeCookie(COOKIE_NAME, '', -1);",
  "      storageSet(COOKIE_NAME, '');",
  "      runtime.consent = null;",
  "      enter('evaluate_consent');",
  "      showBanner();",
  "    \x7d",
  "",
  "    return \x7b",
  "      start: start,",
  "      dispatch: dispatch,",
  "      handleAction: handleAction,",
  "      showPreferences: showPreferences,",
  "      showBanner: showBanner,",
  "      hideBanner: hideBanner,",
  "      showFloatingIcon: showFloatingIcon,",
  "      hideFloatingIcon: hideFloatingIcon,",
  "      reset: reset,",
  "      createEmergencyBanner: createEmergencyBanner,",
  "      getState: function () \x7b",
  "        return runtime.state;",
  "      \x7d,",
  "      getConsent: function () \x7b",
  "        return runtime.consent;",
  "      \x7d,",
  "      getUserId: getUserId",
  "    \x7d;",
  "  \x7d",
  ""]

def fallbackSource : String := block [
  "  function fallbackDispatch(command, version, callback) \x7b",
  "    if (typeof callback !== 'function') \x7b",
  "      return;",
  "    \x7d",
  "    if (command === 'ping') \x7b",
  "      callback(\x7b gdprApplies: true, cmpLoaded: true, cmpStatus: 'error', displayStatus:" ++
    " 'hidden', cmpId: cmp.cmpId \x7d, true);",
  "      return;",
  "    \x7d",
  "    if (command === 'getTCData' || command === 'addEventListener') \x7b",
  "      callback(\x7b tcString: '', gdprApplies: true, cmpStatus: 'error', purpose: \x7b" ++
    " consents: \x7b '1': true \x7d, legitimateInterests: \x7b\x7d \x7d, vendor: \x7b consents:" ++
    " \x7b\x7d, legitimateInterests: \x7b\x7d \x7d \x7d, true);",
  "      return;",
  "    \x7d",
  "    callback(null, false);",
  "  \x7d",
  "",
  "  function fallbackBanner() \x7b",
  "    var banner = document.createElement('div');",
  "    banner.id = 'cmp-banner';",
  "    banner.style.cssText =" ++
    " 'position:fixed;bottom:0;left:0;right:0;background:#ffffff;padding:15px;z-index:2147483647;';",
  "    banner.innerHTML = '<p style=\"margin:0 0 10px 0\">This site uses cookies to improve" ++
    " your experience.</p>' +",
  "      '<button type=\"button\" data-cmp-action=\"reject_all\">Reject</button> ' +",
  "      '<button type=\"button\" data-cmp-action=\"accept_all\">Accept</button>';",
  "    banner.onclick = function (event) \x7b",
  "      var action = event.target && event.target.getAttribute ?" ++
    " event.target.getAttribute('data-cmp-action') : null;",
  "      if (!action) \x7b",
  "        return;",
  "      \x7d",
  "      var consent = buildConsent(action === 'accept_all');",
  "      consent.created = consent.lastUpdated = new Date().toISOString();",
  "      guard('consent cookie', function () \x7b",
  "        persistConsent(consent);",
  "      \x7d);",
  "      if (banner.parentNode) \x7b",
  "        banner.parentNode.removeChild(banner);",
  "      \x7d",
  "    \x7d;",
  "    document.body.appendChild(banner);",
  "  \x7d",
  ""]

def entrySource : String := block [
  "",
  "  guard('locator frame', createLocatorFrame);",
  "  window.addEventListener('message', onFrameMessage, false);",
  "",
  "  var runtime = null;",
  "  try \x7b",
  "    runtime = createRuntime();",
  "    installApi(runtime.dispatch);",
  "  \x7d catch (e) \x7b",
  "    warn('runtime', e);",
  "    installApi(fallbackDispatch);",
  "    onReady(function () \x7b",
  "      guard('fallback banner', fallbackBanner);",
  "    \x7d);",
  "    return;",
  "  \x7d",
  "",
  "  window.CMP = \x7b",
  "    bannerId: bannerId,",
  "    showBanner: runtime.showBanner,",
  "    hideBanner: runtime.hideBanner,",
  "    showPreferences: runtime.showPreferences,",
  "    showFloatingIcon: runtime.showFloatingIcon,",
  "    hideFloatingIcon: runtime.hideFloatingIcon,",
  "    acceptAll: function () \x7b",
  "      runtime.handleAction('accept_all');",
  "    \x7d,",
  "    rejectAll: function () \x7b",
  "      runtime.handleAction('reject_all');",
  "    \x7d,",
  "    reset: runtime.reset,",
  "    getConsentState: runtime.getConsent,",
  "    getState: runtime.getState,",
  "    getUserId: runtime.getUserId",
  "  \x7d;",
  "",
  "  onReady(function () \x7b",
  "    if (!guard('runtime start', runtime.start)) \x7b",
  "      guard('emergency banner', runtime.createEmergencyBanner);",
  "    \x7d",
  "  \x7d);",
  "\x7d)();"]

end ConsentBanner.Client
