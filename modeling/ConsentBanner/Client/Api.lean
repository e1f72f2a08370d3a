import ConsentBanner.Client.Setup

/-!
The script source of the consent interface: what stands in until the controller takes over, messages between frames,
and the controller's answers.
-/

namespace ConsentBanner.Client

/-- Answers the first question and queues all others. -/
def stubSource : String := block [
  "  // Consent API stub: answers ping and queues everything else until the",
  "  // runtime replaces it.",
  "  var commandQueue = [];",
  "",
  "  function stubApi(command, version, callback, parameter) \x7b",
  "    if (typeof callback !== 'function') \x7b",
  "      return;",
  "    \x7d",
  "    if (command === 'ping') \x7b",
  "      callback(\x7b",
  "        gdprApplies: config.forceGDPR ? true : undefined,",
  "        cmpLoaded: false,",
  "        cmpStatus: 'stub',",
  "        displayStatus: 'hidden',",
  "        apiVersion: cmp.apiVersion,",
  "        cmpVersion: cmp.cmpVersion,",
  "        cmpId: cmp.cmpId,",
  "        gvlVersion: cmp.gvlVersion,",
  "        tcfPolicyVersion: cmp.tcfPolicyVersion",
  "      \x7d, true);",
  "      return;",
  "    \x7d",
  "    commandQueue.push([command, version, callback, parameter]);",
  "  \x7d",
  "  stubApi.isBannerStub = true;",
  "",
  "  if (typeof window.__tcfapi !== 'function') \x7b",
  "    window.__tcfapi = stubApi;",
  "  \x7d",
  "",
  "  function installApi(dispatch) \x7b",
  "    if (typeof window.__tcfapi === 'function' && !window.__tcfapi.isBannerStub) \x7b",
  "      return;",
  "    \x7d",
  "    window.__tcfapi = dispatch;",
  "    var queued = commandQueue;",
  "    commandQueue = [];",
  "    for (var i = 0; i < queued.length; i++) \x7b",
  "      dispatch(queued[i][0], queued[i][1], queued[i][2], queued[i][3]);",
  "    \x7d",
  "  \x7d",
  ""]

def frameSource : String := block [
  "  function createLocatorFrame() \x7b",
  "    if (window.frames.__tcfapiLocator) \x7b",
  "      return;",
  "    \x7d",
  "    if (!document.body) \x7b",
  "      setTimeout(createLocatorFrame, 5);",
  "      return;",
  "    \x7d",
  "    var frame = document.createElement('iframe');",
  "    frame.name = '__tcfapiLocator';",
  "    frame.style.cssText = 'display:none;width:0;height:0;border:0;position:absolute;';",
  "    frame.setAttribute('aria-hidden', 'true');",
  "    frame.setAttribute('title', 'Consent API locator');",
  "    document.body.appendChild(frame);",
  "  \x7d",
  "",
  "  function onFrameMessage(event) \x7b",
  "    var data = event.data;",
  "    var isString = typeof data === 'string';",
  "    if (isString) \x7b",
  "      try \x7b",
  "        data = JSON.parse(data);",
  "      \x7d catch (e) \x7b",
  "        return;",
  "      \x7d",
  "    \x7d",
  "    if (!data || typeof data !== 'object' || !data.__tcfapiCall) \x7b",
  "      return;",
  "    \x7d",
  "    var call = data.__tcfapiCall;",
  "    window.__tcfapi(call.command, call.version, function (returnValue, success) \x7b",
  "      var message = \x7b",
  "        __tcfapiReturn: \x7b",
  "          returnValue: returnValue,",
  "          success: success,",
  "          callId: call.callId",
  "        \x7d",
  "      \x7d;",
  "      if (event.source && event.source.postMessage) \x7b",
  "        event.source.postMessage(isString ? JSON.stringify(message) : message, '*');",
  "      \x7d",
  "    \x7d, call.parameter);",
  "  \x7d",
  ""]

def controllerSource : String := block [
  "  function createRuntime() \x7b",
  "    var runtime = \x7b",
  "      state: 'init',",
  "      consent: null,",
  "      gdprApplies: true,",
  "      preferencesOpen: false,",
  "      shownAt: null,",
  "      listeners: \x7b\x7d,",
  "      nextListenerId: 0,",
  "      bound: false,",
  "      resizeTimer: null,",
  "      hideTimer: null,",
  "      reshowTimer: null",
  "    \x7d;",
  "",
  "    function enter(state) \x7b",
  "      runtime.state = state;",
  "    \x7d",
  "",
  "    function displayStatus() \x7b",
  "      return runtime.state === 'banner_visible' ? 'visible' : 'hidden';",
  "    \x7d",
  ""]

def dataSource : String := block [
  "    function tcData(eventStatus, vendorIds, listenerId) \x7b",
  "      var consent = runtime.consent || \x7b purposes: \x7b\x7d, vendors: \x7b\x7d," ++
    " specialFeatures: \x7b\x7d \x7d;",
  "      var vendors = consent.vendors || \x7b\x7d;",
  "      if (vendorIds && vendorIds.length) \x7b",
  "        var filtered = \x7b\x7d;",
  "        for (var i = 0; i < vendorIds.length; i++) \x7b",
  "          filtered[String(vendorIds[i])] = !!vendors[String(vendorIds[i])];",
  "        \x7d",
  "        vendors = filtered;",
  "      \x7d",
  "      var interests = \x7b\x7d;",
  "      for (var j = 0; j < catalogue.legitimateInterestPurposes.length; j++) \x7b",
  "        var pid = String(catalogue.legitimateInterestPurposes[j]);",
  "        if (consent.purposes && consent.purposes.hasOwnProperty(pid)) \x7b",
  "          interests[pid] = !!consent.purposes[pid];",
  "        \x7d",
  "      \x7d",
  "      var data = \x7b",
  "        tcString: consent.tcString || '',",
  "        tcfPolicyVersion: cmp.tcfPolicyVersion,",
  "        cmpId: cmp.cmpId,",
  "        cmpVersion: cmp.cmpVersion,",
  "        gdprApplies: runtime.gdprApplies,",
  "        eventStatus: eventStatus,",
  "        cmpStatus: 'loaded',",
  "        isServiceSpecific: true,",
  "        useNonStandardTexts: false,",
  "        publisherCC: cmp.publisherCC,",
  "        purposeOneTreatment: false,",
  "        purpose: \x7b consents: consent.purposes || \x7b\x7d, legitimateInterests: interests \x7d,",
  "        vendor: \x7b consents: vendors, legitimateInterests: vendors \x7d,",
  "        specialFeatureOptins: consent.specialFeatures || \x7b\x7d",
  "      \x7d;",
  "      if (listenerId !== undefined) \x7b",
  "        data.listenerId = listenerId;",
  "      \x7d",
  "      return data;",
  "    \x7d",
  "",
  "    function notifyListeners(eventStatus) \x7b",
  "      for (var id in runtime.listeners) \x7b",
  "        if (runtime.listeners.hasOwnProperty(id)) \x7b",
  "          guard('consent listener', function () \x7b",
  "            runtime.listeners[id](tcData(eventStatus, null, Number(id)), true);",
  "          \x7d);",
  "        \x7d",
  "      \x7d",
  "    \x7d",
  ""]

def dispatchSource : String := block [
  "    function dispatch(command, version, callback, parameter) \x7b",
  "      if (typeof callback !== 'function') \x7b",
  "        return;",
  "      \x7d",
  "      // An omitted version means the latest one",
  "      if (version === undefined || version === null) \x7b",
  "        version = 2.2;",
  "      \x7d",
  "      if (version !== 2 && version !== 2.2) \x7b",
  "        callback(null, false);",
  "        return;",
  "      \x7d",
  "      switch (command) \x7b",
  "        case 'ping':",
  "          callback(\x7b",
  "            gdprApplies: runtime.gdprApplies,",
  "            cmpLoaded: true,",
  "            cmpStatus: 'loaded',",
  "            displayStatus: displayStatus(),",
  "            apiVersion: cmp.apiVersion,",
  "            cmpVersion: cmp.cmpVersion,",
  "            cmpId: cmp.cmpId,",
  "            gvlVersion: cmp.gvlVersion,",
  "            tcfPolicyVersion: cmp.tcfPolicyVersion",
  "          \x7d, true);",
  "          return;",
  "        case 'getTCData':",
  "          callback(tcData('tcloaded', parameter), true);",
  "          return;",
  "        case 'addEventListener':",
  "          runtime.nextListenerId += 1;",
  "          runtime.listeners[runtime.nextListenerId] = callback;",
  "          callback(tcData('tcloaded', null, runtime.nextListenerId), true);",
  "          return;",
  "        case 'removeEventListener':",
  "          var removed = runtime.listeners.hasOwnProperty(parameter);",
  "          if (removed) \x7b",
  "            delete runtime.listeners[parameter];",
  "          \x7d",
  "          callback(removed, removed);",
  "          return;",
  "        default:",
  "          callback(null, false);",
  "      \x7d",
  "    \x7d",
  ""]

end ConsentBanner.Client
