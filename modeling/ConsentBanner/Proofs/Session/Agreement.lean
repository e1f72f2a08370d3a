import ConsentBanner.Proofs.Consent.Channel
import ConsentBanner.Proofs.Session.Cookie

/-!
A decision reads the same wherever it is told.
-/

namespace ConsentBanner.Session

/-- A session whose consent, if it has one, was first given at a moment that a clock can show. -/
def Dated (s : Session) : Prop := ∀ c ∈ s.consent, ∀ m ∈ c.created, m.IsZoned

/-- The consent that a deed brings in. -/
def Deed.consent? : Deed → Option Consent
  | .decided c _ => some c
  | .loaded c => c
  | _ => none

theorem dated_foldl_revise {ds : List Deed} {before : Option Consent}
    (hds : ∀ d ∈ ds, ∀ c ∈ d.consent?, ∀ m ∈ c.created, m.IsZoned)
    (hbefore : ∀ c ∈ before, ∀ m ∈ c.created, m.IsZoned) :
    ∀ c ∈ ds.foldl Deed.revise before, ∀ m ∈ c.created, m.IsZoned := by
  induction ds generalizing before with
  | nil => exact hbefore
  | cons d rest ih =>
    refine ih (fun d hd => hds d (List.mem_cons_of_mem _ hd)) ?_
    have hd := hds d List.mem_cons_self
    cases d with
    | decided c own => exact hd
    | loaded c => exact hd
    | forgot => exact nofun
    | sent r t =>
      intro c hc
      obtain ⟨c', hc', rfl⟩ := Option.map_eq_some_iff.1 hc
      exact hbefore c' hc'

theorem consent?_sendings (rs : List Report) (s : Session) : ∀ d ∈ sendings rs s, d.consent? = none := by
  induction rs generalizing s with
  | nil =>
    intro d hd
    cases hd
  | cons r rest ih =>
    intro d hd
    rw [sendings] at hd
    obtain rfl | hd := List.mem_cons.1 hd
    · rfl
    · split at hd
      · exact ih _ d hd
      · cases hd

/-- Every decision of an event keeps the moment of the first one, or takes it from the clock. -/
theorem dated_deedsOf (e : Event) {s : Session} (h : Dated s) :
    ∀ d ∈ deedsOf e s, ∀ c ∈ d.consent?, ∀ m ∈ c.created, m.IsZoned := by
  intro d hd c hc
  cases e with
  | start =>
    obtain ⟨stored, hstored, rfl⟩ := List.mem_map.1 hd
    obtain rfl : stored = some c := hc
    rw [takenOver] at hstored
    split at hstored
    · have hload : s.store.load s.browser = .ok (some c) := by
        cases hl : s.store.load s.browser with
        | error f =>
          rw [hl] at hstored
          cases hstored
        | ok stored =>
          rw [hl] at hstored
          exact congrArg Except.ok (Option.some.inj (Option.mem_toList.1 hstored))
      exact ConsentStore.isZoned_of_load hload
    · cases hstored
  | act name categories =>
    obtain ⟨c', hc', rfl⟩ := List.mem_map.1 hd
    obtain rfl : c' = c := Option.some.inj hc
    obtain ⟨action, -, hdecided⟩ := Option.bind_eq_some_iff.1 (Option.mem_toList.1 hc')
    cases hdecision : decisionOf action categories s with
    | error f =>
      rw [hdecision] at hdecided
      cases hdecided
    | ok decided =>
      rw [hdecision] at hdecided
      cases hdecided
      exact (isStorable_of_decisionOf h hdecision).created
  | reset =>
    obtain rfl := List.mem_singleton.1 hd
    cases hc
  | flush =>
    rw [consent?_sendings s.pending s d hd] at hc
    cases hc
  | _ => cases hd

theorem dated_after (e : Event) {s : Session} (hfresh : Fresh s) (h : Dated s) : Dated (after e s) := by
  rw [Dated, (accounts_event e hfresh).consent]
  exact dated_foldl_revise (dated_deedsOf e h) h

theorem dated_run (events : List Event) {s : Session} (hfresh : Fresh s) (h : Dated s) : Dated (run events s) := by
  induction events generalizing s with
  | nil => exact h
  | cons e rest ih => exact ih (fresh_after e hfresh) (dated_after e hfresh h)

theorem Begins.dated_run {config : ClientConfig} {environment : Environment} {browser : Browser} {s : Session}
    (h : Begins config environment browser s) (events : List Event) : Dated (run events s) := by
  refine Session.dated_run events (fun _ => h.pending) ?_
  rw [Dated, h.consent]
  exact nofun

/-- What a decision told the tags in the page. -/
def toldTags (c : Consent) (s : Session) : List Json := if s.config.consentMode then [c.mode] else []

theorem result_adopt_eq (c : Consent) (s : Session) :
    result (adopt c) s = (.ok (), { s with consent := some c, modeUpdates := s.modeUpdates ++ toldTags c s }) := by
  rw [adopt, result_bind, result_modify]
  simp only [result_bind, result_get]
  unfold toldTags
  cases hmode : s.config.consentMode with
  | true => rfl
  | false =>
    rw [if_neg (by decide), if_neg (by decide), List.append_nil]
    rfl

@[simp] theorem modeUpdates_inPhase (phase : Phase) (s : Session) : (inPhase phase s).modeUpdates = s.modeUpdates := by
  cases phase with
  | _ => rfl

theorem keeps_modeUpdates_reportOf (action : ActionKind) (c : Consent) :
    Keeps (·.modeUpdates) (reportOf action c) := by
  intro k
  refine .bind .get fun s => .bind (.lift _) fun time => .bind ?_ fun id => ?_
  · exact .bind .get fun s => .bind (.lift _) fun found => .bind (.modify fun _ h => h) fun _ => .pure _
  · exact .bind OffDisplay.reportMetadata fun m => .bind (.checked _) fun i => .pure _

/-- A page that has made a decision its own and is about to write it. -/
def adopted (c : Consent) (s : Session) : Session :=
  inPhase .persistCookie
    { inPhase .applyConsent s with
      consent := some c
      modeUpdates := (inPhase .applyConsent s).modeUpdates ++ toldTags c (inPhase .applyConsent s) }

/-- A page that has written its decision and is about to report it. -/
def written (c : Consent) (b : Browser) (s : Session) : Session :=
  inPhase .reportToServer { adopted c s with browser := b }

/-- A page after its decision was reported. -/
def concluded (r : Report) (s : Session) : Session :=
  inPhase .hidden
    { s with
      pending := s.pending ++ [r]
      events := s.events ++ (s.api.notify s.consent "useractioncomplete").1
      preferencesOpen := false }

theorem result_persist_adopted (c : Consent) (s : Session) :
    result (persist c) (adopted c s) =
      match s.store.save c s.browser with
      | .ok b => (.ok (), { adopted c s with browser := b })
      | .error f => (.error (.fault f), adopted c s) :=
  result_persist c (adopted c s)

theorem result_applyDecision (action : ActionKind) (categories : Json) (s : Session) :
    result (applyDecision action categories) s =
      match decisionOf action categories s with
      | .error f => (.error (.fault f), inPhase .applyConsent s)
      | .ok c =>
        match s.store.save c s.browser with
        | .error f => (.error (.fault f), adopted c s)
        | .ok b =>
          match result (reportOf action c) (written c b s) with
          | (.error e, t) => (.error e, t)
          | (.ok r, t) => (.ok (), concluded r t) := by
  rw [applyDecision, result_bind, result_enter]
  dsimp only
  rw [result_bind, result_decide, decisionOf_congr (core_inPhase .applyConsent s)]
  cases decisionOf action categories s with
  | error f => rfl
  | ok c =>
    dsimp only [mapError_ok]
    rw [result_bind, result_adopt_eq]
    dsimp only
    rw [result_bind, result_enter]
    dsimp only
    rw [← adopted, result_bind, result_persist_adopted]
    cases s.store.save c s.browser with
    | error f => rfl
    | ok b =>
      dsimp only
      rw [result_bind, result_enter]
      dsimp only
      rw [← written, result_bind]
      rcases result (reportOf action c) (written c b s) with ⟨e | r, t⟩
      · rfl
      · rfl

/-- A decision that was carried out to its end: in the page, in the cookie and as a report. -/
structure CarriedOut (action : ActionKind) (categories : Json) (s t : Session) (c : Consent) (r : Report) : Prop where
  decision : decisionOf action categories s = .ok c
  config : t.config = s.config
  consent : t.consent = some c
  saved : ∃ b, s.store.save c s.browser = .ok b ∧ Identified b t.browser
  report : IsAbout c r
  pending : t.pending = s.pending ++ [r]
  modeUpdates : t.modeUpdates = s.modeUpdates ++ toldTags c s

theorem carriedOut_of_result {action : ActionKind} {categories : Json} {s t : Session}
    (h : result (applyDecision action categories) s = (.ok (), t)) :
    ∃ c r, CarriedOut action categories s t c r := by
  rw [result_applyDecision] at h
  split at h
  · cases h
  · rename_i c hdecision
    split at h
    · cases h
    · rename_i b hsave
      split at h
      · cases h
      · rename_i r u hreport
        cases h
        obtain ⟨b', hcore, hid⟩ := identifies_reportOf action c (written c b s)
        have hmode := (keeps_modeUpdates_reportOf action c).eq (written c b s)
        rw [leaves, hreport] at hcore hmode
        have hbrowser : u.browser = b' := congrArg Core.browser hcore
        have hpending : u.pending = s.pending := congrArg Core.pending hcore
        exact ⟨c, r, hdecision, congrArg Core.config hcore, congrArg Core.consent hcore, ⟨b, hsave, hbrowser ▸ hid⟩,
          reportOf_eq_ok hreport, congrArg (· ++ [r]) hpending, hmode⟩

/-- A deciding action that comes to its end was taken on a visible banner, and is its decision. -/
theorem applyDecision_of_handle {name : String} {categories : Json} {s t : Session} {phase : Phase}
    {action : ActionKind} (hname : Named.ofName? name = some action) (hdecision : isDecision action)
    (h : result (handle name categories) s = (.ok phase, t)) :
    result (applyDecision action categories) s = (.ok (), t) := by
  rw [handle, result_bind, result_get] at h
  dsimp only at h
  split at h
  · rename_i hshow
    rw [hname] at hshow
    cases hshow
    cases hdecision
  · split at h
    · cases h
    · obtain ⟨_, u, hact, h⟩ := result_bind_eq_ok.1 h
      obtain ⟨-, rfl⟩ := Prod.mk.inj h
      rw [hname] at hact
      cases action with
      | acceptAll => exact hact
      | rejectAll => exact hact
      | savePreferences => exact hact
      | _ => cases hdecision

theorem carriedOut_of_handle {name : String} {categories : Json} {s t : Session} {phase : Phase}
    {action : ActionKind} (hname : Named.ofName? name = some action) (hdecision : isDecision action)
    (h : result (handle name categories) s = (.ok phase, t)) : ∃ c r, CarriedOut action categories s t c r :=
  carriedOut_of_result (applyDecision_of_handle hname hdecision h)

/-- What is told of a decision that was made in a session, wherever it is told in the next. -/
structure Told (s t : Session) (c : Consent) : Prop where
  current : t.consent = some c
  loaded : t.store.load t.browser = .ok (some c)
  reported : ∃ r, t.pending = s.pending ++ [r] ∧ Decided.Tell r.decisions.purposes (c.purposes.get? ·) ∧
    Decided.Tell r.decisions.vendors (c.vendors.get? ·) ∧
    Decided.Tell r.decisions.specialFeatures (c.specialFeatures.get? ·)
  signalled : ∀ eventStatus asked listenerId,
    Signal.Tells (t.api.data t.consent eventStatus asked listenerId) c (c.vendorAnswers asked)
  asked : ∀ version l ids, Signal.Api.isSupported version → ids ≠ [] → ∃ data,
    (t.api.call t.consent (.str "getTCData") version (some l) (.arr (ids.map .int))).events = [l.event data true] ∧
      Signal.Tells data c (c.vendorAnswers (some ids))
  granted : s.config.consentMode → ∃ update, t.modeUpdates = s.modeUpdates ++ [update] ∧
    ∀ category, ∀ storage ∈ Category.storage category, update.get? storage = some (.str "granted") ↔
      ∀ id ∈ category.purposes, c.purposes.get? id = some true

theorem told_of_carriedOut {action : ActionKind} {categories : Json} {s t : Session} {c : Consent} {r : Report}
    (hid : Cookie.IsPlainName s.config.bannerId) (hdated : Dated s) (h : CarriedOut action categories s t c r) :
    Told s t c := by
  have hstorable : c.IsStorable := isStorable_of_decisionOf hdated h.decision
  have hdistinct := hstorable.isDistinct
  have hsignalled (eventStatus : String) (asked : Option (List Int)) (listenerId : Option Int) :
      Signal.Tells (t.api.data t.consent eventStatus asked listenerId) c (c.vendorAnswers asked) := by
    rw [h.consent]
    exact t.api.tells_data hdistinct eventStatus asked listenerId
  refine ⟨h.consent, ?_, ⟨r, h.pending, ?_⟩, hsignalled, ?_, ?_⟩
  · obtain ⟨b, hsave, hidentified⟩ := h.saved
    have hstore : t.store = s.store := by rw [store, h.config, store]
    have hholds : s.store.Holds t.browser c := by
      rw [ConsentStore.Holds, hidentified.get?]
      exact ConsentStore.holds_of_save hid hsave
    rw [hstore]
    exact hholds.load hstorable
  · obtain ⟨id, i, m, rfl⟩ := h.report
    exact ⟨Decisions.tell_named hdistinct.purposes _, Decisions.tell_named hdistinct.vendors _,
      Decisions.tell_named hdistinct.specialFeatures _⟩
  · intro version l ids hv hids
    exact ⟨_, Signal.Api.call_getTCData t.api t.consent hv l hids, hsignalled "tcloaded" (some ids) none⟩
  · intro hmode
    refine ⟨c.mode, ?_, fun category storage hs => Consent.mode_grants_iff hstorable.necessary hs⟩
    rw [h.modeUpdates, toldTags, if_pos hmode]

theorem allowsOnlyNecessary_of_rejectAll {categories : Json} {s : Session} {c : Consent}
    (h : decisionOf .rejectAll categories s = .ok c) : c.AllowsOnlyNecessary := by
  obtain ⟨now, -, h⟩ := bind_eq_ok.1 h
  obtain ⟨decided, hdecided, h⟩ := bind_eq_ok.1 h
  cases hdecided
  split at h
  · cases h
    exact Consent.allowsOnlyNecessary_rejectAll _ now
  · cases h
    exact Consent.allowsOnlyNecessary_rejectAll _ now

/-- A decision of a page that comes to its end is the same wherever it is told: in the cookie, in the report, by
the consent interface and to the tags. A refusal of everything allows nothing but what is necessary. -/
theorem run_told {config : ClientConfig} {environment : Environment} {components : List Component}
    {browser : Browser} {server : Server} {s : Session}
    (hcreate : create config environment components browser server = .ok s)
    (hid : Cookie.IsPlainName config.bannerId) (events : List Event) {name : String} {categories : Json}
    {action : ActionKind} (hname : Named.ofName? name = some action) (haction : isDecision action) {phase : Phase}
    {t : Session} (h : result (handle name categories) (run events s) = (.ok phase, t)) :
    ∃ c, decisionOf action categories (run events s) = .ok c ∧ Told (run events s) t c ∧
      (action = .rejectAll → c.AllowsOnlyNecessary) := by
  obtain ⟨c, r, hcarried⟩ := carriedOut_of_handle hname haction h
  have hbegins := begins_of_create hcreate
  refine ⟨c, hcarried.decision, told_of_carriedOut ?_ (hbegins.dated_run events) hcarried, ?_⟩
  · rw [hbegins.config_run]
    exact hid
  · rintro rfl
    exact allowsOnlyNecessary_of_rejectAll hcarried.decision

theorem run_told_rejectAll : ∃ phase t c,
    result (handle "reject_all" .null) (run [.start] plainSession) = (.ok phase, t) ∧
      decisionOf .rejectAll .null (run [.start] plainSession) = .ok c ∧ Told (run [.start] plainSession) t c ∧
      c.AllowsOnlyNecessary := by
  obtain ⟨phase, hphase⟩ : ∃ phase,
      (result (handle "reject_all" .null) (run [.start] plainSession)).1.toOption = some phase :=
    Option.isSome_iff_exists.1 (by decide +kernel)
  rcases h : result (handle "reject_all" .null) (run [.start] plainSession) with ⟨stop | phase', t⟩
  · rw [h] at hphase
    cases hphase
  · have hid : Cookie.IsPlainName plainSession.config.bannerId := ⟨by decide, by decide, by decide⟩
    have hname : (Named.ofName? "reject_all" : Option ActionKind) = some .rejectAll := by decide
    obtain ⟨c, hdecision, htold, hnecessary⟩ := run_told create_plainSession hid [.start] hname rfl h
    exact ⟨phase', t, c, rfl, hdecision, htold, hnecessary rfl⟩

end ConsentBanner.Session
