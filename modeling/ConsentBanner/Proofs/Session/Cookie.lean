import ConsentBanner.Proofs.Consent.Store
import ConsentBanner.Proofs.Session.Run

/-!
What a session writes into its cookie.
-/

namespace ConsentBanner

namespace Consent

/-- A consent by its answers alone, whenever they were given and whatever the server made of them. -/
def answers (c : Consent) : Answers × Answers × Answers := (c.purposes, c.vendors, c.specialFeatures)

theorem isStorable_of_consentOf {action : ActionKind} {categories : Json} {now : Moment} {c : Consent}
    (hnow : now.IsZoned) (h : Session.consentOf action categories now = .ok c) : c.IsStorable := by
  have chosen (h : (do Consent.ofCategories (← Session.categorySwitches categories) [] now) = .ok c) :
      c.IsStorable := by
    obtain ⟨switches, -, hc⟩ := bind_eq_ok.1 h
    exact isStorable_ofCategories hnow hc
  cases action with
  | acceptAll =>
    cases h
    exact isStorable_acceptAll hnow
  | rejectAll =>
    cases h
    exact isStorable_rejectAll hnow
  | _ => exact chosen h

theorem IsStorable.of_created {c : Consent} (h : c.IsStorable) {m : Moment} (hm : m.IsZoned) :
    { c with created := some m }.IsStorable where
  purposes := h.purposes
  vendors := h.vendors
  specialFeatures := h.specialFeatures
  created := by
    rintro m' ⟨⟩
    exact hm
  lastUpdated := h.lastUpdated
  tcString := h.tcString
  necessary := h.necessary

theorem IsStorable.stamped {c : Consent} (h : c.IsStorable) {t : Json} (ht : ∃ text, t = .str text) :
    (Session.stamped (some t) c).IsStorable where
  purposes := h.purposes
  vendors := h.vendors
  specialFeatures := h.specialFeatures
  created := h.created
  lastUpdated := h.lastUpdated
  tcString := ht
  necessary := h.necessary

end Consent

namespace Server

/-- A server that gives only documents of a kind for decisions. -/
def Gives (P : Json → Prop) (s : Server) : Prop :=
  ∀ status body, .answered status body ∈ s.responses → ∀ t ∈ tcStringOf? body, P t

section Gives

variable {P : Json → Prop} {s : Server}

theorem Gives.post (h : s.Gives P) (url : String) (payload : Json) :
    (s.post url payload).2.Gives P ∧
      ∀ status body, (s.post url payload).1 = .answered status body → ∀ t ∈ tcStringOf? body, P t := by
  unfold Server.post
  cases hr : s.responses with
  | nil =>
    refine ⟨fun status body hmem => ?_, ?_⟩
    · dsimp only at hmem
      cases hmem
    · rintro status body ⟨⟩
      exact nofun
  | cons r rest =>
    refine ⟨fun status body hmem => h status body (hr ▸ List.mem_cons_of_mem _ hmem), ?_⟩
    rintro status body ⟨⟩
    exact h status body (hr ▸ List.mem_cons_self)

theorem Gives.deliver (h : s.Gives P) (baseUrl domainId : String) (r : Report) :
    (r.deliver baseUrl domainId s).2.Gives P ∧ ∀ t ∈ (r.deliver baseUrl domainId s).1, P t := by
  unfold Report.deliver
  split
  · exact ⟨h, nofun⟩
  · have hpost := h.post (consentEndpoint baseUrl domainId) r.json
    dsimp only
    split
    · rename_i s' heq
      rw [heq] at hpost
      exact ⟨hpost.1, nofun⟩
    · rename_i status body s' heq
      rw [heq] at hpost
      split
      · exact ⟨(hpost.1.post _ _).1, nofun⟩
      · split
        · exact ⟨hpost.1, hpost.2 status body rfl⟩
        · exact ⟨hpost.1, nofun⟩

end Gives

/-- A server that gives only texts for decisions. -/
def AnswersTexts (s : Server) : Prop :=
  ∀ status body, .answered status body ∈ s.responses → ∀ t ∈ tcStringOf? body, ∃ text, t = .str text

theorem AnswersTexts.gives {s : Server} (h : s.AnswersTexts) : s.Gives fun t => ∃ text, t = .str text := h

end Server

namespace Session

/-- What concerns the cookie of a page. -/
inductive Mark where
  /-- A consent was decided on, and written unless that failed. -/
  | decided (consent : Consent) (written : Bool)
  /-- The consent of the page was written again, with a text that the server gave. -/
  | stored

namespace Mark

def decision? : Mark → Option Consent
  | decided c _ => some c
  | stored => none

/-- Whether the cookie was written. -/
def writes : Mark → Bool
  | decided _ written => written
  | stored => true

end Mark

/-- The answers that a flush stores. -/
def storings : List Report → Session → List Mark
  | [], _ => []
  | r :: rest, s =>
    match result (storeTcString (answerTo r s)) (dispatched r rest s) with
    | (.ok _, t) => ((answerTo r s).bind fun _ => s.consent.map fun _ => .stored).toList ++ storings rest t
    | (.error _, _) => []

/-- What an event leaves in the cookie. -/
def marksOf (e : Event) (s : Session) : List Mark :=
  match e with
  | .act name categories =>
    (decidedBy name categories s).toList.map fun c => .decided c (s.store.save c s.browser).toBool
  | .flush => storings s.pending s
  | _ => []

/-- The last decision of a page, and the decision whose answers are in its cookie. -/
structure Ledger where
  own : Option Consent := none
  cookie : Option Consent := none

def Ledger.note (l : Ledger) : Mark → Ledger
  | .decided c written => ⟨some c, if written then some c else l.cookie⟩
  | .stored => ⟨l.own, l.own.or l.cookie⟩

/-- Events that neither forget the decision nor write cookies behind the page's back. -/
def Event.isOrdinary : Event → Bool
  | .reset => false
  | .setCookie _ => false
  | _ => true

/-- What a page of a banner and its cookie hold of the decisions that were made. -/
structure Records (bannerId : String) (l : Ledger) (s : Session) : Prop where
  banner : s.config.bannerId = bannerId
  plain : Cookie.IsPlainName bannerId
  texts : s.server.AnswersTexts
  idle : l.own = none → s.pending = [] ∧ ∀ c ∈ s.consent, ∀ m ∈ c.created, m.IsZoned
  own : ∀ c ∈ l.own, Started s ∧ ∃ c', s.consent = some c' ∧ c'.answers = c.answers ∧ c'.IsStorable
  cookie : ∀ c ∈ l.cookie, ∃ c', s.store.Holds s.browser c' ∧ c'.answers = c.answers ∧ c'.IsStorable

namespace Records

variable {bannerId : String} {l : Ledger} {s t : Session}

theorem isPlainName (h : Records bannerId l s) : Cookie.IsPlainName s.config.bannerId := h.banner ▸ h.plain

theorem created (h : Records bannerId l s) : ∀ c ∈ s.consent, ∀ m ∈ c.created, m.IsZoned := by
  cases hown : l.own with
  | none => exact (h.idle hown).2
  | some c =>
    obtain ⟨-, c', hc', -, hstorable⟩ := h.own c hown
    rintro c'' hc''
    rw [hc'] at hc''
    cases hc''
    exact hstorable.created

/-- The cookie holds what it held as long as its value is the same. -/
theorem of_get? (h : Records bannerId l s) (hconfig : t.config = s.config) (htexts : t.server.AnswersTexts)
    (hconsent : t.consent = s.consent) (hpending : t.pending = s.pending) (hstarted : Started s → Started t)
    (hjar : t.browser.jar.get? s.store.cookieName = s.browser.jar.get? s.store.cookieName) :
    Records bannerId l t where
  banner := hconfig ▸ h.banner
  plain := h.plain
  texts := htexts
  idle hown := by
    rw [hpending, hconsent]
    exact h.idle hown
  own c hc := by
    rw [hconsent]
    exact ⟨hstarted (h.own c hc).1, (h.own c hc).2⟩
  cookie c hc := by
    have hname : t.store.cookieName = s.store.cookieName := by
      rw [store, hconfig]
      rfl
    obtain ⟨c', hc', hanswers⟩ := h.cookie c hc
    refine ⟨c', ?_, hanswers⟩
    rw [ConsentStore.Holds, hname, hjar]
    exact hc'

theorem of_core (h : Records bannerId l s) (hcore : core t = core s) (hstarted : Started s → Started t) :
    Records bannerId l t := by
  have hconfig : t.config = s.config := congrArg Core.config hcore
  have hserver : t.server = s.server := congrArg Core.server hcore
  have hbrowser : t.browser = s.browser := congrArg Core.browser hcore
  have hjar : t.browser.jar = s.browser.jar := congrArg Browser.jar hbrowser
  exact h.of_get? hconfig (hserver ▸ h.texts) (congrArg Core.consent hcore) (congrArg Core.pending hcore) hstarted
    (hjar ▸ rfl)

end Records

theorem isStorable_of_decisionOf {action : ActionKind} {categories : Json} {s : Session} {c : Consent}
    (hcreated : ∀ c ∈ s.consent, ∀ m ∈ c.created, m.IsZoned) (h : decisionOf action categories s = .ok c) :
    c.IsStorable := by
  obtain ⟨now, hnow, h⟩ := bind_eq_ok.1 h
  obtain ⟨decided, hdecided, h⟩ := bind_eq_ok.1 h
  have hstorable := Consent.isStorable_of_consentOf (Moment.isZoned_of_ofMillis hnow) hdecided
  split at h
  · rename_i first hfirst
    obtain ⟨before, hbefore, hfirst⟩ := Option.bind_eq_some_iff.1 hfirst
    cases h
    exact hstorable.of_created (hcreated before hbefore first hfirst)
  · cases h
    exact hstorable

theorem Identified.get? {b b' : Browser} (h : Identified b b') (store : ConsentStore) :
    b'.jar.get? store.cookieName = b.jar.get? store.cookieName := by
  obtain rfl | ⟨id, hid⟩ := h
  · rfl
  · exact ConsentStore.get?_of_identify hid

section Kept

variable {bannerId : String} {l : Ledger} {s : Session}

theorem Records.decided {t : Session} (h : Records bannerId l s) {c : Consent} (hc : c.IsStorable)
    {pending : List Report} {b : Browser}
    (hcore : core t = { core s with consent := some c, pending := pending, browser := b })
    (hwritten : Written c s b) (hstarted : Started t) :
    Records bannerId (l.note (.decided c (s.store.save c s.browser).toBool)) t := by
  have hconfig : t.config = s.config := congrArg Core.config hcore
  have hserver : t.server = s.server := congrArg Core.server hcore
  have hconsent : t.consent = some c := congrArg Core.consent hcore
  have hbrowser : t.browser = b := congrArg Core.browser hcore
  have hstore : t.store = s.store := by rw [store, hconfig, store]
  refine ⟨hconfig ▸ h.banner, h.plain, hserver ▸ h.texts, ?_, ?_, ?_⟩
  · intro hnone
    cases hnone
  · rintro c' ⟨⟩
    exact ⟨hstarted, c, hconsent, rfl, hc⟩
  · rw [hstore, hbrowser, Ledger.note]
    unfold Written at hwritten
    cases hsave : s.store.save c s.browser with
    | error f =>
      rw [hsave] at hwritten
      rw [hwritten]
      exact h.cookie
    | ok saved =>
      rw [hsave] at hwritten
      rintro c' ⟨⟩
      refine ⟨c, ?_, rfl, hc⟩
      rw [ConsentStore.Holds, hwritten.get?]
      exact ConsentStore.holds_of_save h.isPlainName hsave

theorem records_act (h : Records bannerId l s) (name : String) (categories : Json) :
    Records bannerId ((marksOf (.act name categories) s).foldl Ledger.note l) (after (.act name categories) s) := by
  have hafter : core (after (.act name categories) s) = core (leaves (handle name categories) s) :=
    congrArg core (leaves_discard _ s)
  rw [core_handle] at hafter
  rw [marksOf, decidedBy]
  cases hn : decisionNamed name s with
  | none =>
    rw [hn] at hafter
    exact h.of_core hafter (started_after _)
  | some action =>
    rw [hn] at hafter
    rw [Option.bind_some]
    have hvisible : s.phase = .bannerVisible := by
      unfold decisionNamed at hn
      split at hn
      · assumption
      · cases hn
    cases hd : decisionOf action categories s with
    | error f => exact h.of_core (hafter.trans (core_applyDecision_error hd)) (started_after _)
    | ok c =>
      obtain ⟨own, b, hb, -, hwritten⟩ := core_applyDecision hd
      have hstarted : Started s := by
        rw [Started, hvisible]
        decide
      exact h.decided (isStorable_of_decisionOf h.created hd) (hafter.trans hb) hwritten (started_after _ hstarted)

theorem Records.dispatched (h : Records bannerId l s) (hown : l.own ≠ none) (r : Report)
    (rest : List Report) : Records bannerId l (dispatched r rest s) where
  banner := h.banner
  plain := h.plain
  texts := (h.texts.gives.deliver _ _ r).1
  idle hnone := absurd hnone hown
  own := h.own
  cookie := h.cookie

/-- The text of an answer is stored with the answers of the page's own decision. -/
theorem Records.stored (h : Records bannerId l s) {c : Consent} (hown : l.own = some c)
    {t : Json} (ht : ∃ text, t = .str text) :
    match result (storeTcString (some t)) s with
    | (.ok _, u) => Records bannerId (l.note .stored) u
    | (.error _, u) => Records bannerId l u := by
  obtain ⟨hstarted, c', hc', hanswers, hstorable⟩ := h.own c hown
  have hstamped := hstorable.stamped ht
  have hrecords : Records bannerId l { s with consent := some (stamped (some t) c') } := by
    refine ⟨h.banner, h.plain, h.texts, fun hnone => ?_, ?_, h.cookie⟩
    · rw [hown] at hnone
      cases hnone
    · intro c'' hc''
      rw [hown] at hc''
      cases hc''
      exact ⟨hstarted, _, rfl, hanswers, hstamped⟩
  rw [result_storeTcString_some hc', result_persist]
  split
  · rename_i heq
    split at heq
    · rename_i b hsave
      cases heq
      refine ⟨h.banner, h.plain, h.texts, hrecords.idle, hrecords.own, ?_⟩
      rw [Ledger.note, hown]
      rintro c'' ⟨⟩
      exact ⟨_, ConsentStore.holds_of_save h.isPlainName hsave, hanswers, hstamped⟩
    · cases heq
  · rename_i heq
    split at heq
    · cases heq
    · cases heq
      exact hrecords

theorem records_sendAll (rs : List Report) (hs : s.pending = rs) (h : Records bannerId l s) :
    Records bannerId ((storings rs s).foldl Ledger.note l) (leaves (sendAll rs) s) := by
  induction rs generalizing l s with
  | nil => exact h
  | cons r rest ih =>
    -- A page with something to send has decided, so what its answers are stored with is its own decision.
    cases hown : l.own with
    | none =>
      rw [(h.idle hown).1] at hs
      cases hs
    | some c =>
      obtain ⟨-, c', hc', -⟩ := h.own c hown
      have hsent : Records bannerId l (dispatched r rest s) := h.dispatched (by simp [hown]) r rest
      obtain ⟨b, hb⟩ := core_storeTcString (answerTo r s) (Session.dispatched r rest s)
      rw [leaves] at hb
      rw [leaves_sendAll_cons, storings]
      cases ht : answerTo r s with
      | none =>
        rw [result_storeTcString_none (.inl rfl)]
        exact ih rfl hsent
      | some t =>
        have hstored := hsent.stored hown ((h.texts.gives.deliver _ _ r).2 t ht)
        rw [ht] at hb
        rcases hr : result (storeTcString (some t)) (Session.dispatched r rest s) with ⟨e | u, v⟩
        · rw [hr] at hstored
          exact hstored
        · rw [hr] at hstored hb
          rw [hc']
          exact ih (congrArg Core.pending hb) hstored

theorem records_flush (h : Records bannerId l s) :
    Records bannerId ((marksOf .flush s).foldl Ledger.note l) (after .flush s) := by
  rw [after_flush, marksOf]
  exact records_sendAll s.pending rfl h

/-- A start takes over what the cookie holds, as long as no decision was made on the page. -/
theorem records_start (h : Records bannerId l s) : Records bannerId l (after .start s) := by
  have hafter : core (after .start s) = core (leaves start s) := congrArg core (leaves_discard _ s)
  by_cases hp : s.phase = .init
  · have hown : l.own = none := by
      cases hown : l.own with
      | none => rfl
      | some c => exact absurd hp (h.own c hown).1
    cases hl : s.store.load s.browser with
    | error f => exact h.of_core (hafter.trans (core_start_error hp hl)) (started_after _)
    | ok stored =>
      obtain ⟨b, hb, hid⟩ := core_start hp hl
      have hcore := hafter.trans hb
      have hloaded : Records bannerId l { s with consent := stored } := by
        refine ⟨h.banner, h.plain, h.texts, fun _ => ⟨(h.idle hown).1, fun c hc => ?_⟩, ?_, h.cookie⟩
        · cases hc
          exact ConsentStore.isZoned_of_load hl
        · rw [hown]
          exact nofun
      have hserver : (after .start s).server = s.server := congrArg Core.server hcore
      have hbrowser : (after .start s).browser = b := congrArg Core.browser hcore
      refine hloaded.of_get? (congrArg Core.config hcore) (hserver ▸ h.texts) (congrArg Core.consent hcore)
        (congrArg Core.pending hcore) (fun hs => started_after .start (show Started s from hs)) ?_
      rw [hbrowser]
      exact hid.get? s.store
  · exact h.of_core (hafter.trans (core_start_of_started hp)) (started_after _)

/-- An event leaves the page and its cookie with the decisions that its marks tell of. -/
theorem records_after (h : Records bannerId l s) (e : Event) (he : e.isOrdinary) :
    Records bannerId ((marksOf e s).foldl Ledger.note l) (after e s) := by
  have display {m : SessionM Unit} (hm : ∀ {P}, OffDisplay P → Preserves P m) (hmark : perform e = m)
      (hnone : marksOf e s = []) : Records bannerId ((marksOf e s).foldl Ledger.note l) (after e s) := by
    have hcore : core (after e s) = core s := by
      rw [after, hmark]
      exact (keeps_core hm).eq s
    rw [hnone]
    exact h.of_core hcore (started_after e)
  cases e with
  | start => exact records_start h
  | act name categories => exact records_act h name categories
  | reset => cases he
  | flush => exact records_flush h
  | icon => exact display (fun h => .discard h.clickIcon) rfl rfl
  | tick => exact display (fun h => .discard h.tick) rfl rfl
  | resize width => exact display (fun h => .discard (h.resize width)) rfl rfl
  | advance seconds =>
    have hafter : after (.advance seconds) s = leaves (advance seconds) s := rfl
    change Records bannerId l (after (.advance seconds) s)
    rw [hafter, leaves_advance]
    cases hb : s.browser.advance seconds with
    | error f => exact h
    | ok b =>
      obtain ⟨ms, -, hnow⟩ := bind_eq_ok.1 hb
      obtain ⟨now, -, hnow⟩ := bind_eq_ok.1 hnow
      cases hnow
      exact h.of_get? rfl h.texts rfl rfl id rfl
  | setCookie cookie => cases he
  | call command version listener parameter => exact display (fun h => h.callApi _ _ _ _) rfl rfl
  | receive message => exact display (fun h => .discard (h.receive message)) rfl rfl

end Kept

end Session

end ConsentBanner
