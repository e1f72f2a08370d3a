import ConsentBanner.Proofs.Session.Cookie

/-!
Pages of a banner in several tabs of one browser.
-/

namespace ConsentBanner

open Session

/-- Pages in tabs that share cookies and storage. Each has a clock of its own. -/
structure Tabs (ι : Type) where
  jar : CookieJar
  storage : List (String × String)
  page : ι → Session

namespace Tabs

variable {ι : Type}

/-- The page in a tab, with the cookies and the storage as they are now. -/
def session (t : Tabs ι) (i : ι) : Session :=
  { t.page i with browser := { (t.page i).browser with jar := t.jar, storage := t.storage } }

/-- The consent that a tab finds in the cookie has the answers of a decision. -/
def Finds (t : Tabs ι) (i : ι) (c : Consent) : Prop :=
  ∃ c', (t.session i).store.load (t.session i).browser = .ok (some c') ∧ c'.answers = c.answers

/-- A page of a banner before anything happened, whose server gives only texts for decisions. -/
def IsNew (bannerId : String) (s : Session) : Prop :=
  ∃ config environment components browser server,
    create config environment components browser server = .ok s ∧ config.bannerId = bannerId ∧ server.AnswersTexts

/-- The last decision of every tab, and the decision whose answers are in the cookie. -/
structure Book (ι : Type) where
  own : ι → Option Consent := fun _ => none
  cookie : Option Consent := none

def Book.ledger (b : Book ι) (i : ι) : Ledger := ⟨b.own i, b.cookie⟩

/-- The pages of a banner, and their cookie, hold what a book says. -/
def Agrees (bannerId : String) (b : Book ι) (t : Tabs ι) : Prop := ∀ i, Records bannerId (b.ledger i) (t.session i)

theorem Agrees.finds {bannerId : String} {b : Book ι} {t : Tabs ι} (h : Agrees bannerId b t) {c : Consent}
    (hc : b.cookie = some c) (j : ι) : t.Finds j c := by
  obtain ⟨c', hholds, hanswers, hstorable⟩ := (h j).cookie c hc
  exact ⟨c', hholds.load hstorable, hanswers⟩

theorem agrees_of_isNew {bannerId : String} (hid : Cookie.IsPlainName bannerId) {t : Tabs ι}
    (h : ∀ i, IsNew bannerId (t.page i)) : Agrees bannerId {} t := by
  intro i
  obtain ⟨config, environment, components, browser, server, hcreate, hbanner, htexts⟩ := h i
  obtain ⟨reason, -, hcreate⟩ := bind_eq_ok.1 hcreate
  have hpage : t.page i = _ := (Except.ok.inj hcreate).symm
  rw [session, hpage]
  exact ⟨hbanner, hid, htexts, fun _ => ⟨rfl, nofun⟩, nofun, nofun⟩

/-- A page whose cookies another page of the same banner has changed. -/
theorem records_shared {bannerId : String} {l l' : Ledger} {s u : Session} (h : Records bannerId l s)
    (hu : Records bannerId l' u) (storage : List (String × String)) :
    Records bannerId ⟨l.own, l'.cookie⟩
      { s with browser := { s.browser with jar := u.browser.jar, storage := storage } } where
  banner := h.banner
  plain := h.plain
  texts := h.texts
  idle := h.idle
  own := h.own
  cookie c hc := by
    obtain ⟨c', hc', hanswers⟩ := hu.cookie c hc
    have hname : u.store.cookieName = s.store.cookieName :=
      congrArg (· ++ "-consent") (hu.banner.trans h.banner.symm)
    refine ⟨c', ?_, hanswers⟩
    rw [ConsentStore.Holds, hname] at hc'
    exact hc'

variable [DecidableEq ι]

/-- What happens to the page in one tab; the others see no more of it than the cookies and the storage. -/
def step (t : Tabs ι) (i : ι) (e : Event) : Tabs ι :=
  let s := after e (t.session i)
  { jar := s.browser.jar, storage := s.browser.storage, page := fun j => if j = i then s else t.page j }

def run (t : Tabs ι) : List (ι × Event) → Tabs ι
  | [] => t
  | (i, e) :: rest => (t.step i e).run rest

/-- What the steps of a run leave in the cookie, with the tab of each. -/
def marks (t : Tabs ι) : List (ι × Event) → List (ι × Mark)
  | [] => []
  | (i, e) :: rest => (marksOf e (t.session i)).map (i, ·) ++ (t.step i e).marks rest

/-- The decision that a mark tells of, if it was made in a given tab. -/
def decisionIn (i : ι) (p : ι × Mark) : Option Consent := if p.1 = i then p.2.decision? else none

/-- The last decision of a tab. -/
def lastDecision (i : ι) (ms : List (ι × Mark)) : Option Consent := (ms.filterMap (decisionIn i)).getLast?

theorem lastDecision_cons (i : ι) (p : ι × Mark) (ms : List (ι × Mark)) :
    lastDecision i (p :: ms) = (lastDecision i ms).or (decisionIn i p) := by
  rw [lastDecision, lastDecision, List.filterMap_cons]
  cases decisionIn i p with
  | none => rw [Option.or_none]
  | some c =>
    dsimp only
    rw [List.getLast?_cons]
    cases (ms.filterMap (decisionIn i)).getLast? with
    | none => rfl
    | some c' => rfl

namespace Book

def note (b : Book ι) (p : ι × Mark) : Book ι :=
  let l := (b.ledger p.1).note p.2
  { own := fun j => if j = p.1 then l.own else b.own j, cookie := l.cookie }

theorem ledger_note_self (b : Book ι) (i : ι) (m : Mark) : (b.note (i, m)).ledger i = (b.ledger i).note m := by
  rw [ledger, note]
  dsimp only
  rw [if_pos rfl]

theorem own_note_self (b : Book ι) (i : ι) (m : Mark) :
    (b.note (i, m)).own i = ((b.ledger i).note m).own := if_pos rfl

theorem own_note_of_ne (b : Book ι) {i j : ι} (h : j ≠ i) (m : Mark) : (b.note (i, m)).own j = b.own j := if_neg h

theorem own_note (b : Book ι) (i : ι) (p : ι × Mark) : (b.note p).own i = (decisionIn i p).or (b.own i) := by
  obtain ⟨j, m⟩ := p
  by_cases hj : i = j
  · subst hj
    rw [own_note_self, decisionIn, if_pos rfl]
    cases m with
    | decided c written => rfl
    | stored => rfl
  · rw [own_note_of_ne b hj, decisionIn, if_neg (Ne.symm hj)]
    rfl

theorem own_foldl_note (b : Book ι) (i : ι) (ms : List (ι × Mark)) :
    (ms.foldl note b).own i = (lastDecision i ms).or (b.own i) := by
  induction ms generalizing b with
  | nil => rfl
  | cons p rest ih => rw [List.foldl_cons, ih, own_note, lastDecision_cons, Option.or_assoc]

theorem ledger_foldl_note (b : Book ι) (i : ι) (ms : List Mark) :
    ((ms.map (i, ·)).foldl note b).ledger i = ms.foldl Ledger.note (b.ledger i) := by
  induction ms generalizing b with
  | nil => rfl
  | cons m rest ih => rw [List.map_cons, List.foldl_cons, ih, ledger_note_self, List.foldl_cons]

theorem own_foldl_note_of_ne (b : Book ι) {i j : ι} (h : j ≠ i) (ms : List Mark) :
    ((ms.map (i, ·)).foldl note b).own j = b.own j := by
  induction ms generalizing b with
  | nil => rfl
  | cons m rest ih => rw [List.map_cons, List.foldl_cons, ih, own_note_of_ne b h]

/-- A write to the cookie leaves the decision of its tab there. -/
theorem cookie_note {b : Book ι} {i : ι} {m : Mark} (hm : m.writes = true) (h : m = .stored → b.own i ≠ none) :
    ∃ c, (b.note (i, m)).own i = some c ∧ (b.note (i, m)).cookie = some c := by
  rw [own_note_self]
  cases m with
  | decided c written =>
    cases (show written = true from hm)
    exact ⟨c, rfl, rfl⟩
  | stored =>
    obtain ⟨c, hc⟩ := Option.ne_none_iff_exists'.1 (h rfl)
    refine ⟨c, hc, ?_⟩
    change (b.own i).or b.cookie = some c
    rw [hc]
    rfl

theorem cookie_foldl_note {ms : List (ι × Mark)} (h : ∀ p ∈ ms, p.2.writes = false) (b : Book ι) :
    (ms.foldl note b).cookie = b.cookie := by
  induction ms generalizing b with
  | nil => rfl
  | cons p rest ih =>
    obtain ⟨i, m⟩ := p
    have hp : m.writes = false := h (i, m) List.mem_cons_self
    rw [List.foldl_cons, ih fun p hp => h p (List.mem_cons_of_mem _ hp)]
    cases m with
    | decided c written =>
      cases (show written = false from hp)
      rfl
    | stored => cases hp

/-- Answers that a tab stores itself leave its own decision in the cookie. -/
theorem cookie_foldl_stored {b : Book ι} {i : ι} {c : Consent} (hown : b.own i = some c)
    (hcookie : b.cookie = some c) {ms : List (ι × Mark)} (h : ∀ p ∈ ms, p = (i, .stored)) :
    (ms.foldl note b).cookie = some c := by
  induction ms generalizing b with
  | nil => exact hcookie
  | cons p rest ih =>
    obtain rfl := h p List.mem_cons_self
    rw [List.foldl_cons]
    apply ih ?_ ?_ fun p hp => h p (List.mem_cons_of_mem _ hp)
    · rw [own_note, decisionIn, if_pos rfl]
      exact hown
    · change (b.own i).or b.cookie = some c
      rw [hown]
      rfl

/-- No answer is stored in a tab before a decision was made there. -/
def Earns : Book ι → List (ι × Mark) → Prop
  | _, [] => True
  | b, p :: rest => (p.2 = .stored → b.own p.1 ≠ none) ∧ Earns (b.note p) rest

theorem earns_append {b : Book ι} {ms ns : List (ι × Mark)} :
    b.Earns (ms ++ ns) ↔ b.Earns ms ∧ (ms.foldl note b).Earns ns := by
  induction ms generalizing b with
  | nil => simp [Earns]
  | cons p rest ih => rw [List.cons_append, Earns, ih, Earns, List.foldl_cons, and_assoc]

theorem earns_of_own {b : Book ι} {i : ι} (h : b.own i ≠ none) (ms : List Mark) : b.Earns (ms.map (i, ·)) := by
  induction ms generalizing b with
  | nil => exact trivial
  | cons m rest ih =>
    refine ⟨fun _ => h, ih ?_⟩
    rw [own_note_self]
    cases m with
    | decided c written => exact Option.some_ne_none c
    | stored => exact h

end Book

theorem session_step_self (t : Tabs ι) (i : ι) (e : Event) : (t.step i e).session i = after e (t.session i) := by
  rw [session, step]
  dsimp only
  rw [if_pos rfl]

theorem session_step_of_ne (t : Tabs ι) {i j : ι} (h : j ≠ i) (e : Event) :
    (t.step i e).session j =
      { t.session j with
        browser := { (t.session j).browser with jar := (t.step i e).jar, storage := (t.step i e).storage } } := by
  have hpage : (t.step i e).page j = t.page j := if_neg h
  rw [session, hpage]
  rfl

theorem agrees_step {bannerId : String} {b : Book ι} {t : Tabs ι} (h : Agrees bannerId b t) (i : ι) (e : Event)
    (he : e.isOrdinary) :
    Agrees bannerId (((marksOf e (t.session i)).map (i, ·)).foldl Book.note b) (t.step i e) := by
  have hself := records_after (h i) e he
  rw [← Book.ledger_foldl_note] at hself
  intro j
  by_cases hj : j = i
  · subst hj
    rw [session_step_self]
    exact hself
  · rw [session_step_of_ne t hj, Book.ledger, Book.own_foldl_note_of_ne b hj]
    exact records_shared (h j) hself _

theorem earns_step {bannerId : String} {b : Book ι} {t : Tabs ι} (h : Agrees bannerId b t) (i : ι) (e : Event) :
    b.Earns ((marksOf e (t.session i)).map (i, ·)) := by
  cases e with
  | act name categories =>
    rw [marksOf]
    cases decidedBy name categories (t.session i) with
    | none => exact trivial
    | some c =>
      refine ⟨?_, trivial⟩
      intro hstored
      cases hstored
  | flush =>
    cases hown : b.own i with
    | none =>
      rw [marksOf, ((h i).idle hown).1]
      exact trivial
    | some c => exact Book.earns_of_own (by simp [hown]) _
  | _ => exact trivial

theorem agrees_run {bannerId : String} (steps : List (ι × Event)) {b : Book ι} {t : Tabs ι}
    (h : Agrees bannerId b t) (hsteps : ∀ p ∈ steps, p.2.isOrdinary) :
    Agrees bannerId ((t.marks steps).foldl Book.note b) (t.run steps) ∧ b.Earns (t.marks steps) := by
  induction steps generalizing b t with
  | nil => exact ⟨h, trivial⟩
  | cons p rest ih =>
    obtain ⟨i, e⟩ := p
    have hstep := agrees_step h i e (hsteps (i, e) List.mem_cons_self)
    obtain ⟨hrest, hearns⟩ := ih hstep fun p hp => hsteps p (List.mem_cons_of_mem _ hp)
    rw [marks, List.foldl_append, Book.earns_append]
    exact ⟨hrest, earns_step h i e, hearns⟩

/-- The cookie holds what the tab that wrote it last had decided by then, whether it wrote to decide or to store an
answer. The last decision of all is there as long as only its own tab stores answers after it. -/
theorem run_finds {bannerId : String} (hid : Cookie.IsPlainName bannerId) {t : Tabs ι}
    (hnew : ∀ i, IsNew bannerId (t.page i)) (steps : List (ι × Event)) (hsteps : ∀ p ∈ steps, p.2.isOrdinary) :
    (∀ before i m after, t.marks steps = before ++ (i, m) :: after → m.writes = true →
      (∀ p ∈ after, p.2.writes = false) →
        ∃ c, lastDecision i (before ++ [(i, m)]) = some c ∧ ∀ j, (t.run steps).Finds j c) ∧
      ∀ before i c after, t.marks steps = before ++ (i, .decided c true) :: after →
        (∀ p ∈ after, p = (i, .stored)) → ∀ j, (t.run steps).Finds j c := by
  obtain ⟨hrun, hearns⟩ := agrees_run steps (agrees_of_isNew hid hnew) hsteps
  constructor
  · intro before i m after hmarks hwrites hafter
    rw [hmarks] at hrun hearns
    obtain ⟨-, hstored, -⟩ := Book.earns_append.1 hearns
    obtain ⟨c, hown, hcookie⟩ := Book.cookie_note hwrites hstored
    refine ⟨c, ?_, hrun.finds ?_⟩
    · have hlast := Book.own_foldl_note ({} : Book ι) i (before ++ [(i, m)])
      rw [List.foldl_append, Option.or_none] at hlast
      exact hlast.symm.trans hown
    · rw [List.foldl_append, List.foldl_cons, Book.cookie_foldl_note hafter]
      exact hcookie
  · -- Nothing but stored answers of the deciding tab follows, and each of them writes its decision again.
    intro before i c after hmarks hafter
    rw [hmarks] at hrun
    apply hrun.finds
    rw [List.foldl_append, List.foldl_cons]
    exact Book.cookie_foldl_stored (if_pos rfl) rfl hafter

/-- Two tabs of one browser, with the same page. -/
def twoTabs : Tabs Bool where
  jar := {}
  storage := []
  page _ := plainSession

theorem isNew_twoTabs (i : Bool) : IsNew "banner" (twoTabs.page i) := by
  refine ⟨_, _, _, _, _, create_plainSession, rfl, ?_⟩
  intro status body hmem t ht
  obtain heq | hmem := List.mem_cons.1 hmem
  · cases heq
    exact ⟨"A", (Option.some.inj ht).symm⟩
  · cases List.mem_singleton.1 hmem

theorem isPlainName_banner : Cookie.IsPlainName "banner" := ⟨by decide, by decide, by decide⟩

/-- A decision in each tab, after both have started. -/
def bothDecide : List (Bool × Event) :=
  [(false, .start), (true, .start), (false, .act "accept_all" .null), (true, .act "reject_all" .null)]

theorem run_finds_bothDecide : ∃ c, lastDecision true (twoTabs.marks bothDecide) = some c ∧
    ∀ j, (twoTabs.run bothDecide).Finds j c := by
  have hlast : ((twoTabs.marks bothDecide).getLast?.map fun p => (p.1, p.2.writes)) = some (true, true) := by
    decide +kernel
  obtain ⟨⟨i, m⟩, hp, hpair⟩ := Option.map_eq_some_iff.1 hlast
  obtain ⟨rfl, hwrites⟩ := Prod.mk.inj hpair
  obtain ⟨before, hmarks⟩ := List.getLast?_eq_some_iff.1 hp
  rw [hmarks]
  exact (run_finds isPlainName_banner isNew_twoTabs bothDecide (by decide)).1 before true m [] hmarks hwrites nofun

/-- The tab that decided first flushes its report after the other has decided. -/
def lateFlush : List (Bool × Event) := bothDecide ++ [(false, .flush)]

theorem eq_decided_of_answer {m : Mark} {v : Option Bool} (h : m.decision?.map (·.purposes.get? 2) = some v)
    (hwrites : m.writes = true) : ∃ c, m = .decided c true ∧ c.purposes.get? 2 = v := by
  cases m with
  | decided c written =>
    cases (show written = true from hwrites)
    exact ⟨c, rfl, Option.some.inj h⟩
  | stored => cases h

/-- The text for the decision of one tab puts that decision back in the place of a later one. -/
theorem run_loses_last_decision : ¬ ∀ (t : Tabs Bool) (steps : List (Bool × Event)),
    (∀ i, IsNew "banner" (t.page i)) → (∀ p ∈ steps, p.2.isOrdinary) →
      ∀ before i c after, t.marks steps = before ++ (i, .decided c true) :: after →
        (∀ p ∈ after, p.2.decision? = none) → ∀ j, (t.run steps).Finds j c := by
  intro h
  have hshape : (twoTabs.marks lateFlush).map (fun p => (p.1, p.2.decision?.map (·.purposes.get? 2), p.2.writes)) =
      [(false, some (some true), true), (true, some (some false), true), (false, none, true)] := by
    decide +kernel
  have hordinary : ∀ p ∈ lateFlush, p.2.isOrdinary := by decide
  obtain ⟨⟨i, m⟩, ms, hmarks, hm, hshape⟩ := List.map_eq_cons_iff.1 hshape
  obtain ⟨⟨i', m'⟩, ms', rfl, hm', hshape⟩ := List.map_eq_cons_iff.1 hshape
  obtain ⟨⟨i'', m''⟩, ms'', rfl, hm'', hshape⟩ := List.map_eq_cons_iff.1 hshape
  obtain rfl := List.map_eq_nil_iff.1 hshape
  simp only [Prod.mk.injEq] at hm hm' hm''
  obtain ⟨rfl, haccepted, hwrites⟩ := hm
  obtain ⟨rfl, hrejected, hwrites'⟩ := hm'
  obtain ⟨rfl, hstored, -⟩ := hm''
  obtain ⟨accepted, rfl, haccepts⟩ := eq_decided_of_answer haccepted hwrites
  obtain ⟨rejected, rfl, hrejects⟩ := eq_decided_of_answer hrejected hwrites'
  have hundecided : m''.decision? = none := Option.map_eq_none_iff.1 hstored
  obtain ⟨hrun, -⟩ := agrees_run lateFlush (agrees_of_isNew isPlainName_banner isNew_twoTabs) hordinary
  have hcookie : ((twoTabs.marks lateFlush).foldl Book.note {}).cookie = some accepted := by
    rw [hmarks]
    cases m'' with
    | decided c written => cases hundecided
    | stored => rfl
  obtain ⟨found, hfound, haccepting⟩ := hrun.finds hcookie true
  obtain ⟨found', hfound', hrejecting⟩ := h twoTabs lateFlush isNew_twoTabs hordinary
    [(false, .decided accepted true)] true rejected [(false, m'')] hmarks (by simp [hundecided]) true
  cases hfound.symm.trans hfound'
  have hpurposes : accepted.purposes = rejected.purposes := congrArg (·.1) (haccepting.symm.trans hrejecting)
  rw [hpurposes, hrejects] at haccepts
  cases haccepts

end Tabs

end ConsentBanner
