import Mathlib.Data.List.Chain
import ConsentBanner.Proofs.Session.Face

/-!
The phases of a session between two events, and how they fit what the visitor sees.
-/

namespace ConsentBanner

namespace Signal.Api

theorem display_call (a : Api) (consent : Option Consent) (command version : Json) (listener : Option Listener)
    (parameter : Json) : (a.call consent command version listener parameter).api.display = a.display := by
  unfold call
  cases listener with
  | none => rfl
  | some l =>
    dsimp only
    split
    · rfl
    · split
      · rfl
      · unfold answerData
        split
        · rfl
        · rfl
      · rfl
      · unfold removeListener
        split
        · rfl
        · rfl
      · split
        · rfl
        · rfl

theorem display_receive (a : Api) (consent : Option Consent) (message : Json) :
    (a.receive consent message).1.api.display = a.display := by
  unfold receive
  split
  · exact display_call ..
  · rfl

end Signal.Api

namespace Session

/-- Which phase may come after which. -/
inductive Follows : Phase → Phase → Prop where
  | started : Follows .init .evaluateConsent
  | asked : Follows .evaluateConsent .bannerVisible
  | notAsked : Follows .evaluateConsent .hidden
  | decided : Follows .bannerVisible .applyConsent
  | applied : Follows .applyConsent .persistCookie
  | persisted : Follows .persistCookie .reportToServer
  | reported : Follows .reportToServer .hidden
  | closed : Follows .bannerVisible .hidden
  | reopened : Follows .hidden .bannerVisible
  | resetVisible : Follows .bannerVisible .evaluateConsent
  | resetHidden : Follows .hidden .evaluateConsent

/-- The phases that a session passes through in one event, from a phase that it rests in. -/
inductive Passage : Phase → List Phase → Prop where
  | rest (p : Phase) : Passage p []
  | asked : Passage .init [.evaluateConsent, .bannerVisible]
  | notAsked : Passage .init [.evaluateConsent, .hidden]
  | decided : Passage .bannerVisible [.applyConsent, .persistCookie, .reportToServer, .hidden]
  | closed : Passage .bannerVisible [.hidden]
  | reopened : Passage .hidden [.bannerVisible]
  | reset (p : Phase) : Passage p [.evaluateConsent, .bannerVisible]

/-- A phase that a session rests in between two events. -/
def AtRest (p : Phase) : Prop := p = .init ∨ p = .bannerVisible ∨ p = .hidden

/-- A step that, from a session, either goes through a passage to its end, or is refused and changes nothing,
or fails. -/
structure Passes {α : Type} (m : SessionM α) (s : Session) : Prop where
  passage : ∀ a t, result m s = (.ok a, t) →
    ∃ ps, Passage s.phase ps ∧ face t = { (face s).enterAll ps with now := t.browser.now }
  unchanged : ∀ r t, result m s = (.error (.refused r), t) → t = s

namespace Passes

variable {α β : Type} {s : Session}

theorem of_leads {m : SessionM α} (h : Leads (Passage s.phase) m) : Passes m s where
  passage a t hr := by
    obtain ⟨ps, hps, ht⟩ := h.through s a t hr
    have hnow : t.browser.now = ((face s).enterAll ps).now := congrArg Face.now ht
    exact ⟨ps, hps, by rw [hnow, ht]⟩
  unchanged r t hr := absurd (congrArg Prod.fst hr) (h.accepted s r)

theorem of_still {m : SessionM α} (h : Still m) : Passes m s :=
  of_leads (h.of_eq (.rest s.phase))

theorem refuse (r : Refusal) (k : α → SessionM β) : Passes (throw (.refused r) >>= k) s where
  passage a t hr := by cases hr
  unchanged r' t hr := by
    cases hr
    rfl

theorem get_bind {k : Session → SessionM α} (h : Passes (k s) s) : Passes (get >>= k) s where
  passage a t hr := by
    rw [result_bind, result_get] at hr
    exact h.passage a t hr
  unchanged r t hr := by
    rw [result_bind, result_get] at hr
    exact h.unchanged r t hr

theorem last {m : SessionM α} {k : α → SessionM β} (hm : Passes m s) (hk : ∀ a, Still (k a)) :
    Passes (m >>= k) s where
  passage b t hr := by
    obtain ⟨a, u, hu, hr⟩ := result_bind_eq_ok.1 hr
    obtain ⟨ps, hps, hface⟩ := hm.passage a u hu
    obtain ⟨_, rfl, ht⟩ := (hk a).through u b t hr
    have hnow : t.browser.now = u.browser.now := congrArg Face.now ht
    exact ⟨ps, hps, by rw [hnow, ← hface]; exact ht⟩
  unchanged r t hr := by
    rw [result_bind] at hr
    rcases hu : result m s with ⟨e | a, u⟩
    · rw [hu] at hr
      cases hr
      exact hm.unchanged r t hu
    · rw [hu] at hr
      exact absurd (congrArg Prod.fst hr) ((hk a).accepted u r)

theorem discard {m : SessionM α} (h : Passes m s) : Passes (discard m) s := h.last fun _ => .pure _

theorem ite {p : Prop} [Decidable p] {m n : SessionM α} (hm : p → Passes m s) (hn : ¬ p → Passes n s) :
    Passes (if p then m else n) s := by
  split
  · exact hm ‹_›
  · exact hn ‹_›

theorem start : Passes start s := by
  refine get_bind (ite (fun _ => refuse _ _) fun hphase => ?_)
  have hinit : s.phase = .init := by simpa using hphase
  refine of_leads (.bind (.enter (by decide)) fun _ => .bind (.lift _) fun stored => ?_)
  refine .bind (.modify fun _ => rfl) fun _ => .bind .shouldShow fun due => ?_
  refine .bind (.discard .identify) fun _ => .ite ?_ ?_
  · exact .bind .showBanner fun _ => Leads.phase.of_eq (by rw [hinit]; exact .asked)
  · exact .bind (.enter (by decide)) fun _ => Leads.phase.of_eq (by rw [hinit]; exact .notAsked)

theorem showPreferences : Passes showPreferences s := by
  refine get_bind (ite (fun _ => refuse _ _) fun _ => ite (fun hhidden => ?_) fun _ => ?_)
  · have hp : s.phase = .hidden := by simpa using hhidden
    refine of_leads (.bind .showBanner fun _ => .bind (.modify fun _ => rfl) fun _ => ?_)
    exact Leads.phase.of_eq (by rw [hp]; exact .reopened)
  · exact of_still (.bind (.modify fun _ => rfl) fun _ => Leads.phase)

theorem act (action : Option ActionKind) (categories : Json) (h : s.phase = .bannerVisible) :
    Passes (act action categories) s := by
  refine of_leads ?_
  rw [h]
  unfold Session.act
  split
  · refine .bind .get fun _ => .ite (.of_eq (.modify fun _ => rfl) (.rest _)) ?_
    exact .of_eq (.enter (by decide)) .closed
  · refine .ite ?_ (.of_eq (.pure _) (.rest _))
    exact .of_eq (.applyDecision _ categories) .decided
  · exact .of_eq (.pure _) (.rest _)

theorem handle (name : String) (categories : Json) : Passes (handle name categories) s := by
  refine get_bind ?_
  split
  · exact showPreferences
  · refine ite (fun _ => refuse _ _) fun hphase => ?_
    exact (act _ categories (by simpa using hphase)).last fun _ => Leads.phase

theorem clickIcon : Passes clickIcon s := get_bind (ite (fun _ => refuse _ _) fun _ => showPreferences)

theorem tick : Passes tick s := by
  refine get_bind ?_
  split
  · rename_i hp
    refine of_leads (.bind (.lift _) fun hides => .ite ?_ ?_)
    · exact .bind (.enter (by decide)) fun _ => Leads.phase.of_eq (by rw [hp]; exact .closed)
    · exact Leads.phase.of_eq (.rest _)
  · rename_i hp
    have asleep : Leads (Passage s.phase) (do return (← MonadState.get).phase) :=
      Leads.phase.of_eq (.rest _)
    refine of_leads (.ite (.bind (.lift _) fun decided => .ite (.bind .shouldShow fun due => .ite ?_ ?_) ?_) ?_)
    · exact .bind .showBanner fun _ => Leads.phase.of_eq (by rw [hp]; exact .reopened)
    · exact asleep
    · exact asleep
    · exact asleep
  · exact of_still Leads.phase

theorem reset : Passes reset s := by
  refine of_leads (.bind (.modify fun _ => rfl) fun _ => .bind (.enter (by decide)) fun _ => ?_)
  exact .bind .showBanner fun _ => Leads.phase.of_eq (.reset _)

theorem modify_bind {f : Session → Session} {k : Unit → SessionM α} (hf : face (f s) = face s)
    (hk : Still (k ())) : Passes (modify f >>= k) s where
  passage a t hr := by
    rw [result_bind, result_modify] at hr
    obtain ⟨_, rfl, ht⟩ := hk.through _ _ _ hr
    have hface : face t = face s := ht.trans hf
    have hnow : t.browser.now = (face s).now := congrArg Face.now hface
    exact ⟨[], .rest _, by rw [hface, hnow]; rfl⟩
  unchanged r t hr := by
    rw [result_bind, result_modify] at hr
    exact absurd (congrArg Prod.fst hr) (hk.accepted _ r)

theorem react {r : Signal.Reaction} (h : r.api.display = s.api.display) : Passes (react r) s := by
  refine modify_bind (by simp only [face, h]) ?_
  split
  · exact .fault _
  · exact .pure _

theorem lift_bind {x : Except Fault α} {k : α → SessionM β} (h : ∀ a, Passes (k a) s) :
    Passes (SessionM.lift x >>= k) s := by
  cases x with
  | ok a => exact h a
  | error f => exact of_still (.fault f)

theorem advance (seconds : Json) : Passes (advance seconds) s := by
  refine get_bind (lift_bind fun b => ⟨fun _ t hr => ?_, fun r t hr => ?_⟩)
  · rw [result_modify] at hr
    obtain ⟨-, rfl⟩ := Prod.mk.inj hr
    exact ⟨[], .rest _, rfl⟩
  · rw [result_modify] at hr
    cases hr

end Passes

theorem passes (e : Event) (s : Session) : Passes (perform e) s := by
  cases e with
  | start => exact .discard .start
  | act name categories => exact .discard (.handle name categories)
  | icon => exact .discard .clickIcon
  | tick => exact .discard .tick
  | reset => exact .discard .reset
  | resize width => exact .of_still (.discard (.resize width))
  | flush => exact .of_still (.discard .flush)
  | advance seconds => exact .advance seconds
  | setCookie cookie => exact .of_still (.modify fun _ => rfl)
  | call command version listener parameter => exact .get_bind (.react (Signal.Api.display_call ..))
  | receive message =>
    exact .discard (.get_bind (.last (.react (Signal.Api.display_receive ..)) fun _ => .pure _))

/-- An event that ends well or is refused, rather than failing. -/
def goesWell (e : Event) (s : Session) : Bool :=
  match (result (perform e) s).1 with
  | .ok _ => true
  | .error (.refused _) => true
  | .error _ => false

/-- A run in which no event fails. -/
def runsWell : List Event → Session → Bool
  | [], _ => true
  | e :: rest, s => goesWell e s && runsWell rest (after e s)

/-- The time at which an event made the banner visible. -/
def shownBy (e : Event) (s : Session) : Option Number :=
  if .bannerVisible ∈ (after e s).history.drop s.history.length then some s.browser.now else none

/-- The time at which a run last made the banner visible. -/
def lastShown : List Event → Session → Option Number
  | [], _ => none
  | e :: rest, s => (lastShown rest (after e s)).or (shownBy e s)

/-- A session at rest, whose banner was last made visible at a given time. -/
structure Settled (shown : Option Number) (s : Session) : Prop where
  rests : AtRest s.phase
  display : s.api.display = if s.phase = .bannerVisible then "visible" else "hidden"
  icon : s.iconVisible = true ↔ s.phase = .hidden ∧ s.config.floatingIcon.enabled = true
  shownAt : s.phase = .bannerVisible → ∃ now, shown = some now ∧ s.shownAt = some now
  starts : s.history.head? = some .init
  path : s.history.IsChain Follows
  ends : s.history.getLast? = some s.phase

theorem Passage.isChain {p : Phase} {ps : List Phase} (h : Passage p ps) (hp : AtRest p) :
    (p :: ps).IsChain Follows := by
  cases h with
  | rest => exact .singleton _
  | asked => exact .cons_cons .started (.cons_cons .asked (.singleton _))
  | notAsked => exact .cons_cons .started (.cons_cons .notAsked (.singleton _))
  | decided =>
    refine .cons_cons .decided (.cons_cons .applied (.cons_cons .persisted ?_))
    exact .cons_cons .reported (.singleton _)
  | closed => exact .cons_cons .closed (.singleton _)
  | reopened => exact .cons_cons .reopened (.singleton _)
  | reset =>
    have hreset : Follows p .evaluateConsent := by
      rcases hp with rfl | rfl | rfl
      · exact .started
      · exact .resetVisible
      · exact .resetHidden
    exact .cons_cons hreset (.cons_cons .asked (.singleton _))

theorem Passage.ends {p : Phase} {ps : List Phase} (h : Passage p ps) :
    ps = [] ∨ (∃ qs, ps = qs ++ [.bannerVisible]) ∨ ∃ qs, ps = qs ++ [.hidden] := by
  cases h with
  | rest => exact .inl rfl
  | asked => exact .inr (.inl ⟨[.evaluateConsent], rfl⟩)
  | notAsked => exact .inr (.inr ⟨[.evaluateConsent], rfl⟩)
  | decided => exact .inr (.inr ⟨[.applyConsent, .persistCookie, .reportToServer], rfl⟩)
  | closed => exact .inr (.inr ⟨[], rfl⟩)
  | reopened => exact .inr (.inl ⟨[], rfl⟩)
  | reset => exact .inr (.inl ⟨[.evaluateConsent], rfl⟩)

namespace Settled

variable {shown : Option Number} {s t : Session}

theorem passage (h : Settled shown s) {ps : List Phase} (hps : Passage s.phase ps)
    (hface : face t = { (face s).enterAll ps with now := t.browser.now }) :
    Settled ((if .bannerVisible ∈ ps then some s.browser.now else none).or shown) t := by
  have hhistory : t.history = s.history ++ ps :=
    (congrArg Face.history hface).trans (Face.history_enterAll _ _)
  have hpath : t.history.IsChain Follows := by
    rw [hhistory]
    refine h.path.append (hps.isChain h.rests).tail ?_
    intro x hx y hy
    obtain rfl : s.phase = x := Option.some.inj (h.ends.symm.trans hx)
    exact (hps.isChain h.rests).rel_head? hy
  have hstarts : t.history.head? = some .init := by
    rw [hhistory, List.head?_append, h.starts, Option.some_or]
  have henabled : t.config.floatingIcon.enabled = s.config.floatingIcon.enabled :=
    (congrArg Face.iconEnabled hface).trans (Face.iconEnabled_enterAll _ _)
  have hphase : t.phase = ((face s).enterAll ps).phase := congrArg Face.phase hface
  have hdisplay : t.api.display = ((face s).enterAll ps).display := congrArg Face.display hface
  have hicon : t.iconVisible = ((face s).enterAll ps).iconVisible := congrArg Face.iconVisible hface
  have hshown : t.shownAt = ((face s).enterAll ps).shownAt := congrArg Face.shownAt hface
  obtain rfl | ⟨qs, rfl⟩ | ⟨qs, rfl⟩ := hps.ends
  · rw [List.append_nil] at hhistory
    change t.phase = s.phase at hphase
    change t.api.display = s.api.display at hdisplay
    change t.iconVisible = s.iconVisible at hicon
    change t.shownAt = s.shownAt at hshown
    refine ⟨?_, ?_, ?_, ?_, hstarts, hpath, ?_⟩
    · exact hphase ▸ h.rests
    · rw [hdisplay, hphase, h.display]
    · rw [hicon, hphase, henabled, h.icon]
    · rw [hphase, hshown]
      exact h.shownAt
    · rw [hhistory, hphase, h.ends]
  · rw [Face.enterAll_append] at hphase hdisplay hicon hshown
    change t.phase = .bannerVisible at hphase
    change t.api.display = "visible" at hdisplay
    change t.iconVisible = false at hicon
    have hnow : t.shownAt = some s.browser.now := hshown.trans (congrArg some (Face.now_enterAll _ _))
    refine ⟨?_, ?_, ?_, ?_, hstarts, hpath, ?_⟩
    · exact .inr (.inl hphase)
    · rw [hdisplay, hphase, if_pos rfl]
    · simp [hicon, hphase]
    · intro _
      exact ⟨s.browser.now, by simp, hnow⟩
    · rw [hhistory, hphase, ← List.append_assoc, List.getLast?_concat]
  · rw [Face.enterAll_append] at hphase hdisplay hicon
    change t.phase = .hidden at hphase
    change t.api.display = "hidden" at hdisplay
    have hicon' : t.iconVisible = s.config.floatingIcon.enabled :=
      hicon.trans (Face.iconEnabled_enterAll _ _)
    refine ⟨?_, ?_, ?_, ?_, hstarts, hpath, ?_⟩
    · exact .inr (.inr hphase)
    · rw [hdisplay, hphase, if_neg (by decide)]
    · simp [hicon', hphase, henabled]
    · intro hvisible
      rw [hphase] at hvisible
      cases hvisible
    · rw [hhistory, hphase, ← List.append_assoc, List.getLast?_concat]

/-- What one event that does not fail preserves. -/
theorem after (h : Settled shown s) (e : Event) (hwell : goesWell e s) :
    Settled ((shownBy e s).or shown) (after e s) := by
  rcases hr : result (perform e) s with ⟨stop | a, t⟩
  · have hafter : Session.after e s = t := congrArg Prod.snd hr
    rw [goesWell, hr] at hwell
    cases stop with
    | refused r =>
      obtain rfl : t = s := (passes e s).unchanged r t hr
      rw [shownBy, hafter, List.drop_length, if_neg (by simp), Option.none_or]
      exact h
    | fault f => cases hwell
    | invalid issues => cases hwell
  · have hafter : Session.after e s = t := congrArg Prod.snd hr
    obtain ⟨ps, hps, hface⟩ := (passes e s).passage a t hr
    have hhistory : t.history = s.history ++ ps :=
      (congrArg Face.history hface).trans (Face.history_enterAll _ _)
    rw [shownBy, hafter, hhistory, List.drop_left]
    exact h.passage hps hface

theorem run (h : Settled shown s) (events : List Event) (hwell : runsWell events s) :
    Settled ((lastShown events s).or shown) (run events s) := by
  induction events generalizing s shown with
  | nil => exact h
  | cons e rest ih =>
    rw [runsWell, Bool.and_eq_true] at hwell
    rw [lastShown, Option.or_assoc]
    exact ih (h.after e hwell.1) hwell.2

theorem of_create {config : ClientConfig} {environment : Environment} {components : List Component}
    {browser : Browser} {server : Server} (h : create config environment components browser server = .ok s) :
    Settled none s := by
  obtain ⟨reason, -, h⟩ := bind_eq_ok.1 h
  cases h
  exact ⟨.inl rfl, rfl, by simp, nofun, rfl, .singleton _, rfl⟩

end Settled

/-- Between two events of a run in which none fails, a session rests, shows what its phase says, knows since when
its banner is visible, and has come to its phase through phases that may follow one another. An event that is
refused changes nothing. -/
theorem run_settled {config : ClientConfig} {environment : Environment} {components : List Component}
    {browser : Browser} {server : Server} {s : Session}
    (hcreate : create config environment components browser server = .ok s) (events : List Event)
    (hwell : runsWell events s) :
    Settled (lastShown events s) (run events s) ∧
      ∀ e r, (result (perform e) (run events s)).1 = .error (.refused r) →
        after e (run events s) = run events s := by
  refine ⟨?_, fun e r hr => ?_⟩
  · have h := (Settled.of_create hcreate).run events hwell
    rwa [Option.or_none] at h
  · exact (passes e (run events s)).unchanged r _ (Prod.ext hr rfl)

theorem start_refused {s : Session} (h : s.phase ≠ .init) :
    (result (perform .start) s).1 = .error (.refused (.started s.phase)) := by
  change (result (start >>= fun _ => pure ()) s).1 = _
  rw [result_bind, start, result_bind, result_get]
  dsimp only
  rw [if_pos (by simpa using h)]
  rfl

/-- A visitor who decides, comes back by the floating button, and is asked once more after a reset. -/
def returningVisitor : List Event :=
  [.start, .act "reject_all" .null, .start, .advance (.int 60), .icon, .act "close" .null, .act "close" .null,
    .flush, .reset, .resize (.int 320), .tick]

theorem run_settled_returningVisitor :
    Settled (lastShown returningVisitor plainSession) (run returningVisitor plainSession) ∧
      (run returningVisitor plainSession).phase = .bannerVisible ∧
      after .start (run returningVisitor plainSession) = run returningVisitor plainSession := by
  obtain ⟨hsettled, hrefused⟩ := run_settled create_plainSession returningVisitor (by decide +kernel)
  have hphase : (run returningVisitor plainSession).phase = .bannerVisible := by decide +kernel
  exact ⟨hsettled, hphase, hrefused .start _ (start_refused (by rw [hphase]; decide))⟩

end Session

end ConsentBanner
