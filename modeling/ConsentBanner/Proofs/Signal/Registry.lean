import Mathlib.Data.List.Basic
import ConsentBanner.Signal.Api

/-!
The registry of listeners under any history of calls and notifications. Listeners are numbered by how many were added
up to them, so a number tells which of the registrations it is.
-/

namespace ConsentBanner.Signal

abbrev SupportedVersion := { version : Json // Api.isSupported version = true }

/-- Something done to an interface. A notification comes with the listeners that fail on it. -/
inductive Act where
  | add (consent : Option Consent) (version : SupportedVersion) (parameter : Json) (l : Listener)
  | remove (consent : Option Consent) (version : SupportedVersion) (id : Int) (l : Listener)
  | notify (consent : Option Consent) (status : String) (failing : Int → Bool)

namespace Act

def added? : Act → Option Listener
  | add _ _ _ l => some l
  | _ => none

def Removes (id : Int) : Act → Prop
  | remove _ _ id' _ => id' = id
  | _ => False

end Act

/-- How many listeners were added. -/
def additions (acts : List Act) : Int := (acts.filterMap Act.added?).length

/-- The listener was added as the one of that number, and was not removed since. -/
def Registered (acts : List Act) (id : Int) (l : Listener) : Prop :=
  ∃ before act since, acts = before ++ act :: since ∧ act.added? = some l ∧ id = additions before + 1 ∧
    ∀ act ∈ since, ¬ act.Removes id

section

variable {acts : List Act} {act : Act} {id : Int} {l : Listener}

theorem additions_nonneg (acts : List Act) : 0 ≤ additions acts := Int.natCast_nonneg _

theorem additions_append (acts acts' : List Act) : additions (acts ++ acts') = additions acts + additions acts' := by
  rw [additions, List.filterMap_append, List.length_append, Int.natCast_add]
  rfl

theorem additions_concat_of_added (h : act.added? = some l) : additions (acts ++ [act]) = additions acts + 1 := by
  have hone : additions [act] = 1 := by rw [additions, List.filterMap_cons_some h]; rfl
  rw [additions_append, hone]

theorem additions_concat_of_none (h : act.added? = none) : additions (acts ++ [act]) = additions acts := by
  have hnone : additions [act] = 0 := by rw [additions, List.filterMap_cons_none h]; rfl
  rw [additions_append, hnone, Int.add_zero]

theorem Registered.bounds (h : Registered acts id l) : 0 < id ∧ id ≤ additions acts := by
  obtain ⟨before, act, since, rfl, hadded, rfl, -⟩ := h
  have hbefore := additions_nonneg before
  have hsince := additions_nonneg since
  have hsum : additions (before ++ act :: since) = additions before + 1 + additions since := by
    rw [← List.singleton_append, ← List.append_assoc, additions_append, additions_concat_of_added hadded]
  omega

theorem not_registered_nil : ¬ Registered [] id l := by
  intro h
  have hbounds := h.bounds
  rw [additions, List.filterMap_nil, List.length_nil] at hbounds
  omega

/-- What is registered after one more act. -/
theorem registered_concat : Registered (acts ++ [act]) id l ↔
    Registered acts id l ∧ ¬ act.Removes id ∨ act.added? = some l ∧ id = additions acts + 1 := by
  constructor
  · rintro ⟨before, added, since, hsplit, hadded, hid, hkept⟩
    -- The last act is the addition itself, or one of those that came since.
    obtain rfl | ⟨since, last, rfl⟩ := List.eq_nil_or_concat since
    · obtain ⟨rfl, hlast⟩ := List.append_inj' hsplit rfl
      cases hlast
      exact .inr ⟨hadded, hid⟩
    · rw [List.concat_eq_append, ← List.cons_append, ← List.append_assoc] at hsplit
      obtain ⟨rfl, hlast⟩ := List.append_inj' hsplit rfl
      cases hlast
      rw [List.concat_eq_append, List.forall_mem_append, List.forall_mem_singleton] at hkept
      exact .inl ⟨⟨before, added, since, rfl, hadded, hid, hkept.1⟩, hkept.2⟩
  · rintro (⟨⟨before, added, since, rfl, hadded, hid, hkept⟩, hact⟩ | ⟨hadded, hid⟩)
    · refine ⟨before, added, since ++ [act], ?_, hadded, hid, ?_⟩
      · rw [List.append_assoc, List.cons_append]
      · rw [List.forall_mem_append, List.forall_mem_singleton]
        exact ⟨hkept, hact⟩
    · exact ⟨acts, act, [], rfl, hadded, hid, List.forall_mem_nil _⟩

end

namespace Listener

def isPage : Listener → Bool
  | page _ _ => true
  | frame _ _ => false

/-- The same listener with another temper: functions of the page may fail on events of a kind. -/
def behaving (status : String) (fails : Bool) : Listener → Listener
  | page label _ => page label (if fails then some (.str status) else none)
  | l => l

theorem event_behaving (status : String) (fails : Bool) (data : Json) (success : Bool) (l : Listener) :
    (l.behaving status fails).event data success = l.event data success := by
  cases l <;> rfl

end Listener

theorem get?_eventStatus (identity : Identity) (gdprApplies : Bool) (consent : Option Consent) (status : String)
    (vendorIds : Option (List Int)) (listenerId : Option Int) :
    (tcData identity gdprApplies consent status vendorIds listenerId).get? "eventStatus" = some (.str status) := rfl

namespace Api

/-- The interface when its listeners fail on events of a kind as said. -/
def behaving (a : Api) (status : String) (failing : Int → Bool) : Api :=
  { a with listeners := a.listeners.map fun (id, l) => (id, l.behaving status (failing id)) }

def after (a : Api) : Act → Api
  | .add consent version parameter l => (a.call consent (.str "addEventListener") version.1 (some l) parameter).api
  | .remove consent version id l => (a.call consent (.str "removeEventListener") version.1 (some l) (.int id)).api
  | .notify _ _ _ => a

theorem fails_behaving (a : Api) (consent : Option Consent) (status : String) (id : Int) (fails : Bool) (l : Listener) :
    (l.behaving status fails).fails (a.data consent status none (some id)) = (l.isPage && fails) := by
  cases l with
  | page label failsOn =>
    cases fails with
    | false => rfl
    | true =>
      rw [data, Listener.behaving, if_pos rfl, Listener.fails, get?_eventStatus, Listener.isPage]
      simp [Json.same]
  | frame asText callId => rfl

section

variable (a : Api) (consent : Option Consent)

theorem call_add (version : SupportedVersion) (parameter : Json) (l : Listener) :
    a.call consent (.str "addEventListener") version.1 (some l) parameter = a.addListener consent l := by
  rw [call, if_neg (by simp [version.2])]

theorem call_remove (version : SupportedVersion) (id : Int) (l : Listener) :
    a.call consent (.str "removeEventListener") version.1 (some l) (.int id) = a.removeListener l (.int id) := by
  rw [call, if_neg (by simp [version.2])]

theorem notify_behaving (status : String) (failing : Int → Bool) :
    (a.behaving status failing).notify consent status =
      (a.listeners.map fun (id, l) => l.event (a.data consent status none (some id)) true,
        (a.listeners.filter fun (id, l) => !(l.isPage && failing id)).length) := by
  rw [notify, behaving]
  dsimp only
  rw [List.map_map, List.map_map, List.filter_map, List.length_map, List.filter_map, List.length_map]
  congr 1
  · apply List.map_congr_left
    rintro ⟨id, l⟩ -
    exact l.event_behaving status (failing id) _ true
  · congr 1
    apply List.filter_congr
    rintro ⟨id, l⟩ -
    exact congrArg not (a.fails_behaving consent status id (failing id) l)

end

/-- An interface that did these things since it was set up. -/
structure Keeps (start : Api) (acts : List Act) (a : Api) : Prop where
  identity : a.identity = start.identity
  gdprApplies : a.gdprApplies = start.gdprApplies
  lastId : a.lastId = additions acts
  ordered : a.listeners.Pairwise fun x y => x.1 < y.1
  mem : ∀ id l, (id, l) ∈ a.listeners ↔ Registered acts id l

namespace Keeps

variable {start a : Api} {acts : List Act}

theorem init {identity : Identity} {gdprApplies : Bool} {display : String} :
    Keeps { identity, gdprApplies, display } [] { identity, gdprApplies, display } where
  identity := rfl
  gdprApplies := rfl
  lastId := rfl
  ordered := .nil
  mem _ _ := iff_of_false List.not_mem_nil not_registered_nil

theorem data_eq (h : Keeps start acts a) (consent : Option Consent) (status : String) (vendorIds : Option (List Int))
    (id : Option Int) : a.data consent status vendorIds id =
      tcData start.identity start.gdprApplies consent status vendorIds id := by
  rw [Api.data, h.identity, h.gdprApplies]

theorem isListener_iff (h : Keeps start acts a) (id : Int) : a.isListener id = true ↔ ∃ l, Registered acts id l := by
  rw [isListener, List.any_eq_true]
  constructor
  · rintro ⟨⟨id', l⟩, hmem, hid⟩
    rw [beq_iff_eq] at hid
    exact ⟨l, (h.mem id l).1 (hid ▸ hmem)⟩
  · rintro ⟨l, hl⟩
    exact ⟨(id, l), (h.mem id l).2 hl, beq_self_eq_true id⟩

theorem after_add (h : Keeps start acts a) (consent : Option Consent) (version : SupportedVersion) (parameter : Json)
    (l : Listener) :
    Keeps start (acts ++ [.add consent version parameter l]) (a.after (.add consent version parameter l)) := by
  have hafter : a.after (.add consent version parameter l) =
      { a with lastId := a.lastId + 1, listeners := a.listeners ++ [(a.lastId + 1, l)] } := by
    rw [after, call_add]
    rfl
  rw [hafter]
  refine ⟨h.identity, h.gdprApplies, ?_, ?_, ?_⟩
  · rw [additions_concat_of_added rfl, h.lastId]
  · rw [List.pairwise_append]
    refine ⟨h.ordered, List.pairwise_singleton _ _, ?_⟩
    -- No registered listener has a number above that of the additions so far.
    rintro ⟨id, l'⟩ hmem _ hlast
    rw [List.mem_singleton] at hlast
    have hbounds := ((h.mem id l').1 hmem).bounds
    rw [hlast, h.lastId]
    dsimp only
    omega
  · intro id l'
    rw [registered_concat, ← h.mem, List.mem_append, List.mem_singleton, Prod.mk.injEq, h.lastId]
    constructor
    · rintro (hmem | ⟨hid, hl⟩)
      · exact .inl ⟨hmem, not_false⟩
      · exact .inr ⟨congrArg some hl.symm, hid⟩
    · rintro (⟨hmem, -⟩ | ⟨hl, hid⟩)
      · exact .inl hmem
      · exact .inr ⟨hid, (Option.some.inj hl).symm⟩

theorem after_remove (h : Keeps start acts a) (consent : Option Consent) (version : SupportedVersion) (id : Int)
    (l : Listener) : Keeps start (acts ++ [.remove consent version id l]) (a.after (.remove consent version id l)) := by
  have hafter : a.after (.remove consent version id l) = { a with listeners := a.listeners.filter (·.1 != id) } := by
    rw [after, call_remove]
    rfl
  rw [hafter]
  refine ⟨h.identity, h.gdprApplies, ?_, h.ordered.filter _, ?_⟩
  · rw [additions_concat_of_none rfl, h.lastId]
  · intro id' l'
    rw [registered_concat, ← h.mem, List.mem_filter, bne_iff_ne]
    constructor
    · rintro ⟨hmem, hne⟩
      exact .inl ⟨hmem, hne.symm⟩
    · rintro (⟨hmem, hne⟩ | ⟨hl, -⟩)
      · exact ⟨hmem, Ne.symm hne⟩
      · cases hl

theorem after_notify (h : Keeps start acts a) (consent : Option Consent) (status : String) (failing : Int → Bool) :
    Keeps start (acts ++ [.notify consent status failing]) (a.after (.notify consent status failing)) := by
  refine ⟨h.identity, h.gdprApplies, ?_, h.ordered, ?_⟩
  · rw [additions_concat_of_none rfl]
    exact h.lastId
  · intro id l
    rw [registered_concat, ← h.mem]
    simp [Act.Removes, Act.added?, after]

theorem step (h : Keeps start acts a) (act : Act) : Keeps start (acts ++ [act]) (a.after act) := by
  cases act with
  | add consent version parameter l => exact h.after_add consent version parameter l
  | remove consent version id l => exact h.after_remove consent version id l
  | notify consent status failing => exact h.after_notify consent status failing

theorem run (h : Keeps start acts a) (more : List Act) : Keeps start (acts ++ more) (more.foldl after a) := by
  induction more generalizing acts a with
  | nil =>
    rw [List.append_nil]
    exact h
  | cons act more ih =>
    have hrest := ih (h.step act)
    rw [List.append_assoc, List.singleton_append] at hrest
    exact hrest

end Keeps

example :
    let version : SupportedVersion := ⟨.null, rfl⟩
    let l : Listener := .page "heard" none
    let acts : List Act := [.add none version .null l, .add none version .null l, .remove none version 1 l,
      .add none version .null l, .remove none version 4 l]
    (acts.foldl after { identity := {}, gdprApplies := true }).listeners.map (·.1) = [2, 3] := by decide

end Api

end ConsentBanner.Signal
