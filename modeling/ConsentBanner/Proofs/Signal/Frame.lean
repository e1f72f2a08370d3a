import ConsentBanner.Proofs.Json.RoundTrip
import ConsentBanner.Proofs.Outcome
import ConsentBanner.Signal.Api

/-!
Messages from other frames. A message that makes a call is answered by exactly one message in its own form, unless the
call baffles the interface: then nothing is answered and nothing has changed. An object and its text mean the same.
-/

namespace ConsentBanner

namespace Json

theorem isReadable_spacedAscii : Format.spacedAscii.IsReadable where
  item := ⟨[' '], rfl, by simp [isSpace]⟩
  key := ⟨[' '], rfl, by simp [isSpace]⟩

/-- A value that stands for an integer. -/
def IsIntegral : Json → Prop
  | bool _ => True
  | int _ => True
  | float x => x.isFinite = true
  | str s => (Text.integer? s).isSome = true
  | _ => False

theorem integer_isOk_iff {v : Json} : (∃ n, v.integer = .ok n) ↔ v.IsIntegral := by
  cases v with
  | bool b => exact iff_of_true ⟨_, rfl⟩ trivial
  | int n => exact iff_of_true ⟨_, rfl⟩ trivial
  | float x =>
    cases x with
    | nan => exact iff_of_false nofun nofun
    | infinite negative => exact iff_of_false nofun nofun
    | finite negative m q => exact iff_of_true ⟨_, rfl⟩ rfl
  | str s =>
    rw [integer, IsIntegral]
    cases Text.integer? s with
    | none => simp
    | some n => simp
  | _ => exact iff_of_false nofun id

theorem mapM_integer_isOk_iff {parts : List Json} :
    (∃ ids, parts.mapM integer = .ok ids) ↔ ∀ v ∈ parts, v.IsIntegral := by
  induction parts with
  | nil => exact iff_of_true ⟨[], rfl⟩ (List.forall_mem_nil _)
  | cons v rest ih =>
    have hrest (n : Int) : (∃ ids, (do return n :: (← rest.mapM integer) : Except Fault (List Int)) = .ok ids) ↔
        ∀ v ∈ rest, v.IsIntegral := by
      rw [← ih]
      exact isOk_bind_pure
    rw [List.mapM_cons, isOk_bind hrest, integer_isOk_iff, List.forall_mem_cons]

end Json

namespace Signal

/-- A parameter that names vendors by values that stand for integers: the items of a list, the keys of an object or the
characters of a text. One that is not set leaves the vendors open. -/
inductive NamesVendors : Json → Prop where
  | unset {v : Json} (h : v.isSet = false) : NamesVendors v
  | items {items : List Json} (h : ∀ v ∈ items, v.IsIntegral) : NamesVendors (.arr items)
  | keys {fields : List (String × Json)} (h : ∀ f ∈ fields, (Text.integer? f.1).isSome = true) :
      NamesVendors (.obj fields)
  | characters {s : String} (h : ∀ c ∈ s.toList, (Text.integer? (String.singleton c)).isSome = true) :
      NamesVendors (.str s)

theorem namesVendors_iff {parameter : Json} (hset : parameter.isSet = true) :
    NamesVendors parameter ↔ ∃ parts, parameter.parts = .ok parts ∧ ∀ v ∈ parts, v.IsIntegral := by
  constructor
  · intro h
    cases h with
    | unset h =>
      rw [hset] at h
      cases h
    | items h => exact ⟨_, rfl, h⟩
    | keys h => exact ⟨_, rfl, List.forall_mem_map.2 h⟩
    | characters h => exact ⟨_, rfl, List.forall_mem_map.2 h⟩
  · rintro ⟨parts, hparts, h⟩
    cases parameter with
    | arr items =>
      cases hparts
      exact .items h
    | obj fields =>
      cases hparts
      exact .keys (List.forall_mem_map.1 h)
    | str s =>
      cases hparts
      exact .characters (List.forall_mem_map.1 h)
    | _ => cases hparts

theorem requestedVendors_isOk_iff {parameter : Json} :
    (∃ ids, requestedVendors parameter = .ok ids) ↔ NamesVendors parameter := by
  rw [requestedVendors]
  cases hset : parameter.isSet with
  | false => exact iff_of_true ⟨none, rfl⟩ (.unset hset)
  | true =>
    rw [if_pos rfl, namesVendors_iff hset, Json.members, if_pos hset]
    cases parameter.parts with
    | error f => exact iff_of_false nofun nofun
    | ok parts =>
      have hsome : (∃ ids, (do return some (← parts.mapM Json.integer) : Except Fault (Option (List Int))) = .ok ids) ↔
          ∃ ids, parts.mapM Json.integer = .ok ids := isOk_bind_pure
      refine hsome.trans (Json.mapM_integer_isOk_iff.trans ?_)
      simp

/-- A call that the interface cannot make sense of: its command is a list or an object, or it asks for data with a
parameter that does not name vendors. Of a version that is not supported nothing more is looked at. -/
inductive Baffles (call : Json) : Prop where
  | command (hversion : Api.isSupported (call.getD "version") = true) (h : (call.getD "command").isScalar = false)
  | vendors (hversion : Api.isSupported (call.getD "version") = true)
      (hcommand : call.getD "command" = .str "getTCData") (h : ¬ NamesVendors (call.getD "parameter"))

/-- The document that a message holds; one that is a text is read. -/
def document? : Json → Option Json
  | .str s => Json.parse? s
  | v => some v

/-- A message that makes a call. -/
def Calls (message : Json) (call : List (String × Json)) : Prop :=
  ∃ fields, document? message = some (.obj fields) ∧ Fields.get? "__tcfapiCall" fields = some (.obj call)

/-- What is posted in answer to a message: a reply that names the call, as a text if the message was one. -/
structure Answers (message callId posted reply : Json) : Prop where
  callId : (reply.getD "__tcfapiReturn").getD "callId" = callId
  form : posted.asString?.isSome = message.asString?.isSome
  value : message.asString? = none → posted = reply
  text : ∀ t, posted = .str t → t = reply.render .spacedAscii ∧ (reply.IsPlain → Json.parse? t = some reply)

namespace Api

variable (a : Api) (consent : Option Consent) (asText : Bool) (callId : Json)

theorem call_answers {c : Json} (h : ¬ Baffles c) : ∃ a' data success,
    a.call consent (c.getD "command") (c.getD "version") (some (.frame asText callId)) (c.getD "parameter") =
      { api := a', events := [Listener.event data success (.frame asText callId)] } := by
  unfold call
  dsimp only
  split
  · exact ⟨a, _, _, rfl⟩
  · rename_i hversion
    rw [Bool.not_eq_true', Bool.not_eq_false] at hversion
    split
    · exact ⟨a, _, _, rfl⟩
    · rename_i hcommand
      have hvendors : NamesVendors (c.getD "parameter") := by
        by_contra hvendors
        exact h (.vendors hversion hcommand hvendors)
      obtain ⟨ids, hids⟩ := requestedVendors_isOk_iff.2 hvendors
      rw [answerData, hids]
      exact ⟨a, _, _, rfl⟩
    · exact ⟨_, _, _, rfl⟩
    · rw [removeListener]
      split
      · exact ⟨_, _, _, rfl⟩
      · exact ⟨a, _, _, rfl⟩
    · split
      · exact ⟨a, _, _, rfl⟩
      · rename_i hscalar
        rw [Bool.not_eq_true] at hscalar
        exact absurd (.command hversion hscalar) h

theorem call_fails {c : Json} (h : Baffles c) : ∃ f,
    a.call consent (c.getD "command") (c.getD "version") (some (.frame asText callId)) (c.getD "parameter") =
      { api := a, failure := some f } := by
  cases h with
  | command hversion hscalar =>
    have hne (name : String) : c.getD "command" ≠ .str name := by
      intro hcommand
      rw [hcommand] at hscalar
      cases hscalar
    refine ⟨.wrongKind, ?_⟩
    rw [call, if_neg (by simp [hversion]), if_neg (by simp [hscalar])]
    all_goals exact hne _
  | vendors hversion hcommand hvendors =>
    rw [hcommand, call, if_neg (by simp [hversion]), answerData]
    cases hids : requestedVendors (c.getD "parameter") with
    | error f => exact ⟨f, rfl⟩
    | ok ids => exact absurd (requestedVendors_isOk_iff.1 ⟨ids, hids⟩) hvendors

/-- The document of a message, where one that cannot be read is null. -/
theorem frameCall?_eq (message : Json) :
    frameCall? message =
      match ((document? message).getD .null).get? "__tcfapiCall" with
      | some (.obj call) => some (message.asString?.isSome, .obj call)
      | _ => none := by
  cases message with
  | _ => rfl

theorem frameCall?_of_calls {message : Json} {call : List (String × Json)} (h : Calls message call) :
    frameCall? message = some (message.asString?.isSome, .obj call) := by
  obtain ⟨fields, hdocument, hcall⟩ := h
  rw [frameCall?_eq, hdocument, Option.getD_some, Json.get?, hcall]

theorem frameCall?_eq_none {message : Json} (h : ∀ call, ¬ Calls message call) : frameCall? message = none := by
  rw [frameCall?_eq]
  cases hdocument : document? message with
  | none => rfl
  | some v =>
    cases v with
    | obj fields =>
      rw [Option.getD_some, Json.get?]
      split
      · rename_i call hcall
        exact absurd ⟨fields, hdocument, hcall⟩ (h call)
      · rfl
    | _ => rfl

/-- What a caller in another frame is answered with. -/
theorem answers_frame (message callId data : Json) (success : Bool) :
    ∃ posted, Listener.event data success (.frame message.asString?.isSome callId) = .posted posted ∧
      Answers message callId posted (Listener.returnMessage data success callId) := by
  cases message with
  | str s =>
    have hform (t : String) : (Json.str t).asString?.isSome = true := rfl
    refine ⟨.str ((Listener.returnMessage data success callId).render .spacedAscii), congrArg Event.posted (if_pos rfl),
      rfl, (hform _).trans (hform s).symm, ?_, ?_⟩
    · intro hnone
      cases hnone
    · intro t ht
      rw [Json.str.injEq] at ht
      exact ⟨ht.symm, fun hplain => ht ▸ Json.parse?_render Json.isReadable_spacedAscii hplain⟩
  | _ => exact ⟨_, rfl, rfl, rfl, fun _ => rfl, nofun⟩

theorem receive_of_calls {message : Json} {call : List (String × Json)} (h : Calls message call) :
    a.receive consent message =
      (a.call consent ((Json.obj call).getD "command") ((Json.obj call).getD "version")
        (some (.frame message.asString?.isSome ((Json.obj call).getD "callId"))) ((Json.obj call).getD "parameter"),
        true) := by
  rw [receive, frameCall?_of_calls h]

/-- A message from another frame that makes a call is answered by one message in its own form that names the call. Only
a call that the interface cannot make sense of fails; then nothing is posted and nothing has changed. Any other message
is passed over. -/
theorem receive_answers (message : Json) :
    (∀ call, Calls message call → ¬ Baffles (.obj call) → ∃ a' posted reply,
      a.receive consent message = ({ api := a', events := [.posted posted] }, true) ∧
        Answers message ((Json.obj call).getD "callId") posted reply) ∧
    (∀ call, Calls message call → Baffles (.obj call) → ∃ f,
      a.receive consent message = ({ api := a, failure := some f }, true)) ∧
    ((∀ call, ¬ Calls message call) → a.receive consent message = ({ api := a }, false)) := by
  refine ⟨fun call hcall hclear => ?_, fun call hcall hbaffles => ?_, fun hnone => ?_⟩
  · obtain ⟨a', data, success, hanswer⟩ :=
      a.call_answers consent message.asString?.isSome ((Json.obj call).getD "callId") hclear
    obtain ⟨posted, hposted, hreply⟩ := answers_frame message ((Json.obj call).getD "callId") data success
    rw [receive_of_calls a consent hcall, hanswer, hposted]
    exact ⟨a', posted, _, rfl, hreply⟩
  · obtain ⟨f, hfails⟩ := a.call_fails consent message.asString?.isSome ((Json.obj call).getD "callId") hbaffles
    rw [receive_of_calls a consent hcall, hfails]
    exact ⟨f, rfl⟩
  · rw [receive, frameCall?_eq_none hnone]

/-- A frame that asks for two vendors by text. -/
def question : List (String × Json) :=
  [("command", .str "getTCData"), ("callId", .int 7), ("parameter", .arr [.int 1, .str "755"])]

/-- A frame that asks by a list for a command. -/
def riddle : List (String × Json) := [("command", .arr [.str "ping"]), ("callId", .int 1)]

theorem receive_answers_question :
    let a : Api := { identity := {}, gdprApplies := true }
    let text := Json.str ((Json.obj [("__tcfapiCall", .obj question)]).render .spacedAscii)
    (∃ a' posted reply, a.receive none text = ({ api := a', events := [.posted posted] }, true) ∧
      Answers text (.int 7) posted reply) ∧
    ∃ f, a.receive none (.obj [("__tcfapiCall", .obj riddle)]) = ({ api := a, failure := some f }, true) := by
  intro a text
  have hread : document? text = some (.obj [("__tcfapiCall", .obj question)]) :=
    Json.parse?_render Json.isReadable_spacedAscii (by decide)
  have hclear : ¬ Baffles (.obj question) := by
    intro h
    cases h with
    | command _ hcommand => cases hcommand
    | vendors _ _ hvendors =>
      refine hvendors (.items fun v hv => ?_)
      obtain rfl | rfl : v = .int 1 ∨ v = .str "755" := by simpa using hv
      · trivial
      · change (Text.integer? "755").isSome = true
        decide
  have hbaffles : Baffles (.obj riddle) := .command rfl rfl
  exact ⟨(receive_answers a none text).1 question ⟨_, hread, rfl⟩ hclear,
    (receive_answers a none _).2.1 riddle ⟨_, rfl, rfl⟩ hbaffles⟩

end Api

/-- Interfaces that an observer from outside takes for one another. -/
structure Api.Resembles (a b : Api) : Prop where
  display : a.display = b.display
  lastId : a.lastId = b.lastId
  ids : a.listeners.map (·.1) = b.listeners.map (·.1)

theorem Api.Resembles.refl (a : Api) : a.Resembles a := ⟨rfl, rfl, rfl⟩

/-- What comes of one call with either form of answer: it fails in one way and changes nothing, or it is answered with
one reply, in the one case with the text of it. -/
inductive CarriedOutAlike (a : Api) (callId : Json) (text object : Reaction) : Prop
  | failed (f : Fault) (htext : text = { api := a, failure := some f })
      (hobject : object = { api := a, failure := some f })
  | replied {a₁ a₂ : Api} (data : Json) (success : Bool) (h : a₁.Resembles a₂)
      (htext : text = { api := a₁, events := [Listener.event data success (.frame true callId)] })
      (hobject : object = { api := a₂, events := [Listener.event data success (.frame false callId)] })

/-- What comes of a message as a text and as an object: it is passed over if it makes no call, it fails in one way and
changes nothing if its call baffles the interface, and otherwise it is answered with one reply that names the call, the
text with the text of it. -/
inductive Agree (a : Api) (message : Json) (text object : Reaction × Bool) : Prop
  | ignored (hcalls : ∀ call, ¬ Calls message call) (htext : text = ({ api := a }, false))
      (hobject : object = ({ api := a }, false))
  | failed {call : List (String × Json)} (hcall : Calls message call) (hbaffles : Baffles (.obj call)) (f : Fault)
      (htext : text = ({ api := a, failure := some f }, true))
      (hobject : object = ({ api := a, failure := some f }, true))
  | replied {call : List (String × Json)} (hcall : Calls message call) (hclear : ¬ Baffles (.obj call)) {a₁ a₂ : Api}
      (h : a₁.Resembles a₂) (reply : Json)
      (hid : (reply.getD "__tcfapiReturn").getD "callId" = (Json.obj call).getD "callId")
      (htext : text = ({ api := a₁, events := [.posted (.str (reply.render .spacedAscii))] }, true))
      (hobject : object = ({ api := a₂, events := [.posted reply] }, true))

namespace Api

variable (a : Api) (consent : Option Consent) (callId : Json)

theorem answer_alike {a₁ a₂ : Api} (h : a₁.Resembles a₂) (data : Json) (success : Bool) :
    CarriedOutAlike a callId (a₁.answer (.frame true callId) data success)
      (a₂.answer (.frame false callId) data success) :=
  .replied data success h rfl rfl

theorem answerData_alike (parameter : Json) :
    CarriedOutAlike a callId (a.answerData consent (.frame true callId) parameter)
      (a.answerData consent (.frame false callId) parameter) := by
  rw [answerData, answerData]
  cases requestedVendors parameter with
  | error f => exact .failed f rfl rfl
  | ok ids => exact a.answer_alike callId (.refl a) _ true

theorem addListener_alike :
    CarriedOutAlike a callId (a.addListener consent (.frame true callId))
      (a.addListener consent (.frame false callId)) := by
  apply a.answer_alike callId
  exact ⟨rfl, rfl, by rw [List.map_append, List.map_append]; rfl⟩

theorem removeListener_alike (parameter : Json) :
    CarriedOutAlike a callId (a.removeListener (.frame true callId) parameter)
      (a.removeListener (.frame false callId) parameter) := by
  rw [removeListener, removeListener]
  cases listenerId? parameter with
  | none => exact a.answer_alike callId (.refl a) _ false
  | some id => exact a.answer_alike callId (.refl _) _ _

theorem call_alike (command version parameter : Json) :
    CarriedOutAlike a callId (a.call consent command version (some (.frame true callId)) parameter)
      (a.call consent command version (some (.frame false callId)) parameter) := by
  unfold call
  dsimp only
  cases isSupported version with
  | false => exact a.answer_alike callId (.refl a) .null false
  | true =>
    simp only [Bool.not_true, Bool.false_eq_true, if_false]
    split
    · exact a.answer_alike callId (.refl a) _ true
    · exact a.answerData_alike consent callId parameter
    · exact a.addListener_alike consent callId
    · exact a.removeListener_alike callId parameter
    · split
      · exact a.answer_alike callId (.refl a) .null false
      · exact .failed .wrongKind rfl rfl

/-- A frame that wants to hear of every decision. -/
def subscription : List (String × Json) :=
  [("__tcfapiCall", .obj [("command", .str "addEventListener"), ("version", .int 2),
    ("callId", .arr [.str "größe", .obj [("n", .int (-3))]])])]

end Api

end Signal

end ConsentBanner
