import ConsentBanner.Consent.Report
import ConsentBanner.Proofs.Consent.Channel
import ConsentBanner.Proofs.Json.Length

/-!
What is exchanged with the server over a report. The whole report goes out once; it goes out once more, reduced, exactly
if it was too large.
-/

namespace ConsentBanner

namespace Response

/-- Whether the answer is that the request was too large. -/
def isTooLarge : Response → Bool
  | answered status _ => status == 413
  | unreachable => false

/-- What an answer gives for a decision. -/
def given? : Response → Option Json
  | answered status body => if 200 ≤ status ∧ status < 300 then tcStringOf? body else none
  | unreachable => none

theorem given?_of_isTooLarge {r : Response} (h : r.isTooLarge = true) : r.given? = none := by
  cases r with
  | answered status body =>
    have hstatus : status = 413 := beq_iff_eq.1 h
    rw [given?, if_neg (by omega)]
  | unreachable => rfl

end Response

/-- A document that was sent and what came of that. -/
structure Exchange where
  payload : Json
  response : Response

namespace Server

/-- The answer to a request that `n` others come before. -/
def answer (s : Server) (n : Nat) : Response := s.responses.getD n (.answered 200 (.obj []))

/-- A server before and after it was met at a url: it got each document once, in order, and answered each in turn. -/
structure Meets (url : String) (s : Server) (exchanged : List Exchange) (t : Server) : Prop where
  requests : t.requests = s.requests ++ exchanged.map fun e => (url, e.payload)
  responses : t.responses = s.responses.drop exchanged.length
  answers : ∀ n e, exchanged[n]? = some e → e.response = s.answer n

theorem post_eq (s : Server) (url : String) (payload : Json) :
    s.post url payload =
      (s.answer 0, { responses := s.responses.drop 1, requests := s.requests ++ [(url, payload)] }) := by
  obtain ⟨responses, requests⟩ := s
  cases responses with
  | nil => rfl
  | cons r rest => rfl

namespace Meets

variable {url : String} {s t u : Server}

theorem nil : Meets url s [] s where
  requests := (List.append_nil _).symm
  responses := rfl
  answers := nofun

theorem of_post {payload : Json} {response : Response} (h : s.post url payload = (response, t)) :
    Meets url s [⟨payload, response⟩] t := by
  rw [post_eq] at h
  cases h
  refine ⟨rfl, rfl, fun n e he => ?_⟩
  obtain ⟨hn, rfl⟩ := List.getElem?_eq_some_iff.1 he
  obtain rfl : n = 0 := by simpa using hn
  rfl

theorem append {es es' : List Exchange} (h : Meets url s es t) (h' : Meets url t es' u) :
    Meets url s (es ++ es') u where
  requests := by rw [h'.requests, h.requests, List.map_append, List.append_assoc]
  responses := by rw [h'.responses, h.responses, List.drop_drop, List.length_append]
  answers n e he := by
    by_cases hn : n < es.length
    · rw [List.getElem?_append_left hn] at he
      exact h.answers n e he
    · rw [List.getElem?_append_right (Nat.le_of_not_lt hn)] at he
      rw [h'.answers _ e he, answer, answer, h.responses, List.getD_eq_getElem?_getD, List.getElem?_drop,
        Nat.add_sub_cancel' (Nat.le_of_not_lt hn), List.getD_eq_getElem?_getD]

end Meets

end Server

namespace Report

/-- What is exchanged over a report. -/
inductive Exchanged (r : Report) : List Exchange → Prop where
  | once {response : Response} (h : response.isTooLarge = false) : Exchanged r [⟨r.json, response⟩]
  | again {response last : Response} (h : response.isTooLarge = true) :
      Exchanged r [⟨r.json, response⟩, ⟨r.reduced.json, last⟩]

/-- What the answer to the whole report gave for its decision. -/
def given? (exchanged : List Exchange) : Option Json := exchanged.head?.bind (·.response.given?)

theorem deliver_exchanged {domainId : String} (hdomain : domainId.isEmpty = false) (baseUrl : String) (r : Report)
    (s : Server) : ∃ exchanged, Exchanged r exchanged ∧ (r.deliver baseUrl domainId s).1 = given? exchanged ∧
      Server.Meets (consentEndpoint baseUrl domainId) s exchanged (r.deliver baseUrl domainId s).2 := by
  rw [deliver, if_neg (by simp [hdomain])]
  dsimp only
  rcases hpost : s.post (consentEndpoint baseUrl domainId) r.json with ⟨response, t⟩
  have hmeets := Server.Meets.of_post hpost
  cases response with
  | unreachable => exact ⟨_, .once rfl, rfl, hmeets⟩
  | answered status body =>
    by_cases hstatus : status = 413
    · have hlarge : (Response.answered status body).isTooLarge = true := beq_iff_eq.2 hstatus
      dsimp only
      rw [if_pos hstatus]
      rcases hagain : t.post (consentEndpoint baseUrl domainId) r.reduced.json with ⟨last, u⟩
      exact ⟨_, .again hlarge, (Response.given?_of_isTooLarge hlarge).symm, hmeets.append (.of_post hagain)⟩
    · have hsmall : (Response.answered status body).isTooLarge = false := beq_eq_false_iff_ne.2 hstatus
      refine ⟨_, .once hsmall, ?_, ?_⟩
      all_goals
        dsimp only
        rw [if_neg hstatus]
      · rw [given?, List.head?_cons, Option.bind_some, Response.given?]
        split
        · rfl
        · rfl
      · split
        · exact hmeets
        · exact hmeets

theorem deliver_nowhere {domainId : String} (hdomain : domainId.isEmpty = true) (baseUrl : String) (r : Report)
    (s : Server) : r.deliver baseUrl domainId s = (none, s) := if_pos hdomain

/-- What a reduced document keeps of the whole one: who decided and by what interaction; of the decisions only that the
necessary purpose is allowed. -/
structure Reduces (whole payload : Json) : Prop where
  userId : payload.getD "userId" = whole.getD "userId"
  interaction : (payload.getD "bannerInteraction").getD "type" = (whole.getD "bannerInteraction").getD "type"
  purposes : ∃ purpose, (payload.getD "decisions").getD "purposes" = .arr [purpose] ∧
    purpose.getD "id" = .int Purpose.necessary ∧ purpose.getD "allowed" = .bool true
  vendors : (payload.getD "decisions").getD "vendors" = .arr []
  specialFeatures : (payload.getD "decisions").getD "specialFeatures" = .arr []

theorem reduces (r : Report) : Reduces r.json r.reduced.json where
  userId := rfl
  interaction := rfl
  purposes := ⟨_, rfl, rfl, rfl⟩
  vendors := rfl
  specialFeatures := rfl

section Size

variable {f : Json.Format}

/-- The entry of a purpose that is allowed. -/
def allowedPurpose (name : String) : Json :=
  .obj (Decisions.decidedFields ⟨Purpose.necessary, name, true⟩ ++ [("legalBasis", .str "consent")])

/-- The necessary purpose has a shorter name in reduced reports. -/
theorem size_allowedPurpose :
    (allowedPurpose "Storage and access").size f ≤ (allowedPurpose (Purpose.name (.int Purpose.necessary))).size f := by
  have hname : (Json.str "Storage and access").size f ≤ (Json.str (Purpose.name (.int Purpose.necessary))).size f := by
    rw [Json.size, Json.size, Json.write, Json.write]
    cases f.ascii with
    | _ => decide +kernel
  refine Json.size_obj_mono ?_
  exact .cons (Nat.le_refl _) (.cons (Json.fieldSize_mono "name" hname rfl) (.cons (Nat.le_refl _)
    (.cons (Nat.le_refl _) .nil)))

theorem size_decisions {c : Consent} (h : c.purposes.IsLegible)
    (hnecessary : c.purposes.get? Purpose.necessary = some true) (r : Report) :
    r.reduced.decisions.json.size f ≤ (Decisions.ofConsent c).json.size f := by
  have hmem : allowedPurpose (Purpose.name (.int Purpose.necessary)) ∈ (Decisions.ofConsent c).purposes.map fun p =>
      Json.obj (Decisions.decidedFields p ++ [("legalBasis", .str "consent")]) :=
    List.mem_map.2 ⟨_, List.mem_map.2 ⟨_, (Answers.mem_sorted_iff h.nodup).2 hnecessary, rfl⟩, rfl⟩
  have hpurposes := calc (Json.arr [allowedPurpose "Storage and access"]).size f
      = (allowedPurpose "Storage and access").size f + 2 := Json.size_singleton _
    _ ≤ (allowedPurpose (Purpose.name (.int Purpose.necessary))).size f + 2 :=
      Nat.add_le_add_right size_allowedPurpose 2
    _ ≤ _ := Json.size_item hmem
  refine Json.size_obj_mono ?_
  exact .cons (Json.fieldSize_mono "purposes" hpurposes rfl) (.cons (Json.fieldSize_mono "vendors"
    (Json.size_arr_nil_le _) rfl) (.cons (Json.fieldSize_mono "specialFeatures" (Json.size_arr_nil_le _) rfl) .nil))

/-- How a report tells of an interaction. -/
def interactionFields (i : Interaction) : List (String × Json) :=
  givenFields [("type", .str i.action), ("timeToDecision", nullableJson Json.int i.timeToDecision),
    ("customizationOpened", nullableJson Json.bool i.customized)]

theorem json_reduced (r : Report) :
    r.reduced.json = .obj [("userId", .str r.userId), ("decisions", r.reduced.decisions.json),
      ("bannerInteraction", .obj [("type", .str r.interaction.action)])] := rfl

theorem json_ofConsent (userId : String) (c : Consent) (i : Interaction) (metadata : Option ReportMetadata) :
    (ofConsent userId c i metadata).json = .obj [("userId", .str userId), ("decisions", (Decisions.ofConsent c).json),
      ("bannerInteraction", .obj (interactionFields i)), ("metadata", (metadata.getD {}).json)] := rfl

/-- The reduced form of a report on a decision, which always allows the necessary purpose, is shorter than the whole. -/
theorem size_reduced_lt {c : Consent} (h : c.purposes.IsLegible)
    (hnecessary : c.purposes.get? Purpose.necessary = some true) (userId : String) (i : Interaction)
    (metadata : Option ReportMetadata) :
    (ofConsent userId c i metadata).reduced.json.size f < (ofConsent userId c i metadata).json.size f := by
  have hdecisions := Json.fieldSize_mono "decisions"
    (size_decisions h hnecessary (ofConsent userId c i metadata) (f := f)) rfl
  have hinteraction : (Json.obj [("type", .str i.action)]).size f ≤ (Json.obj (interactionFields i)).size f :=
    Json.size_obj_mono (.cons (Nat.le_refl _) .nil)
  have hinteraction := Json.fieldSize_mono "bannerInteraction" hinteraction rfl
  have hmetadata : 0 < Json.fieldSize f ("metadata", (metadata.getD {}).json) := by
    rw [Json.fieldSize, Json.writeString, List.length_cons]
    omega
  have hshort := Json.size_obj (f := f) ("userId", .str userId)
    [("decisions", (ofConsent userId c i metadata).reduced.decisions.json),
      ("bannerInteraction", .obj [("type", .str i.action)])]
  have hlong := Json.size_obj (f := f) ("userId", .str userId) [("decisions", (Decisions.ofConsent c).json),
    ("bannerInteraction", .obj (interactionFields i)), ("metadata", (metadata.getD {}).json)]
  simp only [List.map_cons, List.map_nil, List.sum_cons, List.sum_nil] at hshort hlong
  rw [json_reduced, json_ofConsent]
  change (Json.obj [("userId", .str userId), _, ("bannerInteraction", .obj [("type", .str i.action)])]).size f < _
  omega

end Size

end Report

end ConsentBanner
