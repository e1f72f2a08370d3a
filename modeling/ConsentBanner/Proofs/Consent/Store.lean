import ConsentBanner.Consent.Store
import ConsentBanner.Proofs.Browser.Cookie
import ConsentBanner.Proofs.Consent.Basic

/-!
Consents are loaded as they were saved, and what stands in a consent cookie is read, whoever wrote it.
-/

namespace ConsentBanner

theorem Json.isReadable_compactAscii : Json.Format.compactAscii.IsReadable where
  item := ⟨[], rfl, nofun⟩
  key := ⟨[], rfl, nofun⟩

namespace Consent

variable {c : Consent}

theorem encode_ne_empty (h : Json.IsPlain c.json) : c.encode ≠ "" := by
  intro hempty
  obtain ⟨d, ds, hd, -⟩ := Json.write_of_isPlain h .compactAscii
  have hlist : c.encode.toList = d :: ds := by rw [encode, Json.render, String.toList_ofList, hd]
  rw [hempty] at hlist
  cases hlist

theorem decode?_encode (h : Json.IsPlain c.json) :
    decode? (Text.percentEncode c.encode) =
      match read c.json with
      | .valid c' => .ok (some { c' with purposes := c'.purposes.set Purpose.necessary true })
      | .invalid _ => .ok none
      | .fault f => .error f := by
  have hdecode : Text.percentDecode (Text.percentEncode c.encode) = c.encode :=
    Text.percentDecode_percentEncode c.encode
  have hparse : Json.parse? c.encode = some c.json := Json.parse?_render Json.isReadable_compactAscii h
  have hne : ¬ (Text.percentEncode c.encode).isEmpty := by
    intro hempty
    rw [String.isEmpty_iff] at hempty
    rw [hempty] at hdecode
    exact encode_ne_empty h hdecode.symm
  obtain ⟨fields, hfields⟩ : ∃ fields, c.json = .obj fields := ⟨_, rfl⟩
  cases hread : read (.obj fields) with
  | valid c' => simp only [decode?, if_neg hne, hdecode, hparse, hfields, hread]
  | invalid issues => simp only [decode?, if_neg hne, hdecode, hparse, hfields, hread]
  | fault f => simp only [decode?, if_neg hne, hdecode, hparse, hfields, hread]

/-- A consent is found in what it was encoded as, with what is necessary allowed. -/
theorem IsWellFormed.decode?_encode (h : c.IsWellFormed) :
    decode? (Text.percentEncode c.encode) =
      .ok (some { c with purposes := c.purposes.set Purpose.necessary true }) := by
  rw [Consent.decode?_encode h.isPlain_json, h.read_json]

theorem IsStorable.decode?_encode (h : c.IsStorable) :
    decode? (Text.percentEncode c.encode) = .ok (some c) := by
  rw [h.isWellFormed.decode?_encode, Answers.set_of_get? h.necessary]

/-- A consent that is stored without loss once the server makes a text of it; so far it may have made any document. -/
structure IsRecorded (c : Consent) : Prop where
  storable : { c with tcString := .str "" }.IsStorable
  document : c.tcString.IsPlain

theorem IsStorable.isRecorded (h : c.IsStorable) : c.IsRecorded where
  storable := ⟨h.purposes, h.vendors, h.specialFeatures, h.created, h.lastUpdated, ⟨"", rfl⟩, h.necessary⟩
  document := by
    obtain ⟨text, htext⟩ := h.tcString
    rw [htext]
    trivial

theorem IsRecorded.isPlain_json (h : c.IsRecorded) : Json.IsPlain c.json := by
  obtain ⟨hkeys, hpurposes, hvendors, hfeatures, hcreated, hupdated, -, -⟩ := h.storable.isWellFormed.isPlain_json
  exact ⟨hkeys, hpurposes, hvendors, hfeatures, hcreated, hupdated, h.document, trivial⟩

/-- A consent with an answer of the server that is no text is not read again. -/
theorem IsRecorded.read_json (h : c.IsRecorded) (htext : c.hasText = false) :
    ∃ issues, read c.json = .invalid issues := by
  obtain ⟨purposes, vendors, specialFeatures, created, lastUpdated, tcString⟩ := c
  obtain ⟨⟨hpurposes, hvendors, hfeatures, hcreated, hupdated, -, -⟩, hdocument⟩ := h
  have hstring : Reader.string tcString = .reject .notString := by
    cases tcString with
    | str text => cases htext
    | bytes bs => exact hdocument.elim
    | _ => rfl
  change ∃ issues, Consent.mk
      <$> (Answers.read purposes.json).under "purposes"
      <*> (Answers.read vendors.json).under "vendors"
      <*> (Answers.read specialFeatures.json).under "specialFeatures"
      <*> (Reader.nullable Moment.read (momentJson created)).under "created"
      <*> (Reader.nullable Moment.read (momentJson lastUpdated)).under "lastUpdated"
      <*> (Json.str <$> Reader.string tcString).under "tcString" = _
  rw [hpurposes.read_json, hvendors.read_json, hfeatures.read_json, read_momentJson hcreated,
    read_momentJson hupdated, hstring]
  exact ⟨_, rfl⟩

/-- What was encoded is found again exactly when the server made a text of it. -/
theorem IsRecorded.decode?_encode (h : c.IsRecorded) :
    decode? (Text.percentEncode c.encode) = .ok ((some c).filter hasText) := by
  cases htext : c.hasText with
  | false =>
    obtain ⟨issues, hissues⟩ := h.read_json htext
    rw [Consent.decode?_encode h.isPlain_json, hissues, Option.filter_some_neg (by simp [htext])]
  | true =>
    obtain ⟨text, htc⟩ := eq_str_of_hasText htext
    have hstorable : c.IsStorable :=
      ⟨h.storable.purposes, h.storable.vendors, h.storable.specialFeatures, h.storable.created,
        h.storable.lastUpdated, ⟨text, htc⟩, h.storable.necessary⟩
    rw [hstorable.decode?_encode, Option.filter_some_pos htext]

end Consent

namespace ConsentStore

variable {s : ConsentStore} {b b' : Browser}

theorem toList_cookieName (s : ConsentStore) : s.cookieName.toList = s.bannerId.toList ++ "-consent".toList := by
  rw [cookieName, String.toList_append]

theorem trim_cookieName (h : Text.trim s.bannerId = s.bannerId) : Text.trim s.cookieName = s.cookieName := by
  have hid : Text.trimList s.bannerId.toList = s.bannerId.toList := by
    rw [← String.toList_ofList (l := Text.trimList s.bannerId.toList)]
    exact congrArg String.toList h
  have hkept : s.bannerId.toList.dropWhile Text.isBlank = s.bannerId.toList := Text.dropWhile_of_trimList hid
  have hfront : s.cookieName.toList.dropWhile Text.isBlank = s.cookieName.toList := by
    rw [toList_cookieName]
    cases hcs : s.bannerId.toList with
    | nil => rfl
    | cons c cs =>
      rw [hcs, List.dropWhile_cons] at hkept
      rw [List.cons_append, List.dropWhile_cons]
      split at hkept
      · have hle := (List.dropWhile_suffix Text.isBlank (l := cs)).length_le
        rw [hkept, List.length_cons] at hle
        omega
      · rename_i hc
        rw [if_neg hc]
  have hback : s.cookieName.toList.reverse = "tnesnoc-".toList ++ s.bannerId.toList.reverse := by
    rw [toList_cookieName, List.reverse_append]
    rfl
  rw [Text.trim, Text.trimList, hfront, Text.dropTrailing, hback]
  change String.ofList ("tnesnoc-".toList ++ s.bannerId.toList.reverse).reverse = _
  rw [← hback, List.reverse_reverse, String.ofList_toList]

theorem isPlainName_cookieName (h : Cookie.IsPlainName s.bannerId) : Cookie.IsPlainName s.cookieName where
  no_semicolon := by
    rw [toList_cookieName, List.mem_append, not_or]
    exact ⟨h.no_semicolon, by decide⟩
  no_equals := by
    rw [toList_cookieName, List.mem_append, not_or]
    exact ⟨h.no_equals, by decide⟩
  trim_eq := trim_cookieName h.trim_eq

theorem cookieName_ne_key (s : ConsentStore) : s.cookieName ≠ Visitor.key := by
  intro h
  have hlast : s.cookieName.toList.getLast? = some 'd' := by rw [h]; decide
  have hmark : "-consent".toList.getLast? = some 't' := by decide
  rw [toList_cookieName, List.getLast?_append, hmark, Option.some_or] at hlast
  exact absurd hlast (by decide)

/-- What the browser holds for a banner is a given consent. -/
def Holds (s : ConsentStore) (b : Browser) (c : Consent) : Prop :=
  b.jar.get? s.cookieName = some (Text.percentEncode c.encode)

/-- A consent that was loaded was read, and allows what is necessary. -/
theorem load_eq_some {c : Consent} (h : s.load b = .ok (some c)) :
    ∃ v c', Consent.read v = .valid c' ∧ c = { c' with purposes := c'.purposes.set Purpose.necessary true } := by
  unfold ConsentStore.load Consent.decode? at h
  split at h
  · cases h
  · split at h
    · split at h
      · rename_i c' hc'
        cases h
        exact ⟨_, c', hc', rfl⟩
      · cases h
      · cases h
    · cases h

/-- The first decision of a consent that was loaded was made when a clock can show. -/
theorem isZoned_of_load {c : Consent} (h : s.load b = .ok (some c)) : ∀ m ∈ c.created, m.IsZoned := by
  obtain ⟨v, c', hread, rfl⟩ := load_eq_some h
  have hzoned := Consent.isZoned_of_read hread
  exact hzoned

theorem isZoned_lastUpdated_of_load {c : Consent} (h : s.load b = .ok (some c)) : ∀ m ∈ c.lastUpdated, m.IsZoned := by
  obtain ⟨v, c', hread, rfl⟩ := load_eq_some h
  have hzoned := Consent.isZoned_lastUpdated_of_read hread
  exact hzoned

theorem hasText_of_load {c : Consent} (h : s.load b = .ok (some c)) : c.hasText = true := by
  obtain ⟨v, c', hread, rfl⟩ := load_eq_some h
  have htext := Consent.hasText_of_read hread
  exact htext

theorem load_clear (hname : Cookie.IsPlainName s.bannerId) (b : Browser) : s.load (s.clear b) = .ok none := by
  have hjar : (s.clear b).jar.get? s.cookieName = some "" :=
    CookieJar.get?_set_self (CookieJar.pair_expired (isPlainName_cookieName hname)) b.jar
  rw [ConsentStore.load, hjar]
  rfl

theorem Holds.load {c : Consent} (h : s.Holds b c) (hc : c.IsStorable) : s.load b = .ok (some c) := by
  rw [ConsentStore.load, h, Option.getD_some, hc.decode?_encode]

theorem holds_of_save {c : Consent} (hname : Cookie.IsPlainName s.bannerId) (h : s.save c b = .ok b') :
    s.Holds b' c := by
  obtain ⟨cookie, hcookie, h⟩ := bind_eq_ok.1 h
  cases h
  exact CookieJar.get?_set_self (CookieJar.pair_format (isPlainName_cookieName hname) hcookie) b.jar

theorem get?_of_identify {id : String} (h : Visitor.identify b = .ok (id, b')) :
    b'.jar.get? s.cookieName = b.jar.get? s.cookieName := by
  obtain ⟨cookie, hcookie, h⟩ := bind_eq_ok.1 h
  cases h
  have hkey : Cookie.IsPlainName Visitor.key := ⟨by decide, by decide, by decide⟩
  apply CookieJar.get?_set_of_ne
  rw [CookieJar.pair_format hkey hcookie]
  exact (cookieName_ne_key s).symm

theorem get?_storage_of_save {c : Consent} (h : s.save c b = .ok b') :
    Fields.get? s.cookieName b'.storage = some c.encode := by
  obtain ⟨cookie, -, h⟩ := bind_eq_ok.1 h
  cases h
  exact Fields.get?_set_self _ _ _

/-- A consent that refuses what is necessary, with a text that cookies cannot hold as it is. -/
def refusal : Consent where
  purposes := [(1, false), (-7, true)]
  vendors := [(18446744073709551616, false)]
  lastUpdated := some ⟨⟨2024, 2, 29, by decide, by decide, by decide⟩, .midnight, some 0⟩
  tcString := .str "; \"ü\" = 😀,"

end ConsentStore

theorem Visitor.get?_storage_of_identify {store : ConsentStore} {b b' : Browser} {id : String}
    (h : Visitor.identify b = .ok (id, b')) :
    Fields.get? store.cookieName b'.storage = Fields.get? store.cookieName b.storage := by
  obtain ⟨cookie, -, h⟩ := bind_eq_ok.1 h
  cases h
  exact Fields.get?_set_of_ne (ConsentStore.cookieName_ne_key store).symm _ _

theorem Answers.read_eq_fault {v : Json} {f : Fault} :
    read v = .fault f ↔ f = .lacksParts ∧ v.isSet = true ∧ ∀ fields, v ≠ .obj fields := by
  unfold read
  cases hset : v.isSet with
  | false => simp
  | true =>
    cases v with
    | obj fields => simp
    | _ => simp [eq_comm]

theorem Moment.read_ne_fault {v : Json} {f : Fault} : Moment.read v ≠ .fault f := by
  have hchecked (x : Except Unreadable Moment) : checkedNumber x ≠ .fault f := by
    cases x with
    | ok m => exact nofun
    | error e => exact nofun
  unfold Moment.read
  split
  · split
    · exact nofun
    · exact hchecked _
    · exact nofun
  · split
    · exact hchecked _
    · split
      · exact hchecked _
      · exact nofun
  · exact hchecked _
  · exact nofun

theorem Reader.nullable_ne_fault {α : Type} {read : Reader α} (h : ∀ v f, read v ≠ .fault f) {v : Json} {f : Fault} :
    nullable read v ≠ .fault f := by
  unfold nullable
  split
  · exact nofun
  · intro hf
    exact h v f (Checked.map_eq_fault.1 hf)

namespace Consent

/-- A field of a document that holds something that counts as set but is no object. -/
def IsStray (fields : List (String × Json)) (keys : List String) : Prop :=
  ∃ k v, Reader.find? keys fields = some (k, v) ∧ v.isSet = true ∧ ∀ inner, v ≠ .obj inner

/-- Answers that are no object, in any of the fields that hold answers. -/
def HasStrayAnswers (fields : List (String × Json)) : Prop :=
  IsStray fields ["purposes"] ∨ IsStray fields ["vendors"] ∨ IsStray fields ["specialFeatures", "special_features"]

theorem field_answers_eq_fault {fields : List (String × Json)} {keys : List String} {f : Fault} :
    Reader.field fields keys [] Answers.read = .fault f ↔ f = .lacksParts ∧ IsStray fields keys := by
  rw [Reader.field_eq_fault]
  simp only [Answers.read_eq_fault]
  constructor
  · rintro ⟨k, v, hfound, hf, hstray⟩
    exact ⟨hf, k, v, hfound, hstray⟩
  · rintro ⟨hf, k, v, hfound, hstray⟩
    exact ⟨k, v, hfound, hf, hstray⟩

/-- Stray answers are the one thing that no consent can be read past. -/
theorem read_eq_fault {fields : List (String × Json)} {f : Fault} :
    read (.obj fields) = .fault f ↔ f = .lacksParts ∧ HasStrayAnswers fields := by
  have hmoment (keys : List String) (f : Fault) :
      Reader.field fields keys none (Reader.nullable Moment.read) ≠ .fault f := by
    intro h
    obtain ⟨k, v, -, hv⟩ := Reader.field_eq_fault.1 h
    exact Reader.nullable_ne_fault (fun _ _ => Moment.read_ne_fault) hv
  have htext (keys : List String) (f : Fault) :
      Reader.field fields keys (.str "") (fun v => Json.str <$> Reader.string v) ≠ .fault f := by
    intro h
    obtain ⟨k, v, -, hv⟩ := Reader.field_eq_fault.1 h
    exact Reader.string_ne_fault (Checked.map_eq_fault.1 hv)
  simp only [read, Reader.model, Checked.seq_eq_fault, Checked.map_eq_fault, field_answers_eq_fault, hmoment, htext,
    and_false, or_false, ne_eq, HasStrayAnswers]
  by_cases hpurposes : IsStray fields ["purposes"]
  · simp [hpurposes]
  · by_cases hvendors : IsStray fields ["vendors"]
    · simp [hpurposes, hvendors]
    · simp [hpurposes, hvendors]

/-- Only a document with stray answers is an obstacle; any other text is a consent or it is none. -/
theorem decode?_eq_error {raw : String} {f : Fault} :
    decode? raw = .error f ↔
      f = .lacksParts ∧
        ∃ fields, Json.parse? (Text.percentDecode raw) = some (.obj fields) ∧ HasStrayAnswers fields := by
  unfold decode?
  split
  · rename_i hempty
    rw [String.isEmpty_iff] at hempty
    have hparse : Json.parse? (Text.percentDecode "") = none := by decide +kernel
    simp [hempty, hparse]
  · split
    · rename_i fields hparse
      rw [hparse]
      constructor
      · intro h
        split at h
        · cases h
        · cases h
        · rename_i e he
          cases h
          obtain ⟨hf, hstray⟩ := read_eq_fault.1 he
          exact ⟨hf, fields, rfl, hstray⟩
      · rintro ⟨hf, _, ⟨⟩, hstray⟩
        rw [read_eq_fault.2 ⟨hf, hstray⟩]
    · rename_i hother
      constructor
      · exact nofun
      · rintro ⟨-, fields, hparse, -⟩
        exact absurd hparse (hother fields)

/-- What is found in a cookie allows what is necessary. -/
theorem necessary_of_decode? {raw : String} {c : Consent} (h : decode? raw = .ok (some c)) :
    c.purposes.get? Purpose.necessary = some true := by
  unfold decode? at h
  split at h
  · cases h
  · split at h
    · split at h
      · cases h
        exact Answers.get?_set_self ..
      · cases h
      · cases h
    · cases h

end Consent

end ConsentBanner
