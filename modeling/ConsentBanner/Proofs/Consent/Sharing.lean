import ConsentBanner.Proofs.Consent.Store
import ConsentBanner.Proofs.Text.Integer

/-!
Stores that share a browser. The identifier of the visitor is one for all of them: every call writes it to the cookie,
encoded, and to the storage; the next call takes what stands in the cookie as it is, so that an identifier lasts as long
as encoding leaves it alone. Consents are kept apart by the names of their cookies, which are written as they are, so
that a store may write under another name than its own: stores get in each other's way just when that is the name of
another's cookie or the key of the visitor.
-/

namespace ConsentBanner

namespace Visitor

/-- A place where the identifier is kept. -/
inductive Place where
  | cookie
  | entry
deriving DecidableEq, Repr

/-- The browser without the identifier in a place. -/
def Place.erase : Place → Browser → Browser
  | cookie, b => { b with jar := { b.jar with cookies := b.jar.cookies.filter (·.1 != key) } }
  | entry, b => { b with storage := b.storage.filter (·.1 != key) }

/-- A call for the identifier, through the store of any banner: what was erased before it, its clock and the random
characters that it could take. -/
structure Visit where
  erased : Option Place := none
  now : Number
  randomText : String
deriving DecidableEq, Repr

namespace Visit

/-- What a call finds. -/
def finds (v : Visit) (b : Browser) : Browser :=
  let b := match v.erased with
    | some place => place.erase b
    | none => b
  { b with now := v.now, randomText := v.randomText }

/-- The cookie would expire on a day of the calendar. -/
def IsDated (v : Visit) : Prop :=
  ∃ now expiry, Moment.ofMillis v.now = .ok now ∧ now.addDays cookieDays = .ok expiry

end Visit

/-- The identifiers that calls get, one after the other, and the browser after each. -/
def visits : List Visit → Browser → Except Fault (List (String × Browser))
  | [], _ => .ok []
  | v :: rest, b => do
    let (id, b) ← identify (v.finds b)
    return (id, b) :: (← visits rest b)

/-- Cookie and storage hold an identifier. -/
structure Holds (id : String) (b : Browser) : Prop where
  cookie : b.jar.get? key = some (Text.percentEncode id)
  entry : Fields.get? key b.storage = some id

theorem isPlainName_key : Cookie.IsPlainName key := ⟨by decide, by decide, by decide⟩

variable {b b' : Browser} {id : String}

/-- The cookie comes first, then the storage; a place that holds an empty text holds nothing. -/
theorem current_eq (b : Browser) :
    current b = if (b.jar.get? key).getD "" = "" then
        if (Fields.get? key b.storage).getD "" = "" then newId b else (Fields.get? key b.storage).getD ""
      else (b.jar.get? key).getD "" := by
  unfold current
  split
  · rename_i hcookie hentry
    rw [if_pos hcookie, if_pos hentry]
  · rename_i hcookie hentry
    rw [if_pos hcookie, if_neg hentry]
  · rename_i hcookie _
    rw [if_neg hcookie]

theorem current_ne_empty (b : Browser) : current b ≠ "" := by
  rw [current_eq]
  split
  · split
    · intro h
      have hfirst : (newId b).toList.head? = some 'u' := by simp [newId]
      rw [h] at hfirst
      cases hfirst
    · assumption
  · assumption

/-- A call that returns gives the identifier it finds, and both places hold it then. -/
theorem identify_eq_ok (h : identify b = .ok (id, b')) : id = current b ∧ Holds id b' := by
  obtain ⟨cookie, hcookie, h⟩ := bind_eq_ok.1 h
  cases h
  exact ⟨rfl, CookieJar.get?_set_self (CookieJar.pair_format isPlainName_key hcookie) b.jar,
    Fields.get?_set_self _ _ _⟩

theorem identify_isOk_iff (v : Visit) (b : Browser) : (∃ r, identify (v.finds b) = .ok r) ↔ v.IsDated := by
  have hformat : (∃ cookie, Cookie.format key (current (v.finds b)) cookieDays v.now = .ok cookie) ↔ v.IsDated :=
    Cookie.format_isOk_iff
  rw [← hformat]
  constructor
  · rintro ⟨r, h⟩
    obtain ⟨cookie, hcookie, -⟩ := bind_eq_ok.1 h
    exact ⟨cookie, hcookie⟩
  · rintro ⟨cookie, hcookie⟩
    exact ⟨_, bind_eq_ok.2 ⟨cookie, hcookie, rfl⟩⟩

theorem visits_isOk_iff {vs : List Visit} : (∃ rs, visits vs b = .ok rs) ↔ ∀ v ∈ vs, v.IsDated := by
  induction vs generalizing b with
  | nil => exact iff_of_true ⟨[], rfl⟩ nofun
  | cons v vs ih =>
    rw [List.forall_mem_cons, ← identify_isOk_iff v b]
    constructor
    · rintro ⟨rs, h⟩
      obtain ⟨r, hr, h⟩ := bind_eq_ok.1 h
      obtain ⟨rs', hrs', -⟩ := bind_eq_ok.1 h
      exact ⟨⟨r, hr⟩, ih.1 ⟨rs', hrs'⟩⟩
    · rintro ⟨⟨r, hr⟩, hvs⟩
      obtain ⟨rs', hrs'⟩ := ih.2 hvs
      exact ⟨_, bind_eq_ok.2 ⟨r, hr, bind_eq_ok.2 ⟨rs', hrs', rfl⟩⟩⟩

theorem Holds.percentEncode_ne_empty (hid : id ≠ "") : Text.percentEncode id ≠ "" := by
  intro h
  have hdecode := Text.percentDecode_percentEncode id
  rw [h] at hdecode
  exact hid hdecode.symm

theorem get?_filter (fields : List (String × String)) : Fields.get? key (fields.filter (·.1 != key)) = none :=
  Fields.get?_of_not_mem (by simp)

/-- What the next call gets: the identifier as it was encoded, unless the cookie was erased. -/
theorem Holds.current_finds (h : Holds id b) (hid : id ≠ "") (v : Visit) :
    current (v.finds b) = if v.erased = some .cookie then id else Text.percentEncode id := by
  have hencoded := percentEncode_ne_empty hid
  obtain ⟨erased, now, randomText⟩ := v
  rw [current_eq]
  cases erased with
  | none =>
    have hcookie : ((Visit.finds ⟨none, now, randomText⟩ b).jar.get? key) = some (Text.percentEncode id) := h.cookie
    rw [hcookie, Option.getD_some, if_neg hencoded, if_neg nofun]
  | some place =>
    cases place with
    | cookie =>
      have hcookie : ((Visit.finds ⟨some .cookie, now, randomText⟩ b).jar.get? key) = none := get?_filter b.jar.cookies
      have hentry : Fields.get? key (Visit.finds ⟨some .cookie, now, randomText⟩ b).storage = some id := h.entry
      rw [hcookie, hentry, Option.getD_none, Option.getD_some, if_pos rfl, if_neg hid, if_pos rfl]
    | entry =>
      have hcookie : ((Visit.finds ⟨some .entry, now, randomText⟩ b).jar.get? key) = some (Text.percentEncode id) :=
        h.cookie
      rw [hcookie, Option.getD_some, if_neg hencoded, if_neg nofun]

/-- After each of many calls both places hold the identifier that it got. -/
theorem holds_of_visits {vs : List Visit} {rs : List (String × Browser)} (h : visits vs b = .ok rs) :
    ∀ r ∈ rs, Holds r.1 r.2 := by
  induction vs generalizing b rs with
  | nil =>
    cases h
    exact nofun
  | cons v vs ih =>
    obtain ⟨r, hr, h⟩ := bind_eq_ok.1 h
    obtain ⟨rs', hrs', h⟩ := bind_eq_ok.1 h
    cases h
    exact List.forall_mem_cons.2 ⟨(identify_eq_ok hr).2, ih hrs'⟩

/-- Calls keep an identifier that both places hold just when encoding leaves it alone, or the cookie is erased before
each of them. -/
theorem Holds.visits_iff (h : Holds id b) (hid : id ≠ "") {vs : List Visit} {rs : List (String × Browser)}
    (hrs : visits vs b = .ok rs) :
    (∀ r ∈ rs, r.1 = id) ↔ Text.IsUnreserved id ∨ ∀ v ∈ vs, v.erased = some .cookie := by
  induction vs generalizing b rs with
  | nil =>
    cases hrs
    exact iff_of_true nofun (.inr nofun)
  | cons v vs ih =>
    obtain ⟨⟨next, b'⟩, hr, hrs⟩ := bind_eq_ok.1 hrs
    obtain ⟨rs', hrs', hrs⟩ := bind_eq_ok.1 hrs
    cases hrs
    obtain ⟨hnext, hholds⟩ := identify_eq_ok hr
    rw [h.current_finds hid] at hnext
    rw [List.forall_mem_cons, List.forall_mem_cons]
    by_cases hv : v.erased = some .cookie
    · rw [if_pos hv] at hnext
      subst hnext
      rw [ih hholds hrs']
      simp [hv]
    · rw [if_neg hv] at hnext
      by_cases hu : Text.IsUnreserved id
      · rw [Text.percentEncode_eq_self.2 hu] at hnext
        subst hnext
        exact iff_of_true ⟨rfl, (ih hholds hrs').2 (.inl hu)⟩ (.inl hu)
      · refine iff_of_false (fun hall => hu ?_) (by simp [hu, hv])
        exact Text.percentEncode_eq_self.1 (hnext.symm.trans hall.1)

/-- Calls for the identifier return as long as their clocks can show when the cookie expires. After each of them the
cookie, once decoded, and the storage hold the identifier that it got. All get the identifier of the first just when
encoding leaves that alone, or the cookie is erased before each call after the first. -/
theorem visits_identify (vs : List Visit) (b : Browser) :
    ((∃ rs, visits vs b = .ok rs) ↔ ∀ v ∈ vs, v.IsDated) ∧
      ∀ rs, visits vs b = .ok rs →
        (∀ r ∈ rs, (r.2.jar.get? key).map Text.percentDecode = some r.1 ∧ Fields.get? key r.2.storage = some r.1) ∧
        ∀ first ∈ rs.head?, (∀ r ∈ rs, r.1 = first.1) ↔
          Text.IsUnreserved first.1 ∨ ∀ v ∈ vs.tail, v.erased = some .cookie := by
  refine ⟨visits_isOk_iff, fun rs hrs => ⟨fun r hr => ?_, fun first hfirst => ?_⟩⟩
  · obtain ⟨hcookie, hentry⟩ := holds_of_visits hrs r hr
    rw [hcookie, Option.map_some, Text.percentDecode_percentEncode]
    exact ⟨rfl, hentry⟩
  · cases vs with
    | nil =>
      cases hrs
      cases hfirst
    | cons v vs =>
      obtain ⟨⟨id, b'⟩, hr, hrs⟩ := bind_eq_ok.1 hrs
      obtain ⟨rs', hrs', hrs⟩ := bind_eq_ok.1 hrs
      cases hrs
      cases hfirst
      obtain ⟨hid, hholds⟩ := identify_eq_ok hr
      rw [List.forall_mem_cons, List.tail_cons, hholds.visits_iff (hid ▸ current_ne_empty _) hrs']
      exact and_iff_right rfl

/-- Encoding leaves a new identifier alone when the clock shows whole milliseconds and the random characters are letters
and digits: it lasts. -/
theorem isUnreserved_newId {ms : Int} (hnow : b.now = .int ms) (hrandom : ∀ c ∈ b.randomText.toList, c.isAlphanum = true) :
    Text.IsUnreserved (newId b) := by
  have hdigit {n : Nat} {c : Char} (h : c ∈ Nat.toDigits 10 n) : Text.isUnreserved c = true := by
    have hc := Nat.isDigit_of_mem_toDigits (by decide) (by decide) h
    rw [Text.isUnreserved, Char.isAlphanum, hc, Bool.or_true, Bool.true_or]
  have hclock : ∀ c ∈ (toString ms).toList, Text.isUnreserved c = true := by
    intro c hc
    rw [Text.toList_toString] at hc
    split at hc
    · exact hdigit hc
    · obtain rfl | hc := List.mem_cons.1 hc
      · decide
      · exact hdigit hc
  have hmark : ∀ c ∈ "user_".toList ++ "_".toList, Text.isUnreserved c = true := Text.forall_mem_of_all (by decide)
  rw [List.forall_mem_append] at hmark
  intro c hc
  rw [newId, hnow, Number.text] at hc
  simp only [String.toList_append, List.mem_append] at hc
  obtain ((hc | hc) | hc) | hc := hc
  · exact hmark.1 c hc
  · exact hclock c hc
  · exact hmark.2 c hc
  · rw [Text.isUnreserved, hrandom c hc, Bool.true_or]

/-- An identifier that encoding changes, left by another program. -/
def addressBrowser : Browser := { storage := [(key, "user@example.com")] }

def addressVisit : Visit := { now := .int 0, randomText := "0" }

theorem visits_identify_address :
    ∃ rs, visits [addressVisit, addressVisit] addressBrowser = .ok rs ∧
      (∀ r ∈ rs, (r.2.jar.get? key).map Text.percentDecode = some r.1 ∧ Fields.get? key r.2.storage = some r.1) ∧
      rs.map (·.1) = ["user@example.com", "user%40example.com"] := by
  obtain ⟨-, hall⟩ := visits_identify [addressVisit, addressVisit] addressBrowser
  have hids : (visits [addressVisit, addressVisit] addressBrowser).toOption.map (·.map (·.1)) =
      some ["user@example.com", "user%40example.com"] := by decide +kernel
  cases hrs : visits [addressVisit, addressVisit] addressBrowser with
  | error e =>
    rw [hrs] at hids
    cases hids
  | ok rs =>
    rw [hrs] at hids
    exact ⟨rs, rfl, (hall rs hrs).1, Option.some.inj hids⟩

end Visitor

namespace ConsentStore

variable {s s' : ConsentStore} {b b' : Browser}

/-- The name in the jar that a store writes to. -/
def writtenName (s : ConsentStore) : String := Cookie.foundName s.cookieName

theorem get?_jar_of_save {c : Consent} (h : s.save c b = .ok b') {name : String} (hname : s.writtenName ≠ name) :
    b'.jar.get? name = b.jar.get? name := by
  obtain ⟨cookie, hcookie, h⟩ := bind_eq_ok.1 h
  cases h
  apply CookieJar.get?_set_of_ne
  rwa [Cookie.fst_pair_format hcookie]

theorem get?_jar_clear {name : String} (hname : s.writtenName ≠ name) (b : Browser) :
    (s.clear b).jar.get? name = b.jar.get? name := by
  apply CookieJar.get?_set_of_ne
  rwa [Cookie.fst_pair_expired]

/-- A store and the visitor find what they found before. -/
structure Spares (s : ConsentStore) (b b' : Browser) : Prop where
  load : s.load b' = s.load b
  cookie : b'.jar.get? Visitor.key = b.jar.get? Visitor.key
  entry : Fields.get? Visitor.key b'.storage = Fields.get? Visitor.key b.storage

/-- Whatever is saved or cleared through a store spares another one and the visitor. -/
structure Isolated (s s' : ConsentStore) : Prop where
  save : ∀ {c b b'}, s.save c b = .ok b' → s'.Spares b b'
  clear : ∀ b, s'.Spares b (s.clear b)

theorem spares_of_get? (hcookie : b'.jar.get? s.cookieName = b.jar.get? s.cookieName)
    (hkey : b'.jar.get? Visitor.key = b.jar.get? Visitor.key)
    (hentry : Fields.get? Visitor.key b'.storage = Fields.get? Visitor.key b.storage) : s.Spares b b' where
  load := by rw [ConsentStore.load, hcookie, ConsentStore.load]
  cookie := hkey
  entry := hentry

theorem isolated_of_ne (hcookie : s.writtenName ≠ s'.cookieName) (hkey : s.writtenName ≠ Visitor.key) :
    s.Isolated s' where
  save := by
    intro c b b' h
    refine spares_of_get? (get?_jar_of_save h hcookie) (get?_jar_of_save h hkey) ?_
    obtain ⟨cookie, -, h⟩ := bind_eq_ok.1 h
    cases h
    exact Fields.get?_set_of_ne s.cookieName_ne_key _ _
  clear b := spares_of_get? (get?_jar_clear hcookie b) (get?_jar_clear hkey b)
    (Fields.get?_set_of_ne s.cookieName_ne_key _ _)

/-- What is found under the name that a store writes to does not depend on what was there. -/
theorem get?_jar_writtenName (s : ConsentStore) (b : Browser) :
    (s.clear b).jar.get? s.writtenName = some (CookieJar.pair (Cookie.expired s.cookieName)).2 := by
  have hpair : CookieJar.pair (Cookie.expired s.cookieName) =
      (s.writtenName, (CookieJar.pair (Cookie.expired s.cookieName)).2) := by
    rw [writtenName, ← Cookie.fst_pair_expired]
  exact CookieJar.get?_set_self hpair b.jar

theorem Isolated.writtenName_ne_key (h : s.Isolated s') : s.writtenName ≠ Visitor.key := by
  intro he
  have hcookie := (h.clear {}).cookie
  rw [← he, get?_jar_writtenName] at hcookie
  cases hcookie

theorem Isolated.writtenName_ne_cookieName (h : s.Isolated s') : s.writtenName ≠ s'.cookieName := by
  intro he
  -- A consent and no consent cannot both be what clearing leaves.
  have hload (raw : String) :
      Consent.decode? ((CookieJar.pair (Cookie.expired s.cookieName)).2) = Consent.decode? raw := by
    have hclear := (h.clear { jar := { cookies := [(s'.cookieName, raw)] } }).load
    rw [ConsentStore.load, ConsentStore.load, ← he, get?_jar_writtenName, CookieJar.get?, Fields.get?_cons_self] at hclear
    exact hclear
  have hnone : Consent.decode? "" = .ok none := rfl
  have hsome : (Consent.decode? "\x7b\x7d").toOption.bind id ≠ none := by decide +kernel
  rw [← hload, hload "", hnone] at hsome
  exact hsome rfl

/-- Stores are isolated just when the first writes neither to the cookie of the second nor to that of the visitor. For
different banners that is so whenever the name of the first one can be written in a cookie. -/
theorem isolated_iff (s s' : ConsentStore) :
    (s.Isolated s' ↔ s.writtenName ≠ s'.cookieName ∧ s.writtenName ≠ Visitor.key) ∧
      (s.bannerId ≠ s'.bannerId → Cookie.IsPlainName s.bannerId → s.Isolated s') := by
  refine ⟨⟨fun h => ⟨h.writtenName_ne_cookieName, h.writtenName_ne_key⟩, fun h => isolated_of_ne h.1 h.2⟩,
    fun hne hplain => ?_⟩
  have hwritten : s.writtenName = s.cookieName := (isPlainName_cookieName hplain).foundName_eq
  refine isolated_of_ne ?_ ?_
  · rw [hwritten, cookieName, cookieName]
    intro he
    exact hne (String.append_left_inj _ |>.1 he)
  · rw [hwritten]
    exact s.cookieName_ne_key

theorem isolated_iff_indented :
    ¬ (ConsentStore.mk " a" (.int 365)).Isolated (.mk "a" (.int 365)) ∧
      (ConsentStore.mk "a" (.int 365)).Isolated (.mk " a" (.int 365)) := by
  refine ⟨fun h => ?_, ?_⟩
  · exact ((isolated_iff _ _).1.1 h).1 (by decide)
  · exact (isolated_iff _ _).2 (by decide) ⟨by decide, by decide, by decide⟩

end ConsentStore

end ConsentBanner
