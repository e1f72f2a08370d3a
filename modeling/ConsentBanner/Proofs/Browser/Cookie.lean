import ConsentBanner.Browser.Basic
import ConsentBanner.Proofs.Json.Fields
import ConsentBanner.Proofs.Outcome
import ConsentBanner.Proofs.Text
import Mathlib.Data.List.TakeWhile

/-!
What a cookie that was written sets.
-/

namespace ConsentBanner

namespace Text

theorem cutList_append {separator : Char} {before : List Char} (h : separator ∉ before) (rest : List Char) :
    cutList separator (before ++ separator :: rest) = (before, some rest) := by
  induction before with
  | nil => rw [List.nil_append, cutList, if_pos (beq_self_eq_true _)]
  | cons c more ih =>
    have hne : c ≠ separator := fun hc => h (hc ▸ List.mem_cons_self)
    rw [List.cons_append, cutList, if_neg (by simpa using hne), ih fun hm => h (List.mem_cons_of_mem _ hm)]

theorem splitOnce_append {separator : Char} {before rest s : String} (h : separator ∉ before.toList)
    (hs : s.toList = before.toList ++ separator :: rest.toList) : splitOnce separator s = (before, some rest) := by
  rw [splitOnce, hs, cutList_append h]
  simp

theorem fst_cutList (separator : Char) (cs : List Char) : (cutList separator cs).1 = cs.takeWhile (· != separator) := by
  induction cs with
  | nil => rfl
  | cons c cs ih =>
    rw [cutList, List.takeWhile_cons]
    by_cases hc : c = separator
    · rw [if_pos (by simpa using hc), if_neg (by simpa using hc)]
    · rw [if_neg (by simpa using hc), if_pos (by simpa using hc), ← ih]

theorem fst_splitOnce (separator : Char) (s : String) :
    (splitOnce separator s).1 = String.ofList (s.toList.takeWhile (· != separator)) := by
  rw [← fst_cutList]
  rfl

theorem takeWhile_append_stop {α : Type} {p : α → Bool} {a : α} (h : p a = false) (head rest : List α) :
    (head ++ a :: rest).takeWhile p = head.takeWhile p := by
  induction head with
  | nil => rw [List.nil_append, List.takeWhile_cons_of_neg (by simp [h]), List.takeWhile_nil]
  | cons b head ih => rw [List.cons_append, List.takeWhile_cons, List.takeWhile_cons, ih]

theorem dropWhile_of_trimList {cs : List Char} (h : trimList cs = cs) : cs.dropWhile isBlank = cs := by
  have hsuffix : cs.dropWhile isBlank <:+ cs := List.dropWhile_suffix _
  apply hsuffix.eq_of_length
  apply Nat.le_antisymm hsuffix.length_le
  have hle : (trimList cs).length ≤ (cs.dropWhile isBlank).length := by
    rw [trimList, dropTrailing, List.length_reverse]
    have h := (List.dropWhile_suffix isBlank (l := (cs.dropWhile isBlank).reverse)).length_le
    rwa [List.length_reverse] at h
  rwa [h] at hle

end Text

/-- A name that a cookie can be written under and found again. -/
structure Cookie.IsPlainName (name : String) : Prop where
  no_semicolon : ';' ∉ name.toList
  no_equals : '=' ∉ name.toList
  trim_eq : Text.trim name = name

/-- A cookie is written exactly if it expires on a day of the calendar. -/
theorem Cookie.format_isOk_iff {name value : String} {days ms : Number} :
    (∃ cookie, format name value days ms = .ok cookie) ↔
      ∃ now expiry, Moment.ofMillis ms = .ok now ∧ now.addDays days = .ok expiry := by
  constructor
  · rintro ⟨cookie, h⟩
    obtain ⟨now, hnow, h⟩ := bind_eq_ok.1 h
    obtain ⟨expiry, hexpiry, -⟩ := bind_eq_ok.1 h
    exact ⟨now, expiry, hnow, hexpiry⟩
  · rintro ⟨now, expiry, hnow, hexpiry⟩
    exact ⟨_, bind_eq_ok.2 ⟨now, hnow, bind_eq_ok.2 ⟨expiry, hexpiry, rfl⟩⟩⟩

namespace CookieJar

/-- A cookie sets under a plain name what stands between the equals sign and the first semicolon. -/
theorem pair_written {name value cookie : String} (rest : String) (hname : Cookie.IsPlainName name)
    (hvalue : ';' ∉ value.toList) (h : cookie = name ++ "=" ++ value ++ ";" ++ rest) : pair cookie = (name, value) := by
  have hfirst : ';' ∉ (name ++ "=" ++ value).toList := by
    simp only [String.toList_append, List.mem_append, not_or]
    exact ⟨⟨hname.no_semicolon, by decide⟩, hvalue⟩
  have hcookie : Text.splitOnce ';' cookie = (name ++ "=" ++ value, some rest) := by
    apply Text.splitOnce_append hfirst
    simp [h]
  have hpair : Text.splitOnce '=' (name ++ "=" ++ value) = (name, some value) := by
    apply Text.splitOnce_append hname.no_equals
    simp
  rw [pair, hcookie]
  dsimp only
  rw [hpair]
  dsimp only
  rw [hname.trim_eq, Option.getD_some]

theorem pair_format {name value cookie : String} {days now : Number} (hname : Cookie.IsPlainName name)
    (h : Cookie.format name value days now = .ok cookie) : pair cookie = (name, Text.percentEncode value) := by
  obtain ⟨m, -, h⟩ := bind_eq_ok.1 h
  obtain ⟨expiry, -, h⟩ := bind_eq_ok.1 h
  cases h
  have hvalue : ';' ∉ (Text.percentEncode value).toList := fun hmem =>
    absurd (Text.isPercentSafe_of_mem_percentEncode hmem) (by decide)
  refine pair_written (" expires=" ++ expiry.cookieText ++ "; path=/; SameSite=Lax") hname hvalue ?_
  rw [← String.toList_inj]
  simp

theorem pair_expired {name : String} (hname : Cookie.IsPlainName name) : pair (Cookie.expired name) = (name, "") := by
  refine pair_written " expires=Thu, 01 Jan 1970 00:00:00 GMT; path=/; SameSite=Lax" hname (by decide) ?_
  rw [← String.toList_inj]
  simp [Cookie.expired]

theorem get?_set_self {cookie name value : String} (h : pair cookie = (name, value)) (j : CookieJar) :
    (j.set cookie).get? name = some value := by
  rw [get?, set, h]
  exact Fields.get?_set_self ..

theorem get?_set_of_ne {cookie name : String} (h : (pair cookie).1 ≠ name) (j : CookieJar) :
    (j.set cookie).get? name = j.get? name := Fields.get?_set_of_ne h ..

end CookieJar

namespace Cookie

/-- The name that a jar finds in a cookie written under a name. -/
def foundName (name : String) : String :=
  Text.trim (String.ofList (name.toList.takeWhile fun c => c != '=' && c != ';'))

theorem IsPlainName.foundName_eq {name : String} (h : IsPlainName name) : foundName name = name := by
  have hall : ∀ c ∈ name.toList, (c != '=' && c != ';') = true := by
    intro c hc
    rw [Bool.and_eq_true, bne_iff_ne, bne_iff_ne]
    exact ⟨fun he => h.no_equals (he ▸ hc), fun he => h.no_semicolon (he ▸ hc)⟩
  rw [foundName, List.takeWhile_eq_self_iff.2 hall, String.ofList_toList, h.trim_eq]

theorem fst_pair {name cookie : String} (rest : List Char) (h : cookie.toList = name.toList ++ '=' :: rest) :
    (CookieJar.pair cookie).1 = foundName name := by
  have hfst : (CookieJar.pair cookie).1 = Text.trim (Text.splitOnce '=' (Text.splitOnce ';' cookie).1).1 := rfl
  rw [hfst, Text.fst_splitOnce, Text.fst_splitOnce, String.toList_ofList, List.takeWhile_takeWhile, h,
    Text.takeWhile_append_stop (by decide), foundName]
  simp only [Bool.decide_and, Bool.decide_eq_true]

theorem fst_pair_format {name value cookie : String} {days now : Number}
    (h : format name value days now = .ok cookie) : (CookieJar.pair cookie).1 = foundName name := by
  obtain ⟨m, -, h⟩ := bind_eq_ok.1 h
  obtain ⟨expiry, -, h⟩ := bind_eq_ok.1 h
  cases h
  apply fst_pair (Text.percentEncode value ++ "; expires=" ++ expiry.cookieText ++ "; path=/; SameSite=Lax").toList
  simp

theorem fst_pair_expired (name : String) : (CookieJar.pair (expired name)).1 = foundName name :=
  fst_pair "; expires=Thu, 01 Jan 1970 00:00:00 GMT; path=/; SameSite=Lax".toList (by simp [expired])

end Cookie

end ConsentBanner
