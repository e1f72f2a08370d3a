import ConsentBanner.Proofs.Generation.Forest
import ConsentBanner.Proofs.Markup.Picture

/-!
The addresses of images in what is generated: which of them are absolute.
-/

namespace ConsentBanner

open Asset Checked Reader Validation

namespace Asset

/-- An address that is left as it is written though it is not absolute: it begins with a slash but names nothing under
a folder of stored images, or it begins with a scheme but not as absolute addresses do. -/
def LeftAsWritten (url : String) : Prop :=
  isAbsolute url = false ∧ isRooted url.toList = false ∧
    ∃ start ∈ ["/", "http:", "https:", "data:"], begins start.toList url.toList = true

instance (url : String) : Decidable (LeftAsWritten url) := inferInstanceAs (Decidable (_ ∧ _))

/-- An address of another site. -/
def IsSite (url : String) : Prop := Text.startsWith "http://" url = true ∨ Text.startsWith "https://" url = true

instance (url : String) : Decidable (IsSite url) := inferInstanceAs (Decidable (_ ∨ _))

theorem IsSite.startsAbsolute {url : String} (h : IsSite url) : startsAbsolute url.toList = true := by
  rw [Asset.startsAbsolute, List.any_eq_true]
  obtain h | h := h
  · exact ⟨_, .head _, h⟩
  · exact ⟨_, .tail _ (.head _), h⟩

theorem not_leftAsWritten_empty : ¬ LeftAsWritten "" := by decide

theorem not_leftAsWritten_iff {url : String} (hne : url ≠ "") : ¬ LeftAsWritten url ↔
    isRooted url.toList = true ∨ isRelative url.toList = true ∨ startsAbsolute url.toList = true := by
  have hlist : url.toList ≠ [] := fun h => hne (String.toList_eq_nil_iff.1 h)
  have hrelative : isRelative url.toList = true ↔
      ¬ ∃ start ∈ ["/", "http:", "https:", "data:"], begins start.toList url.toList = true := by
    rw [isRelative_iff]
    constructor
    · rintro ⟨-, hall⟩ ⟨start, hstart, hbegins⟩
      rw [hall start.toList (List.mem_map_of_mem hstart)] at hbegins
      cases hbegins
    · intro hnone
      refine ⟨hlist, fun word hword => ?_⟩
      obtain ⟨start, hstart, rfl⟩ := List.mem_map.1 hword
      exact Bool.eq_false_iff.2 fun hbegins => hnone ⟨start, hstart, hbegins⟩
  rw [LeftAsWritten, hrelative, isAbsolute_eq, not_and_or, not_and_or, Bool.not_eq_false, Bool.not_eq_false, or_comm,
    or_assoc]

/-- An address that is made absolute begins with the base, unless it was absolute. -/
theorem isAbsolute_absoluteUrl {baseUrl : String} (h : IsSite (Text.dropTrailingSlashes baseUrl)) (url : String) :
    isAbsolute (absoluteUrl url baseUrl) = true := by
  rw [absoluteUrl]
  split
  · assumption
  · have hbase (rest : String) : isAbsolute (Text.dropTrailingSlashes baseUrl ++ rest) = true := by
      rw [isAbsolute_eq]
      exact startsAbsolute_mono h.startsAbsolute ⟨rest.toList, String.toList_append.symm⟩
    split
    · exact hbase _
    · rw [String.append_assoc]
      exact hbase _

end Asset

namespace Markup

theorem imageAddress_of_ne {language : String} {c : ComponentData} (h : c.text (some language) ≠ "") :
    imageAddress language c = c.text (some language) := by
  rw [imageAddress]
  unfold Text.orDefault
  split
  · rename_i heq
    exact (h (Option.some.inj heq)).elim
  · rename_i heq
    cases heq
  · rename_i heq
    exact (Option.some.inj heq).symm

theorem Pictured.untilMark_eq {language : String} {c : ComponentData} {body : List Char}
    (h : Pictured language c body) : untilMark body = escapeList (imageAddress language c).toList := by
  obtain ⟨more, rfl⟩ := h
  refine untilMark_append (fun d hd => ?_) rfl
  obtain ⟨-, -, hdouble, hsingle⟩ := escapeList_safe hd
  rw [Bool.eq_false_iff, ne_eq, isQuotationMark_iff, not_or]
  exact ⟨hdouble, hsingle⟩

theorem absolute_iff_of_pictured {language : String} {c : ComponentData} {body : List Char}
    (h : Pictured language c body) :
    (isRooted (untilMark body) = true ∨ isRelative (untilMark body) = true ∨ startsAbsolute body = true) ↔
      ¬ LeftAsWritten (c.text (some language)) := by
  have hstarts : ∀ start ∈ absoluteStarts, (start.all (!isQuotationMark ·)) = true := by decide
  have habsolute : startsAbsolute body = startsAbsolute (imageAddress language c).toList := by
    rw [← startsAbsolute_takeWhile hstarts, ← untilMark, h.untilMark_eq, startsAbsolute_escapeList]
  rw [habsolute, h.untilMark_eq, isRooted_escapeList, isRelative_escapeList]
  by_cases hempty : c.text (some language) = ""
  · have hplaceholder : isRooted "/images/placeholder.png".toList = true := by decide
    rw [imageAddress, hempty]
    exact iff_of_true (.inl hplaceholder) not_leftAsWritten_empty
  · rw [imageAddress_of_ne hempty, not_leftAsWritten_iff hempty]

end Markup

namespace Generation

/-- Content that holds one address as a text. -/
inductive HoldsAddress : Json → Prop
  | str (url : String) : HoldsAddress (.str url)
  | text {fields : List (String × Json)} {url : String} (h : Fields.get? "text" fields = some (.str url)) :
      HoldsAddress (.obj fields)

section Plain

variable {baseUrl : String}

theorem read_text {fields : List (String × Json)} {text s : String}
    (htext : Fields.get? "text" fields = some (.str text)) (h : Content.read (.obj fields) = .valid (.plain s)) :
    s = text := by
  have hdisplay : (if (Json.str text).isSet then (Json.str text).display else "") = text := by
    rw [Json.isSet, Json.display]
    split
    · rfl
    · rename_i hempty
      rw [Bool.not_eq_true, Bool.not_eq_false', String.isEmpty_iff] at hempty
      exact hempty.symm
  rw [Content.read] at h
  split at h
  · unfold Content.readTagged at h
    split at h
    · simp only [under_eq_valid, map_eq_valid] at h
      obtain ⟨t, ht, he⟩ := h
      cases he
      cases field_eq_valid htext ht
      rfl
    · simp only [under_eq_valid, map_eq_valid] at h
      obtain ⟨_, -, he⟩ := h
      cases he
    · cases h
  · split at h
    · cases h
    · rename_i hget _
      rw [htext] at hget
      cases hget
      rw [hdisplay] at h
      cases h
      rfl
    · cases h

/-- An address in plain content is made absolute before it is read. -/
theorem read_resolveContent {v : Json} {s : String} (hbase : IsSite (Text.dropTrailingSlashes baseUrl))
    (hv : HoldsAddress v) (hread : Content.read (resolveContent baseUrl v) = .valid (.plain s)) :
    ¬ LeftAsWritten s := by
  have hresolved (url : String) : ∃ resolved, resolveUrl baseUrl url = .str resolved ∧ ¬ LeftAsWritten resolved := by
    rw [resolveUrl]
    split
    · rename_i hempty
      rw [String.isEmpty_iff.1 hempty]
      exact ⟨"", rfl, not_leftAsWritten_empty⟩
    · refine ⟨_, rfl, fun hleft => ?_⟩
      have habsolute := isAbsolute_absoluteUrl hbase url
      rw [hleft.1] at habsolute
      cases habsolute
  cases hv with
  | str url =>
    obtain ⟨resolved, heq, hleft⟩ := hresolved url
    rw [resolveContent, heq, Content.read] at hread
    cases hread
    exact hleft
  | @text fields url htext =>
    obtain ⟨resolved, heq, hleft⟩ := hresolved url
    rw [resolveContent, htext] at hread
    dsimp only at hread
    rw [heq] at hread
    rw [read_text (Fields.get?_set_self _ _ _) hread]
    exact hleft

theorem isImage_of_isPicture {fields : List (String × Json)} {data : ComponentData} (h : Likens fields data)
    (hpicture : data.isPicture = true) : isImage (Template.normalizeFields fields) = true := by
  rw [isImage, Template.get?_normalizeFields_of_ne rfl rfl, get?_of_valueOf h.kind nofun]
  rw [ComponentData.isPicture] at hpicture
  cases hk : data.kind
  all_goals rw [hk] at hpicture
  case logo => rfl
  case image => rfl
  all_goals cases hpicture

theorem plain_of_readsAs {fields : List (String × Json)} {data : ComponentData} {s : String}
    (hbase : IsSite (Text.dropTrailingSlashes baseUrl)) (hlikens : Likens fields data)
    (hreads : Component.ReadsAs (preparedFields baseUrl fields) data) (hpicture : data.isPicture = true)
    (haddress : HoldsAddress (valueOf "content" fields)) (hs : data.content = .plain s) : ¬ LeftAsWritten s := by
  have hget : Fields.get? "content" fields = some (valueOf "content" fields) := by
    cases hnone : Fields.get? "content" fields with
    | none =>
      rw [valueOf, hnone] at haddress
      cases haddress
    | some v => rw [valueOf, hnone, Option.getD_some]
  have hprepared : Fields.get? "content" (preparedFields baseUrl fields) =
      some (resolveContent baseUrl (valueOf "content" fields)) := by
    rw [get?_preparedContent, isImage_of_isPicture hlikens hpicture, hget]
    rfl
  have hread := field_eq_valid hprepared hreads.content
  rw [hs] at hread
  exact read_resolveContent hbase haddress hread

end Plain

/-- Of the images of what is generated the address is absolute exactly if that of the component, in the language, is not
one that is left as it is written. Plain content that holds an address as a text has none of these, so that they come
from content by language. -/
theorem generate_imageSources {config : Configuration} {options : Options} {template : Json} {artifacts : Artifacts}
    (h : generate Stages.standard config options template = .ok artifacts)
    (hbase : IsSite (Text.dropTrailingSlashes options.baseUrl))
    (hopen : '<' ∉ (Text.dropTrailingSlashes options.baseUrl).toList) :
    ∃ t fields roots, prepare config.limits options template = .ok t ∧ template = .obj fields ∧
      Fields.get? "components" fields = some (.arr roots) ∧
      List.Forall₂ (fun c source => ∃ url, source = some url ∧
          (isAbsolute (String.ofList url) = true ↔ ¬ LeftAsWritten (c.text (some options.language))))
        ((Component.everyDataIn t.components).filter ComponentData.isPicture) (imageSources artifacts.markup.toList) ∧
      List.Forall₂ (fun raw c => c.isPicture = true → HoldsAddress (valueOf "content" raw.fields) →
          ∀ s, c.content = .plain s → ¬ LeftAsWritten s)
        (componentsIn 0 roots) (Component.everyDataIn t.components) := by
  obtain ⟨t, ht, hmarkup⟩ := generate_markup h
  obtain ⟨fields, roots, rfl, hroots, hforest, hmirrors⟩ := prepare_mirrors ht
  refine ⟨t, fields, roots, ht, rfl, hroots, ?_, ?_⟩
  · have hne : t.components ≠ [] := by
      obtain ⟨_, _, -, -, -, hfits, -⟩ := prepare_arena ht
      intro hnil
      have hmap := Arena.map_data_ofComponents t.components
      rw [hnil, Component.everyDataIn, List.map_eq_nil_iff] at hmap
      rw [hnil] at hfits
      exact hfits.nonempty hmap
    have hpictures := (Markup.pictures_ofTemplate options.language hne).absoluteList hbase.startsAbsolute hopen
    have hmarks : ∀ start ∈ absoluteStarts, (start.all (· != '\x22')) = true := by decide
    simp only [markupPart, Stages.standard, orFallback, Prod.mk.injEq] at hmarkup
    rw [hmarkup.1, absoluteReferences, String.toList_ofList]
    refine hpictures.sources.imp fun c source hsource => ?_
    obtain ⟨redone, ⟨body, hbody, hiff⟩, rfl⟩ := hsource
    refine ⟨_, rfl, ?_⟩
    rw [isAbsolute_eq, String.toList_ofList, startsAbsolute_takeWhile hmarks, hiff,
      Markup.absolute_iff_of_pictured hbody]
  · rw [← Arena.map_data_ofComponents, List.forall₂_map_right_iff]
    refine (Arena.forall₂_ofComponents hmirrors).imp fun raw n hn hpicture haddress s hs => ?_
    obtain ⟨-, hfits, hreads⟩ := hn
    exact plain_of_readsAs hbase (likens_of_readsAs hfits hreads) hreads hpicture haddress hs

/-- A banner with one picture twice, once in plain content and once in content by language. -/
def portraitTemplate : List (String × Json) :=
  [("layout", .obj [("desktop", .obj [("type", .str "banner"), ("position", .str "bottom")])]),
    ("components", .arr [
      .obj [("id", .str "logo"), ("type", .str "logo"), ("content", .str "/direct-image/b1/logo.png")],
      .obj [("id", .str "seal"), ("type", .str "image"), ("content", .obj [
        ("texts", .obj [("en", .str "/direct-image/b1/logo.png")])])],
      .obj [("id", .str "yes"), ("type", .str "button"), ("action", .str "accept_all")],
      .obj [("id", .str "no"), ("type", .str "button"), ("action", .str "reject_all")]])]

/-- The picture is at an absolute address where its content is plain, and at the one that was written where it is by
language. -/
theorem generate_imageSources_portrait :
    IsSite (Text.dropTrailingSlashes ({} : Options).baseUrl) ∧
      '<' ∉ (Text.dropTrailingSlashes ({} : Options).baseUrl).toList ∧
      ∃ artifacts, generate Stages.standard {} {} (.obj portraitTemplate) = .ok artifacts ∧
        ∃ plain localized, imageSources artifacts.markup.toList = [some plain, some localized] ∧
          isAbsolute (String.ofList plain) = true ∧ isAbsolute (String.ofList localized) = false := by
  have hbase : IsSite (Text.dropTrailingSlashes ({} : Options).baseUrl) := by decide
  have hopen : '<' ∉ (Text.dropTrailingSlashes ({} : Options).baseUrl).toList := by decide
  obtain ⟨t, ht⟩ : ∃ t, prepare {} {} (.obj portraitTemplate) = .ok t := exists_eq_ok (by decide +kernel)
  have hread : (prepare {} {} (.obj portraitTemplate)).toOption.map (fun t =>
      ((Component.everyDataIn t.components).filter ComponentData.isPicture).map (·.text (some "en"))) =
      some ["http://localhost:3000/templates/images/b1/logo.png", "/direct-image/b1/logo.png"] := by decide +kernel
  rw [ht, Except.toOption, Option.map_some, Option.some.injEq] at hread
  obtain ⟨artifacts, h, -⟩ := @generate_standard {} _ _ _ ht
  obtain ⟨t', _, _, ht', -, -, hsources, -⟩ := generate_imageSources h hbase hopen
  cases ht.symm.trans ht'
  refine ⟨hbase, hopen, artifacts, h, ?_⟩
  have htexts : List.Forall₂ (fun text source => ∃ url, source = some url ∧
      (isAbsolute (String.ofList url) = true ↔ ¬ LeftAsWritten text))
      ["http://localhost:3000/templates/images/b1/logo.png", "/direct-image/b1/logo.png"]
      (imageSources artifacts.markup.toList) := by
    rw [← hread, List.forall₂_map_left_iff]
    exact hsources
  obtain ⟨_, _, ⟨plain, rfl, hplain⟩, htail, heq⟩ := List.forall₂_cons_left_iff.1 htexts
  obtain ⟨_, _, ⟨localized, rfl, hlocalized⟩, hnil, rfl⟩ := List.forall₂_cons_left_iff.1 htail
  cases List.forall₂_nil_left_iff.1 hnil
  refine ⟨plain, localized, heq, hplain.2 (by decide), ?_⟩
  rw [Bool.eq_false_iff, ne_eq, hlocalized, not_not]
  decide

end Generation

end ConsentBanner
