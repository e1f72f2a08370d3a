import ConsentBanner.Proofs.Generation.Image
import ConsentBanner.Proofs.Template.Edit

/-!
Addresses made absolute throughout a template: which places change, and what stands there afterwards.
-/

namespace ConsentBanner

open Json Template Validation

namespace Asset

variable {baseUrl : String}

/-- The way from a component to the address that it shows if it is an image: its content, or the text of it. -/
def IsAddress (c : Json) (path : List Step) : Prop :=
  ∃ fields, c = .obj fields ∧ isImage fields = true ∧ (path = [.key "content"] ∨ path = [.key "content", .key "text"])

def resolveAddress (baseUrl : String) : Json → Json
  | .str url => resolveUrl baseUrl url
  | v => v

theorem resolveUrl_of_isAbsolute {url : String} (h : isAbsolute url = true) : resolveUrl baseUrl url = .str url := by
  have habsolute : absoluteUrl url baseUrl = url := if_pos h
  rw [resolveUrl, habsolute, ite_self]

theorem isAbsolute_of_resolveUrl (hbase : IsSite (Text.dropTrailingSlashes baseUrl)) {url : String} (hne : url ≠ "")
    (h : resolveUrl baseUrl url = .str url) : isAbsolute url = true := by
  rw [resolveUrl, if_neg (by simpa using hne), Json.str.injEq] at h
  rw [← h]
  exact isAbsolute_absoluteUrl hbase url

/-- An address is made one that needs no more changes. -/
theorem resolveUrl_settled (hbase : IsSite (Text.dropTrailingSlashes baseUrl)) (url : String) :
    ∃ url', resolveUrl baseUrl url = .str url' ∧ resolveUrl baseUrl url' = .str url' := by
  by_cases hempty : url.isEmpty = true
  · have hsame : resolveUrl baseUrl url = .str url := by rw [resolveUrl, if_pos hempty]
    exact ⟨url, hsame, hsame⟩
  · have hwritten : resolveUrl baseUrl url = .str (absoluteUrl url baseUrl) := by rw [resolveUrl, if_neg hempty]
    exact ⟨_, hwritten, resolveUrl_of_isAbsolute (isAbsolute_absoluteUrl hbase url)⟩

section Content

theorem resolveContent_of_text {fields : List (String × Json)} {url : String}
    (h : Fields.get? "text" fields = some (.str url)) :
    resolveContent baseUrl (.obj fields) = .obj (Fields.set "text" (resolveUrl baseUrl url) fields) := by
  rw [resolveContent, h]

theorem resolveContent_of_noText {fields : List (String × Json)}
    (h : ∀ url, Fields.get? "text" fields ≠ some (.str url)) :
    resolveContent baseUrl (.obj fields) = .obj fields := by
  rw [resolveContent]
  split
  · rename_i url htext
    exact (h url htext).elim
  · rfl

theorem resolveContent_resolveContent (hbase : IsSite (Text.dropTrailingSlashes baseUrl)) (v : Json) :
    resolveContent baseUrl (resolveContent baseUrl v) = resolveContent baseUrl v := by
  cases v with
  | str url =>
    obtain ⟨url', hurl, hsame⟩ := resolveUrl_settled hbase url
    rw [resolveContent, hurl, resolveContent, hsame]
  | obj fields =>
    by_cases htext : ∃ url, Fields.get? "text" fields = some (.str url)
    · obtain ⟨url, htext⟩ := htext
      obtain ⟨url', hurl, hsame⟩ := resolveUrl_settled hbase url
      have htext' : Fields.get? "text" (Fields.set "text" (.str url') fields) = some (.str url') :=
        Fields.get?_set_self _ _ _
      rw [resolveContent_of_text htext, hurl, resolveContent_of_text htext', hsame, Fields.set_of_get? htext']
    · have hnone : ∀ url, Fields.get? "text" fields ≠ some (.str url) := fun url h => htext ⟨url, h⟩
      rw [resolveContent_of_noText hnone, resolveContent_of_noText hnone]
  | _ => rfl

/-- The text among the fields of content that shows an address. -/
def editText (baseUrl url : String) (key : String) (v : Json) : Json :=
  if key = "text" then resolveUrl baseUrl url else v

theorem get?_set_text {fields : List (String × Json)} {url : String}
    (htext : Fields.get? "text" fields = some (.str url)) (key : String) :
    Fields.get? key (Fields.set "text" (resolveUrl baseUrl url) fields) =
      (Fields.get? key fields).map (editText baseUrl url key) := by
  by_cases hkey : key = "text"
  · subst hkey
    rw [Fields.get?_set_self, htext]
    rfl
  · have hsame (v : Json) : editText baseUrl url key v = v := if_neg hkey
    rw [Fields.get?_set_of_ne (Ne.symm hkey), Option.map_congr fun v _ => hsame v, Option.map_id']

theorem editedAt_editText {url key : String} {v : Json} (h : key = "text" → v = .str url) :
    EditedAt (fun path => Step.key key :: path = [.key "text"]) (resolveAddress baseUrl) v
      (editText baseUrl url key v) := by
  rw [editText]
  by_cases hkey : key = "text"
  · subst hkey
    cases h rfl
    rw [if_pos rfl]
    apply editedAt_root
    · intro path
      simp
    · intro s
      cases s <;> rfl
  · rw [if_neg hkey]
    apply editedAt_self
    intro path w hpath
    simp [hkey] at hpath

/-- Content is changed where its address is. -/
theorem editedAt_resolveContent (v : Json) :
    EditedAt (fun path => path = [] ∨ path = [.key "text"]) (resolveAddress baseUrl) v (resolveContent baseUrl v) := by
  cases v with
  | str url =>
    intro path
    cases path with
    | nil =>
      rw [at?, at?, Option.map_some, Option.map_some, if_pos (.inl rfl)]
      rfl
    | cons s path => cases s <;> rfl
  | obj fields =>
    by_cases htext : ∃ url, Fields.get? "text" fields = some (.str url)
    · obtain ⟨url, htext⟩ := htext
      rw [resolveContent_of_text htext]
      refine editedAt_obj (Fields.keys_set_of_get? htext _) (get?_set_text htext) (fun _ => rfl) fun key w hw => ?_
      have hedited := @editedAt_editText baseUrl url key w fun hkey => by
        subst hkey
        exact Option.some.inj (hw.symm.trans htext)
      simpa using hedited
    · rw [resolveContent_of_noText fun url h => htext ⟨url, h⟩]
      apply editedAt_self
      rintro path w (rfl | rfl) hw
      · cases hw
        rfl
      · cases w with
        | str url =>
          rw [at?, child?, get?] at hw
          obtain ⟨w, hw, ⟨⟩⟩ := Option.bind_eq_some_iff.1 hw
          exact (htext ⟨url, hw⟩).elim
        | _ => rfl
  | _ =>
    apply editedAt_self
    rintro path w (rfl | rfl) hw
    · cases hw
      rfl
    · cases hw

end Content

/-- The content among the fields of a component. -/
def editContent (baseUrl : String) (fields : List (String × Json)) (key : String) (v : Json) : Json :=
  if key == "content" then if isImage fields then resolveContent baseUrl v else v else v

theorem editContent_content (fields : List (String × Json)) (v : Json) :
    editContent baseUrl fields "content" v = if isImage fields then resolveContent baseUrl v else v := rfl

theorem resolveFields_eq (all fields : List (String × Json)) :
    resolveFields baseUrl (isImage all) fields = fields.map fun f =>
      (f.1, editField (editContent baseUrl) (resolveChildren baseUrl) all f.1 f.2) := by
  induction fields with
  | nil => rfl
  | cons f rest ih =>
    obtain ⟨k, v⟩ := f
    rw [resolveFields, ih, List.map_cons]
    congr 1
    by_cases hcontent : k = "content"
    · subst hcontent
      rfl
    · by_cases hchildren : k = "children"
      · subst hchildren
        rfl
      · simp [editField, editContent, hcontent, hchildren]

theorem resolve_edits (baseUrl : String) : Edits (editContent baseUrl) (resolveComponent baseUrl)
    (resolveChildren baseUrl) (resolveComponents baseUrl) where
  toKeepsOutline := resolve_keepsOutline baseUrl
  fields fields := by rw [resolveComponent, resolveFields_eq, editFields]

theorem isImage_editFields (fields : List (String × Json)) :
    isImage (editFields (editContent baseUrl) (resolveChildren baseUrl) fields) = isImage fields := by
  have hkind : Fields.get? "type" (editFields (editContent baseUrl) (resolveChildren baseUrl) fields) =
      Fields.get? "type" fields := by
    rw [editFields, ← resolveFields_eq, get?_resolveFields]
    simp
  rw [isImage, hkind, isImage]

theorem resolveChildren_resolveChildren (hbase : IsSite (Text.dropTrailingSlashes baseUrl)) (v : Json) :
    resolveChildren baseUrl (resolveChildren baseUrl v) = resolveChildren baseUrl v := by
  apply (resolve_keepsOutline baseUrl).under_under
  intro items _ c _
  apply (resolve_edits baseUrl).change_change
  intro fields key v _
  rw [editContent, isImage_editFields, editContent]
  split
  · split
    · exact resolveContent_resolveContent hbase v
    · rfl
  · rfl

theorem editedAt_resolveChildren (baseUrl : String) (v : Json) :
    EditedAt (Among IsAddress v) (resolveAddress baseUrl) v (resolveChildren baseUrl v) := by
  apply (resolve_keepsOutline baseUrl).editedAt_under
  intro items _ c _
  apply (resolve_edits baseUrl).editedAt_change
  · rintro c path ⟨fields, -, -, rfl | rfl⟩
    · exact ⟨"content", _, rfl, by decide⟩
    · exact ⟨"content", _, rfl, by decide⟩
  · intro fields key v _ _
    have hother (h : key ≠ "content" ∨ isImage fields = false) :
        EditedAt (fun path => IsAddress (.obj fields) (.key key :: path)) (resolveAddress baseUrl) v v := by
      apply editedAt_self
      rintro path w ⟨_, ⟨⟩, himage, heq⟩
      simp [himage] at h
      simp [h] at heq
    by_cases hkey : key = "content"
    · subst hkey
      cases himage : isImage fields with
      | true =>
        rw [editContent_content, if_pos himage]
        apply (editedAt_resolveContent v).congr
        intro path
        simp [IsAddress, himage]
      | false =>
        rw [editContent_content, if_neg (ne_true_of_eq_false himage)]
        exact hother (.inr himage)
    · rw [editContent, if_neg (by simpa using hkey)]
      exact hother (.inl hkey)

theorem resolveTemplate_resolveTemplate (hbase : IsSite (Text.dropTrailingSlashes baseUrl))
    (fields : List (String × Json)) :
    resolveTemplate baseUrl (resolveTemplate baseUrl (.obj fields)) = resolveTemplate baseUrl (.obj fields) := by
  rw [resolveTemplate_eq, resolveTemplate_eq, recompose_recompose (resolveChildren_resolveChildren hbase)]

theorem editedAt_resolveTemplate (baseUrl : String) (fields : List (String × Json)) :
    EditedAt (Reaches IsAddress (.obj fields)) (resolveAddress baseUrl) (.obj fields)
      (resolveTemplate baseUrl (.obj fields)) := by
  rw [resolveTemplate_eq]
  exact editedAt_recompose (editedAt_resolveChildren baseUrl)

/-- A box around an image, a logo and a text, each with an address. -/
def framedTemplate (picture mark : String) : List (String × Json) :=
  [("components", .arr [.obj [("type", .str "container"), ("children", .arr [
    .obj [("type", .str "image"), ("content", .str picture)],
    .obj [("type", .str "logo"), ("content", .obj [("text", .str mark)])],
    .obj [("type", .str "text"), ("content", .str "/images/plain.png")]])]])]

end Asset

end ConsentBanner
