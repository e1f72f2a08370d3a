import ConsentBanner.Asset.Reference

/-!
Absolute image addresses throughout a template. Images and logos hold their address as content, plain or under
`text`; content by language stays as it is.
-/

namespace ConsentBanner.Asset

/-- An address made absolute, unless it is empty. -/
def resolveUrl (baseUrl url : String) : Json :=
  .str (if url.isEmpty then url else absoluteUrl url baseUrl)

/-- The content of an image. -/
def resolveContent (baseUrl : String) : Json → Json
  | .str url => resolveUrl baseUrl url
  | .obj fields =>
    match Fields.get? "text" fields with
    | some (.str url) => .obj (Fields.set "text" (resolveUrl baseUrl url) fields)
    | _ => .obj fields
  | v => v

/-- Whether a component's fields make it an image. -/
def isImage (fields : List (String × Json)) : Bool :=
  match Fields.get? "type" fields with
  | some (.str kind) => kind == "image" || kind == "logo"
  | _ => false

mutual

def resolveComponent (baseUrl : String) : Json → Json
  | .obj fields => .obj (resolveFields baseUrl (isImage fields) fields)
  | v => v

def resolveFields (baseUrl : String) (image : Bool) : List (String × Json) → List (String × Json)
  | [] => []
  | (k, v) :: rest =>
    (if k == "content" then (k, if image then resolveContent baseUrl v else v)
      else if k == "children" then (k, resolveChildren baseUrl v)
      else (k, v)) :: resolveFields baseUrl image rest

def resolveChildren (baseUrl : String) : Json → Json
  | .arr items => .arr (resolveComponents baseUrl items)
  | v => v

def resolveComponents (baseUrl : String) : List Json → List Json
  | [] => []
  | c :: rest => resolveComponent baseUrl c :: resolveComponents baseUrl rest

end

/-- The template with the addresses of its images made absolute. -/
def resolveTemplate (baseUrl : String) : Json → Json
  | .obj fields =>
    match Fields.get? "components" fields with
    | some (.arr items) => .obj (Fields.set "components" (.arr (resolveComponents baseUrl items)) fields)
    | _ => .obj fields
  | v => v

end ConsentBanner.Asset
