import ConsentBanner.Json.Members
import ConsentBanner.Yaml.Node
import ConsentBanner.Yaml.Value

/-!
Reading YAML texts. Aliases stand for the values of the anchors before them, and the key `<<` brings in the
entries of other mappings, which entries of the mapping itself replace. A document whose nodes fit together has
a value unless one of its nodes has none; of several such nodes the outermost decides why.
-/

namespace ConsentBanner.Yaml

/-- What is known after some of the nodes. -/
structure Reading where
  /-- The values of the anchors so far. A collection that is still being read counts as an empty one. -/
  anchors : List (String × Json) := []
  /-- Why nodes have no value, with the depth at which it shows. -/
  faults : List (Nat × Fault) := []
deriving Repr

/-- Steps of reading, which end where the nodes do not fit together. -/
abbrev ReadingM := StateT Reading Option

namespace ReadingM

def define (anchor : Option String) (v : Json) : ReadingM Unit :=
  match anchor with
  | none => pure ()
  | some name => do
    let r ← get
    if Fields.has name r.anchors then failure
    set { r with anchors := (name, v) :: r.anchors }

/-- Gives the anchor of a node its value. -/
def resolve (anchor : Option String) (v : Json) : ReadingM Json := do
  match anchor with
  | none => pure ()
  | some name => modify fun r => { r with anchors := Fields.set name v r.anchors }
  return v

def follow (name : String) : ReadingM Json := do
  match Fields.get? name (← get).anchors with
  | some v => return v
  | none => failure

/-- A value, or null where there is none. -/
def note (depth : Nat) : Except Fault Json → ReadingM Json
  | .ok v => pure v
  | .error f => do
    modify fun r => { r with faults := r.faults ++ [(depth, f)] }
    return .null

def reject (depth : Nat) : ReadingM Json := note depth (.error .unreadable)

/-- Reads nodes that have no part in the value of the document, so that they need not have one. -/
def pass {α : Type} (read : ReadingM α) : ReadingM Unit := do
  let faults := (← get).faults
  let _ ← read
  modify fun r => { r with faults := faults }

end ReadingM

open ReadingM

/-- The kind of a scalar; none when its tag is unknown. -/
def scalarKind? (tag : Option String) (isPlain : Bool) (text : String) : Option Kind :=
  match tag with
  | none => some (if isPlain then Kind.ofPlain text else .text)
  | some "!" => some (Kind.ofPlain text)
  | some tag => Kind.ofTag? tag

/-- The kind of a collection, which has one of its own. -/
def collectionKind? (own : Kind) (tag : Option String) : Option Kind :=
  match tag with
  | none | some "!" => some own
  | some tag => Kind.ofTag? tag

def Node.kind? : Node → Option Kind
  | .reference _ => none
  | .node _ tag (.plain text) _ => scalarKind? tag true text
  | .node _ tag (.quoted text) _ => scalarKind? tag false text
  | .node _ tag .sequence _ => collectionKind? .sequence tag
  | .node _ tag .mapping _ => collectionKind? .mapping tag

mutual

/-- The text of a node as a scalar. In place of a mapping stands the value under its value key. -/
def Node.text? : Node → Option String
  | .node _ _ (.plain text) _ => some text
  | .node _ _ (.quoted text) _ => some text
  | .node _ _ .mapping parts => Node.textAmong? parts
  | _ => none

def Node.textAmong? : List Node → Option String
  | k :: v :: rest => if k.kind? == some .value then Node.text? v else Node.textAmong? rest
  | _ => none

end

/-- The value of a mapping whose tag names a kind of scalar. -/
def Kind.ofMapping (parts : List Node) (kind : Kind) : Except Fault Json :=
  match Node.textAmong? parts with
  | none => .error .unreadable
  | some s => if kind == .time then .error .wrongKind else kind.scalar s

/-- The entries that a value brings in. Of several mappings the first that has a key decides about it. -/
def broughtIn? : Json → Option (List (Json × Json))
  | .obj fields => some (fields.map fun field => (Json.keyOf field, field.2.bare))
  | .set members => some (members.map (·, .null))
  | .arr items =>
    items.reverse.foldlM (fun entries v =>
      match v with
      | .obj fields => some (entries ++ fields.map fun field => (Json.keyOf field, field.2.bare))
      | .set members => some (entries ++ members.map (·, .null))
      | .pair k v => some (entries ++ [(k, v)])
      | _ => none) []
  | _ => none

/-- The entries of a mapping: those brought in, and its own. -/
structure Entries where
  others : List (Json × Json) := []
  own : List (Json × Json) := []

def Entries.fields (e : Entries) : List (String × Json) := Json.fieldsOf (e.others ++ e.own)

mutual

/-- The value of a node. Scalars show their faults at the depth of the node, collections one level deeper. -/
def ofNode (depth : Nat) : Node → ReadingM Json
  | .reference name => follow name
  | .node anchor tag (.plain text) _ => do
    define anchor .null
    resolve anchor (← note depth (((scalarKind? tag true text).map (Kind.scalar text)).getD (.error .unreadable)))
  | .node anchor tag (.quoted text) _ => do
    define anchor .null
    resolve anchor (← note depth (((scalarKind? tag false text).map (Kind.scalar text)).getD (.error .unreadable)))
  | .node anchor tag .sequence parts => do
    define anchor (.arr [])
    match collectionKind? .sequence tag with
    | some .sequence => resolve anchor (.arr (← ofItems (depth + 1) parts))
    | some .pairs => resolve anchor (.arr (← ofPairItems (depth + 1) parts))
    | some .mapping | some .set => do
      pass (ofItems depth parts)
      reject (depth + 1)
    | _ => do
      pass (ofItems depth parts)
      reject depth
  | .node anchor tag .mapping parts => do
    define anchor (.obj [])
    match collectionKind? .mapping tag with
    | some .mapping => resolve anchor (.obj (← ofParts (depth + 1) parts).fields)
    | some .set => resolve anchor (.set ((← ofParts (depth + 1) parts).fields.map Json.keyOf))
    | some .sequence | some .pairs => do
      pass (ofItems depth parts)
      reject (depth + 1)
    | kind => do
      pass (ofItems depth parts)
      resolve anchor (← note depth ((kind.map (Kind.ofMapping parts)).getD (.error .unreadable)))

def ofItems (depth : Nat) : List Node → ReadingM (List Json)
  | [] => return []
  | node :: rest => do
    let v ← ofNode depth node
    return v :: (← ofItems depth rest)

/-- The pairs of mappings with one entry each. -/
def ofPairItems (depth : Nat) : List Node → ReadingM (List Json)
  | [] => return []
  | .node anchor _ .mapping [k, v] :: rest => do
    define anchor (.obj [])
    let k ← ofNode depth k
    let v ← ofNode depth v
    let _ ← resolve anchor (.obj [Json.field k v])
    return .pair k v :: (← ofPairItems depth rest)
  | node :: rest => do
    let v ← ofNode depth node
    let v ←
      match v with
      | .obj [(name, v)] => pure (.pair (Json.keyOf (name, v)) v.bare)
      | _ => reject depth
    return v :: (← ofPairItems depth rest)

/-- The entries of keys and values in turn. -/
def ofParts (depth : Nat) : List Node → ReadingM Entries
  | k :: v :: rest => do
    if k.kind? == some .merge then
      let v ← ofNode (depth - 1) v
      let more ←
        match broughtIn? v with
        | some more => pure more
        | none => do
          let _ ← reject depth
          pure []
      let entries ← ofParts depth rest
      return { entries with others := more ++ entries.others }
    else
      let k ← if k.kind? == some .value then pure (.str "=") else ofNode depth k
      if !k.isScalar then
        let _ ← reject depth
      let v ← ofNode depth v
      let entries ← ofParts depth rest
      return { entries with own := (k, v) :: entries.own }
  | _ => return {}

end

/-- The fault at the least depth, the first of several. -/
def outermost? : List (Nat × Fault) → Option (Nat × Fault)
  | [] => none
  | (depth, f) :: rest =>
    match outermost? rest with
    | some (least, g) => if least < depth then some (least, g) else some (depth, f)
    | none => some (depth, f)

/-- The value of a text with at most one document; null when it has none. -/
def parse (s : String) : Except Fault Json :=
  match (Token.ofText? s.toList).bind Node.ofTokens? with
  | none => .error .unreadable
  | some none => .ok .null
  | some (some node) =>
    match (ofNode 0 node).run {} with
    | none => .error .unreadable
    | some (v, r) =>
      match outermost? r.faults with
      | none => .ok v
      | some (_, f) => .error f

end ConsentBanner.Yaml
