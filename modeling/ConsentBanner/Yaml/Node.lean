import ConsentBanner.Yaml.Token

/-!
The nodes of a YAML document, before scalars are given a meaning and aliases are followed.
-/

namespace ConsentBanner.Yaml

inductive Content where
  | plain (text : String)
  | quoted (text : String)
  | sequence
  | mapping
deriving DecidableEq, Repr

/-- A node: what it is, and its items, or its keys and values in turn. -/
inductive Node where
  | reference (name : String)
  | node (anchor : Option String) (tag : Option String) (content : Content) (parts : List Node)
deriving Repr

namespace Node

def empty (anchor tag : Option String) : Node := node anchor tag (.plain "") []

/-- The anchor and the tag before a node, in either order. -/
def properties : List Token → Option String × Option String × List Token
  | .anchor a :: .tag _ t :: rest => (some a, some t, rest)
  | .tag _ t :: .anchor a :: rest => (some a, some t, rest)
  | .anchor a :: rest => (some a, none, rest)
  | .tag _ t :: rest => (none, some t, rest)
  | rest => (none, none, rest)

def startsWith (stops : List Token) : List Token → Bool
  | [] => false
  | t :: _ => stops.contains t

/-- The tokens after a comma. -/
def afterComma : List Token → Option (List Token)
  | .comma :: rest => some rest
  | _ => none

mutual

/-- A node. In a block it may be a block collection, and where `dashes` allows it a sequence that is not
indented further than the key before it. -/
def parse (inBlock dashes : Bool) : (fuel : Nat) → List Token → Option (Node × List Token)
  | 0, _ => none
  | _ + 1, .reference name :: rest => some (.reference name, rest)
  | fuel + 1, tokens =>
    let (anchor, tag, tokens) := properties tokens
    match tokens with
    | .plain text :: rest => some (node anchor tag (.plain text) [], rest)
    | .quoted text :: rest => some (node anchor tag (.quoted text) [], rest)
    | .openBracket .square :: rest => do
      let (items, rest) ← flowItems true fuel rest
      return (node anchor tag .sequence items, rest)
    | .openBracket .curly :: rest => do
      let (parts, rest) ← flowPairs true fuel rest
      return (node anchor tag .mapping parts, rest)
    | .entry :: _ =>
      if dashes then do
        let (items, rest) ← dashItems fuel tokens
        return (node anchor tag .sequence items, rest)
      else if anchor.isSome || tag.isSome then some (empty anchor tag, tokens)
      else none
    | t :: rest =>
      if inBlock && t == .sequenceStart then do
        let (items, rest) ← blockItems fuel rest
        return (node anchor tag .sequence items, rest)
      else if inBlock && t == .mappingStart then do
        let (parts, rest) ← blockPairs fuel rest
        return (node anchor tag .mapping parts, rest)
      else if anchor.isSome || tag.isSome then some (empty anchor tag, tokens)
      else none
    | [] => if anchor.isSome || tag.isSome then some (empty anchor tag, tokens) else none

/-- A node, or an empty one before one of the given tokens. -/
def parseUnless (stops : List Token) (inBlock dashes : Bool) : (fuel : Nat) → List Token → Option (Node × List Token)
  | 0, _ => none
  | fuel + 1, tokens =>
    if startsWith stops tokens then some (empty none none, tokens) else parse inBlock dashes fuel tokens

/-- The items of a block sequence up to its end. -/
def blockItems : (fuel : Nat) → List Token → Option (List Node × List Token)
  | 0, _ => none
  | fuel + 1, .entry :: rest => do
    let (item, rest) ← parseUnless [.entry, .blockEnd] true false fuel rest
    let (items, rest) ← blockItems fuel rest
    return (item :: items, rest)
  | _ + 1, .blockEnd :: rest => some ([], rest)
  | _ + 1, _ => none

/-- The items of a sequence that ends where no dash follows. -/
def dashItems : (fuel : Nat) → List Token → Option (List Node × List Token)
  | 0, _ => none
  | fuel + 1, .entry :: rest => do
    let (item, rest) ← parseUnless [.entry, .key, .value, .blockEnd] true false fuel rest
    let (items, rest) ← dashItems fuel rest
    return (item :: items, rest)
  | _ + 1, rest => some ([], rest)

/-- The keys and values of a block mapping up to its end. -/
def blockPairs : (fuel : Nat) → List Token → Option (List Node × List Token)
  | 0, _ => none
  | fuel + 1, .key :: rest => do
    let (k, rest) ← parseUnless [.key, .value, .blockEnd] true true fuel rest
    let (v, rest) ← pairValue [.key, .value, .blockEnd] true fuel rest
    let (parts, rest) ← blockPairs fuel rest
    return (k :: v :: parts, rest)
  | _ + 1, .blockEnd :: rest => some ([], rest)
  | _ + 1, _ => none

/-- The value of a pair, empty when there is no colon. -/
def pairValue (stops : List Token) (inBlock : Bool) : (fuel : Nat) → List Token → Option (Node × List Token)
  | 0, _ => none
  | fuel + 1, .value :: rest => parseUnless stops inBlock inBlock fuel rest
  | _ + 1, rest => some (empty none none, rest)

/-- The items of a flow sequence up to its bracket; a pair among them is a mapping of its own. -/
def flowItems (first : Bool) : (fuel : Nat) → List Token → Option (List Node × List Token)
  | 0, _ => none
  | _ + 1, .closeBracket .square :: rest => some ([], rest)
  | fuel + 1, tokens => do
    let tokens ← if first then some tokens else afterComma tokens
    match tokens with
    | .closeBracket .square :: rest => some ([], rest)
    | .key :: rest => do
      let (k, rest) ← parseUnless [.value, .comma, .closeBracket .square] false false fuel rest
      let (v, rest) ← pairValue [.comma, .closeBracket .square] false fuel rest
      let (items, rest) ← flowItems false fuel rest
      return (node none none .mapping [k, v] :: items, rest)
    | tokens => do
      let (item, rest) ← parse false false fuel tokens
      let (items, rest) ← flowItems false fuel rest
      return (item :: items, rest)

/-- The keys and values of a flow mapping up to its bracket. -/
def flowPairs (first : Bool) : (fuel : Nat) → List Token → Option (List Node × List Token)
  | 0, _ => none
  | _ + 1, .closeBracket .curly :: rest => some ([], rest)
  | fuel + 1, tokens => do
    let tokens ← if first then some tokens else afterComma tokens
    match tokens with
    | .closeBracket .curly :: rest => some ([], rest)
    | .key :: rest => do
      let (k, rest) ← parseUnless [.value, .comma, .closeBracket .curly] false false fuel rest
      let (v, rest) ← pairValue [.comma, .closeBracket .curly] false fuel rest
      let (parts, rest) ← flowPairs false fuel rest
      return (k :: v :: parts, rest)
    | tokens => do
      let (k, rest) ← parse false false fuel tokens
      let (parts, rest) ← flowPairs false fuel rest
      return (k :: empty none none :: parts, rest)

end

/-- What the directives say, and the tokens after them and the mark that has to follow them. -/
def afterDirectives (p : Preamble) : List Token → Option (Preamble × List Token)
  | .documentStart :: rest => some (p, rest)
  | .directive d :: rest => (p.add d).bind (afterDirectives · rest)
  | _ => none

/-- A token with the whole of its tag; the handle has to be a known one. -/
def wholeTag (p : Preamble) : Token → Option Token
  | .tag (some handle) rest => (p.stem? handle).map fun stem => .tag none (stem ++ rest)
  | t => some t

/-- The only document of a stream; none inside when the stream has no document. -/
def ofTokens? (tokens : List Token) : Option (Option Node) := do
  let fuel := 4 * tokens.length + 4
  let finish (parsed : Node × List Token) : Option (Option Node) :=
    if parsed.2.all (· == .documentEnd) then some (some parsed.1) else none
  match tokens with
  | [] => some none
  | .documentStart :: _ | .directive _ :: _ =>
    let (preamble, rest) ← afterDirectives {} tokens
    match rest with
    | [] | .documentEnd :: _ => finish (empty none none, rest)
    | .documentStart :: _ | .directive _ :: _ => none
    | _ => finish (← parse true false fuel (← rest.mapM (wholeTag preamble)))
  | _ => finish (← parse true false fuel (← tokens.mapM (wholeTag {})))

end Node

end ConsentBanner.Yaml
