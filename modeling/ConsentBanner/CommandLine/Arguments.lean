import ConsentBanner.Fault
import ConsentBanner.Json.Basic
import ConsentBanner.Text.Search

/-!
Arguments of a command, told apart into options and operands, and paths of files. Options may stand anywhere before a
double dash; short ones may share a dash, and the value of an option follows it or is joined to it. Folders of texts are
found under paths.
-/

namespace ConsentBanner.CommandLine

/-- A path by its names; neither empty names nor the present folder is one. -/
structure Path where
  absolute : Bool
  names : List String
deriving DecidableEq, Repr

namespace Path

def ofText (s : String) : Path where
  absolute := Text.startsWith "/" s
  names := (Text.split '/' s).filter fun name => name != "" && name != "."

def text (p : Path) : String :=
  let names := Text.join "/" p.names
  if p.absolute then "/" ++ names else if names.isEmpty then "." else names

/-- The ending of the last name from its last dot on, which stands neither first nor last. -/
def suffix (p : Path) : String :=
  match p.names.getLast? with
  | none => ""
  | some name =>
    let ending := name.toList.reverse.takeWhile (· != '.')
    let stem := name.length - ending.length
    if ending.isEmpty || stem ≤ 1 then "" else String.ofList ('.' :: ending.reverse)

/-- The place where a name leads from a place. The parent of a place is the folder around it; above the folder
in which commands run it stands for itself. -/
def step (place : List String) (name : String) : List String :=
  if name == ".." then
    match place.getLast? with
    | none | some ".." => place ++ [name]
    | some "/" => place
    | some _ => place.dropLast
  else place ++ [name]

/-- Where paths start: at the root, or in the folder in which commands run. -/
def start (p : Path) : List String := if p.absolute then ["/"] else []

/-- The names that lead to the place of a path. -/
def place (p : Path) : List String := p.names.foldl step p.start

/-- Whether the place of a path is below the folder in which commands run. -/
def isInside (p : Path) : Bool :=
  match p.place with
  | "/" :: _ | ".." :: _ => false
  | _ => true

/-- The places on the way to that of a path. -/
def placesAbove (p : Path) : List (List String) :=
  (List.range p.names.length).map fun n => (p.names.take n).foldl step p.start

end Path

/-- Texts at places, and folders that are there besides those on the way to the texts. -/
structure Folder where
  files : List (List String × String) := []
  folders : List (List String) := []
deriving Repr

namespace Folder

def ofTexts (files : List (String × String)) : Folder where
  files := files.map fun (path, text) => ((Path.ofText path).place, text)

/-- The folder that holds a single text. -/
def ofText (path : Path) (text : String) : Folder where
  files := [(path.place, text)]
  folders := path.placesAbove

def file? (place : List String) (f : Folder) : Option String :=
  (f.files.find? fun (names, _) => names == place).map (·.2)

/-- Whether there is a folder at a place: the one in which commands run, one around it, or one that is on the
way to a text. -/
def hasFolder (place : List String) (f : Folder) : Bool :=
  place.all (· == "..") || place == ["/"] || f.folders.contains place ||
    f.files.any fun (names, _) => place.isPrefixOf names && place != names

/-- The place of a path that leads through folders alone. -/
def reach? (f : Folder) (p : Path) : Option (List String) :=
  if p.placesAbove.all fun place => f.hasFolder place then some p.place else none

end Folder

/-- Why a file cannot be written. -/
inductive WriteError where
  /-- There is a folder in its place. -/
  | folderInPlace
  /-- Its folder is a file. -/
  | fileInPlace
  /-- A folder on the way to its folder is a file. -/
  | fileOnTheWay
deriving DecidableEq, Repr

/-- Whether a file can be written at a place; missing folders on the way to it are made. -/
def Folder.writable (place : List String) (f : Folder) : Except WriteError Unit :=
  let around := place.dropLast
  let filesAbove := (List.range around.length).filter fun n => (f.file? (around.take (n + 1))).isSome
  if filesAbove.any (· + 1 < around.length) then .error .fileOnTheWay
  else if !filesAbove.isEmpty then .error .fileInPlace
  else if f.hasFolder place then .error .folderInPlace
  else .ok ()

/-- What an option takes. -/
inductive Takes where
  | value
  /-- Nothing: the option itself means a truth value. -/
  | nothing (means : Bool)
deriving DecidableEq, Repr

/-- One spelling of an option: the setting that it makes, and what it takes. -/
structure Spelling where
  text : String
  setting : String
  takes : Takes
deriving Repr

/-- What an option sets. -/
inductive Setting where
  | value (s : String)
  | truth (b : Bool)
deriving DecidableEq, Repr

/-- Arguments told apart. Of several settings of one name the last counts. -/
structure Arguments where
  settings : List (String × Setting) := []
  operands : List String := []
deriving Repr

namespace Arguments

def set (name : String) (s : Setting) (a : Arguments) : Arguments :=
  { a with settings := Fields.set name s a.settings }

def value? (name : String) (a : Arguments) : Option String :=
  match Fields.get? name a.settings with
  | some (.value s) => some s
  | _ => none

def truth (name : String) (usual : Bool) (a : Arguments) : Bool :=
  match Fields.get? name a.settings with
  | some (.truth b) => b
  | _ => usual

/-- Arguments so far, and the setting that waits for its value. -/
abbrev Progress := Arguments × Option String

/-- Options that share a dash. The first that takes a value takes the rest of the text, or waits for one. -/
def readCluster (spellings : List Spelling) (a : Arguments) : List Char → Option Progress
  | [] => some (a, none)
  | c :: rest =>
    match spellings.find? fun s => s.text == String.ofList ['-', c] with
    | none => none
    | some s =>
      match s.takes with
      | .nothing b => readCluster spellings (a.set s.setting (.truth b)) rest
      | .value =>
        if rest.isEmpty then some (a, some s.setting)
        else some (a.set s.setting (.value (String.ofList rest)), none)

/-- A text that begins with a dash. -/
def readOption (spellings : List Spelling) (a : Arguments) (text : String) : Option Progress :=
  let (name, joined) := Text.splitOnce '=' text
  match spellings.find? fun s => s.text == name && 2 < name.length with
  | some s =>
    match s.takes, joined with
    | .value, some v => some (a.set s.setting (.value v), none)
    | .value, none => some (a, some s.setting)
    | .nothing b, none => some (a.set s.setting (.truth b), none)
    | .nothing _, some _ => none
  | none => if Text.startsWith "--" text then none else readCluster spellings a (text.toList.drop 1)

/-- The arguments told apart; none when an option is unknown, lacks its value or has one that it does not
take. -/
def readFrom (spellings : List Spelling) (a : Arguments) (waiting : Option String) :
    List String → Option Arguments
  | [] => if waiting.isSome then none else some a
  | text :: rest =>
    match waiting with
    | some name => readFrom spellings (a.set name (.value text)) none rest
    | none =>
      if text == "--" then some { a with operands := a.operands ++ rest }
      else if Text.startsWith "-" text && text != "-" then
        match readOption spellings a text with
        | some (a, waiting) => readFrom spellings a waiting rest
        | none => none
      else readFrom spellings { a with operands := a.operands ++ [text] } none rest

def read? (spellings : List Spelling) (texts : List String) : Option Arguments :=
  readFrom spellings {} none texts

end Arguments

end ConsentBanner.CommandLine
