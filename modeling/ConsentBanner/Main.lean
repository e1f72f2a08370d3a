import ConsentBanner.CommandLine.Basic
import ConsentBanner.Configuration.Standard

/-!
The program: it reads the files that a command needs, runs the command, and writes and prints what it comes to.
-/

open ConsentBanner ConsentBanner.CommandLine

/-- The text of a file, when it can be read. -/
def textOf? (path : String) : IO (Option String) := do
  try
    let text ← IO.FS.readFile path
    return some text
  catch _ => return none

def isFolder (path : String) : IO Bool := do
  try
    let place ← IO.FS.realPath path
    place.isDir
  catch _ => return false

/-- The configuration files for an environment, or the standard ones where there is none. -/
def configurationFiles (environment : String) : IO (List (String × String)) := do
  let names := ["generator.yaml", "generator." ++ environment ++ ".yaml"]
  let found ← names.filterMapM fun name => do
    return (← textOf? ("config/" ++ name)).map fun text => (name, text)
  return if Fields.has "generator.yaml" found then found else Source.standard.files

/-- The source of configurations as the surroundings give it. -/
def surroundings (requested : Option String) : IO Source := do
  let environment := ((← IO.getEnv "BANNERKIT_ENV").getD "development")
  return {
    files := ← configurationFiles (Text.orDefault requested environment)
    environment := environment
    baseUrl := ← IO.getEnv "BANNERKIT_BASE_URL"
    cmpId := ← IO.getEnv "BANNERKIT_CMP_ID" }

/-- The folder with the template that a command reads. -/
def folderFor (command : Option Command) : IO Folder := do
  match command.bind Command.template? with
  | none => return {}
  | some template =>
    match ← textOf? template.text with
    | some text => return .ofText template text
    | none =>
      if ← isFolder template.text then return { folders := template.place :: template.placesAbove }
      return {}

def writeFile (out : Path) (text : String) : IO Unit := do
  let around : Path := { out with names := out.names.dropLast }
  IO.FS.createDirAll around.text
  IO.FS.writeFile out.text text

def main (args : List String) : IO UInt32 := do
  let command := Command.ofTexts? args
  let outcome := run {
    folder := ← folderFor command
    source := ← surroundings (command.bind Command.environment?) } args
  for (out, text) in outcome.written do writeFile out text
  IO.print outcome.output
  IO.eprint outcome.messages
  return outcome.exitCode.toUInt32
