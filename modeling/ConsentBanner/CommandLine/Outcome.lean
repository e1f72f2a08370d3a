import ConsentBanner.CommandLine.Arguments
import ConsentBanner.Configuration.Source
import ConsentBanner.Generation.Failure

/-!
What a command comes to: the text it prints, the files it writes, and how it ends.
-/

namespace ConsentBanner.CommandLine

/-- Why a command ends without doing its work. -/
inductive Refusal where
  /-- The arguments are no proper use. -/
  | usage
  | missingTemplate (template : Path)
  | unreadableTemplate (template : Path) (detail : String)
  | noObject
  | unsupportedFormat (format : String)
  | invalidOptions (issues : List Issue)
  | invalidTemplate (errors : List String)
  | failedStage (s : Generation.Stage) (message : String)
  | unknownDevice (device : String)
  /-- Pictures need a browser. -/
  | noBrowser
deriving Repr

namespace Refusal

/-- A headline and the errors below it. -/
def errorList (errors : List String) : String :=
  "❌ Template is invalid (" ++ toString errors.length ++ " error(s)):\n" ++
    String.join (errors.map fun e => "   - " ++ e ++ "\n")

def issueCount (issues : List Issue) : String :=
  toString issues.length ++ " validation error" ++ (if issues.length == 1 then "" else "s") ++
    " for GenerationOptions"

/-- How commands are given. -/
def usageLine : String := "Usage: bannerkit [version|validate|generate|preview] [OPTIONS] [TEMPLATE]\n"

def message : Refusal → String
  | usage => usageLine
  | missingTemplate template => "❌ Template file not found: " ++ template.text ++ "\n"
  | unreadableTemplate template detail => "❌ Could not read template " ++ template.text ++ ": " ++ detail ++ "\n"
  | noObject => "❌ Template file must contain an object\n"
  | unsupportedFormat format => "❌ Unsupported format: " ++ format ++ "\n"
  | invalidOptions issues =>
    "❌ Invalid options: " ++ issueCount issues ++ "\n" ++
      String.join (issues.map fun i => i.location ++ "\n  " ++ i.problem.message ++ "\n")
  | invalidTemplate errors => errorList errors
  | failedStage s message => "❌ Generation failed: " ++ Generation.stageMessage s message ++ "\n"
  | unknownDevice device => "❌ Unknown device: " ++ device ++ "\n"
  | noBrowser => "❌ No browser is available\n"

/-- The number that tells a refusal to the caller: one for invalid templates, two for all other input. -/
def exitCode : Refusal → Nat
  | invalidTemplate _ => 1
  | _ => 2

end Refusal

/-- How a command ends. -/
inductive Ending where
  | done
  /-- The template is invalid, which has been told already. -/
  | negative
  | refused (r : Refusal)
  | fault (f : Fault)
  | unwritten (e : WriteError)
  | unconfigured (e : LoadError)
deriving Repr

structure Outcome where
  output : String := ""
  notices : String := ""
  /-- The texts of files, each with the path under which it is written. -/
  written : List (Path × String) := []
  ending : Ending := .done
deriving Repr

namespace Outcome

def refusal (r : Refusal) : Outcome := { ending := .refused r }

/-- What is told beside the output. -/
def messages (o : Outcome) : String :=
  match o.ending with
  | .refused r => o.notices ++ r.message
  | _ => o.notices

def exitCode (o : Outcome) : Nat :=
  match o.ending with
  | .done => 0
  | .refused r => r.exitCode
  | _ => 1

end Outcome

end ConsentBanner.CommandLine
