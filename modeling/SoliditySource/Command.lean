import SoliditySource.Command.Files
import SoliditySource.Command.Invocation
import SoliditySource.Manifest.Parse

/-! What the command does. A run reads one file, and prints a text or writes one file. -/

namespace SoliditySource.Command

def versionText : String := "solgen 0.1.0\n"

def helpText : String :=
  "Render Solidity source from TOML declarations\n\nUsage: solgen [OPTIONS] <COMMAND>\n\n" ++
    "Commands:\n  render  Render sol.toml to Solidity source\n" ++
    "  check   Validate sol.toml and check that it renders\n"

/-- What a run that did not fail wants done. -/
inductive Effect where
  | print (text : String)
  | save (path text : String)
deriving DecidableEq, Repr

/-- The text of a manifest, formatted unless it is to stay raw. -/
def renderManifest (m : Manifest) (raw : Bool) : Except Manifest.Problem String :=
  let text := do
    let doc ← m.toDocument
    (if raw then doc.setFormatter .passthrough else doc).render
  text.mapError .document

def count (n : Nat) (noun : String) : String :=
  toString n ++ " " ++ noun ++ if n = 1 then "" else "s"

/-- What the check says about a manifest that renders. -/
def summary (config : String) (m : Manifest) : String :=
  let containers := m.declarations.countP (·.isContainer)
  "✓ " ++ config ++ " is valid\n\n" ++
    "  " ++ count containers "container" ++ "\n" ++
    "  " ++ count (m.declarations.length - containers) "member" ++ "\n" ++
    "  " ++ count m.replacements.length "replacement" ++ "\n"

namespace Invocation

/-- The path of the manifest. -/
def config : Invocation → String
  | render config _ _ => config
  | check config => config

/-- The effect of a run, given the content of the manifest file. -/
def run (invocation : Invocation) (content : Except ReadFailure String) :
    Except Manifest.Problem Effect := do
  let m ← Manifest.ofFile invocation.config content
  match invocation with
  | render _ output raw =>
    let text ← renderManifest m raw
    match output with
    | some path => return .save path text
    | none => return .print (text ++ "\n")
  | check config =>
    let _ ← renderManifest m false
    return .print (summary config m)

end Invocation

/-- What a run leaves behind. -/
structure Result where
  exit : Nat
  stdout : String
  files : Files

/-- A failed run prints nothing and touches no file. -/
def perform (files : Files) : Except Manifest.Problem Effect → Result
  | .error _ => ⟨1, "", files⟩
  | .ok (.print text) => ⟨0, text, files⟩
  | .ok (.save path text) =>
    match files.write path text with
    | some written => ⟨0, written.printed, written.files⟩
    | none => ⟨1, "", files⟩

/-- The command with the given words in a directory with the given files. -/
def execute (files : Files) (words : List String) : Result :=
  match Invocation.parse words with
  | .error .version => ⟨0, versionText, files⟩
  | .error .help => ⟨0, helpText, files⟩
  | .error (.usage _) => ⟨2, "", files⟩
  | .ok invocation => perform files (invocation.run (files.read invocation.config))

end SoliditySource.Command
