import SoliditySource.Datum.Mismatch
import SoliditySource.Document.Error
import SoliditySource.Manifest.Span

/-! What can be wrong with a manifest, and how it is reported: a message, a code, perhaps an advice,
and labels at places of the source. -/

namespace SoliditySource

/-- Why a file cannot be read as text. -/
inductive ReadFailure where
  | notFound
  | notText
  | isDirectory
  | notDirectory
  | nameTooLong
  /-- A path cannot hold the character zero. -/
  | notPath
deriving DecidableEq, Repr

namespace Manifest

/-- A part of a manifest that is well formed and yet cannot be taken. -/
inductive Fault where
  | kindNotText (found : String)
  | badRecord (kind : String) (mismatch : Mismatch)
  | emptyPattern
  | other (text : String)
deriving DecidableEq, Repr

def Fault.message : Fault → String
  | kindNotText found => "declaration kind must be a string, found " ++ found
  | badRecord kind mismatch => "invalid " ++ kind ++ " declaration: " ++ mismatch.message
  | emptyPattern => "replacement `from` must not be empty"
  | other text => text

inductive Problem where
  | unreadable (path : String) (failure : ReadFailure)
  /-- The source is not a TOML document, or has a shape that no manifest has. -/
  | malformed (mismatch : Option Mismatch)
  | unknownKind (kind : String) (span : Option Span)
  | missingKind (index : Nat) (span : Option Span)
  | duplicate (key : Key) (first second : Option Span)
  | invalid (fault : Fault) (span : Option Span)
  | document (error : DocumentError)
deriving DecidableEq, Repr

namespace Problem

def message : Problem → String
  | unreadable path _ => "failed to read '" ++ path ++ "'"
  | malformed _ => "failed to parse sol.toml"
  | unknownKind kind _ => "unknown declaration kind '" ++ kind ++ "'"
  | missingKind index _ => "declaration #" ++ toString index ++ " has no kind"
  | duplicate key _ _ => key.text ++ " is declared more than once"
  | invalid fault _ => fault.message
  | document error => error.message

def code : Problem → Option String
  | unreadable _ _ => none
  | malformed _ => some "solgen::parse_error"
  | unknownKind _ _ => some "solgen::unknown_kind"
  | missingKind _ _ => some "solgen::missing_kind"
  | duplicate _ _ _ => some "solgen::duplicate"
  | invalid _ _ => some "solgen::validation_error"
  | document _ => some "solgen::document"

def help : Problem → Option String
  | unreadable _ _ => some "pass the manifest location with '--config <path>'"
  | unknownKind _ _ =>
    some ("valid kinds are: contract, interface, library, attribute, struct, mapping, " ++
      "function")
  | missingKind _ _ => some "add a `kind = \"...\"` entry, e.g. kind = \"attribute\""
  | duplicate _ _ _ =>
    some "rename one of them, or use `[[replacements]]` to patch the output"
  | _ => none

/-- The labels whose places were found. -/
def labels : Problem → List (String × Span)
  | unknownKind _ span => (span.map ("unknown kind", ·)).toList
  | missingKind _ span => (span.map ("declared here", ·)).toList
  | duplicate _ first second =>
    (first.map ("first declared here", ·)).toList ++
      (second.map ("declared again here", ·)).toList
  | invalid fault span => (span.map (fault.message, ·)).toList
  | _ => []

/-- Whether the report shows the source it is about. -/
def showsSource : Problem → Bool
  | unreadable _ _ => false
  | document _ => false
  | _ => true

end Problem

end Manifest

end SoliditySource
