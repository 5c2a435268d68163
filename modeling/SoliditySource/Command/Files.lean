import SoliditySource.Manifest.Problem
import SoliditySource.Text.Blank
import SoliditySource.Text.Search

/-! The files a command works on: those below the directory it runs in, and those it writes
elsewhere. A directory is there when it holds a file. Of what lies outside of the working directory
little is known: the directories above it, and the usual ones below the root, are there. -/

namespace SoliditySource

/-- Where a path starts: so many levels above the working directory, or at the root. -/
inductive Location.Base where
  | above (levels : Nat)
  | root
deriving DecidableEq, Repr

/-- A place, as the names on the way to it. -/
structure Location where
  base : Location.Base := .above 0
  names : List String := []
deriving DecidableEq, Repr

namespace Location

/-- The directory that holds a place; the root holds itself. -/
def parent (place : Location) : Location :=
  match place.base, place.names with
  | .above levels, [] => ⟨.above (levels + 1), []⟩
  | .root, [] => place
  | base, names => ⟨base, names.dropLast⟩

/-- Whether `place` lies somewhere below `directory`. -/
def isBelow (place directory : Location) : Bool :=
  place.base = directory.base && directory.names.isPrefixOf place.names &&
    directory.names.length < place.names.length

/-- What is written there is printed. -/
def standardOutput : Location := ⟨.root, ["dev", "stdout"]⟩

/-- What is written there is lost. -/
def nullDevice : Location := ⟨.root, ["dev", "null"]⟩

/-- Directories that every machine has below its root. -/
def systemDirectories : List String :=
  ["bin", "boot", "dev", "etc", "home", "lib", "media", "mnt", "opt", "proc", "root", "run", "sbin",
    "srv", "sys", "tmp", "usr", "var"]

def isSystemDirectory (place : Location) : Bool :=
  match place.base, place.names with
  | .root, [name] => name ∈ systemDirectories
  | _, names => names.isEmpty

end Location

structure Files where
  contents : List (Location × ByteArray) := []

namespace Files

/-- A path has at most so many bytes. -/
def maxPathBytes : Nat := 4095

/-- A name in a path has at most so many bytes. -/
def maxNameBytes : Nat := 255

def content? (files : Files) (place : Location) : Option ByteArray :=
  if place = .nullDevice then some ⟨#[]⟩ else files.contents.lookup place

def isDirectory (files : Files) (place : Location) : Bool :=
  place.isSystemDirectory || files.contents.any fun (file, _) => file.isBelow place

/-- Follows names from a place, every place that is passed through being a directory. -/
def follow (files : Files) (place : Location) : List String → Except ReadFailure Location
  | [] => .ok place
  | name :: names =>
    if (files.content? place).isSome then .error .notDirectory
    else if !files.isDirectory place then .error .notFound
    else if name = "" ∨ name = "." then follow files place names
    else if name = ".." then follow files place.parent names
    else if maxNameBytes < Text.byteLength name.toList then .error .nameTooLong
    else follow files { place with names := place.names ++ [name] } names

/-- The names of a path, which are divided by slashes. -/
def names (path : List Char) : List String :=
  (Text.splitWhen (· == '/') path).map String.ofList

/-- The place of a path; the empty path has none. -/
def locate (files : Files) (path : String) : Except ReadFailure Location :=
  let cs := path.toList
  if cs.any (·.toNat == 0) then .error .notPath
  else if maxPathBytes < Text.byteLength cs then .error .nameTooLong
  else
    match cs with
    | [] => .error .notFound
    | '/' :: _ => files.follow ⟨.root, []⟩ (names cs)
    | _ => files.follow {} (names cs)

def read (files : Files) (path : String) : Except ReadFailure String := do
  let place ← files.locate path
  match files.content? place with
  | some bytes =>
    match String.fromUTF8? bytes with
    | some text => .ok text
    | none => .error .notText
  | none => .error (if files.isDirectory place then .isDirectory else .notFound)

def put (place : Location) (content : ByteArray) :
    List (Location × ByteArray) → List (Location × ByteArray)
  | [] => [(place, content)]
  | entry :: rest =>
    if entry.1 = place then (place, content) :: rest else entry :: put place content rest

/-- What writing leaves behind: the files, and what was printed. -/
structure Written where
  files : Files
  printed : String := ""

/-- Writes a file into a directory that is there, over the file of that name if there is one. -/
def write (files : Files) (path : String) (text : String) : Option Written :=
  match files.locate path with
  | .error _ => none
  | .ok place =>
    if files.isDirectory place then none
    else if place = .standardOutput then some ⟨files, text⟩
    else if place = .nullDevice then some ⟨files, ""⟩
    else some ⟨⟨put place text.toUTF8 files.contents⟩, ""⟩

end Files

end SoliditySource
