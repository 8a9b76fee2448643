import RecordService.Mapping.Reader
import RecordService.Text.Lowercase

namespace RecordService

/-- A directory of files and empty directories. -/
structure Directory where
  path : String
  /-- Whether the directory is there at all. -/
  present : Bool := true
  files : Dict String := []
  /-- Files that do not hold text. -/
  binaries : List String := []
  directories : List String := []

namespace Directory

def isFile (d : Directory) (name : String) : Bool :=
  d.present && (Dict.contains name d.files || d.binaries.contains name)

def names (d : Directory) : List String :=
  if d.present then d.files.map (·.1) ++ d.binaries ++ d.directories else []

def erase (name : String) (d : Directory) : Directory :=
  { d with files := Dict.erase name d.files, binaries := d.binaries.filter (· ≠ name) }

def write (name text : String) (d : Directory) : Directory :=
  if name ∈ d.directories then d
  else
    let rest := d.erase name
    { rest with files := Dict.insert name text rest.files }

def writeBinary (name : String) (d : Directory) : Directory :=
  if name ∈ d.directories then d
  else
    let rest := d.erase name
    { rest with binaries := rest.binaries ++ [name] }

def pathOf (d : Directory) (name : String) : String := d.path ++ "/" ++ name

def read (d : Directory) (name : String) : Except String String :=
  if !d.present then .error "No such file or directory (os error 2)"
  else match Dict.get? name d.files with
    | some text => .ok text
    | none =>
      if d.binaries.contains name then .error "stream did not contain valid UTF-8"
      else if name ∈ "" :: "." :: ".." :: d.directories then .error "Is a directory (os error 21)"
      else .error "No such file or directory (os error 2)"

end Directory

abbrev Formats := Dict (String → Except MappingError MappingDocument)

/-- What follows the last point of a name that has something before it. Only the part behind the last
slash counts. -/
def extension? (name : String) : Option String :=
  let reversed := name.toList.reverse.takeWhile (· ≠ '/')
  match Text.cut '.' reversed with
  | some (ending, _ :: _) => some (String.ofList ending.reverse)
  | _ => none

namespace Bootstrap

def endings : List String := ["json", "yaml", "yml"]

def stem (repoType : String) : String := "repo." ++ Text.lowercase repoType

def candidates (repoType : String) : List String :=
  [stem repoType, "service." ++ stem repoType].flatMap fun stem ↦
    endings.map fun ending ↦ stem ++ "." ++ ending

def find? (d : Directory) (repoType : String) : Option String :=
  (candidates repoType).find? d.isFile

def holdsAny (d : Directory) : Bool := d.names.any fun name ↦ "repo.".toList.isPrefixOf name.toList

/-- Whether the next miss in a directory without mapping documents will be reported. -/
structure Loader where
  armed : Bool := true
deriving DecidableEq, Repr

namespace Loader

def reset (_ : Loader) : Loader := { armed := true }

def locate (d : Directory) (repoType : String) (l : Loader) : Option String × Loader :=
  match find? d repoType with
  | some name => (some name, l)
  | none => (none, if holdsAny d then l else { armed := false })

end Loader

def documentAt (formats : Formats) (d : Directory) (name : String) :
    Except MappingError MappingDocument :=
  match d.read name with
  | .error detail => .error (.unreadable (d.pathOf name) detail)
  | .ok text =>
    match (extension? name).bind fun ending ↦ Dict.get? ending formats with
    | some read => read text
    | none => .error (.unsupportedFormat (d.pathOf name))

def Loader.load (formats : Formats) (d : Directory) (repoType : String) (l : Loader) :
    Except MappingError (Option MappingDocument) × Loader :=
  match l.locate d repoType with
  | (none, l) => (.ok none, l)
  | (some name, l) => ((documentAt formats d name).map some, l)

end Bootstrap

end RecordService
