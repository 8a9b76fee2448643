import RecordService.Patch
import RecordService.Query
import RecordService.Record

namespace RecordService

inductive Request where
  | create (path : Path) (id : Option String) (content : Json)
  | read (path : Path) (fields : List Pointer)
  /-- The revision, where one is given, is the one the record is expected to have. -/
  | update (path : Path) (revision : Option String) (content : Json)
  | patch (path : Path) (revision : Option String) (changes : List Patch.Change)
  | delete (path : Path) (revision : Option String)
  | action (path : Path) (name : String) (content : Json) (parameters : Dict String)
  | query (query : Query)

namespace Request

abbrev Reply : Request → Type
  | .create .. | .read .. | .update .. | .patch .. | .delete .. => Record
  | .action .. => Json
  | .query _ => Page

def path : Request → Path
  | .create path .. | .read path _ | .update path .. | .patch path .. | .delete path _
  | .action path .. => path
  | .query q => q.path

/-- The type a request is about: the path itself, or what stands above the record it names. -/
def typePath : Request → Path
  | .create path .. | .action path .. => path
  | .query q => q.path
  | .read path _ | .update path .. | .patch path .. | .delete path _ => path.parent?.getD .empty

end Request

def expectedInstance (path : Path) : Fault :=
  .badRequest ("Expected an instance path, got '" ++ path.text ++ "'")

def objectNotFound (id : String) (place : Path) : Fault :=
  .notFound ("Object " ++ id ++ " not found in " ++ place.text)

def Path.instanceParts (p : Path) : Except Fault (Path × String) :=
  match p.splitInstance? with
  | some parts => .ok parts
  | none => .error (expectedInstance p)

end RecordService
