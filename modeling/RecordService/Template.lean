import RecordService.Fault

namespace RecordService

namespace Template

inductive Piece where
  | plain (text : List Char)
  | token (name : List Char)
deriving DecidableEq, Repr

def opening : List Char := ['$', '\x7b']

/-- `name` holds what was read since a token was opened, last character first. A token that is never
closed is plain text. -/
def piecesFrom : (name : Option (List Char)) → List Char → List Piece
  | none, [] => []
  | some name, [] => [.plain (opening ++ name.reverse)]
  | none, '$' :: '\x7b' :: cs => piecesFrom (some []) cs
  | none, c :: cs => .plain [c] :: piecesFrom none cs
  | some name, '\x7d' :: cs => .token name.reverse :: piecesFrom none cs
  | some name, c :: cs => piecesFrom (some (c :: name)) cs

def pieces (cs : List Char) : List Piece := piecesFrom none cs

def fillPiece (parameters : Dict String) : Piece → Except Fault (List Char)
  | .plain text => .ok text
  | .token name =>
    match Dict.get? (String.ofList name) parameters with
    | some value => .ok value.toList
    | none => .error (.badRequest ("Missing query parameter: " ++ String.ofList name))

def fillText (parameters : Dict String) (text : String) : Except Fault String :=
  ((pieces text.toList).mapM (fillPiece parameters)).map fun parts ↦ String.ofList parts.flatten

mutual

def fill (parameters : Dict String) : Json → Except Fault Json
  | .str s => (fillText parameters s).map .str
  | .arr items => (fillItems parameters items).map .arr
  | .obj fields => (fillFields parameters fields).map .obj
  | .null => .ok .null
  | .bool b => .ok (.bool b)
  | .num n => .ok (.num n)
termination_by structural v => v

def fillItems (parameters : Dict String) : List Json → Except Fault (List Json)
  | [] => .ok []
  | v :: vs => do
    let w ← fill parameters v
    let ws ← fillItems parameters vs
    .ok (w :: ws)
termination_by structural vs => vs

def fillFields (parameters : Dict String) :
    List (String × Json) → Except Fault (List (String × Json))
  | [] => .ok []
  | (key, v) :: vs => do
    let w ← fill parameters v
    let ws ← fillFields parameters vs
    .ok ((key, w) :: ws)
termination_by structural vs => vs

end

end Template

end RecordService
