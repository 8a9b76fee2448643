import RecordService.Filter
import RecordService.Json.Reader

namespace RecordService.Where

def isOperatorKey (key : String) : Bool := key.toList.head? = some '$'

def combine (clauses : List Filter) : Filter :=
  match clauses with
  | [] => .constant true
  | [f] => f
  | fs => .all fs

def operatorClause (field : Pointer) (key : String) (operand : Json) : Except QueryError Filter :=
  if key = "$exists" then
    match operand with
    | .bool true => .ok (.present field)
    | .bool false => .ok (.negation (.present field))
    | _ => .error (.invalidOperand "$exists requires a boolean")
  else match Operator.ofKey? key, operand with
    | none, _ => .error (.unsupportedOperator key)
    | some .between, .arr [_, _] => .ok (.test field .between operand)
    | some .between, _ => .error (.invalidOperand "$between requires array with 2 values")
    | some .like, .str _ => .ok (.test field .like operand)
    | some .likeAnyCase, .str _ => .ok (.test field .likeAnyCase operand)
    | some .like, _ | some .likeAnyCase, _ =>
      .error (.invalidOperand (key ++ " requires a string pattern"))
    | some op, _ => .ok (.test field op operand)

def fieldClauses (name : String) (condition : Json) : Except QueryError (List Filter) :=
  let field := Pointer.ofText name
  match condition with
  | .null => .ok [.negation (.present field)]
  | .obj operators =>
    if operators.any fun p ↦ isOperatorKey p.1 then
      operators.mapM fun p ↦ operatorClause field p.1 p.2
    else .ok [.test field .eq condition]
  | _ => .ok [.test field .eq condition]

mutual

def clause (limit : Nat) : Json → Nat → Except QueryError Filter
  | .bool b, depth => if depth ≤ limit then .ok (.constant b) else .error (.tooDeep depth limit)
  | .obj fields, depth =>
    if depth ≤ limit then (clauses limit fields depth).map combine
    else .error (.tooDeep depth limit)
  | w, depth =>
    if depth ≤ limit then .error (.invalidWhere ("Unsupported WHERE format: " ++ w.text))
    else .error (.tooDeep depth limit)
termination_by structural w => w

def clauses (limit : Nat) : List (String × Json) → Nat → Except QueryError (List Filter)
  | [], _ => .ok []
  | (key, value) :: rest, depth => do
    let found ←
      if !isOperatorKey key then fieldClauses key value
      else if key = "$and" then (branches limit key value (depth + 1)).map fun fs ↦ [.all fs]
      else if key = "$or" then (branches limit key value (depth + 1)).map fun fs ↦ [.any fs]
      else if key = "$not" then (clause limit value (depth + 1)).map fun f ↦ [.negation f]
      else .error (.unsupportedOperator key)
    let more ← clauses limit rest depth
    .ok (found ++ more)
termination_by structural fields => fields

def branches (limit : Nat) (key : String) : Json → Nat → Except QueryError (List Filter)
  | .arr items, depth => list limit items depth
  | _, _ => .error (.invalidOperand (key ++ " requires array"))
termination_by structural w => w

def list (limit : Nat) : List Json → Nat → Except QueryError (List Filter)
  | [], _ => .ok []
  | w :: ws, depth => do
    let f ← clause limit w depth
    let fs ← list limit ws depth
    .ok (f :: fs)
termination_by structural ws => ws

end

def validate : Json → Except QueryError Unit
  | .obj _ | .bool _ => .ok ()
  | _ => .error (.invalidWhere "WHERE must be an object or a boolean")

/-- The filter of a where clause with at most `limit` levels of combining operators. -/
def filter (limit : Nat) (w : Json) : Except QueryError Filter := do
  validate w
  clause limit w 0

def filterOfText (limit : Nat) (text : String) : Except QueryError Filter :=
  match Json.ofText? text with
  | none => .error (.unreadable "malformed text")
  | some w => filter limit w

end RecordService.Where
