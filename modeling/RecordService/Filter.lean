import RecordService.Filter.Wildcard
import RecordService.Json.Printer
import RecordService.Operator
import RecordService.Pointer

namespace RecordService

inductive Filter where
  | constant (b : Bool)
  | test (field : Pointer) (op : Operator) (operand : Json)
  /-- The field is there and not null. -/
  | present (field : Pointer)
  | all (filters : List Filter)
  | any (filters : List Filter)
  | negation (filter : Filter)
deriving Inhabited

namespace Filter

def valuesEqual : Json → Json → Bool
  | .num m, .num n => m.rank = n.rank
  | a, b => a.same b

/-- Order between two numbers, two texts or two booleans; other values have none. -/
def compareValues : Json → Json → Option Ordering
  | .num m, .num n => some (compare m.rank n.rank)
  | .str s, .str t => some (compare s t)
  | .bool a, .bool b => some (compare a.toNat b.toNat)
  | _, _ => none

def atLeast (a b : Json) : Bool :=
  match compareValues a b with
  | some .gt | some .eq => true
  | _ => false

def atMost (a b : Json) : Bool :=
  match compareValues a b with
  | some .lt | some .eq => true
  | _ => false

/-- The item rule for array fields. -/
def anyValue (actual operand : Json) (test : Json → Bool) : Bool :=
  match actual with
  | .arr items => if operand.isArray then test actual else items.any test
  | v => test v

def equalTo (actual : Option Json) (operand : Json) : Bool :=
  actual.any fun a ↦ anyValue a operand (valuesEqual · operand)

/-- An array operand lists options; any other operand is the only option. -/
def isOneOf (actual : Option Json) (operand : Json) : Bool :=
  match operand with
  | .arr options => options.any (equalTo actual)
  | option => equalTo actual option

def holds (op : Operator) (value operand : Json) : Bool :=
  match op with
  | .eq => valuesEqual value operand
  | .gt => compareValues value operand = some .gt
  | .ge => atLeast value operand
  | .lt => compareValues value operand = some .lt
  | .le => atMost value operand
  | .like | .likeAnyCase => match value, operand with
    | .str text, .str pattern => Wildcard.matches (op = .likeAnyCase) pattern text
    | _, _ => false
  | .between => match operand with
    | .arr [low, high] => atLeast value low && atMost value high
    | _ => false
  | .ne | .oneOf | .noneOf => false

def comparison (actual : Option Json) (op : Operator) (operand : Json) : Bool :=
  match op with
  | .ne => !equalTo actual operand
  | .oneOf => isOneOf actual operand
  | .noneOf => !isOneOf actual operand
  | _ => actual.any fun a ↦ anyValue a operand (holds op · operand)

def isPresent (field : Pointer) (document : Json) : Bool :=
  (field.get? document).any fun v ↦ !v.isNull

mutual

def «matches» (document : Json) : Filter → Bool
  | .constant b => b
  | .test field op operand => comparison (field.get? document) op operand
  | .present field => isPresent field document
  | .all fs => matchesAll document fs
  | .any fs => matchesAny document fs
  | .negation f => !f.matches document
termination_by structural f => f

def matchesAll (document : Json) : List Filter → Bool
  | [] => true
  | f :: fs => f.matches document && matchesAll document fs
termination_by structural fs => fs

def matchesAny (document : Json) : List Filter → Bool
  | [] => false
  | f :: fs => f.matches document || matchesAny document fs
termination_by structural fs => fs

end

mutual

def mapFields (move : Pointer → Pointer) : Filter → Filter
  | .constant b => .constant b
  | .test field op operand => .test (move field) op operand
  | .present field => .present (move field)
  | .all fs => .all (mapFieldsAll move fs)
  | .any fs => .any (mapFieldsAll move fs)
  | .negation f => .negation (f.mapFields move)
termination_by structural f => f

def mapFieldsAll (move : Pointer → Pointer) : List Filter → List Filter
  | [] => []
  | f :: fs => f.mapFields move :: mapFieldsAll move fs
termination_by structural fs => fs

end

mutual

def fields : Filter → List Pointer
  | .constant _ => []
  | .test field _ _ => [field]
  | .present field => [field]
  | .all fs => fieldsAll fs
  | .any fs => fieldsAll fs
  | .negation f => f.fields
termination_by structural f => f

def fieldsAll : List Filter → List Pointer
  | [] => []
  | f :: fs => f.fields ++ fieldsAll fs
termination_by structural fs => fs

end

mutual

def text : Filter → String
  | .constant b => if b then "true" else "false"
  | .test field op operand => field.text ++ " " ++ op.keyword ++ " " ++ operand.text
  | .present field => field.text ++ " pr"
  | .all fs => textJoined " and " fs
  | .any fs => textJoined " or " fs
  | .negation f => "!(" ++ f.text ++ ")"
termination_by structural f => f

def textJoined (joint : String) : List Filter → String
  | [] => ""
  | [f] => "(" ++ f.text ++ ")"
  | f :: g :: fs => "(" ++ f.text ++ ")" ++ joint ++ textJoined joint (g :: fs)
termination_by structural fs => fs

end

def fieldIs (token text : String) : Filter := .test ⟨[token]⟩ .eq (.str text)

end Filter

end RecordService
