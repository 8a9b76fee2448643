import RecordService.Json.Printer
import RecordService.Pointer
import RecordService.Text.Blank

namespace RecordService

structure SortKey where
  field : Pointer
  descending : Bool
deriving DecidableEq, Repr

namespace SortKey

def sign : List Char → Bool × List Char
  | '-' :: cs => (true, cs)
  | '+' :: cs => (false, cs)
  | cs => (false, cs)

def direction? (word : List Char) : Option Bool :=
  let word := word.map Char.toLower
  if word = "desc".toList then some true
  else if word = "asc".toList then some false
  else none

/-- A field, perhaps with a sign in front, perhaps followed by a direction, which then decides. -/
def ofWords? (words : List (List Char)) : Option SortKey :=
  match words with
  | [column] =>
    let (descending, field) := sign column
    if field.isEmpty then none else some ⟨.ofText (String.ofList field), descending⟩
  | [column, word] =>
    let (_, field) := sign column
    if field.isEmpty then none
    else (direction? word).map fun descending ↦ ⟨.ofText (String.ofList field), descending⟩
  | _ => none

def ofChars (cs : List Char) : Except QueryError SortKey :=
  match ofWords? (Text.words cs) with
  | some key => .ok key
  | none => .error (.invalidSortKey (String.ofList cs))

end SortKey

namespace Sorting

def ofText (text : String) : Except QueryError (List SortKey) :=
  (((Text.split ',' text.toList).map Text.trim).filter (· ≠ [])).mapM SortKey.ofChars

def ofItems : List Json → Except QueryError (List SortKey)
  | [] => .ok []
  | .str s :: items => do
    let keys ← ofText s
    let more ← ofItems items
    .ok (keys ++ more)
  | v :: _ => .error (.invalidSortKey v.text)

def ofField (field : String × Json) : Except QueryError SortKey :=
  match field.2 with
  | .str s =>
    match SortKey.direction? s.toList with
    | some descending => .ok ⟨.ofText field.1, descending⟩
    | none =>
      .error (.invalidSortKey (field.1 ++ " " ++ String.ofList (s.toList.map Char.toLower)))
  | _ => .ok ⟨.ofText field.1, false⟩

/-- Sort keys as a text, a list of texts, or an object from field to direction. -/
def ofJson : Json → Except QueryError (List SortKey)
  | .null => .ok []
  | .str s => ofText s
  | .arr items => ofItems items
  | .obj fields => fields.mapM ofField
  | v => .error (.invalidSortKey v.text)

def kind : Json → Nat
  | .null => 0
  | .bool _ => 1
  | .num _ => 2
  | .str _ => 3
  | .arr _ => 4
  | .obj _ => 5

def compareJson : Json → Json → Ordering
  | .bool a, .bool b => compare a.toNat b.toNat
  | .num m, .num n => compare m.rank n.rank
  | .str s, .str t => compare s t
  | a, b => compare (kind a) (kind b)

def compareFound : Option Json → Option Json → Ordering
  | none, none => .eq
  | none, some _ => .lt
  | some _, none => .gt
  | some a, some b => compareJson a b

/-- The first key that tells two documents apart decides. -/
def compareBy : List SortKey → Json → Json → Ordering
  | [], _, _ => .eq
  | key :: keys, a, b =>
    let found := compareFound (key.field.get? a) (key.field.get? b)
    (if key.descending then found.swap else found).then (compareBy keys a b)

/-- Stable: what the keys do not tell apart keeps its order. -/
def sortBy {α : Type} (document : α → Json) (keys : List SortKey) (items : List α) : List α :=
  items.mergeSort fun a b ↦ (compareBy keys (document a) (document b)).isLE

end Sorting

end RecordService
