import RecordService.Fault
import RecordService.Json.Printer
import RecordService.Pointer

namespace RecordService

namespace Patch

inductive Kind where
  | add
  | replace
  | remove
  | increment
deriving DecidableEq, Repr

structure Change where
  kind : Kind
  field : Pointer
  value : Json := .null
deriving DecidableEq

def Kind.name : Kind → String
  | .add => "add"
  | .replace => "replace"
  | .remove => "remove"
  | .increment => "increment"

def Kind.ofName? (name : String) : Option Kind :=
  [Kind.add, .replace, .remove, .increment].find? (·.name = name)

/-- A kind is its name, or an object with the name as its only field, holding null. -/
def Kind.ofJson? : Json → Option Kind
  | .str name => ofName? name
  | .obj [(name, .null)] => ofName? name
  | _ => none

/-- A change is an object, or the list of its parts in the order kind, field, value. -/
def Change.ofJson? : Json → Option Change
  | .obj fields => do
    let kind ← Kind.ofJson? (← Dict.get? "operation" fields)
    let field ← (← Dict.get? "field" fields).str?
    some ⟨kind, .ofText field, (Dict.get? "value" fields).getD .null⟩
  | .arr (kind :: .str field :: rest) => do
    let kind ← Kind.ofJson? kind
    match rest with
    | [] => some ⟨kind, .ofText field, .null⟩
    | [value] => some ⟨kind, .ofText field, value⟩
    | _ => none
  | _ => none

def ofJson? : Json → Option (List Change)
  | .arr items => items.mapM Change.ofJson?
  | _ => none

def Change.json (c : Change) : Json :=
  .record [("operation", .str c.kind.name), ("field", .str c.field.text), ("value", c.value)]

def sum? : Json → Json → Option Json
  | .num a, .num b => (a.add? b).map .num
  | _, _ => none

def writeAt (field : Pointer) (document value : Json) : Json × Except Fault Unit :=
  let (document, result) := field.write document value
  (document, orBadRequest result)

/-- Makes a change in a document, which is left as it is by then where the change fails. Adding to
an array appends, unless the value is an array itself. A missing field counts as zero for an
increment. -/
def Change.write (c : Change) (document : Json) : Json × Except Fault Unit :=
  let current := c.field.get? document
  match c.kind with
  | .add =>
    if (current.any Json.isArray) && !c.value.isArray then
      writeAt (c.field.child "-") document c.value
    else writeAt c.field document c.value
  | .replace => writeAt c.field document c.value
  | .remove => ((c.field.remove document).2, .ok ())
  | .increment =>
    match sum? (current.getD (.int 0)) c.value with
    | some sum => writeAt c.field document sum
    | none => (document, .error (.badRequest
        ("Cannot increment " ++ c.field.text ++ " by " ++ c.value.text)))

def write : List Change → Json → Json × Except Fault Unit
  | [], document => (document, .ok ())
  | c :: cs, document =>
    match c.write document with
    | (document, .ok ()) => write cs document
    | (document, .error fault) => (document, .error fault)

section Results

def written (outcome : Json × Except Fault Unit) : Except Fault Json :=
  outcome.2.map fun _ ↦ outcome.1

def setAt (field : Pointer) (document value : Json) : Except Fault Json :=
  written (writeAt field document value)

theorem setAt_eq (field : Pointer) (document value : Json) :
    setAt field document value = orBadRequest (field.set document value) := by
  simp only [setAt, writeAt, written, Pointer.set]
  cases (field.write document value).2 <;> rfl

def Change.apply (c : Change) (document : Json) : Except Fault Json := written (c.write document)

def apply (changes : List Change) (document : Json) : Except Fault Json :=
  written (write changes document)

theorem apply_cons (c : Change) (cs : List Change) (document : Json) :
    apply (c :: cs) document = c.apply document >>= apply cs := by
  rw [apply, write, Change.apply]
  cases c.write document with
  | mk document result => cases result <;> rfl

end Results

end Patch

end RecordService
