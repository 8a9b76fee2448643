import RecordService.Markup
import RecordService.Yaml.Token
import RecordService.Yaml.Word

namespace RecordService.Yaml

structure Reading where
  tokens : List Token
  anchors : Dict Markup := []
  /-- What the handles of tags stand for. -/
  handles : Dict String := Dict.ofList [("!", "!"), ("!!", "tag:yaml.org,2002:")]

abbrev Read := StateT Reading Option

namespace Read

def peek : Read (Option Token) := do return (← get).tokens.head?

def advance : Read Unit := modify fun r ↦ { r with tokens := r.tokens.tail }

def nextIs (among : List Token) : Read Bool := do return (← peek).any fun t ↦ among.contains t

def require (t : Token) : Read Unit := do
  if ← nextIs [t] then advance else failure

end Read

open Read

structure Properties where
  anchor : Option String := none
  tag : Option String := none

def readAnchor : Read (Option String) := do
  match ← peek with
  | some (.anchor name) =>
    advance
    return some name
  | _ => return none

def readTag : Read (Option String) := do
  match ← peek with
  | some (.tag handle suffix) =>
    advance
    if handle = "" then return some suffix
    else
      let stem ← (Dict.get? handle (← get).handles : Option String)
      return some (stem ++ suffix)
  | _ => return none

def readProperties : Read Properties := do
  match ← readAnchor with
  | some name => return { anchor := some name, tag := ← readTag }
  | none =>
    let tag ← readTag
    return { anchor := ← readAnchor, tag }

def emptyNode : Markup := .word ""

def scalar (tag : Option String) (isPlain : Bool) (text : String) : Markup :=
  match tag.filter (· ≠ "!") with
  | none => if isPlain then .word text else .text text
  | some tag => .tagged (ofTagged? tag text) (some text)

def collection (tag : Option String) (m : Markup) : Markup :=
  if tag.any fun tag ↦ tag.toList.head? = some '!' then .tagged none none else m

def keyText? : Markup → Option String
  | .word s | .text s | .tagged _ (some s) => some s
  | _ => none

def fieldsOf (pairs : List (Markup × Markup)) : Markup :=
  match pairs.mapM fun p ↦ (keyText? p.1).map (·, p.2) with
  | some pairs => .fields pairs
  | none => .tagged none none

/-- The node, or nothing if one of these tokens comes next. -/
def orEmpty (ends : List Token) (node : Read Markup) : Read Markup := do
  if ← nextIs ends then return emptyNode else node

def valueOr (ends : List Token) (node : Read Markup) : Read Markup := do
  if ← nextIs [.value] then
    advance
    orEmpty ends node
  else return emptyNode

mutual

/-- A node in a block or in flow style. The items of a list that is the value of a field in a block
may stand below the field without being indented. -/
def readNode (inBlock unindented : Bool) (room : Nat) : Read Markup :=
  match room with
  | 0 => failure
  | room + 1 => do
    match ← peek with
    | some (.alias name) =>
      advance
      (Dict.get? name (← get).anchors : Option Markup)
    | _ =>
      let properties ← readProperties
      let m ← readContent inBlock unindented properties room
      if let some name := properties.anchor then
        modify fun r ↦ { r with anchors := Dict.insert name m r.anchors }
      return m

def readContent (inBlock unindented : Bool) (properties : Properties) (room : Nat) : Read Markup :=
  match room with
  | 0 => failure
  | room + 1 => do
    let tag := properties.tag
    match ← peek with
    | some (.plain text) =>
      advance
      return scalar tag true text
    | some (.quoted text) =>
      advance
      return scalar tag false text
    | some .openList =>
      advance
      return collection tag (.list (← readFlowItems true room))
    | some .openFields =>
      advance
      return collection tag (fieldsOf (← readFlowFields true room))
    | t =>
      if t = some .item ∧ unindented then
        return collection tag (.list (← readItems true room))
      else if t = some .openBlockList ∧ inBlock then
        advance
        return collection tag (.list (← readItems false room))
      else if t = some .openBlockFields ∧ inBlock then
        advance
        return collection tag (fieldsOf (← readFields room))
      else if properties.anchor.isSome ∨ tag.isSome then return scalar tag true ""
      else failure

def readItems (unindented : Bool) (room : Nat) : Read (List Markup) :=
  match room with
  | 0 => failure
  | room + 1 => do
    if ← nextIs [.item] then
      advance
      let ends : List Token :=
        if unindented then [.item, .key, .value, .closeBlock] else [.item, .closeBlock]
      let m ← orEmpty ends (readNode true false room)
      return m :: (← readItems unindented room)
    else if unindented then return []
    else
      require .closeBlock
      return []

def readFields (room : Nat) : Read (List (Markup × Markup)) :=
  match room with
  | 0 => failure
  | room + 1 => do
    if ← nextIs [.key] then
      advance
      let ends : List Token := [.key, .value, .closeBlock]
      let key ← orEmpty ends (readNode true true room)
      let value ← valueOr ends (readNode true true room)
      return (key, value) :: (← readFields room)
    else
      require .closeBlock
      return []

/-- Items between commas; a comma may follow the last one. An item may be a single field. -/
def readFlowItems (first : Bool) (room : Nat) : Read (List Markup) :=
  match room with
  | 0 => failure
  | room + 1 => do
    if ← nextIs [.closeList] then
      advance
      return []
    else
      if !first then require .comma
      if ← nextIs [.closeList] then
        advance
        return []
      else if ← nextIs [.key] then
        advance
        let key ← readSingleKey room
        let value ← valueOr [.comma, .closeList] (readNode false false room)
        return fieldsOf [(key, value)] :: (← readFlowItems false room)
      else
        let m ← readNode false false room
        return m :: (← readFlowItems false room)

/-- The key of a single field among items. Where there is none, the token in its place is
skipped. -/
def readSingleKey (room : Nat) : Read Markup :=
  match room with
  | 0 => failure
  | room + 1 => do
    if ← nextIs [.value, .comma, .closeList] then
      advance
      return emptyNode
    else readNode false false room

def readFlowFields (first : Bool) (room : Nat) : Read (List (Markup × Markup)) :=
  match room with
  | 0 => failure
  | room + 1 => do
    if ← nextIs [.closeFields] then
      advance
      return []
    else
      if !first then require .comma
      if ← nextIs [.closeFields] then
        advance
        return []
      else if ← nextIs [.key] then
        advance
        let key ← orEmpty [.value, .comma, .closeFields] (readNode false false room)
        let value ← valueOr [.comma, .closeFields] (readNode false false room)
        return (key, value) :: (← readFlowFields false room)
      else
        let key ← readNode false false room
        return (key, emptyNode) :: (← readFlowFields false room)

end

def readDirectives (versionSeen : Bool) (seen : List String) : List Token → Read Unit
  | .version major minor :: rest => do
    if versionSeen ∨ major ≠ 1 ∨ (minor ≠ 1 ∧ minor ≠ 2) then failure
    advance
    readDirectives true seen rest
  | .tagHandle handle stem :: rest => do
    if handle ∈ seen then failure
    advance
    modify fun r ↦ { r with handles := Dict.insert handle stem r.handles }
    readDirectives versionSeen (handle :: seen) rest
  | _ => return ()

def isDirective : Token → Bool
  | .version _ _ | .tagHandle _ _ => true
  | _ => false

def readDocument (room : Nat) : Read Markup := do
  let tokens := (← get).tokens
  let opened := tokens.head?.any fun t ↦ isDirective t || t = .documentStart
  if opened then
    readDirectives false [] tokens
    require .documentStart
  let ends := (← peek).all fun t ↦ isDirective t || t = .documentStart || t = .documentEnd
  let m ← if tokens.isEmpty || (opened && ends) then pure emptyNode else readNode true false room
  modify fun r ↦ { r with tokens := r.tokens.dropWhile (· = .documentEnd) }
  if (← get).tokens.isEmpty then return m else failure

def markup? (text : String) : Option Markup := do
  let tokens ← Token.scan? text
  (readDocument (4 * tokens.length + 4)).run' { tokens }

end RecordService.Yaml
