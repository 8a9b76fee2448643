import RecordService.Text.Split

namespace RecordService

structure Path where
  segments : List String
deriving DecidableEq, Inhabited, Repr

namespace Path

def empty : Path := ⟨[]⟩

/-- Segments as given, without the empty ones. A segment may hold a slash here. -/
def ofSegments (segments : List String) : Path := ⟨segments.filter (· ≠ "")⟩

def ofText (text : String) : Path := ofSegments ((Text.split '/' text.toList).map String.ofList)

def text (p : Path) : String := String.ofList (Text.join '/' (p.segments.map String.toList))

def isEmpty (p : Path) : Bool := p.segments.isEmpty

def parent? (p : Path) : Option Path := if p.isEmpty then none else some ⟨p.segments.dropLast⟩

def leaf? (p : Path) : Option String := p.segments.getLast?

def append (p q : Path) : Path := ⟨p.segments ++ q.segments⟩

instance : Append Path := ⟨append⟩

/-- The path below `p` that a text adds; the text may hold several segments, or none. -/
def child (p : Path) (text : String) : Path := p ++ ofText text

def startsWith (p q : Path) : Bool := q.segments.isPrefixOf p.segments

def splitInstance? (p : Path) : Option (Path × String) := do
  let parent ← p.parent?
  let leaf ← p.leaf?
  some (parent, leaf)

def le (p q : Path) : Bool := Text.piecesLe p.segments q.segments

def sorted (paths : List Path) : List Path := paths.mergeSort le

end Path

end RecordService
