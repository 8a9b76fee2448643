import RecordService.Text.CaseTable

namespace RecordService.Text

def lowerChar (c : Char) : List Char :=
  if c.toNat < 128 then [c.toLower]
  else if c = '\u0130' then ['i', '\u0307']
  else [((lowerRuns.findSome? fun run ↦ run.lower? c.toNat).map Char.ofNat).getD c]

def meetsCased (cs : List Char) : Bool :=
  match cs.dropWhile (inRuns ignoredRuns) with
  | [] => false
  | c :: _ => inRuns casedRuns c

/-- `before` holds the characters already read, nearest first. -/
def lowerAfter (before : List Char) : List Char → List Char
  | [] => []
  | c :: rest =>
    (if c = 'Σ' then [if meetsCased before && !meetsCased rest then 'ς' else 'σ']
      else lowerChar c) ++
      lowerAfter (c :: before) rest

def lowerChars (cs : List Char) : List Char := lowerAfter [] cs

def lowercase (s : String) : String := String.ofList (lowerChars s.toList)

end RecordService.Text
