import RecordService.Text.Lowercase

namespace RecordService.Wildcard

def anyFrom : List Bool → List Bool
  | [] => []
  | b :: bs => (b || (anyFrom bs).headD false) :: anyFrom bs

/-- For each suffix of `text`, the longest first, whether its first character passes `test` and
the rest is marked in `marks`; the empty suffix never is. -/
def consume (test : Char → Bool) : List Char → List Bool → List Bool
  | [], _ => [false]
  | c :: cs, marks => (test c && (marks.tail.headD false)) :: consume test cs marks.tail

/-- For each suffix of `text`, the longest first, whether the pattern takes exactly that suffix. -/
def suffixes (text : List Char) : List Char → List Bool
  | [] => text.map (fun _ ↦ false) ++ [true]
  | c :: pattern =>
    let marks := suffixes text pattern
    if c = '%' then anyFrom marks
    else if c = '_' then consume (fun _ ↦ true) text marks
    else consume (· = c) text marks

def matchesChars (pattern text : List Char) : Bool := (suffixes text pattern).headD false

/-- Without regard to case, pattern and text are taken in lower case. -/
def «matches» (anyCase : Bool) (pattern text : String) : Bool :=
  if anyCase then matchesChars (Text.lowerChars pattern.toList) (Text.lowerChars text.toList)
  else matchesChars pattern.toList text.toList

end RecordService.Wildcard
