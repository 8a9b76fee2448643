namespace RecordService.Text

def split (separator : Char) : List Char → List (List Char)
  | [] => [[]]
  | c :: cs =>
    if c = separator then [] :: split separator cs
    else match split separator cs with
      | [] => [[c]]
      | p :: ps => (c :: p) :: ps

def join (separator : Char) : List (List Char) → List Char
  | [] => []
  | [p] => p
  | p :: ps => p ++ separator :: join separator ps

def cut (separator : Char) : List Char → Option (List Char × List Char)
  | [] => none
  | c :: cs =>
    if c = separator then some ([], cs)
    else (cut separator cs).map fun p ↦ (c :: p.1, p.2)

def piecesLe : List String → List String → Bool
  | [], _ => true
  | _ :: _, [] => false
  | p :: ps, q :: qs => p < q || (p = q && piecesLe ps qs)

theorem split_ne_nil (separator : Char) (cs : List Char) : split separator cs ≠ [] := by
  cases cs with
  | nil => simp [split]
  | cons c cs =>
    simp only [split]
    split
    · simp
    · split <;> simp

end RecordService.Text
