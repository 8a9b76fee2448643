namespace RecordService

abbrev Dict (β : Type) := List (String × β)

namespace Dict

variable {β γ : Type}

def get? (key : String) : Dict β → Option β
  | [] => none
  | (k, v) :: d => if key = k then some v else get? key d

def contains (key : String) (d : Dict β) : Bool := (get? key d).isSome

def insert (key : String) (value : β) : Dict β → Dict β
  | [] => [(key, value)]
  | (k, v) :: d =>
    if key = k then (key, value) :: d
    else if key < k then (key, value) :: (k, v) :: d
    else (k, v) :: insert key value d

def erase (key : String) (d : Dict β) : Dict β := d.filter fun p ↦ p.1 ≠ key

/-- Of equal keys the last one counts. -/
def ofList (pairs : List (String × β)) : Dict β :=
  pairs.foldl (fun d p ↦ insert p.1 p.2 d) []

def mapValues (f : β → γ) (d : Dict β) : Dict γ := d.map fun p ↦ (p.1, f p.2)

def modify (key : String) (f : β → β) : Dict β → Dict β
  | [] => []
  | (k, v) :: d => if key = k then (k, f v) :: d else (k, v) :: modify key f d

/-- Keys in strictly increasing order. -/
def Sorted (d : Dict β) : Prop := d.Pairwise fun p q ↦ p.1 < q.1

@[simp] theorem get?_nil (key : String) : get? key ([] : Dict β) = none := rfl

theorem get?_insert_self (key : String) (value : β) (d : Dict β) :
    get? key (insert key value d) = some value := by
  induction d with
  | nil => simp [insert, get?]
  | cons p d ih =>
    obtain ⟨k, v⟩ := p
    simp only [insert]
    split
    · simp [get?]
    · split
      · simp [get?]
      · simp [get?, *]

theorem get?_insert_of_ne {key other : String} (h : other ≠ key) (value : β) (d : Dict β) :
    get? other (insert key value d) = get? other d := by
  induction d with
  | nil => simp [insert, get?, h]
  | cons p d ih =>
    obtain ⟨k, v⟩ := p
    simp only [insert]
    split
    · subst_vars; simp [get?, h]
    · split
      · simp [get?, h]
      · simp [get?, ih]

theorem get?_erase_self (key : String) (d : Dict β) : get? key (erase key d) = none := by
  induction d with
  | nil => rfl
  | cons p d ih =>
    obtain ⟨k, v⟩ := p
    by_cases h : k = key
    · simpa [erase, h] using ih
    · have h' : ¬ key = k := fun e ↦ h e.symm
      simpa [erase, h, get?, h'] using ih

theorem get?_erase_of_ne {key other : String} (h : other ≠ key) (d : Dict β) :
    get? other (erase key d) = get? other d := by
  induction d with
  | nil => rfl
  | cons p d ih =>
    obtain ⟨k, v⟩ := p
    by_cases hk : k = key
    · subst hk
      simpa [erase, get?, h] using ih
    · by_cases ho : other = k
      · simp [erase, hk, get?, ho]
      · simpa [erase, hk, get?, ho] using ih

end Dict

end RecordService
