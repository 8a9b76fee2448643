import Mathlib.Data.List.Forall2
import RecordService.Filter.Wildcard

namespace RecordService.Wildcard

variable {c : Char} {pattern text rest : List Char} {marks : List Bool} {P Q : List Char → Prop}

inductive Takes : Char → List Char → Prop
  | any (run : List Char) : Takes '%' run
  | one (c : Char) : Takes '_' [c]
  | itself {c : Char} : c ≠ '%' → c ≠ '_' → Takes c [c]

/-- The text is made of runs, one for each character of the pattern and in its order. -/
def Splits (pattern text : List Char) : Prop :=
  ∃ runs, List.Forall₂ Takes pattern runs ∧ runs.flatten = text

theorem splits_nil : Splits [] text ↔ text = [] := by
  constructor
  · intro ⟨runs, hruns, htext⟩
    cases hruns
    simpa using htext.symm
  · intro h
    exact ⟨[], .nil, h.symm⟩

theorem splits_cons : Splits (c :: pattern) text ↔
    ∃ run rest, run ++ rest = text ∧ Takes c run ∧ Splits pattern rest := by
  constructor
  · intro ⟨runs, hruns, htext⟩
    cases hruns with
    | @cons _ run _ runs hrun hruns =>
      exact ⟨run, runs.flatten, by simpa using htext, hrun, runs, hruns, rfl⟩
  · intro ⟨run, rest, htext, hrun, runs, hruns, hrest⟩
    refine ⟨run :: runs, .cons hrun hruns, ?_⟩
    rw [List.flatten_cons, hrest, htext]

theorem splits_any :
    Splits ('%' :: pattern) text ↔ ∃ rest, rest <:+ text ∧ Splits pattern rest := by
  rw [splits_cons]
  constructor
  · intro ⟨run, rest, htext, _, hrest⟩
    exact ⟨rest, ⟨run, htext⟩, hrest⟩
  · intro ⟨rest, ⟨run, htext⟩, hrest⟩
    exact ⟨run, rest, htext, .any run, hrest⟩

theorem splits_one :
    Splits ('_' :: pattern) text ↔ ∃ first rest, text = first :: rest ∧ Splits pattern rest := by
  rw [splits_cons]
  constructor
  · intro ⟨run, rest, htext, hrun, hrest⟩
    cases hrun with
    | one first => exact ⟨first, rest, htext.symm, hrest⟩
    | itself _ hne => exact absurd rfl hne
  · intro ⟨first, rest, htext, hrest⟩
    exact ⟨[first], rest, htext.symm, .one first, hrest⟩

theorem splits_itself (hany : c ≠ '%') (hone : c ≠ '_') :
    Splits (c :: pattern) text ↔ ∃ rest, text = c :: rest ∧ Splits pattern rest := by
  rw [splits_cons]
  constructor
  · intro ⟨run, rest, htext, hrun, hrest⟩
    cases hrun with
    | any => exact absurd rfl hany
    | one => exact absurd rfl hone
    | itself => exact ⟨rest, htext.symm, hrest⟩
  · intro ⟨rest, htext, hrest⟩
    exact ⟨[c], rest, htext.symm, .itself hany hone, hrest⟩

/-- The marks say of each suffix, the longest first, whether it has a property. -/
def Marks (P : List Char → Prop) (text : List Char) (marks : List Bool) : Prop :=
  List.Forall₂ (fun suffix mark ↦ mark = true ↔ P suffix) text.tails marks

theorem marks_nil {mark : Bool} : Marks P [] [mark] ↔ (mark = true ↔ P []) := by
  simp [Marks]

theorem marks_cons {mark : Bool} :
    Marks P (c :: text) (mark :: marks) ↔ (mark = true ↔ P (c :: text)) ∧ Marks P text marks := by
  simp [Marks]

theorem Marks.head (h : Marks P text marks) : marks.headD false = true ↔ P text := by
  cases text <;> cases h <;> assumption

theorem Marks.tail (h : Marks P (c :: text) marks) : Marks P text marks.tail := by
  cases h
  assumption

theorem Marks.congr (h : Marks P text marks) (hPQ : ∀ suffix, P suffix ↔ Q suffix) :
    Marks Q text marks := by
  have hsame : P = Q := funext fun suffix ↦ propext (hPQ suffix)
  rwa [← hsame]

theorem marks_empty (text : List Char) :
    Marks (· = []) text (text.map (fun _ ↦ false) ++ [true]) := by
  induction text with
  | nil => simp [marks_nil]
  | cons c text ih => simpa [marks_cons] using ih

theorem Marks.consume (h : Marks P text marks) (test : Char → Bool) :
    Marks (fun suffix ↦ ∃ c rest, suffix = c :: rest ∧ test c = true ∧ P rest) text
      (consume test text marks) := by
  induction text generalizing marks with
  | nil => simp [Wildcard.consume, marks_nil]
  | cons c text ih =>
    rw [Wildcard.consume, marks_cons]
    refine ⟨?_, ih h.tail⟩
    rw [Bool.and_eq_true, h.tail.head]
    simp

theorem Marks.anyFrom (h : Marks P text marks) :
    Marks (fun suffix ↦ ∃ rest, rest <:+ suffix ∧ P rest) text (anyFrom marks) := by
  induction text generalizing marks with
  | nil =>
    obtain _ | ⟨hmark, htail⟩ := h
    cases htail
    simpa [Wildcard.anyFrom, marks_nil] using hmark
  | cons c text ih =>
    obtain _ | ⟨hmark, htail⟩ := h
    have hrest := ih htail
    rw [Wildcard.anyFrom, marks_cons]
    refine ⟨?_, hrest⟩
    rw [Bool.or_eq_true, hmark, hrest.head]
    simp [List.suffix_cons_iff]

/-- Row by row, from the end of the pattern: a row marks the suffixes that the rest of the pattern
cuts into runs. -/
theorem marks_suffixes (text pattern : List Char) :
    Marks (Splits pattern) text (suffixes text pattern) := by
  induction pattern with
  | nil => exact (marks_empty text).congr fun _ ↦ splits_nil.symm
  | cons c pattern ih =>
    rw [suffixes]
    split
    case isTrue hany =>
      subst hany
      exact ih.anyFrom.congr fun _ ↦ splits_any.symm
    case isFalse hany =>
      split
      case isTrue hone =>
        subst hone
        apply (ih.consume _).congr
        simp [splits_one]
      case isFalse hone =>
        apply (ih.consume _).congr
        simp [splits_itself hany hone]

theorem matchesChars_iff : matchesChars pattern text = true ↔ Splits pattern text :=
  (marks_suffixes text pattern).head

/-- A pattern matches the texts that it splits, or, without regard to case, those whose lower case
the pattern in lower case splits. -/
theorem matches_iff_splits (pattern text : String) :
    (Wildcard.matches false pattern text ↔ Splits pattern.toList text.toList) ∧
      (Wildcard.matches true pattern text ↔
        Splits (Text.lowercase pattern).toList (Text.lowercase text).toList) := by
  constructor
  · exact matchesChars_iff
  · simp only [Text.lowercase, String.toList_ofList]
    exact matchesChars_iff

example : Wildcard.matches true "_l%E" "ALICE" = true := by decide

end RecordService.Wildcard
