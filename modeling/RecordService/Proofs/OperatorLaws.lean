import RecordService.Proofs.ClauseMeaning

namespace RecordService.Filter

open Where

variable {a b operand : Json} {found : Option Json}

def Comparable : Json → Prop
  | .num _ | .str _ | .bool _ => True
  | .null | .arr _ | .obj _ => False

/-- Order and equality agree on what is level. -/
theorem compareValues_eq_iff (h : Comparable b) :
    compareValues a b = some .eq ↔ valuesEqual a b := by
  cases b with
  | num n => cases a <;> simp [compareValues, valuesEqual, Json.same]
  | str t => cases a <;> simp [compareValues, valuesEqual, Json.same]
  | bool y =>
    cases a with
    | bool x => cases x <;> cases y <;> decide
    | _ => simp [compareValues, valuesEqual, Json.same]
  | _ => exact False.elim h

theorem holds_ge_iff (h : Comparable b) : holds .ge a b ↔ holds .gt a b ∨ holds .eq a b := by
  have heq := compareValues_eq_iff (a := a) h
  simp only [holds, atLeast_iff, decide_eq_true_iff, ← heq]
  simp

theorem holds_le_iff (h : Comparable b) : holds .le a b ↔ holds .lt a b ∨ holds .eq a b := by
  have heq := compareValues_eq_iff (a := a) h
  simp only [holds, atMost_iff, decide_eq_true_iff, ← heq]
  simp

/-- An array field has an item that passes one of two tests just if it has one that passes the first
or one that passes the second. -/
theorem any_or {p q r : Json → Bool} (h : ∀ a, r a ↔ p a ∨ q a) :
    (found.any fun a ↦ anyValue a operand r) ↔
      (found.any fun a ↦ anyValue a operand p) ∨ found.any fun a ↦ anyValue a operand q := by
  rw [passes_iff, passes_iff, passes_iff, Passes.congr h]
  simp only [Passes, and_or_left, exists_or]

structure Coherent (d : Json) (field : Pointer) : Prop where
  ne_iff : ∀ v, (test field .ne v).matches d ↔ ¬ (test field .eq v).matches d
  noneOf_iff : ∀ v, (test field .noneOf v).matches d ↔ ¬ (test field .oneOf v).matches d
  oneOf_list : ∀ vs, (test field .oneOf (.arr vs)).matches d ↔
    ∃ v ∈ vs, (test field .eq v).matches d
  oneOf_single : ∀ v, ¬ v.isArray → ((test field .oneOf v).matches d ↔ (test field .eq v).matches d)
  ge_iff : ∀ v, Comparable v → ((test field .ge v).matches d ↔
    (test field .gt v).matches d ∨ (test field .eq v).matches d)
  le_iff : ∀ v, Comparable v → ((test field .le v).matches d ↔
    (test field .lt v).matches d ∨ (test field .eq v).matches d)

/-- Whatever is found at the field, if anything, and whatever it is compared with. -/
theorem coherent (d : Json) (field : Pointer) : Coherent d field where
  ne_iff v := Bool.not_iff_not
  noneOf_iff v := Bool.not_iff_not
  oneOf_list vs := List.any_eq_true
  oneOf_single v hv := by
    cases v with
    | arr vs => exact absurd rfl hv
    | _ => rfl
  ge_iff v hv := any_or fun a ↦ holds_ge_iff hv
  le_iff v hv := any_or fun a ↦ holds_le_iff hv

end RecordService.Filter
