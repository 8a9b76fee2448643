import RecordService.Proofs.ClauseMeaning

namespace RecordService.Filter

open Where

variable {d a v low high operand : Json} {field : Pointer} {found : Option Json} {op : Operator}

section Bounds

def InRange (low high v : Json) : Prop := holds .ge v low ∧ holds .le v high

def IsBound : Operator → Prop
  | .gt | .ge | .lt | .le => True
  | _ => False

theorem holds_between : holds .between v (.arr [low, high]) ↔ InRange low high v := by
  rw [holds, Bool.and_eq_true]
  rfl

/-- An array comes neither before nor after anything. -/
theorem compareValues_of_isArray (h : v.isArray ∨ operand.isArray) :
    compareValues v operand = none := by
  rcases h with h | h
  · cases v with
    | arr items => rfl
    | _ => cases h
  · cases operand with
    | arr items => cases v <;> rfl
    | _ => cases h

theorem not_holds_of_isArray (hop : IsBound op) (h : v.isArray ∨ operand.isArray) :
    ¬ holds op v operand := by
  have hnone := compareValues_of_isArray h
  cases op with
  | gt | ge | lt | le => simp [holds, atLeast, atMost, hnone]
  | _ => exact False.elim hop

theorem exists_items (h : v.isArray) : ∃ items, v = .arr items := by
  cases v with
  | arr items => exact ⟨items, rfl⟩
  | _ => cases h

theorem InRange.not_isArray (h : InRange low high v) : ¬ v.isArray := by
  intro hv
  have hbound : IsBound .ge := trivial
  exact not_holds_of_isArray hbound (.inl hv) h.1

end Bounds

section Fields

/-- The values of a field: the items of the array that it holds, or else the one value that is
there. -/
inductive Held : Option Json → Json → Prop
  | single {v : Json} : ¬ v.isArray → Held (some v) v
  | item {items : List Json} {v : Json} : v ∈ items → Held (some (.arr items)) v

theorem held_single (hv : ¬ v.isArray) {w : Json} : Held (some v) w ↔ w = v := by
  constructor
  · rintro (⟨-⟩ | ⟨-⟩)
    · rfl
    · exact absurd rfl hv
  · rintro rfl
    exact .single hv

theorem held_items {items : List Json} : Held (some (.arr items)) v ↔ v ∈ items := by
  constructor
  · rintro (⟨hsingle⟩ | ⟨hitem⟩)
    · exact absurd rfl hsingle
    · exact hitem
  · exact .item

theorem matches_bound_iff (hop : IsBound op) : (test field op operand).matches d ↔
    ∃ v, Held (field.get? d) v ∧ holds op v operand := by
  have hpasses : (test field op operand).matches d ↔
      Passes (field.get? d) operand fun v ↦ holds op v operand := by
    cases op with
    | gt | ge | lt | le => exact passes_iff
    | _ => exact False.elim hop
  rw [hpasses]
  constructor
  · rintro ⟨a, ha, v, hoffers, hv⟩
    refine ⟨v, ?_, hv⟩
    rw [Option.mem_def.mp ha]
    cases hoffers with
    | whole => exact .single fun harray ↦ not_holds_of_isArray hop (.inl harray) hv
    | item _ hitem => exact .item hitem
  · rintro ⟨v, hheld, hv⟩
    generalize field.get? d = found at hheld
    cases hheld with
    | single hsingle => exact ⟨v, rfl, v, .whole fun h ↦ absurd h hsingle, hv⟩
    | item hitem =>
      have hoperand : ¬ operand.isArray := fun h ↦ not_holds_of_isArray hop (.inr h) hv
      exact ⟨_, rfl, v, .item hoperand hitem, hv⟩

theorem matches_between_iff : (test field .between (.arr [low, high])).matches d ↔
    ∃ v, field.get? d = some v ∧ InRange low high v := by
  have hpasses : (test field .between (.arr [low, high])).matches d ↔
      Passes (field.get? d) (.arr [low, high]) fun v ↦ holds .between v (.arr [low, high]) :=
    passes_iff
  rw [hpasses]
  constructor
  · rintro ⟨a, ha, v, hoffers, hv⟩
    cases hoffers with
    | whole => exact ⟨a, ha, holds_between.mp hv⟩
    | item hoperand => exact absurd rfl hoperand
  · rintro ⟨v, hv, hrange⟩
    exact ⟨v, hv, v, .whole fun _ ↦ rfl, holds_between.mpr hrange⟩

structure Ranged (d : Json) (field : Pointer) (low high : Json) : Prop where
  /-- The field has one value, and this lies between the bounds. -/
  matches_iff : (test field .between (.arr [low, high])).matches d ↔
    ∃ v, field.get? d = some v ∧ ¬ v.isArray ∧ InRange low high v
  /-- That any of the values of the field lies between the bounds is the same, unless it is an item
  of an array that does. -/
  held_iff : ((test field .between (.arr [low, high])).matches d ↔
      ∃ v, Held (field.get? d) v ∧ InRange low high v) ↔
    ¬ ∃ items, field.get? d = some (.arr items) ∧ ∃ v ∈ items, InRange low high v
  /-- A single value is in the range just if it meets both bounds. -/
  bounds_iff : ∀ v, field.get? d = some v → ¬ v.isArray →
    ((test field .between (.arr [low, high])).matches d ↔
      (test field .ge low).matches d ∧ (test field .le high).matches d)
  /-- A single bound is met by any of the values of a field. -/
  bound_iff : ∀ op, IsBound op → ∀ bound, ((test field op bound).matches d ↔
    ∃ v, Held (field.get? d) v ∧ holds op v bound)

theorem ranged (d : Json) (field : Pointer) (low high : Json) : Ranged d field low high where
  matches_iff := by
    rw [matches_between_iff]
    refine exists_congr fun v ↦ and_congr_right fun _ ↦ ?_
    exact ⟨fun h ↦ ⟨h.not_isArray, h⟩, And.right⟩
  held_iff := by
    rw [matches_between_iff]
    cases field.get? d with
    | none => exact iff_of_true (iff_of_false nofun nofun) nofun
    | some v =>
      by_cases harray : v.isArray
      · obtain ⟨items, rfl⟩ := exists_items harray
        have hnot : ¬ InRange low high (.arr items) := fun hrange ↦ hrange.not_isArray rfl
        simp only [held_items, Option.some.injEq, Json.arr.injEq, exists_eq_left', hnot, false_iff]
      · have hnone : ¬ ∃ items, v = .arr items ∧ ∃ w ∈ items, InRange low high w :=
          fun ⟨_, hv, _⟩ ↦ harray (hv ▸ rfl)
        simp only [held_single harray, exists_eq_left, Option.some.injEq, exists_eq_left', hnone,
          not_false_eq_true]
  bounds_iff v hv hsingle := by
    have hbound (op : Operator) (hop : IsBound op) (bound : Json) :
        (test field op bound).matches d ↔ holds op v bound := by
      rw [matches_bound_iff hop, hv]
      simp only [held_single hsingle, exists_eq_left]
    have hge : (test field .ge low).matches d ↔ holds .ge v low := hbound .ge trivial low
    have hle : (test field .le high).matches d ↔ holds .le v high := hbound .le trivial high
    rw [matches_between_iff, hv, hge, hle]
    simp only [Option.some.injEq, exists_eq_left', InRange]
  bound_iff op hop bound := matches_bound_iff hop

/-- An age between the bounds that stands in an array, if only by itself. -/
theorem listed_age_in_no_range :
    let d : Json := .obj [("age", .arr [.int 30])]
    ¬ ((test ⟨["age"]⟩ .between (.arr [.int 18, .int 65])).matches d ↔
      ∃ v, Held (Pointer.get? ⟨["age"]⟩ d) v ∧ InRange (.int 18) (.int 65) v) := by
  intro d h
  have hrange : InRange (.int 18) (.int 65) (.int 30) := ⟨by decide +kernel, by decide +kernel⟩
  have hmatches := h.mpr ⟨.int 30, .item List.mem_cons_self, hrange⟩
  exact absurd hmatches (by decide)

end Fields

end RecordService.Filter
