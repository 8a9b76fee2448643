import Mathlib.Data.Bool.Basic
import RecordService.Filter.Where
import RecordService.Proofs.Results

namespace RecordService

namespace Json

variable {v : Json} {items : List Json} {fields : List (String × Json)} {key : String}

theorem sizeOf_item (h : v ∈ items) : sizeOf v < sizeOf (arr items) := by
  have hlt := List.sizeOf_lt_of_mem h
  simp only [arr.sizeOf_spec]
  omega

theorem sizeOf_field (h : (key, v) ∈ fields) : sizeOf v < sizeOf (obj fields) := by
  have hlt := List.sizeOf_lt_of_mem h
  simp only [obj.sizeOf_spec, Prod.mk.sizeOf_spec] at hlt ⊢
  omega

/-- Induction from the values of an object's fields, and from all that stands in them, to the
object. -/
theorem below_fields_induction {P : Json → Prop}
    (step : ∀ v, (∀ fields, v = obj fields → ∀ p ∈ fields, ∀ w, sizeOf w ≤ sizeOf p.2 → P w) → P v)
    (v : Json) : P v := by
  refine (measure (sizeOf : Json → Nat)).wf.induction v fun v ih ↦ step v ?_
  rintro fields rfl p hp w hw
  exact ih w (Nat.lt_of_le_of_lt hw (sizeOf_field hp))

end Json

namespace Filter

variable {d : Json} {f : Filter} {fs gs : List Filter}

theorem matchesAll_iff : matchesAll d fs ↔ ∀ f ∈ fs, f.matches d := by
  induction fs with
  | nil => exact iff_of_true rfl (List.forall_mem_nil _)
  | cons f fs ih => rw [matchesAll, Bool.and_eq_true, List.forall_mem_cons, ih]

theorem matchesAny_iff : matchesAny d fs ↔ ∃ f ∈ fs, f.matches d := by
  induction fs with
  | nil => simp [matchesAny]
  | cons f fs ih => simp only [matchesAny, Bool.or_eq_true, List.mem_cons, exists_eq_or_imp, ih]

end Filter

namespace Where

section Meaning

/-- What a comparison with an operand looks at: the value at the field, or, if this is an array and
the operand is none, its items. -/
inductive Offers (operand : Json) : Json → Json → Prop
  | whole {a : Json} : (a.isArray → operand.isArray) → Offers operand a a
  | item {items : List Json} {v : Json} : ¬ operand.isArray → v ∈ items →
      Offers operand (.arr items) v

def Passes (found : Option Json) (operand : Json) (test : Json → Prop) : Prop :=
  ∃ a ∈ found, ∃ v, Offers operand a v ∧ test v

def Equals (found : Option Json) (v : Json) : Prop :=
  Passes found v fun a ↦ Filter.valuesEqual a v

def options : Json → List Json
  | .arr items => items
  | v => [v]

def Present (found : Option Json) : Prop := ∃ a ∈ found, a ≠ .null

def OperatorHolds (found : Option Json) (key : String) (operand : Json) : Prop :=
  match key, operand with
  | "$exists", .bool b => Present found ↔ b
  | "$eq", v => Equals found v
  | "$ne", v | "$neq", v => ¬ Equals found v
  | "$gt", v => Passes found v fun a ↦ Filter.compareValues a v = some .gt
  | "$gte", v => Passes found v fun a ↦ Filter.compareValues a v ∈ [some .gt, some .eq]
  | "$lt", v => Passes found v fun a ↦ Filter.compareValues a v = some .lt
  | "$lte", v => Passes found v fun a ↦ Filter.compareValues a v ∈ [some .lt, some .eq]
  | "$in", v => ∃ option ∈ options v, Equals found option
  | "$nin", v => ¬ ∃ option ∈ options v, Equals found option
  | "$like", .str pattern =>
    Passes found operand fun a ↦ ∃ text, a = .str text ∧ Wildcard.matches false pattern text
  | "$ilike", .str pattern =>
    Passes found operand fun a ↦ ∃ text, a = .str text ∧ Wildcard.matches true pattern text
  | "$between", .arr [low, high] =>
    Passes found operand fun a ↦ Filter.compareValues a low ∈ [some .gt, some .eq] ∧
      Filter.compareValues a high ∈ [some .lt, some .eq]
  | _, _ => False

def ConditionHolds (found : Option Json) (condition : Json) : Prop :=
  match condition with
  | .null => found = none ∨ found = some .null
  | .obj operators =>
    if ∃ p ∈ operators, isOperatorKey p.1 then ∀ p ∈ operators, OperatorHolds found p.1 p.2
    else Equals found condition
  | _ => Equals found condition

mutual

def Holds (d : Json) (w : Json) : Prop :=
  match w with
  | .bool b => b
  | .obj fields => ∀ p, (_ : p ∈ fields) → KeyHolds d p.1 p.2
  | _ => False
termination_by (sizeOf w, 0)
decreasing_by exact .left _ _ (Json.sizeOf_field ‹_›)

def KeyHolds (d : Json) (key : String) (v : Json) : Prop :=
  if key = "$and" then ∃ ws, ∃ _ : v = .arr ws, ∀ w, (_ : w ∈ ws) → Holds d w
  else if key = "$or" then ∃ ws, ∃ _ : v = .arr ws, ∃ w, ∃ _ : w ∈ ws, Holds d w
  else if key = "$not" then ¬ Holds d v
  else ConditionHolds ((Pointer.ofText key).get? d) v
termination_by (sizeOf v, 1)
decreasing_by
  · subst_vars
    exact .left _ _ (Json.sizeOf_item ‹_›)
  · subst_vars
    exact .left _ _ (Json.sizeOf_item ‹_›)
  · exact .right _ (Nat.lt_succ_self 0)

end

variable {d v : Json} {ws : List Json} {key : String}

theorem holds_obj {fields : List (String × Json)} :
    Holds d (.obj fields) ↔ ∀ p ∈ fields, KeyHolds d p.1 p.2 := by
  rw [Holds]

theorem keyHolds_and : KeyHolds d "$and" (.arr ws) ↔ ∀ w ∈ ws, Holds d w := by
  rw [KeyHolds, if_pos rfl]
  simp

theorem keyHolds_or : KeyHolds d "$or" (.arr ws) ↔ ∃ w ∈ ws, Holds d w := by
  rw [KeyHolds, if_neg (by decide), if_pos rfl]
  simp

theorem keyHolds_not : KeyHolds d "$not" v ↔ ¬ Holds d v := by
  rw [KeyHolds, if_neg (by decide), if_neg (by decide), if_pos rfl]

theorem keyHolds_field (hplain : ¬ isOperatorKey key) :
    KeyHolds d key v ↔ ConditionHolds ((Pointer.ofText key).get? d) v := by
  have hne {name : String} (hname : isOperatorKey name) : key ≠ name := by
    rintro rfl
    exact hplain hname
  rw [KeyHolds, if_neg (hne (by decide)), if_neg (hne (by decide)), if_neg (hne (by decide))]

end Meaning

section Operands

def Takes (op : Operator) (operand : Json) : Prop :=
  match op with
  | .like | .likeAnyCase => ∃ pattern, operand = .str pattern
  | .between => ∃ low high, operand = .arr [low, high]
  | _ => True

theorem operatorClause_exists {field : Pointer} {operand : Json} {f : Filter} :
    operatorClause field "$exists" operand = .ok f ↔ ∃ b, operand = .bool b ∧
      f = if b then .present field else .negation (.present field) := by
  cases operand with
  | bool b => cases b <;> simp [operatorClause, eq_comm]
  | _ => simp [operatorClause]

theorem operatorClause_eq_ok {field : Pointer} {key : String} {operand : Json} {f : Filter}
    (hkey : key ≠ "$exists") :
    operatorClause field key operand = .ok f ↔
      ∃ op, Operator.ofKey? key = some op ∧ Takes op operand ∧ f = .test field op operand := by
  unfold operatorClause
  rw [if_neg hkey]
  cases Operator.ofKey? key with
  | none => exact iff_of_false nofun fun ⟨_, hop, _⟩ ↦ nomatch hop
  | some op =>
    simp only [Option.some.injEq, exists_eq_left']
    cases op with
    | between =>
      cases operand with
      | arr items => rcases items with _ | ⟨a, _ | ⟨b, _ | ⟨c, items⟩⟩⟩ <;> simp [Takes, @eq_comm _ f]
      | _ => simp [Takes]
    | like | likeAnyCase => cases operand <;> simp [Takes, @eq_comm _ f]
    | _ => simp [Takes, @eq_comm _ f]

end Operands

section Comparisons

variable {found : Option Json} {operand v a b : Json} {field : Pointer} {d : Json} {key : String}
  {f : Filter}

theorem anyValue_iff {test : Json → Bool} :
    Filter.anyValue a operand test ↔ ∃ v, Offers operand a v ∧ test v := by
  cases a with
  | arr items =>
    by_cases hoperand : operand.isArray
    · simp only [Filter.anyValue, if_pos hoperand]
      refine ⟨fun h ↦ ⟨_, .whole fun _ ↦ hoperand, h⟩, ?_⟩
      rintro ⟨v, _ | ⟨hnone, -⟩, h⟩
      · exact h
      · exact absurd hoperand hnone
    · simp only [Filter.anyValue, if_neg hoperand, List.any_eq_true]
      refine ⟨fun ⟨v, hv, h⟩ ↦ ⟨v, .item hoperand hv, h⟩, ?_⟩
      rintro ⟨v, ⟨hwhole⟩ | ⟨-, hv⟩, h⟩
      · exact absurd (hwhole rfl) hoperand
      · exact ⟨v, hv, h⟩
  | _ =>
    refine ⟨fun h ↦ ⟨_, .whole nofun, h⟩, ?_⟩
    rintro ⟨v, ⟨-⟩, h⟩
    exact h

theorem passes_iff {test : Json → Bool} :
    (found.any fun a ↦ Filter.anyValue a operand test) ↔
      Passes found operand fun v ↦ test v := by
  simp only [Option.any_eq_true, anyValue_iff, Passes, Option.mem_def]

theorem equalTo_iff : Filter.equalTo found v ↔ Equals found v := passes_iff

theorem isOneOf_iff : Filter.isOneOf found v ↔ ∃ option ∈ options v, Equals found option := by
  cases v with
  | arr items => simp only [Filter.isOneOf, options, List.any_eq_true, equalTo_iff]
  | _ => simp only [Filter.isOneOf, options, List.mem_singleton, exists_eq_left, equalTo_iff]

theorem isPresent_iff : Filter.isPresent field d ↔ Present (field.get? d) := by
  rw [Filter.isPresent, Option.any_eq_true, Present]
  refine exists_congr fun a ↦ and_congr_right fun _ ↦ ?_
  cases a <;> simp [Json.isNull]

theorem atLeast_iff : Filter.atLeast a b ↔ Filter.compareValues a b ∈ [some .gt, some .eq] := by
  unfold Filter.atLeast
  rcases Filter.compareValues a b with _ | _ | _ | _ <;> decide

theorem atMost_iff : Filter.atMost a b ↔ Filter.compareValues a b ∈ [some .lt, some .eq] := by
  unfold Filter.atMost
  rcases Filter.compareValues a b with _ | _ | _ | _ <;> decide

theorem Passes.congr {p q : Json → Prop} (h : ∀ a, p a ↔ q a) :
    Passes found operand p ↔ Passes found operand q := by
  simp only [Passes, h]

theorem holds_like {a : Json} {pattern : String} :
    Filter.holds .like a (.str pattern) ↔
      ∃ text, a = .str text ∧ Wildcard.matches false pattern text := by
  cases a <;> simp [Filter.holds]

theorem holds_likeAnyCase {a : Json} {pattern : String} :
    Filter.holds .likeAnyCase a (.str pattern) ↔
      ∃ text, a = .str text ∧ Wildcard.matches true pattern text := by
  cases a <;> simp [Filter.holds]

theorem comparison_iff {op : Operator} (h : Takes op v) :
    Filter.comparison found op v ↔ OperatorHolds found op.key v := by
  cases op with
  | eq => exact passes_iff
  | ne => exact Bool.not_iff_not.trans (not_congr equalTo_iff)
  | oneOf => exact isOneOf_iff
  | noneOf => exact Bool.not_iff_not.trans (not_congr isOneOf_iff)
  | gt | lt => exact passes_iff.trans (Passes.congr fun a ↦ decide_eq_true_iff)
  | ge => exact passes_iff.trans (Passes.congr fun a ↦ atLeast_iff)
  | le => exact passes_iff.trans (Passes.congr fun a ↦ atMost_iff)
  | like =>
    obtain ⟨pattern, rfl⟩ := h
    exact passes_iff.trans (Passes.congr fun a ↦ holds_like)
  | likeAnyCase =>
    obtain ⟨pattern, rfl⟩ := h
    exact passes_iff.trans (Passes.congr fun a ↦ holds_likeAnyCase)
  | between =>
    obtain ⟨low, high, rfl⟩ := h
    refine passes_iff.trans (Passes.congr fun a ↦ ?_)
    rw [Filter.holds, Bool.and_eq_true, atLeast_iff, atMost_iff]

theorem key_of_ofKey? {op : Operator} (h : Operator.ofKey? key = some op) :
    key = op.key ∨ key = "$neq" ∧ op = .ne := by
  unfold Operator.ofKey? at h
  split at h
  case isTrue hneq =>
    cases h
    exact .inr ⟨hneq, rfl⟩
  case isFalse =>
    have hkey := List.find?_some h
    exact .inl (of_decide_eq_true hkey).symm

theorem operatorClause_means (h : operatorClause field key operand = .ok f) :
    f.matches d ↔ OperatorHolds (field.get? d) key operand := by
  by_cases hkey : key = "$exists"
  · subst hkey
    obtain ⟨b, rfl, rfl⟩ := operatorClause_exists.mp h
    cases b with
    | true => exact isPresent_iff.trans (iff_true_right rfl).symm
    | false =>
      exact (Bool.not_iff_not.trans (not_congr isPresent_iff)).trans (iff_false_right nofun).symm
  · obtain ⟨op, hop, htakes, rfl⟩ := (operatorClause_eq_ok hkey).mp h
    have hholds : Filter.comparison (field.get? d) op operand ↔
        OperatorHolds (field.get? d) op.key operand := comparison_iff htakes
    rcases key_of_ofKey? hop with rfl | ⟨rfl, rfl⟩ <;> exact hholds

theorem not_present_iff : ¬ Present found ↔ found = none ∨ found = some .null := by
  cases found with
  | none => simp [Present]
  | some a => simp [Present]

theorem fieldClauses_means {name : String} {fs : List Filter}
    (h : fieldClauses name v = .ok fs) :
    (∀ f ∈ fs, f.matches d) ↔ ConditionHolds ((Pointer.ofText name).get? d) v := by
  have hequal : (∀ f ∈ [Filter.test (Pointer.ofText name) .eq v], f.matches d) ↔
      Equals ((Pointer.ofText name).get? d) v := by
    rw [List.forall_mem_singleton]
    exact equalTo_iff
  cases v with
  | null =>
    cases h
    rw [List.forall_mem_singleton]
    exact (Bool.not_iff_not.trans (not_congr isPresent_iff)).trans not_present_iff
  | obj operators =>
    simp only [fieldClauses, List.any_eq_true] at h
    simp only [ConditionHolds]
    split at h
    · rw [if_pos ‹_›]
      exact forall_mapM_iff h fun p _ f hf ↦ operatorClause_means hf
    · cases h
      rw [if_neg ‹_›]
      exact hequal
  | _ =>
    cases h
    exact hequal

end Comparisons

section Readings

variable {limit depth : Nat} {d v : Json} {key : String} {f : Filter} {fs : List Filter}

def keyClauses (limit : Nat) (key : String) (v : Json) (depth : Nat) :
    Except QueryError (List Filter) :=
  if !isOperatorKey key then fieldClauses key v
  else if key = "$and" then (branches limit key v (depth + 1)).map fun fs ↦ [.all fs]
  else if key = "$or" then (branches limit key v (depth + 1)).map fun fs ↦ [.any fs]
  else if key = "$not" then (clause limit v (depth + 1)).map fun f ↦ [.negation f]
  else .error (.unsupportedOperator key)

theorem keyClauses_field (hplain : ¬ isOperatorKey key) :
    keyClauses limit key v depth = fieldClauses key v := if_pos (Bool.not_iff_not.mpr hplain)

theorem keyClauses_and : keyClauses limit "$and" v depth =
    (branches limit "$and" v (depth + 1)).map fun fs ↦ [.all fs] := rfl

theorem keyClauses_or : keyClauses limit "$or" v depth =
    (branches limit "$or" v (depth + 1)).map fun fs ↦ [.any fs] := rfl

theorem keyClauses_not : keyClauses limit "$not" v depth =
    (clause limit v (depth + 1)).map fun f ↦ [.negation f] := rfl

theorem list_eq_mapM (ws : List Json) :
    list limit ws depth = ws.mapM fun w ↦ clause limit w depth := by
  induction ws with
  | nil => rfl
  | cons w ws ih =>
    rw [list, List.mapM_cons, ih]
    rfl

theorem clauses_cons (p : String × Json) (fields : List (String × Json)) :
    clauses limit (p :: fields) depth = (do
      let found ← keyClauses limit p.1 p.2 depth
      let more ← clauses limit fields depth
      .ok (found ++ more)) := by
  simp only [clauses, keyClauses]
  split
  · rfl
  · split
    · rfl
    · split
      · rfl
      · split <;> rfl

theorem clauses_eq_mapM (fields : List (String × Json)) :
    clauses limit fields depth =
      (fields.mapM fun p ↦ keyClauses limit p.1 p.2 depth).map List.flatten := by
  induction fields with
  | nil => rfl
  | cons p fields ih =>
    rw [clauses_cons, List.mapM_cons, ih]
    cases keyClauses limit p.1 p.2 depth with
    | error e => rfl
    | ok found => cases fields.mapM fun p ↦ keyClauses limit p.1 p.2 depth <;> rfl

theorem branches_eq_ok : branches limit key v depth = .ok fs ↔
    ∃ ws, v = .arr ws ∧ (ws.mapM fun w ↦ clause limit w depth) = .ok fs := by
  cases v with
  | arr ws => simp [branches, list_eq_mapM]
  | _ => simp [branches]

/-- What is read of a key is the condition on a field, or combines what is read of clauses. -/
theorem keyClauses_eq_ok (h : keyClauses limit key v depth = .ok fs) :
    (¬ isOperatorKey key ∧ fieldClauses key v = .ok fs) ∨
      (∃ ws gs, v = .arr ws ∧ (ws.mapM fun w ↦ clause limit w (depth + 1)) = .ok gs ∧
        (key = "$and" ∧ fs = [.all gs] ∨ key = "$or" ∧ fs = [.any gs])) ∨
      ∃ f, clause limit v (depth + 1) = .ok f ∧ key = "$not" ∧ fs = [.negation f] := by
  unfold keyClauses at h
  split at h
  · exact .inl ⟨Bool.not_iff_not.mp ‹_›, h⟩
  split at h
  · obtain ⟨gs, hgs, rfl⟩ := map_eq_ok.mp h
    obtain ⟨ws, rfl, hws⟩ := branches_eq_ok.mp hgs
    exact .inr (.inl ⟨ws, gs, rfl, hws, .inl ⟨‹_›, rfl⟩⟩)
  split at h
  · obtain ⟨gs, hgs, rfl⟩ := map_eq_ok.mp h
    obtain ⟨ws, rfl, hws⟩ := branches_eq_ok.mp hgs
    exact .inr (.inl ⟨ws, gs, rfl, hws, .inr ⟨‹_›, rfl⟩⟩)
  split at h
  · obtain ⟨f, hf, rfl⟩ := map_eq_ok.mp h
    exact .inr (.inr ⟨f, hf, ‹_›, rfl⟩)
  · cases h

/-- Only booleans and objects are read, and only down to the limit. -/
theorem clause_eq_ok {w : Json} (h : clause limit w depth = .ok f) : depth ≤ limit ∧
    ((∃ b, w = .bool b ∧ f = .constant b) ∨
      ∃ fields groups, w = .obj fields ∧ f = combine groups.flatten ∧
        (fields.mapM fun p ↦ keyClauses limit p.1 p.2 depth) = .ok groups) := by
  cases w with
  | bool b =>
    simp only [clause] at h
    split at h <;> cases h
    exact ⟨‹_›, .inl ⟨b, rfl, rfl⟩⟩
  | obj fields =>
    simp only [clause, clauses_eq_mapM] at h
    split at h
    case isTrue hdepth =>
      obtain ⟨fs, hfs, rfl⟩ := map_eq_ok.mp h
      obtain ⟨groups, hgroups, rfl⟩ := map_eq_ok.mp hfs
      exact ⟨hdepth, .inr ⟨fields, groups, rfl, rfl, hgroups⟩⟩
    case isFalse => cases h
  | _ =>
    simp only [clause] at h
    split at h <;> cases h

end Readings

section Meant

variable {limit depth : Nat} {d v : Json} {key : String} {fs : List Filter}

theorem combine_iff : (combine fs).matches d ↔ ∀ f ∈ fs, f.matches d := by
  rcases fs with _ | ⟨f, _ | ⟨g, fs⟩⟩
  · exact iff_of_true rfl (List.forall_mem_nil _)
  · rw [List.forall_mem_singleton]
    rfl
  · exact Filter.matchesAll_iff

def Meant (limit : Nat) (d w : Json) : Prop :=
  ∀ depth f, clause limit w depth = .ok f → (f.matches d ↔ Holds d w)

theorem keyClauses_means (hmeant : ∀ w, sizeOf w ≤ sizeOf v → Meant limit d w)
    (h : keyClauses limit key v depth = .ok fs) :
    (∀ f ∈ fs, f.matches d) ↔ KeyHolds d key v := by
  obtain ⟨hplain, hfs⟩ | ⟨ws, gs, rfl, hgs, hkey⟩ | ⟨f, hf, rfl, rfl⟩ := keyClauses_eq_ok h
  · exact (fieldClauses_means hfs).trans (keyHolds_field hplain).symm
  · have hitem (w : Json) (hw : w ∈ ws) (f : Filter) (hf : clause limit w (depth + 1) = .ok f) :
        f.matches d ↔ Holds d w := hmeant w (Nat.le_of_lt (Json.sizeOf_item hw)) (depth + 1) f hf
    obtain ⟨rfl, rfl⟩ | ⟨rfl, rfl⟩ := hkey
    · rw [List.forall_mem_singleton, keyHolds_and]
      exact Filter.matchesAll_iff.trans (forall_mapM_iff hgs hitem)
    · rw [List.forall_mem_singleton, keyHolds_or]
      exact Filter.matchesAny_iff.trans (exists_mapM_iff hgs hitem)
  · rw [List.forall_mem_singleton, keyHolds_not]
    exact Bool.not_iff_not.trans (not_congr (hmeant v (Nat.le_refl _) (depth + 1) f hf))

theorem meant (w : Json) : Meant limit d w := by
  -- The clause under `$not` is the value of a field and those under `$and` stand in one.
  induction w using Json.below_fields_induction with
  | step w ih =>
    intro depth f h
    obtain ⟨-, ⟨b, rfl, rfl⟩ | ⟨fields, groups, rfl, rfl, hgroups⟩⟩ := clause_eq_ok h
    · rw [Holds]
      rfl
    · rw [combine_iff, holds_obj, List.forall_mem_flatten]
      exact forall_mapM_iff hgroups fun p hp group hgroup ↦
        keyClauses_means (ih fields rfl p hp) hgroup

/-- The filter of a where clause matches the documents of which the clause holds. -/
theorem matches_iff_holds {w : Json} {f : Filter} (h : filter limit w = .ok f) (d : Json) :
    f.matches d ↔ Holds d w := by
  obtain ⟨_, _, hclause⟩ := bind_eq_ok.mp h
  exact meant w 0 f hclause

def newcomers : Json :=
  .obj [("$or", .arr [.obj [("age", .obj [("$gte", .num (.int 18)), ("$ne", .num (.int 40))])],
      .obj [("$not", .obj [("nick", .null)])]]),
    ("tags", .str "new")]

theorem newcomers_hold :
    Holds (.obj [("age", .num (.int 30)), ("tags", .arr [.str "old", .str "new"])]) newcomers := by
  have hread : filter 2 newcomers = .ok (.all [
      .any [.all [.test ⟨["age"]⟩ .ge (.num (.int 18)), .test ⟨["age"]⟩ .ne (.num (.int 40))],
        .negation (.negation (.present ⟨["nick"]⟩))],
      .test ⟨["tags"]⟩ .eq (.str "new")]) := by rfl
  exact (matches_iff_holds hread _).mp (by decide +kernel)

end Meant

end Where

end RecordService
