import RecordService.Proofs.ClauseMeaning

namespace RecordService

namespace Where

inductive Operates : String → Json → Prop
  | exists (b : Bool) : Operates "$exists" (.bool b)
  | between (low high : Json) : Operates "$between" (.arr [low, high])
  | like (pattern : String) : Operates "$like" (.str pattern)
  | likeAnyCase (pattern : String) : Operates "$ilike" (.str pattern)
  | any {key : String} (operand : Json) :
      key ∈ ["$eq", "$ne", "$neq", "$gt", "$gte", "$lt", "$lte", "$in", "$nin"] →
      Operates key operand

def HasOperator (v : Json) : Prop :=
  ∃ fields, v = .obj fields ∧ ∃ p ∈ fields, isOperatorKey p.1

/-- A condition on a field: any value without operators, null among them, or operators only. -/
inductive Condition : Json → Prop
  | value {v : Json} : ¬ HasOperator v → Condition v
  | operators {fields : List (String × Json)} : HasOperator (.obj fields) →
      (∀ p ∈ fields, Operates p.1 p.2) → Condition (.obj fields)

mutual

/-- The clauses that stand below `depth` combining operators. If `past` is true, anything may stand
past the limit, and otherwise nothing. -/
inductive Node (limit : Nat) (past : Prop) : Nat → Json → Prop
  | bool {depth : Nat} (b : Bool) : depth ≤ limit → Node limit past depth (.bool b)
  | obj {depth : Nat} {fields : List (String × Json)} : depth ≤ limit →
      (∀ p ∈ fields, Part limit past depth p.1 p.2) → Node limit past depth (.obj fields)
  | past {depth : Nat} (w : Json) : past → limit < depth → Node limit past depth w

inductive Part (limit : Nat) (past : Prop) : Nat → String → Json → Prop
  | and {depth : Nat} {ws : List Json} : (∀ w ∈ ws, Node limit past (depth + 1) w) →
      Part limit past depth "$and" (.arr ws)
  | or {depth : Nat} {ws : List Json} : (∀ w ∈ ws, Node limit past (depth + 1) w) →
      Part limit past depth "$or" (.arr ws)
  | not {depth : Nat} {w : Json} : Node limit past (depth + 1) w → Part limit past depth "$not" w
  | field {depth : Nat} {key : String} {v : Json} : ¬ isOperatorKey key → Condition v →
      Part limit past depth key v

end

section Conditions

variable {field : Pointer} {key name : String} {operand v : Json}

theorem operates_iff : Operates key operand ↔
    (key = "$exists" ∧ ∃ b, operand = .bool b) ∨
      ∃ op, Operator.ofKey? key = some op ∧ Takes op operand := by
  constructor
  · rintro (b | ⟨low, high⟩ | pattern | pattern | ⟨-, hkey⟩)
    · exact .inl ⟨rfl, b, rfl⟩
    · exact .inr ⟨.between, rfl, low, high, rfl⟩
    · exact .inr ⟨.like, rfl, pattern, rfl⟩
    · exact .inr ⟨.likeAnyCase, rfl, pattern, rfl⟩
    · refine .inr ?_
      simp only [List.mem_cons, List.not_mem_nil, or_false] at hkey
      rcases hkey with rfl | rfl | rfl | rfl | rfl | rfl | rfl | rfl | rfl <;>
        exact ⟨_, rfl, trivial⟩
  · rintro (⟨rfl, b, rfl⟩ | ⟨op, hop, htakes⟩)
    · exact .exists b
    · rcases key_of_ofKey? hop with rfl | ⟨rfl, rfl⟩
      · cases op with
        | between =>
          obtain ⟨low, high, rfl⟩ := htakes
          exact .between low high
        | like =>
          obtain ⟨pattern, rfl⟩ := htakes
          exact .like pattern
        | likeAnyCase =>
          obtain ⟨pattern, rfl⟩ := htakes
          exact .likeAnyCase pattern
        | _ => exact .any operand (by decide)
      · exact .any operand (by decide)

theorem operatorClause_succeeds :
    (∃ f, operatorClause field key operand = .ok f) ↔ Operates key operand := by
  rw [operates_iff]
  by_cases hkey : key = "$exists"
  · subst hkey
    simp only [operatorClause_exists]
    constructor
    · rintro ⟨_, b, hb, -⟩
      exact .inl ⟨trivial, b, hb⟩
    · rintro (⟨-, b, hb⟩ | ⟨op, hop, -⟩)
      · exact ⟨_, b, hb, rfl⟩
      · cases hop
  · simp only [operatorClause_eq_ok hkey]
    constructor
    · rintro ⟨_, op, hop, htakes, -⟩
      exact .inr ⟨op, hop, htakes⟩
    · rintro (⟨hexists, -⟩ | ⟨op, hop, htakes⟩)
      · exact absurd hexists hkey
      · exact ⟨_, op, hop, htakes, rfl⟩

theorem fieldClauses_succeeds : (∃ fs, fieldClauses name v = .ok fs) ↔ Condition v := by
  by_cases hoperator : HasOperator v
  · obtain ⟨fields, rfl, hany⟩ := hoperator
    have hreads : fieldClauses name (.obj fields) =
        fields.mapM fun p ↦ operatorClause (Pointer.ofText name) p.1 p.2 :=
      if_pos (List.any_eq_true.mpr hany)
    rw [hreads, exists_mapM_eq_ok]
    simp only [operatorClause_succeeds]
    constructor
    · exact .operators ⟨fields, rfl, hany⟩
    · rintro (hnone | ⟨-, hall⟩)
      · exact absurd ⟨fields, rfl, hany⟩ hnone
      · exact hall
  · refine iff_of_true ?_ (.value hoperator)
    cases v with
    | obj fields => exact ⟨_, if_neg fun hany ↦ hoperator ⟨fields, rfl, List.any_eq_true.mp hany⟩⟩
    | _ => exact ⟨_, rfl⟩

end Conditions

section Nodes

variable {limit depth : Nat} {past : Prop} {w v : Json} {key : String}

/-- The refusal of a clause with more levels than the limit, when anything may stand there. -/
def TooDeep (limit : Nat) (past : Prop) (e : QueryError) : Prop :=
  past ∧ e = .tooDeep (limit + 1) limit

theorem clause_past (h : limit < depth) :
    clause limit w depth = .error (.tooDeep depth limit) := by
  have hnot := Nat.not_le.mpr h
  cases w <;> exact if_neg hnot

mutual

/-- A clause of the grammar is refused only for what stands past the limit. -/
theorem Node.refused : ∀ {depth : Nat} {w : Json}, Node limit past depth w → depth ≤ limit + 1 →
    RefusedOnly (TooDeep limit past) (clause limit w depth)
  | depth, _, .bool b hdepth, _ => by
    rw [clause, if_pos hdepth]
    exact .ok _ _
  | depth, _, .obj hdepth hparts, _ => by
    rw [clause, if_pos hdepth, clauses_eq_mapM]
    exact (RefusedOnly.mapM fun p hp ↦ (hparts p hp).refused hdepth).map.map
  | depth, w, .past _ hpast hlt, hdepth => by
    obtain rfl : depth = limit + 1 := by omega
    rw [clause_past hlt]
    exact fun e he ↦ ⟨hpast, (Except.error.inj he).symm⟩

theorem Part.refused : ∀ {depth : Nat} {key : String} {v : Json}, Part limit past depth key v →
    depth ≤ limit → RefusedOnly (TooDeep limit past) (keyClauses limit key v depth)
  | depth, _, _, .and hws, hdepth => by
    rw [keyClauses_and, branches, list_eq_mapM]
    exact (RefusedOnly.mapM fun w hw ↦ (hws w hw).refused (by omega)).map
  | depth, _, _, .or hws, hdepth => by
    rw [keyClauses_or, branches, list_eq_mapM]
    exact (RefusedOnly.mapM fun w hw ↦ (hws w hw).refused (by omega)).map
  | depth, _, _, .not hw, hdepth => by
    rw [keyClauses_not]
    exact (hw.refused (by omega)).map
  | depth, key, v, .field hplain hv, hdepth => by
    obtain ⟨fs, hfs⟩ := fieldClauses_succeeds.mpr hv
    rw [keyClauses_field hplain, hfs]
    exact .ok _ _

end

def Derived (limit : Nat) (past : Prop) (w : Json) : Prop :=
  ∀ depth f, clause limit w depth = .ok f → Node limit past depth w

theorem part_of_read {fs : List Filter}
    (hderived : ∀ w, sizeOf w ≤ sizeOf v → Derived limit past w)
    (h : keyClauses limit key v depth = .ok fs) : Part limit past depth key v := by
  obtain ⟨hplain, hfs⟩ | ⟨ws, gs, rfl, hgs, hkey⟩ | ⟨f, hf, rfl, -⟩ := keyClauses_eq_ok h
  · exact .field hplain (fieldClauses_succeeds.mp ⟨fs, hfs⟩)
  · have hws : ∀ w ∈ ws, Node limit past (depth + 1) w := by
      intro w hw
      obtain ⟨f, hf⟩ := exists_mapM_eq_ok.mp ⟨gs, hgs⟩ w hw
      exact hderived w (Nat.le_of_lt (Json.sizeOf_item hw)) (depth + 1) f hf
    obtain ⟨rfl, -⟩ | ⟨rfl, -⟩ := hkey
    · exact .and hws
    · exact .or hws
  · exact .not (hderived v (Nat.le_refl _) (depth + 1) f hf)

theorem derived (w : Json) : Derived limit past w := by
  induction w using Json.below_fields_induction with
  | step w ih =>
    intro depth f h
    obtain ⟨hdepth, ⟨b, rfl, -⟩ | ⟨fields, groups, rfl, -, hgroups⟩⟩ := clause_eq_ok h
    · exact .bool b hdepth
    · refine .obj hdepth fun p hp ↦ ?_
      obtain ⟨group, hgroup⟩ := exists_mapM_eq_ok.mp ⟨groups, hgroups⟩ p hp
      exact part_of_read (ih fields rfl p hp) hgroup

theorem Node.refused_outright (h : Node limit past 0 w) :
    RefusedOnly (TooDeep limit past) (filter limit w) := by
  have hclause := h.refused (Nat.zero_le _)
  cases w with
  | bool b | obj fields => exact hclause
  | null | num n | str s | arr items =>
    obtain ⟨⟩ | ⟨⟩ | ⟨-, -, hlt⟩ := h
    exact absurd hlt (Nat.not_lt_zero _)

/-- Just the clauses of the grammar are read. A clause with no flaw down to the limit is refused for
its depth alone. -/
theorem read_iff_derived (limit : Nat) (w : Json) :
    ((∃ f, filter limit w = .ok f) ↔ Node limit False 0 w) ∧
      (Node limit True 0 w → ∀ e, filter limit w = .error e → e = .tooDeep (limit + 1) limit) := by
  refine ⟨⟨?_, fun h ↦ ?_⟩, fun h e he ↦ (h.refused_outright e he).2⟩
  · rintro ⟨f, hf⟩
    obtain ⟨_, -, hclause⟩ := bind_eq_ok.mp hf
    exact derived w 0 f hclause
  · exact h.refused_outright.exists_ok fun _ ↦ And.left

theorem Node.negated (hdepth : depth ≤ limit) (h : Node limit past (depth + 1) w) :
    Node limit past depth (.obj [("$not", w)]) :=
  .obj hdepth (List.forall_mem_singleton.mpr (.not h))

def thriceNegated : Json :=
  .obj [("$not", .obj [("$not", .obj [("$not", .obj [("a", .num (.int 1))])])])]

theorem thriceNegated_read : (∃ f, filter 3 thriceNegated = .ok f) ∧
    ∀ e, filter 2 thriceNegated = .error e → e = .tooDeep 3 2 := by
  have hcondition : Condition (.num (.int 1)) := .value fun ⟨_, h, _⟩ ↦ nomatch h
  have hfield : Node 3 False 3 (.obj [("a", .num (.int 1))]) :=
    .obj (by decide) (List.forall_mem_singleton.mpr (.field (by decide) hcondition))
  have hnode : Node 3 False 0 thriceNegated :=
    .negated (by decide) (.negated (by decide) (.negated (by decide) hfield))
  have hpast : Node 2 True 0 thriceNegated :=
    .negated (by decide) (.negated (by decide) (.negated (by decide) (.past _ trivial (by decide))))
  exact ⟨(read_iff_derived 3 _).1.mpr hnode, (read_iff_derived 2 _).2 hpast⟩

end Nodes

end Where

end RecordService
