import RecordService.Filter.Where
import RecordService.Proofs.Templates

namespace RecordService

namespace Filter

variable {parameters : Dict String}

mutual

def fillOperands (parameters : Dict String) : Filter → Except Fault Filter
  | .constant b => .ok (.constant b)
  | .test field op operand => (Template.fill parameters operand).map (.test field op)
  | .present field => .ok (.present field)
  | .all fs => (fillOperandsAll parameters fs).map .all
  | .any fs => (fillOperandsAll parameters fs).map .any
  | .negation f => (f.fillOperands parameters).map .negation
termination_by structural f => f

def fillOperandsAll (parameters : Dict String) : List Filter → Except Fault (List Filter)
  | [] => .ok []
  | f :: fs => do
    let g ← f.fillOperands parameters
    let gs ← fillOperandsAll parameters fs
    .ok (g :: gs)
termination_by structural fs => fs

end

abbrev Filled (parameters : Dict String) (f g : Filter) : Prop := f.fillOperands parameters = .ok g

abbrev FilledAll (parameters : Dict String) (fs gs : List Filter) : Prop :=
  fillOperandsAll parameters fs = .ok gs

section Filled

variable {f g : Filter} {fs gs fs' gs' : List Filter}

theorem filledAll_cons_iff : FilledAll parameters (f :: fs) gs ↔
    ∃ g gs', Filled parameters f g ∧ FilledAll parameters fs gs' ∧ gs = g :: gs' :=
  both_eq_ok

theorem Filled.cons (hf : Filled parameters f g) (hfs : FilledAll parameters fs gs) :
    FilledAll parameters (f :: fs) (g :: gs) :=
  filledAll_cons_iff.mpr ⟨g, gs, hf, hfs, rfl⟩

theorem Filled.single (hf : Filled parameters f g) : FilledAll parameters [f] [g] := hf.cons rfl

theorem FilledAll.append (h : FilledAll parameters fs gs) (h' : FilledAll parameters fs' gs') :
    FilledAll parameters (fs ++ fs') (gs ++ gs') := by
  induction fs generalizing gs with
  | nil =>
    cases h
    exact h'
  | cons f fs ih =>
    obtain ⟨g, gs, hg, hgs, rfl⟩ := filledAll_cons_iff.mp h
    exact hg.cons (ih hgs)

theorem filled_test {field : Pointer} {op : Operator} {v w : Json}
    (h : Template.fill parameters v = .ok w) :
    Filled parameters (.test field op v) (.test field op w) := by
  rw [Filled, fillOperands, h]
  rfl

theorem FilledAll.all (h : FilledAll parameters fs gs) : Filled parameters (.all fs) (.all gs) := by
  rw [Filled, fillOperands, h]
  rfl

theorem FilledAll.any (h : FilledAll parameters fs gs) : Filled parameters (.any fs) (.any gs) := by
  rw [Filled, fillOperands, h]
  rfl

theorem Filled.negation (h : Filled parameters f g) :
    Filled parameters (.negation f) (.negation g) := by
  rw [Filled, fillOperands, h]
  rfl

theorem FilledAll.combine (h : FilledAll parameters fs gs) :
    Filled parameters (Where.combine fs) (Where.combine gs) := by
  rcases fs with _ | ⟨f, _ | ⟨f', fs⟩⟩
  · cases h
    rfl
  · obtain ⟨g, gs, hg, hgs, rfl⟩ := filledAll_cons_iff.mp h
    cases hgs
    exact hg
  · have hall := h.all
    obtain ⟨g, gs, -, hgs, rfl⟩ := filledAll_cons_iff.mp h
    obtain ⟨g', gs', -, -, rfl⟩ := filledAll_cons_iff.mp hgs
    exact hall

end Filled

end Filter

namespace Where

open RecordService.Filter

variable {parameters : Dict String} {limit : Nat}

theorem operatorClause_alike {field : Pointer} {key : String} {v w : Json}
    (h : Template.fill parameters v = .ok w) :
    Alike (Filled parameters) (operatorClause field key v) (operatorClause field key w) := by
  unfold operatorClause
  by_cases hexists : key = "$exists"
  · rw [if_pos hexists, if_pos hexists]
    cases v with
    | bool b =>
      cases h
      cases b <;> rfl
    | null | num n => cases h; trivial
    | str s | arr items | obj fields => obtain ⟨_, -, rfl⟩ := map_eq_ok.mp h; trivial
  · rw [if_neg hexists, if_neg hexists]
    cases hop : Operator.ofKey? key with
    | none => trivial
    | some op =>
      cases op with
      | between =>
        cases v with
        | arr items =>
          obtain ⟨items', hitems, rfl⟩ := map_eq_ok.mp h
          -- Two items stay two items, whatever is filled into them.
          have hlength := Template.length_fillItems hitems
          rcases items with _ | ⟨a, _ | ⟨b, _ | ⟨c, items⟩⟩⟩ <;>
            rcases items' with _ | ⟨a', _ | ⟨b', _ | ⟨c', items'⟩⟩⟩ <;>
            first | trivial | exact filled_test h | simp at hlength
        | null | bool b | num n => cases h; trivial
        | str s | obj fields => obtain ⟨_, -, rfl⟩ := map_eq_ok.mp h; trivial
      | like | likeAnyCase =>
        cases v with
        | str s =>
          obtain ⟨s', -, rfl⟩ := map_eq_ok.mp h
          exact filled_test h
        | null | bool b | num n => cases h; trivial
        | arr items | obj fields => obtain ⟨_, -, rfl⟩ := map_eq_ok.mp h; trivial
      | _ => exact filled_test h

theorem operators_alike (field : Pointer) {fields fields' : List (String × Json)}
    (h : Template.fillFields parameters fields = .ok fields') :
    Alike (FilledAll parameters) (fields.mapM fun p ↦ operatorClause field p.1 p.2)
      (fields'.mapM fun p ↦ operatorClause field p.1 p.2) := by
  induction fields generalizing fields' with
  | nil =>
    cases h
    rfl
  | cons entry fields ih =>
    obtain ⟨w, rest, hw, hrest, rfl⟩ := Template.fillFields_cons_eq_ok.mp h
    rw [List.mapM_cons, List.mapM_cons]
    exact (operatorClause_alike hw).both (ih hrest) fun _ _ _ _ hf hfs ↦ hf.cons hfs

theorem fieldClauses_alike (name : String) {v w : Json}
    (h : Template.fill parameters v = .ok w) :
    Alike (FilledAll parameters) (fieldClauses name v) (fieldClauses name w) := by
  cases v with
  | null =>
    cases h
    rfl
  | bool b | num n =>
    cases h
    exact (filled_test rfl).single
  | str s | arr items =>
    obtain ⟨_, -, rfl⟩ := map_eq_ok.mp h
    exact (filled_test h).single
  | obj fields =>
    obtain ⟨fields', hfields, rfl⟩ := map_eq_ok.mp h
    -- Keys are left as they are, so the same operators are found before and after.
    have hkeys := Template.keys_fillFields hfields
    have hoperators : (fields'.any fun p ↦ isOperatorKey p.1) =
        fields.any fun p ↦ isOperatorKey p.1 := by
      simpa [Function.comp_def] using congrArg (List.any · isOperatorKey) hkeys
    simp only [fieldClauses, hoperators]
    split
    · exact operators_alike _ hfields
    · exact (filled_test h).single

mutual

theorem clause_alike : ∀ (w : Json) {w' : Json} (depth : Nat),
    Template.fill parameters w = .ok w' →
    Alike (Filled parameters) (clause limit w depth) (clause limit w' depth)
  | .bool b, _, depth, h => by
    cases h
    simp only [clause]
    split
    · rfl
    · trivial
  | .obj fields, _, depth, h => by
    obtain ⟨fields', hfields, rfl⟩ := map_eq_ok.mp h
    simp only [clause]
    split
    · exact (clauses_alike fields depth hfields).map fun _ _ hfs ↦ hfs.combine
    · trivial
  | .null, _, depth, h | .num n, _, depth, h => by
    cases h
    simp only [clause]
    split <;> trivial
  | .str s, _, depth, h | .arr items, _, depth, h => by
    obtain ⟨_, -, rfl⟩ := map_eq_ok.mp h
    simp only [clause]
    split <;> trivial

theorem clauses_alike : ∀ (fields : List (String × Json)) {fields' : List (String × Json)}
    (depth : Nat), Template.fillFields parameters fields = .ok fields' →
    Alike (FilledAll parameters) (clauses limit fields depth) (clauses limit fields' depth)
  | [], _, _, h => by
    cases h
    rfl
  | (key, v) :: fields, _, depth, h => by
    obtain ⟨w, rest, hw, hrest, rfl⟩ := Template.fillFields_cons_eq_ok.mp h
    -- Each kind of key is read by a reader of its own, and the rest follows all of them.
    have hfound {x x' : Except QueryError (List Filter)} (hx : Alike (FilledAll parameters) x x') :=
      hx.both (clauses_alike fields depth hrest) fun _ _ _ _ ↦ FilledAll.append
    simp only [clauses]
    split
    · exact hfound (fieldClauses_alike key hw)
    · split
      · exact hfound ((branches_alike v (depth + 1) hw).map fun _ _ hfs ↦ hfs.all.single)
      · split
        · exact hfound ((branches_alike v (depth + 1) hw).map fun _ _ hfs ↦ hfs.any.single)
        · split
          · exact hfound ((clause_alike v (depth + 1) hw).map fun _ _ hf ↦ hf.negation.single)
          · trivial

theorem branches_alike {key : String} : ∀ (w : Json) {w' : Json} (depth : Nat),
    Template.fill parameters w = .ok w' →
    Alike (FilledAll parameters) (branches limit key w depth) (branches limit key w' depth)
  | .arr items, _, depth, h => by
    obtain ⟨items', hitems, rfl⟩ := map_eq_ok.mp h
    exact list_alike items depth hitems
  | .null, _, _, h | .bool b, _, _, h | .num n, _, _, h => by
    cases h
    trivial
  | .str s, _, _, h | .obj fields, _, _, h => by
    obtain ⟨_, -, rfl⟩ := map_eq_ok.mp h
    trivial

theorem list_alike : ∀ (ws : List Json) {ws' : List Json} (depth : Nat),
    Template.fillItems parameters ws = .ok ws' →
    Alike (FilledAll parameters) (list limit ws depth) (list limit ws' depth)
  | [], _, _, h => by
    cases h
    rfl
  | w :: ws, _, depth, h => by
    obtain ⟨w', ws', hw, hws, rfl⟩ := Template.fillItems_cons_eq_ok.mp h
    exact (clause_alike w depth hw).both (list_alike ws depth hws) fun _ _ _ _ hf hfs ↦ hf.cons hfs

end

/-- A clause is read the same before and after its tokens are filled in, but for the operands. -/
theorem filter_alike {w w' : Json} (h : Template.fill parameters w = .ok w') :
    Alike (Filled parameters) (filter limit w) (filter limit w') := by
  cases w with
  | bool b =>
    cases h
    exact clause_alike _ 0 rfl
  | obj fields =>
    obtain ⟨fields', -, rfl⟩ := map_eq_ok.mp h
    exact clause_alike _ 0 h
  | null | num n =>
    cases h
    trivial
  | str s | arr items =>
    obtain ⟨_, -, rfl⟩ := map_eq_ok.mp h
    trivial

end Where

end RecordService
