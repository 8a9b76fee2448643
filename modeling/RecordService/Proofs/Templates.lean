import RecordService.Proofs.Results
import RecordService.Template

namespace RecordService.Template

variable {parameters : Dict String}

def Piece.text : Piece → List Char
  | .plain text => text
  | .token name => opening ++ name ++ ['\x7d']

theorem flatMap_piecesFrom (name : Option (List Char)) (cs : List Char) :
    (piecesFrom name cs).flatMap Piece.text =
      (name.elim [] fun name ↦ opening ++ name.reverse) ++ cs := by
  fun_induction piecesFrom name cs with
  | case1 => rfl
  | case2 => simp [Piece.text]
  | case3 cs ih => simp [ih, opening]
  | case4 c cs _ ih => simp [ih, Piece.text]
  | case5 name cs ih => simp [ih, Piece.text]
  | case6 name c cs _ ih => simp [ih]

theorem flatMap_pieces (cs : List Char) : (pieces cs).flatMap Piece.text = cs :=
  flatMap_piecesFrom none cs

section Shape

variable {v w : Json} {vs ws : List Json} {fields fields' : List (String × Json)}

theorem fillItems_cons_eq_ok : fillItems parameters (v :: vs) = .ok ws ↔
    ∃ w ws', fill parameters v = .ok w ∧ fillItems parameters vs = .ok ws' ∧ ws = w :: ws' :=
  both_eq_ok

theorem fillFields_cons_eq_ok {entry : String × Json} :
    fillFields parameters (entry :: fields) = .ok fields' ↔
      ∃ w rest, fill parameters entry.2 = .ok w ∧ fillFields parameters fields = .ok rest ∧
        fields' = (entry.1, w) :: rest :=
  both_eq_ok

theorem length_fillItems (h : fillItems parameters vs = .ok ws) : ws.length = vs.length := by
  induction vs generalizing ws with
  | nil =>
    cases h
    rfl
  | cons v vs ih =>
    obtain ⟨w, ws', -, hws, rfl⟩ := fillItems_cons_eq_ok.mp h
    rw [List.length_cons, List.length_cons, ih hws]

theorem keys_fillFields (h : fillFields parameters fields = .ok fields') :
    fields'.map (·.1) = fields.map (·.1) := by
  induction fields generalizing fields' with
  | nil =>
    cases h
    rfl
  | cons entry fields ih =>
    obtain ⟨w, rest, -, hrest, rfl⟩ := fillFields_cons_eq_ok.mp h
    rw [List.map_cons, List.map_cons, ih hrest]

end Shape

inductive Occurs (name : List Char) : Json → Prop
  | text {s : String} : .token name ∈ pieces s.toList → Occurs name (.str s)
  | item {v : Json} {items : List Json} : v ∈ items → Occurs name v → Occurs name (.arr items)
  | field {entry : String × Json} {fields : List (String × Json)} :
    entry ∈ fields → Occurs name entry.2 → Occurs name (.obj fields)

def Supplied (parameters : Dict String) (t : Json) : Prop :=
  ∀ name, Occurs name t → ∃ value, Dict.get? (String.ofList name) parameters = some value

theorem supplied_str {s : String} : Supplied parameters (.str s) ↔
    ∀ piece ∈ pieces s.toList, ∃ text, fillPiece parameters piece = .ok text := by
  constructor
  · intro h piece hpiece
    cases piece with
    | plain text => exact ⟨text, rfl⟩
    | token name =>
      obtain ⟨value, hvalue⟩ := h name (.text hpiece)
      exact ⟨value.toList, by simp [fillPiece, hvalue]⟩
  · rintro h name ⟨hpiece⟩
    obtain ⟨text, htext⟩ := h _ hpiece
    cases hvalue : Dict.get? (String.ofList name) parameters with
    | some value => exact ⟨value, rfl⟩
    | none => simp [fillPiece, hvalue] at htext

theorem supplied_arr {items : List Json} :
    Supplied parameters (.arr items) ↔ ∀ v ∈ items, Supplied parameters v := by
  constructor
  · exact fun h v hv name hname ↦ h name (.item hv hname)
  · intro h name hname
    cases hname with
    | item hv hname => exact h _ hv name hname

theorem supplied_obj {fields : List (String × Json)} :
    Supplied parameters (.obj fields) ↔ ∀ entry ∈ fields, Supplied parameters entry.2 := by
  constructor
  · exact fun h entry hentry name hname ↦ h name (.field hentry hname)
  · intro h name hname
    cases hname with
    | field hentry hname => exact h _ hentry name hname

mutual

theorem exists_fill_iff : ∀ t, (∃ w, fill parameters t = .ok w) ↔ Supplied parameters t
  | .null => iff_of_true ⟨_, rfl⟩ nofun
  | .bool b => iff_of_true ⟨_, rfl⟩ nofun
  | .num n => iff_of_true ⟨_, rfl⟩ nofun
  | .str s => by
    rw [supplied_str, ← exists_mapM_eq_ok]
    exact exists_map_eq_ok.trans exists_map_eq_ok
  | .arr items => by
    rw [supplied_arr, ← exists_fillItems_iff items]
    exact exists_map_eq_ok
  | .obj fields => by
    rw [supplied_obj, ← exists_fillFields_iff fields]
    exact exists_map_eq_ok

theorem exists_fillItems_iff : ∀ vs,
    (∃ ws, fillItems parameters vs = .ok ws) ↔ ∀ v ∈ vs, Supplied parameters v
  | [] => iff_of_true ⟨_, rfl⟩ (List.forall_mem_nil _)
  | v :: vs => by
    rw [List.forall_mem_cons, ← exists_fill_iff v, ← exists_fillItems_iff vs]
    exact exists_both_eq_ok

theorem exists_fillFields_iff : ∀ fields : List (String × Json),
    (∃ fields', fillFields parameters fields = .ok fields') ↔
      ∀ entry ∈ fields, Supplied parameters entry.2
  | [] => iff_of_true ⟨_, rfl⟩ (List.forall_mem_nil _)
  | (key, v) :: fields => by
    rw [List.forall_mem_cons, ← exists_fill_iff v, ← exists_fillFields_iff fields]
    exact exists_both_eq_ok

end

end RecordService.Template
