import Mathlib.Data.List.Forall2
import Mathlib.Data.List.Infix
import RecordService.Proofs.Templates

namespace RecordService

namespace Template

variable {parameters : Dict String} {c : Char} {cs plain name rest tail : List Char}

/-- Plain text and the name of the token that it ends in. -/
structure Stretch where
  plain : List Char
  name : List Char

def Stretch.text (s : Stretch) : List Char := s.plain ++ opening ++ s.name ++ ['\x7d']

def Unclosed (cs : List Char) : Prop := ∀ after, opening ++ after <:+ cs → '\x7d' ∉ after

structure Cut (cs : List Char) (stretches : List Stretch) (rest : List Char) : Prop where
  whole : cs = stretches.flatMap Stretch.text ++ rest
  plain : ∀ s ∈ stretches, ¬ opening <:+: s.plain
  name : ∀ s ∈ stretches, '\x7d' ∉ s.name
  rest : Unclosed rest

section Reading

theorem piecesFrom_plain (h : ¬ opening <+: c :: cs) :
    piecesFrom none (c :: cs) = .plain [c] :: piecesFrom none cs := by
  rw [piecesFrom]
  rintro tail rfl rfl
  exact h ⟨tail, rfl⟩

theorem piecesFrom_name (h : c ≠ '\x7d') (name cs : List Char) :
    piecesFrom (some name) (c :: cs) = piecesFrom (some (c :: name)) cs := by
  rw [piecesFrom]
  exact h

theorem not_starts_opening (h : ¬ opening <:+: c :: plain) (tail : List Char) :
    ¬ opening <+: c :: (plain ++ opening ++ tail) := by
  rintro ⟨after, hafter⟩
  obtain ⟨rfl, hnext⟩ := List.cons.inj hafter
  cases plain with
  | nil => cases hnext
  | cons d plain =>
    obtain ⟨rfl, -⟩ := List.cons.inj hnext
    exact h ⟨[], plain, rfl⟩

theorem piecesFrom_opening (h : ¬ opening <:+: plain) (tail : List Char) :
    piecesFrom none (plain ++ opening ++ tail) =
      plain.map (fun c ↦ .plain [c]) ++ piecesFrom (some []) tail := by
  induction plain with
  | nil => rfl
  | cons c plain ih =>
    have hplain : ¬ opening <:+: plain := fun hwithin ↦
      h (hwithin.trans (List.suffix_cons c plain).isInfix)
    rw [List.cons_append, List.cons_append, piecesFrom_plain (not_starts_opening h tail),
      ih hplain, List.map_cons, List.cons_append]

theorem piecesFrom_closing (h : '\x7d' ∉ name) (read tail : List Char) :
    piecesFrom (some read) (name ++ '\x7d' :: tail) =
      .token (read.reverse ++ name) :: piecesFrom none tail := by
  induction name generalizing read with
  | nil => rw [List.nil_append, List.append_nil, piecesFrom]
  | cons c name ih =>
    obtain ⟨hc, hname⟩ := List.ne_and_not_mem_of_not_mem_cons h
    rw [List.cons_append, piecesFrom_name hc.symm, ih hname, List.reverse_cons, List.append_assoc,
      List.singleton_append]

theorem Stretch.text_append (s : Stretch) (tail : List Char) :
    s.text ++ tail = s.plain ++ opening ++ (s.name ++ '\x7d' :: tail) := by
  simp [text]

theorem pieces_stretch {s : Stretch} (hplain : ¬ opening <:+: s.plain) (hname : '\x7d' ∉ s.name)
    (tail : List Char) : pieces (s.text ++ tail) =
      s.plain.map (fun c ↦ .plain [c]) ++ .token s.name :: pieces tail := by
  rw [pieces, s.text_append, piecesFrom_opening hplain, piecesFrom_closing hname]
  rfl

/-- No token is closed in what is left: neither one that has been opened nor another. -/
def Open : Option (List Char) → List Char → Prop
  | none, cs => Unclosed cs
  | some _, cs => '\x7d' ∉ cs

theorem Unclosed.of_cons (h : Unclosed (c :: cs)) : Unclosed cs :=
  fun after hafter ↦ h after (hafter.trans (List.suffix_cons c cs))

theorem Open.all_plain {name : Option (List Char)} (h : Open name cs) :
    ∀ piece ∈ piecesFrom name cs, ∃ text, piece = .plain text := by
  fun_induction piecesFrom name cs with
  | case1 => exact List.forall_mem_nil _
  | case2 name => exact List.forall_mem_singleton.mpr ⟨_, rfl⟩
  | case3 cs ih => exact ih (h cs List.suffix_rfl)
  | case4 c cs _ ih => exact List.forall_mem_cons.mpr ⟨⟨[c], rfl⟩, ih h.of_cons⟩
  | case5 name cs ih => exact absurd List.mem_cons_self h
  | case6 name c cs _ ih => exact ih (List.not_mem_of_not_mem_cons h)

end Reading

section Cutting

variable {stretches : List Stretch}

theorem Unclosed.cut (h : Unclosed cs) : Cut cs [] cs := ⟨rfl, nofun, nofun, h⟩

theorem Cut.cons {s : Stretch} (hplain : ¬ opening <:+: s.plain) (hname : '\x7d' ∉ s.name)
    (h : Cut cs stretches rest) : Cut (s.text ++ cs) (s :: stretches) rest := by
  refine ⟨?_, List.forall_mem_cons.mpr ⟨hplain, h.plain⟩,
    List.forall_mem_cons.mpr ⟨hname, h.name⟩, h.rest⟩
  rw [h.whole, List.flatMap_cons, List.append_assoc]

theorem Cut.head {s : Stretch} (h : Cut cs (s :: stretches) rest) :
    ¬ opening <:+: s.plain ∧ '\x7d' ∉ s.name ∧
      ∃ tail, cs = s.text ++ tail ∧ Cut tail stretches rest := by
  obtain ⟨hs, hplain⟩ := List.forall_mem_cons.mp h.plain
  obtain ⟨hs', hname⟩ := List.forall_mem_cons.mp h.name
  refine ⟨hs, hs', _, ?_, rfl, hplain, hname, h.rest⟩
  rw [h.whole, List.flatMap_cons, List.append_assoc]

theorem unclosed_nil : Unclosed [] := fun after h ↦ by simp [opening] at h

theorem not_opening_nil : ¬ opening <:+: [] := by simp [opening]

theorem Unclosed.cons (h : Unclosed cs) (hc : ¬ opening <+: c :: cs) : Unclosed (c :: cs) := by
  intro after hafter
  obtain heq | hsuffix := List.suffix_cons_iff.mp hafter
  · exact absurd ⟨after, heq⟩ hc
  · exact h after hsuffix

/-- What has been opened is not closed, so nothing is. -/
theorem unclosed_opening (h : '\x7d' ∉ cs) : Unclosed (opening ++ cs) := by
  intro after hafter
  obtain heq | hsuffix := List.suffix_cons_iff.mp hafter
  · obtain rfl := List.append_cancel_left heq
    exact h
  · obtain heq | hsuffix := List.suffix_cons_iff.mp hsuffix
    · cases heq
    · exact fun hmem ↦ h (hsuffix.subset (List.mem_append_right _ hmem))

theorem Cut.cons_plain (h : Cut cs stretches rest) (hc : ¬ opening <+: c :: cs) :
    ∃ stretches rest, Cut (c :: cs) stretches rest := by
  cases stretches with
  | nil =>
    obtain rfl : cs = rest := h.whole
    exact ⟨[], _, (h.rest.cons hc).cut⟩
  | cons s stretches =>
    obtain ⟨hplain, hname, tail, rfl, hcut⟩ := h.head
    have hlonger : ¬ opening <:+: c :: s.plain := by
      intro hwithin
      obtain hstart | hwithin := List.infix_cons_iff.mp hwithin
      · rw [s.text_append, List.append_assoc, ← List.cons_append] at hc
        exact hc (hstart.trans (List.prefix_append _ _))
      · exact hplain hwithin
    exact ⟨_, rest, hcut.cons (s := ⟨c :: s.plain, s.name⟩) hlonger hname⟩

/-- What is left can be cut, or what is left behind the closing of the token that is open. -/
def Cuttable : Option (List Char) → List Char → Prop
  | none, cs => ∃ stretches rest, Cut cs stretches rest
  | some _, cs => '\x7d' ∉ cs ∨ ∃ name tail, cs = name ++ '\x7d' :: tail ∧ '\x7d' ∉ name ∧
      ∃ stretches rest, Cut tail stretches rest

theorem cuttable (name : Option (List Char)) (cs : List Char) : Cuttable name cs := by
  fun_induction piecesFrom name cs with
  | case1 => exact ⟨[], [], unclosed_nil.cut⟩
  | case2 => exact .inl List.not_mem_nil
  | case3 cs ih =>
    obtain hclosing | ⟨name, tail, rfl, hname, stretches, rest, hcut⟩ := ih
    · exact ⟨[], _, (unclosed_opening hclosing).cut⟩
    · have hcons := hcut.cons (s := ⟨[], name⟩) not_opening_nil hname
      rw [Stretch.text_append] at hcons
      exact ⟨_, rest, hcons⟩
  | case4 c cs hc ih =>
    obtain ⟨stretches, rest, hcut⟩ := ih
    refine hcut.cons_plain ?_
    intro hstart
    obtain ⟨tail, htail⟩ := hstart
    obtain ⟨hfirst, hnext⟩ := List.cons.inj htail
    exact hc tail hfirst.symm hnext.symm
  | case5 name cs ih => exact .inr ⟨[], cs, rfl, List.not_mem_nil, ih⟩
  | case6 name c cs hc ih =>
    have hmore {name : List Char} (h : '\x7d' ∉ name) : '\x7d' ∉ c :: name :=
      List.not_mem_cons_of_ne_of_not_mem (Ne.symm hc) h
    obtain hclosing | ⟨after, tail, rfl, hafter, hcut⟩ := ih
    · exact .inl (hmore hclosing)
    · exact .inr ⟨c :: after, tail, rfl, hmore hafter, hcut⟩

theorem append_opening_inj {plain' tail' : List Char} (h : ¬ opening <:+: plain)
    (h' : ¬ opening <:+: plain') (heq : plain ++ opening ++ tail = plain' ++ opening ++ tail') :
    plain = plain' ∧ tail = tail' := by
  induction plain generalizing plain' with
  | nil =>
    cases plain' with
    | nil => exact ⟨rfl, List.append_cancel_left heq⟩
    | cons c plain' => exact absurd ⟨tail, heq⟩ (not_starts_opening h' tail')
  | cons c plain ih =>
    cases plain' with
    | nil => exact absurd ⟨tail', heq.symm⟩ (not_starts_opening h tail)
    | cons d plain' =>
      obtain ⟨rfl, hnext⟩ := List.cons.inj heq
      have hshorter {cs : List Char} (h : ¬ opening <:+: c :: cs) : ¬ opening <:+: cs :=
        fun hwithin ↦ h (hwithin.trans (List.suffix_cons c cs).isInfix)
      obtain ⟨rfl, htail⟩ := ih (hshorter h) (hshorter h') hnext
      exact ⟨rfl, htail⟩

theorem append_closing_inj {name' tail' : List Char} (h : '\x7d' ∉ name) (h' : '\x7d' ∉ name')
    (heq : name ++ '\x7d' :: tail = name' ++ '\x7d' :: tail') : name = name' ∧ tail = tail' := by
  induction name generalizing name' with
  | nil =>
    cases name' with
    | nil => exact ⟨rfl, (List.cons.inj heq).2⟩
    | cons c name' => exact absurd (List.cons.inj heq).1 (List.ne_of_not_mem_cons h')
  | cons c name ih =>
    cases name' with
    | nil => exact absurd (List.cons.inj heq).1.symm (List.ne_of_not_mem_cons h)
    | cons d name' =>
      obtain ⟨rfl, hnext⟩ := List.cons.inj heq
      obtain ⟨rfl, htail⟩ :=
        ih (List.not_mem_of_not_mem_cons h) (List.not_mem_of_not_mem_cons h') hnext
      exact ⟨rfl, htail⟩

theorem Unclosed.not_stretch (h : Unclosed cs) (s : Stretch) (tail : List Char) :
    cs ≠ s.text ++ tail := by
  intro heq
  rw [s.text_append, List.append_assoc] at heq
  refine h (s.name ++ '\x7d' :: tail) ?_ (List.mem_append_right _ List.mem_cons_self)
  exact ⟨s.plain, heq.symm⟩

theorem Cut.unique {stretches' : List Stretch} {rest' : List Char} (h : Cut cs stretches rest)
    (h' : Cut cs stretches' rest') : stretches = stretches' ∧ rest = rest' := by
  induction stretches generalizing cs stretches' with
  | nil =>
    obtain rfl : cs = rest := h.whole
    cases stretches' with
    | nil => exact ⟨rfl, h'.whole⟩
    | cons s stretches' =>
      obtain ⟨-, -, tail, heq, -⟩ := h'.head
      exact absurd heq (h.rest.not_stretch s tail)
  | cons s stretches ih =>
    obtain ⟨hplain, hname, tail, rfl, hcut⟩ := h.head
    cases stretches' with
    | nil =>
      obtain heq : s.text ++ tail = rest' := h'.whole
      exact absurd heq.symm (h'.rest.not_stretch s tail)
    | cons s' stretches' =>
      obtain ⟨hplain', hname', tail', heq, hcut'⟩ := h'.head
      rw [s.text_append, s'.text_append] at heq
      obtain ⟨hfirst, heq⟩ := append_opening_inj hplain hplain' heq
      obtain ⟨hsecond, rfl⟩ := append_closing_inj hname hname' heq
      obtain ⟨rfl, rfl⟩ := ih hcut hcut'
      obtain rfl : s = s' := by
        cases s
        cases s'
        cases hfirst
        cases hsecond
        rfl
      exact ⟨rfl, rfl⟩

theorem existsUnique_cut (cs : List Char) :
    ∃! cut : List Stretch × List Char, Cut cs cut.1 cut.2 := by
  obtain ⟨stretches, rest, h⟩ := cuttable none cs
  refine ⟨(stretches, rest), h, fun cut hcut ↦ ?_⟩
  obtain ⟨hstretches, hrest⟩ := hcut.unique h
  exact Prod.ext hstretches hrest

end Cutting

section Filling

variable {text : String} {stretches : List Stretch}

def fillStretch (parameters : Dict String) (s : Stretch) : Except Fault (List Char) :=
  (fillPiece parameters (.token s.name)).map (s.plain ++ ·)

theorem mapM_fillPiece_plain {pieces : List Piece}
    (h : ∀ piece ∈ pieces, ∃ text, piece = .plain text) :
    pieces.mapM (fillPiece parameters) = .ok (pieces.map Piece.text) := by
  refine mapM_eq_ok fun piece hpiece ↦ ?_
  obtain ⟨text, rfl⟩ := h piece hpiece
  rfl

theorem Cut.mapM_pieces (h : Cut cs stretches rest) :
    ((pieces cs).mapM (fillPiece parameters)).map List.flatten =
      (stretches.mapM (fillStretch parameters)).map fun parts ↦ parts.flatten ++ rest := by
  induction stretches generalizing cs with
  | nil =>
    obtain rfl : cs = rest := h.whole
    have hopen : Open none cs := h.rest
    rw [pieces, mapM_fillPiece_plain hopen.all_plain]
    exact congrArg Except.ok (flatMap_pieces cs)
  | cons s stretches ih =>
    obtain ⟨hplain, hname, tail, rfl, hcut⟩ := h.head
    have hletters : (s.plain.map fun c ↦ Piece.plain [c]).mapM (fillPiece parameters) =
        .ok (s.plain.map fun c ↦ [c]) := by
      rw [mapM_fillPiece_plain (by simp), List.map_map]
      rfl
    have hflat : (s.plain.map fun c ↦ [c]).flatten = s.plain := by
      simp [← List.flatMap_def]
    rw [pieces_stretch hplain hname, List.mapM_append, hletters, ok_bind, List.mapM_cons,
      List.mapM_cons, fillStretch]
    cases fillPiece parameters (.token s.name) with
    | error fault => rfl
    | ok value =>
      have hrest := ih hcut
      cases hpieces : (pieces tail).mapM (fillPiece parameters) <;>
        cases hstretches : stretches.mapM (fillStretch parameters) <;>
        simp_all [Except.map, pure, Except.pure]

theorem Cut.fillText_eq (h : Cut text.toList stretches rest) :
    fillText parameters text = (stretches.mapM (fillStretch parameters)).map
      fun parts ↦ String.ofList (parts.flatten ++ rest) := by
  have hmap {α β γ : Type} (x : Except Fault α) (f : α → β) (g : β → γ) :
      (x.map f).map g = x.map fun a ↦ g (f a) := by
    cases x <;> rfl
  have hpieces : ((pieces text.toList).mapM (fillPiece parameters)).map List.flatten = _ :=
    h.mapM_pieces
  rw [fillText, ← hmap _ List.flatten String.ofList, hpieces, hmap]

def Stretch.value? (parameters : Dict String) (s : Stretch) : Option String :=
  Dict.get? (String.ofList s.name) parameters

def missing (name : List Char) : Fault :=
  .badRequest ("Missing query parameter: " ++ String.ofList name)

theorem fillStretch_of_some {s : Stretch} {value : String} (h : s.value? parameters = some value) :
    fillStretch parameters s = .ok (s.plain ++ value.toList) := by
  rw [Stretch.value?] at h
  rw [fillStretch, fillPiece, h]
  rfl

theorem fillStretch_of_none {s : Stretch} (h : s.value? parameters = none) :
    fillStretch parameters s = .error (missing s.name) := by
  rw [Stretch.value?] at h
  rw [fillStretch, fillPiece, h]
  rfl

theorem exists_fillStretch_iff {s : Stretch} :
    (∃ part, fillStretch parameters s = .ok part) ↔ ∃ value, s.value? parameters = some value := by
  cases hvalue : s.value? parameters with
  | none => rw [fillStretch_of_none hvalue]; exact iff_of_false nofun nofun
  | some value => rw [fillStretch_of_some hvalue]; exact iff_of_true ⟨_, rfl⟩ ⟨_, rfl⟩

theorem fillStretch_eq_error {s : Stretch} {fault : Fault} :
    fillStretch parameters s = .error fault ↔
      s.value? parameters = none ∧ fault = missing s.name := by
  cases hvalue : s.value? parameters with
  | none => rw [fillStretch_of_none hvalue]; simp [eq_comm]
  | some value => rw [fillStretch_of_some hvalue]; simp

def filledParts (stretches : List Stretch) (values : List String) : List (List Char) :=
  List.zipWith (fun s value ↦ s.plain ++ value.toList) stretches values

theorem mapM_fillStretch_eq_ok {parts : List (List Char)} :
    stretches.mapM (fillStretch parameters) = .ok parts ↔
      ∃ values, List.Forall₂ (fun s value ↦ s.value? parameters = some value) stretches values ∧
        parts = filledParts stretches values := by
  induction stretches generalizing parts with
  | nil =>
    constructor
    · intro h
      cases h
      exact ⟨[], .nil, rfl⟩
    · rintro ⟨_, ⟨⟩, rfl⟩
      rfl
  | cons s stretches ih =>
    rw [List.mapM_cons]
    constructor
    · intro h
      obtain ⟨part, parts, hpart, hparts, rfl⟩ := both_eq_ok.mp h
      obtain ⟨value, hvalue⟩ := exists_fillStretch_iff.mp ⟨part, hpart⟩
      obtain ⟨values, hvalues, rfl⟩ := ih.mp hparts
      obtain rfl := Except.ok.inj ((fillStretch_of_some hvalue).symm.trans hpart)
      exact ⟨value :: values, .cons hvalue hvalues, rfl⟩
    · rintro ⟨_, hvalues, rfl⟩
      cases hvalues with
      | @cons _ value _ values hvalue hvalues =>
        exact both_eq_ok.mpr ⟨_, _, fillStretch_of_some hvalue, ih.mpr ⟨values, hvalues, rfl⟩, rfl⟩

/-- What filling comes to for a text that is cut in this way. -/
structure FilledOnce (parameters : Dict String) (text : String) (stretches : List Stretch)
    (rest : List Char) : Prop where
  eq_ok : ∀ filled, fillText parameters text = .ok filled ↔
    ∃ values, List.Forall₂ (fun s value ↦ s.value? parameters = some value) stretches values ∧
      filled = String.ofList ((filledParts stretches values).flatten ++ rest)
  /-- The first token without a parameter is the one that is wanted. -/
  eq_error : ∀ fault, fillText parameters text = .error fault ↔
    ∃ before s after, stretches = before ++ s :: after ∧
      (∀ s' ∈ before, ∃ value, s'.value? parameters = some value) ∧
        s.value? parameters = none ∧ fault = missing s.name

theorem Cut.filledOnce (h : Cut text.toList stretches rest) :
    FilledOnce parameters text stretches rest := by
  constructor
  · intro filled
    rw [h.fillText_eq, map_eq_ok]
    constructor
    · rintro ⟨parts, hparts, rfl⟩
      obtain ⟨values, hvalues, rfl⟩ := mapM_fillStretch_eq_ok.mp hparts
      exact ⟨values, hvalues, rfl⟩
    · rintro ⟨values, hvalues, rfl⟩
      exact ⟨_, mapM_fillStretch_eq_ok.mpr ⟨values, hvalues, rfl⟩, rfl⟩
  · intro fault
    have hmap : (Except.map (fun parts ↦ String.ofList (parts.flatten ++ rest))
        (stretches.mapM (fillStretch parameters)) = .error fault) ↔
          stretches.mapM (fillStretch parameters) = .error fault := by
      cases stretches.mapM (fillStretch parameters) <;> simp [Except.map]
    rw [h.fillText_eq, hmap, mapM_eq_error]
    simp only [exists_fillStretch_iff, fillStretch_eq_error]

end Filling

end Template

namespace Json

variable {v : Json} {vs : List Json}

mutual

/-- The texts of a value in their order; the keys of fields are not among them. -/
def texts : Json → List String
  | .str s => [s]
  | .arr items => textsOfItems items
  | .obj fields => textsOfFields fields
  | .null | .bool _ | .num _ => []
termination_by structural v => v

def textsOfItems : List Json → List String
  | [] => []
  | v :: vs => texts v ++ textsOfItems vs
termination_by structural vs => vs

def textsOfFields : List (String × Json) → List String
  | [] => []
  | (_, v) :: vs => texts v ++ textsOfFields vs
termination_by structural vs => vs

end

mutual

def mapTexts (f : String → String) : Json → Json
  | .str s => .str (f s)
  | .arr items => .arr (mapItems f items)
  | .obj fields => .obj (mapFields f fields)
  | .null => .null
  | .bool b => .bool b
  | .num n => .num n
termination_by structural v => v

def mapItems (f : String → String) : List Json → List Json
  | [] => []
  | v :: vs => mapTexts f v :: mapItems f vs
termination_by structural vs => vs

def mapFields (f : String → String) : List (String × Json) → List (String × Json)
  | [] => []
  | (key, v) :: vs => (key, mapTexts f v) :: mapFields f vs
termination_by structural vs => vs

end

end Json

namespace Template

section Values

variable {f : String → String}

def Agrees (parameters : Dict String) (f : String → String) (texts : List String) : Prop :=
  ∀ s ∈ texts, ∀ filled, fillText parameters s = .ok filled → f s = filled

theorem agrees_append {texts texts' : List String} :
    Agrees parameters f (texts ++ texts') ↔
      Agrees parameters f texts ∧ Agrees parameters f texts' :=
  List.forall_mem_append

mutual

/-- A template is filled when its texts are, one after the other. -/
theorem fill_eq : ∀ t : Json, Agrees parameters f t.texts →
    fill parameters t = (t.texts.mapM (fillText parameters)).map fun _ ↦ t.mapTexts f
  | .null, _ | .bool _, _ | .num _, _ => rfl
  | .str s, h => by
    rw [fill, Json.texts, Json.mapTexts, List.mapM_cons]
    cases hs : fillText parameters s with
    | error fault => rfl
    | ok filled =>
      rw [h s List.mem_cons_self filled hs]
      rfl
  | .arr items, h => by
    rw [fill, Json.texts, Json.mapTexts, fillItems_eq items h]
    cases (Json.textsOfItems items).mapM (fillText parameters) <;> rfl
  | .obj fields, h => by
    rw [fill, Json.texts, Json.mapTexts, fillFields_eq fields h]
    cases (Json.textsOfFields fields).mapM (fillText parameters) <;> rfl

theorem fillItems_eq : ∀ vs : List Json, Agrees parameters f (Json.textsOfItems vs) →
    fillItems parameters vs =
      ((Json.textsOfItems vs).mapM (fillText parameters)).map fun _ ↦ Json.mapItems f vs
  | [], _ => rfl
  | v :: vs, h => by
    obtain ⟨hv, hvs⟩ := agrees_append.mp h
    rw [fillItems, fill_eq v hv, fillItems_eq vs hvs, Json.textsOfItems, List.mapM_append]
    cases v.texts.mapM (fillText parameters) with
    | error fault => rfl
    | ok _ => cases (Json.textsOfItems vs).mapM (fillText parameters) <;> rfl

theorem fillFields_eq : ∀ vs : List (String × Json), Agrees parameters f (Json.textsOfFields vs) →
    fillFields parameters vs =
      ((Json.textsOfFields vs).mapM (fillText parameters)).map fun _ ↦ Json.mapFields f vs
  | [], _ => rfl
  | (key, v) :: vs, h => by
    obtain ⟨hv, hvs⟩ := agrees_append.mp h
    rw [fillFields, fill_eq v hv, fillFields_eq vs hvs, Json.textsOfFields, List.mapM_append]
    cases v.texts.mapM (fillText parameters) with
    | error fault => rfl
    | ok _ => cases (Json.textsOfFields vs).mapM (fillText parameters) <;> rfl

end

/-- A template is filled in its texts only, and refused for the first text that is refused. -/
structure FilledByText (parameters : Dict String) (t : Json) : Prop where
  eq_ok : ∀ w, fill parameters t = .ok w ↔ ∃ f : String → String,
    (∀ s ∈ t.texts, fillText parameters s = .ok (f s)) ∧ w = t.mapTexts f
  eq_error : ∀ fault, fill parameters t = .error fault ↔ ∃ before s after,
    t.texts = before ++ s :: after ∧
      (∀ s' ∈ before, ∃ filled, fillText parameters s' = .ok filled) ∧
      fillText parameters s = .error fault

def filledOrSame (parameters : Dict String) (s : String) : String :=
  (fillText parameters s).toOption.getD s

theorem agrees_filledOrSame (parameters : Dict String) (texts : List String) :
    Agrees parameters (filledOrSame parameters) texts := by
  intro s _ filled hs
  rw [filledOrSame, hs]
  rfl

theorem filledByText (parameters : Dict String) (t : Json) : FilledByText parameters t := by
  have hagrees := agrees_filledOrSame parameters t.texts
  have hfill := fill_eq t hagrees
  constructor
  · intro w
    constructor
    · intro h
      rw [hfill, map_eq_ok] at h
      obtain ⟨filled, hfilled, rfl⟩ := h
      refine ⟨_, fun s hs ↦ ?_, rfl⟩
      obtain ⟨filled, hs'⟩ := exists_mapM_eq_ok.mp ⟨_, hfilled⟩ s hs
      rw [hagrees s hs filled hs', hs']
    · rintro ⟨f, hf, rfl⟩
      have hagrees : Agrees parameters f t.texts := fun s hs filled h ↦
        Except.ok.inj ((hf s hs).symm.trans h)
      rw [fill_eq t hagrees, mapM_eq_ok hf]
      rfl
  · intro fault
    rw [hfill, ← mapM_eq_error]
    cases t.texts.mapM (fillText parameters) <;> simp [Except.map]

end Values

/-- Each text is cut in one way. Filling it fills the tokens of the cut and nothing else, and
filling a template fills its texts and nothing else. -/
theorem tokens_filled_once (parameters : Dict String) :
    (∀ cs, ∃! cut : List Stretch × List Char, Cut cs cut.1 cut.2) ∧
      (∀ text stretches rest, Cut text.toList stretches rest →
        FilledOnce parameters text stretches rest) ∧
      ∀ t, FilledByText parameters t :=
  ⟨existsUnique_cut, fun _ _ _ h ↦ h.filledOnce, filledByText parameters⟩

/-- A dollar before a token, an opening in the name of one, and one that is not closed. -/
theorem dollar_and_openings_filled :
    let parameters := [("$\x7bb", "x"), ("a", "$\x7ba\x7d")]
    let text := "$$\x7ba\x7d$\x7b$\x7bb\x7d!$\x7bc"
    let stretches : List Stretch := [⟨['$'], ['a']⟩, ⟨[], ['$', '\x7b', 'b']⟩]
    let rest := ['!', '$', '\x7b', 'c']
    Cut text.toList stretches rest ∧ FilledOnce parameters text stretches rest := by
  intro parameters text stretches rest
  have hrest : Unclosed rest := by
    have hends : ∀ suffix ∈ rest.tails, suffix.take 2 = opening → '\x7d' ∉ suffix.drop 2 := by
      decide
    exact fun after hafter ↦ hends _ ((List.mem_tails _ _).mpr hafter) rfl
  have hcut : Cut text.toList stretches rest := ⟨by decide, by decide, by decide, hrest⟩
  exact ⟨hcut, (tokens_filled_once parameters).2.1 text stretches rest hcut⟩

end Template

end RecordService
