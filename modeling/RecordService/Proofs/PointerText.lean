import RecordService.Patch
import RecordService.Proofs.Address

namespace RecordService

namespace Pointer

variable {c code sign : Char} {cs : List Char}

theorem replaceEscape_cons_of_ne (h : c ≠ '~') (cs : List Char) :
    replaceEscape code sign (c :: cs) = c :: replaceEscape code sign cs := by
  cases cs <;> simp [replaceEscape, h]

theorem replaceEscape_code (cs : List Char) :
    replaceEscape code sign ('~' :: code :: cs) = sign :: replaceEscape code sign cs := by
  simp [replaceEscape]

theorem replaceEscape_other (hcode : c ≠ code) (htilde : c ≠ '~') (cs : List Char) :
    replaceEscape code sign ('~' :: c :: cs) = '~' :: c :: replaceEscape code sign cs := by
  simp [replaceEscape, hcode, replaceEscape_cons_of_ne htilde]

def encodeTildes (cs : List Char) : List Char :=
  cs.flatMap fun c ↦ if c = '~' then ['~', '0'] else [c]

theorem replaceEscape_encodeToken (cs : List Char) :
    replaceEscape '1' '/' (encodeToken cs) = encodeTildes cs := by
  induction cs with
  | nil => rfl
  | cons c cs ih =>
    rw [encodeToken, encodeTildes, List.flatMap_cons, List.flatMap_cons, ← encodeToken,
      ← encodeTildes, ← ih]
    by_cases htilde : c = '~'
    · rw [if_pos htilde, if_pos htilde]
      exact replaceEscape_other (by decide) (by decide) _
    · rw [if_neg htilde, if_neg htilde]
      by_cases hslash : c = '/'
      · rw [if_pos hslash, hslash]
        exact replaceEscape_code _
      · rw [if_neg hslash]
        exact replaceEscape_cons_of_ne htilde _

theorem replaceEscape_encodeTildes (cs : List Char) :
    replaceEscape '0' '~' (encodeTildes cs) = cs := by
  induction cs with
  | nil => rfl
  | cons c cs ih =>
    rw [encodeTildes, List.flatMap_cons, ← encodeTildes]
    by_cases htilde : c = '~'
    · rw [if_pos htilde, htilde]
      exact (replaceEscape_code _).trans (congrArg _ ih)
    · rw [if_neg htilde]
      exact (replaceEscape_cons_of_ne htilde _).trans (congrArg _ ih)

theorem decodeToken_encodeToken (cs : List Char) : decodeToken (encodeToken cs) = cs := by
  rw [decodeToken, replaceEscape_encodeToken, replaceEscape_encodeTildes]

def encodeSlashes (cs : List Char) : List Char :=
  cs.flatMap fun c ↦ if c = '/' then ['~', '1'] else [c]

/-- The two passes of the escaping do not meet: the first makes no slashes. -/
theorem encodeSlashes_encodeTildes (cs : List Char) :
    encodeSlashes (encodeTildes cs) = encodeToken cs := by
  rw [encodeSlashes, encodeTildes, encodeToken, List.flatMap_assoc]
  congr 1
  funext c
  by_cases htilde : c = '~'
  · rw [if_pos htilde, if_pos htilde]
    rfl
  · rw [if_neg htilde, if_neg htilde, List.flatMap_singleton]

theorem replaceEscape_ne_nil (h : cs ≠ []) : replaceEscape code sign cs ≠ [] := by
  unfold replaceEscape
  split
  · exact absurd rfl h
  · split <;> exact List.cons_ne_nil _ _
  · exact List.cons_ne_nil _ _

theorem decodeToken_ne_nil (h : cs ≠ []) : decodeToken cs ≠ [] :=
  replaceEscape_ne_nil (replaceEscape_ne_nil h)

theorem slash_not_mem_encodeToken (cs : List Char) : '/' ∉ encodeToken cs := by
  intro h
  obtain ⟨c, -, hc⟩ := List.mem_flatMap.mp h
  by_cases htilde : c = '~'
  · simp [htilde] at hc
  · by_cases hslash : c = '/'
    · simp [hslash] at hc
    · simp [htilde, hslash, Ne.symm hslash] at hc

theorem encodeToken_ne_nil (h : cs ≠ []) : encodeToken cs ≠ [] := by
  intro hnil
  apply h
  rw [← decodeToken_encodeToken cs, hnil]
  rfl

end Pointer

namespace Text

/-- Pieces that each follow a separator are found again, behind an empty one. -/
theorem split_flatMap {separator : Char} {ps : List (List Char)} (h : ∀ p ∈ ps, separator ∉ p) :
    split separator (ps.flatMap (separator :: ·)) = [] :: ps := by
  induction ps with
  | nil => rfl
  | cons p ps ih =>
    obtain ⟨hp, hps⟩ := List.forall_mem_cons.mp h
    rw [List.flatMap_cons, List.cons_append, split, if_pos rfl]
    congr 1
    cases ps with
    | nil => rw [List.flatMap_nil, List.append_nil, split_of_not_mem hp]
    | cons q qs =>
      have hrest := ih hps
      rw [List.flatMap_cons, List.cons_append, split, if_pos rfl] at hrest
      rw [List.flatMap_cons, List.cons_append, split_append_cons hp, List.tail_eq_of_cons_eq hrest]

end Text

namespace Pointer

variable {p : Pointer}

theorem toList_text (h : p.tokens ≠ []) :
    p.text.toList = (p.tokens.map fun t ↦ encodeToken t.toList).flatMap ('/' :: ·) := by
  rw [text, if_neg (mt List.isEmpty_iff.mp h), String.toList_ofList, List.flatMap_map]

theorem ofText_text (h : ∀ t ∈ p.tokens, t ≠ "") : ofText p.text = p := by
  obtain ⟨tokens⟩ := p
  by_cases hroot : tokens = []
  · subst hroot
    rfl
  · have hslash : ∀ piece ∈ tokens.map fun t ↦ encodeToken t.toList, '/' ∉ piece := by
      intro piece hpiece
      obtain ⟨t, -, rfl⟩ := List.mem_map.mp hpiece
      exact slash_not_mem_encodeToken _
    have hkept : ∀ piece ∈ tokens.map fun t ↦ encodeToken t.toList, piece ≠ [] := by
      intro piece hpiece
      obtain ⟨t, ht, rfl⟩ := List.mem_map.mp hpiece
      exact encodeToken_ne_nil fun hnil ↦ h t ht (String.toList_eq_nil_iff.mp hnil)
    have hdecoded (t : String) : String.ofList (decodeToken (encodeToken t.toList)) = t := by
      rw [decodeToken_encodeToken, String.ofList_toList]
    rw [ofText, toList_text hroot, Text.split_flatMap hslash, List.filter_cons_of_neg (by simp),
      List.filter_eq_self.mpr fun piece hpiece ↦ decide_eq_true (hkept piece hpiece), List.map_map]
    simp only [Function.comp_def, hdecoded, List.map_id']

theorem empty_not_mem_tokens_ofText (text : String) : "" ∉ (ofText text).tokens := by
  intro h
  obtain ⟨cs, hcs, hempty⟩ := List.mem_map.mp h
  obtain ⟨-, hne⟩ := List.mem_filter.mp hcs
  have hdecoded : decodeToken cs = [] := by
    rw [← String.toList_ofList (l := decodeToken cs), hempty]
    rfl
  exact decodeToken_ne_nil (of_decide_eq_true hne) hdecoded

theorem ofText_text_iff : ofText p.text = p ↔ "" ∉ p.tokens := by
  constructor
  · intro h
    rw [← h]
    exact empty_not_mem_tokens_ofText p.text
  · intro h
    refine ofText_text fun t ht heq ↦ h ?_
    rwa [← heq]

/-- The text of a pointer starts with a slash, also that of the root. -/
theorem exists_text_eq (p : Pointer) : ∃ cs, p.text.toList = '/' :: cs := by
  cases htokens : p.tokens with
  | nil => exact ⟨[], by simp [text, htokens]⟩
  | cons t ts =>
    rw [toList_text (by simp [htokens]), htokens]
    exact ⟨_, rfl⟩

end Pointer

namespace Patch

theorem Kind.ofJson?_name (kind : Kind) : ofJson? (.str kind.name) = some kind := by
  cases kind <;> decide

/-- Of a change that is written and read again, only the field can come back as another. -/
theorem Change.ofJson?_json (c : Change) :
    ofJson? c.json = some ⟨c.kind, .ofText c.field.text, c.value⟩ := by
  have hjson : c.json = .obj (Dict.insert "value" c.value (Dict.insert "field"
      (.str c.field.text) (Dict.insert "operation" (.str c.kind.name) []))) := by
    simp only [json, Json.record, Dict.ofList, List.foldl]
  have hkind : Kind.ofJson? (.str c.kind.name) = some c.kind := Kind.ofJson?_name c.kind
  simp [hjson, ofJson?, Dict.get?_insert_of_ne, Dict.get?_insert_self, hkind, Json.str?]

end Patch

namespace Pointer

/-- Pointers without empty tokens and texts stand for each other. -/
structure Faithful : Prop where
  /-- Each token follows a slash, with its tildes escaped first and then its slashes. -/
  written : ∀ p : Pointer, p ≠ root → p.text.toList =
    p.tokens.flatMap fun t ↦ '/' :: encodeSlashes (encodeTildes t.toList)
  reread_iff : ∀ p : Pointer, ofText p.text = p ↔ "" ∉ p.tokens
  injective : ∀ p q : Pointer, "" ∉ p.tokens → "" ∉ q.tokens → p.text = q.text → p = q
  patched : ∀ c : Patch.Change, Patch.Change.ofJson? c.json = some c ↔ "" ∉ c.field.tokens
  tokens : ∀ text, ∀ t ∈ (ofText text).tokens, t ≠ ""
  normal : ∀ text, ofText (ofText text).text = ofText text

theorem faithful : Faithful where
  written p hp := by
    have htokens : p.tokens ≠ [] := fun h ↦ hp (congrArg Pointer.mk h)
    rw [toList_text htokens, List.flatMap_map]
    simp only [encodeSlashes_encodeTildes]
  reread_iff p := ofText_text_iff
  injective p q hp hq htext := by
    rw [← ofText_text_iff.mpr hp, htext, ofText_text_iff.mpr hq]
  patched c := by
    rw [Patch.Change.ofJson?_json, ← ofText_text_iff]
    obtain ⟨kind, field, value⟩ := c
    simp
  tokens text t ht heq := by
    rw [heq] at ht
    exact empty_not_mem_tokens_ofText text ht
  normal text := ofText_text_iff.mpr (empty_not_mem_tokens_ofText text)

end Pointer

end RecordService
