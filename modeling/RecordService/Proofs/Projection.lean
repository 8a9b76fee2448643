import RecordService.Proofs.Wrapped

namespace RecordService.Generic

variable {explicit names : List String} {type : Path} {stored : Json} {top inner fields : Dict Json}

section Unwrap

/-- What an object has of its record: the explicit fields from the top, all others from below. -/
theorem get?_raised (stored : Json) (explicit : List String) (fields : Dict Json)
    (name : String) :
    Dict.get? name (explicit.foldl (fun out name ↦
      match stored.field? name with
      | some v => Dict.insert name v out
      | none => out) fields) =
      if name ∈ explicit then (stored.field? name).or (Dict.get? name fields)
      else Dict.get? name fields := by
  induction explicit generalizing fields with
  | nil => simp
  | cons first rest ih =>
    rw [List.foldl_cons, ih]
    cases hfirst : stored.field? first with
    | none =>
      by_cases heq : name = first
      · subst heq
        simp [hfirst]
      · simp [heq]
    | some v =>
      by_cases heq : name = first
      · subst heq
        simp [hfirst, Dict.get?_insert_self]
      · simp [heq, Dict.get?_insert_of_ne heq]

theorem sorted_raised (stored : Json) (explicit : List String) (h : Dict.Sorted fields) :
    Dict.Sorted (explicit.foldl (fun out name ↦
      match stored.field? name with
      | some v => Dict.insert name v out
      | none => out) fields) := by
  induction explicit generalizing fields with
  | nil => exact h
  | cons first rest ih =>
    rw [List.foldl_cons]
    apply ih
    split
    · exact h.insert first _
    · exact h

theorem exists_unwrap (explicit : List String)
    (h : stored.field? contentField = some (.obj inner)) :
    ∃ out, unwrap explicit stored = .obj out ∧ (Dict.Sorted inner → Dict.Sorted out) ∧
      ∀ name, Dict.get? name out =
        if name ∈ explicit then (stored.field? name).or (Dict.get? name inner)
        else Dict.get? name inner := by
  refine ⟨_, ?_, sorted_raised stored explicit, get?_raised stored explicit inner⟩
  grind [unwrap]

theorem Stored.exists_unwrap (h : Stored explicit type stored) :
    ∃ fields inner, stored.field? contentField = some (.obj inner) ∧
      unwrap explicit stored = .obj fields ∧
      ∀ name, Dict.get? name fields =
        if name ∈ explicit then stored.field? name else Dict.get? name inner := by
  obtain ⟨inner, hinner, hnone⟩ := h.inner
  obtain ⟨out, hunwrap, -, hget⟩ := Generic.exists_unwrap explicit hinner
  refine ⟨out, inner, hinner, hunwrap, fun name ↦ ?_⟩
  rw [hget]
  by_cases hname : name ∈ explicit
  · rw [if_pos hname, if_pos hname, hnone name hname, Option.or_none]
  · rw [if_neg hname, if_neg hname]

end Unwrap

section Wrap

def innerFields (explicit : List String) (fields : Dict Json) : Dict Json :=
  fields.filter fun p ↦ !explicit.contains p.1

def topFields (explicit : List String) (type : Path) (fields : Dict Json) : Dict Json :=
  Dict.insert typeField (.str type.text)
    (Dict.insert contentField (.obj (innerFields explicit fields))
      (fields.filter fun p ↦ explicit.contains p.1))

theorem wrap_fields (explicit : List String) (type : Path) (fields : Dict Json) :
    wrap explicit type (.obj fields) = .obj (topFields explicit type fields) := rfl

theorem get?_innerFields (explicit : List String) (fields : Dict Json) (name : String) :
    Dict.get? name (innerFields explicit fields) =
      if name ∈ explicit then none else Dict.get? name fields := by
  rw [innerFields, Dict.get?_filter (fun name ↦ !explicit.contains name)]
  by_cases h : name ∈ explicit <;> simp [h]

theorem get?_topFields (explicit : List String) (type : Path) (fields : Dict Json)
    (name : String) :
    Dict.get? name (topFields explicit type fields) =
      if name = typeField then some (.str type.text)
      else if name = contentField then some (.obj (innerFields explicit fields))
      else if name ∈ explicit then Dict.get? name fields else none := by
  rw [topFields]
  by_cases htype : name = typeField
  · rw [if_pos htype, htype, Dict.get?_insert_self]
  · rw [if_neg htype, Dict.get?_insert_of_ne htype]
    by_cases hcontent : name = contentField
    · rw [if_pos hcontent, hcontent, Dict.get?_insert_self]
    · rw [if_neg hcontent, Dict.get?_insert_of_ne hcontent,
        Dict.get?_filter (fun name ↦ explicit.contains name)]
      simp only [List.contains_iff_mem]

theorem sorted_innerFields (h : Dict.Sorted fields) : Dict.Sorted (innerFields explicit fields) :=
  h.filter _

theorem sorted_topFields (h : Dict.Sorted fields) : Dict.Sorted (topFields explicit type fields) :=
  ((h.filter _).insert contentField _).insert typeField _

/-- An object comes back from its record just if it has itself what the record's own fields hold, as
far as these are explicit. -/
theorem unwrap_wrap_eq_iff (h : Dict.Sorted fields) :
    unwrap explicit (wrap explicit type (.obj fields)) = .obj fields ↔
      (typeField ∈ explicit → Dict.get? typeField fields = some (.str type.text)) ∧
      (contentField ∈ explicit →
        Dict.get? contentField fields = some (.obj (innerFields explicit fields))) := by
  have hne : contentField ≠ typeField := by decide
  have hcontent : (wrap explicit type (.obj fields)).field? contentField =
      some (.obj (innerFields explicit fields)) := by
    rw [wrap_fields, Json.field?_obj, get?_topFields, if_neg hne, if_pos rfl]
  obtain ⟨out, hunwrap, hsorted, hout⟩ := exists_unwrap explicit hcontent
  have hget : ∀ name, Dict.get? name out =
      if name ∈ explicit ∧ name = typeField then some (.str type.text)
      else if name ∈ explicit ∧ name = contentField then
        some (.obj (innerFields explicit fields))
      else Dict.get? name fields := by
    intro name
    rw [hout, wrap_fields, Json.field?_obj, get?_topFields, get?_innerFields]
    by_cases hname : name ∈ explicit
    · simp only [hname, if_true, true_and, Option.or_none]
    · simp only [hname, if_false, false_and]
  rw [hunwrap, Json.obj.injEq]
  constructor
  · rintro rfl
    refine ⟨fun hmem ↦ ?_, fun hmem ↦ ?_⟩
    · rw [hget, if_pos ⟨hmem, rfl⟩]
    · rw [hget, if_neg fun hboth ↦ hne hboth.2, if_pos ⟨hmem, rfl⟩]
  · rintro ⟨htype, hcontent⟩
    refine (hsorted (sorted_innerFields h)).ext h fun name ↦ ?_
    rw [hget]
    split
    · rename_i hboth
      obtain ⟨hmem, rfl⟩ := hboth
      exact (htype hmem).symm
    · split
      · rename_i hboth
        obtain ⟨hmem, rfl⟩ := hboth
        exact (hcontent hmem).symm
      · rfl

end Wrap

section Mirrors

/-- A record and the object it stands for, both by their fields: explicit fields are at the top of
the record, all others below. -/
structure Mirrors (explicit : List String) (type : Path) (top inner fields : Dict Json) : Prop where
  tagged : Dict.get? typeField top = some (.str type.text)
  content : Dict.get? contentField top = some (.obj inner)
  inside : ∀ name ∈ explicit, Dict.get? name inner = none
  shared : ∀ name, Dict.get? name fields =
    if name ∈ explicit then Dict.get? name top else Dict.get? name inner
  topSorted : Dict.Sorted top
  innerSorted : Dict.Sorted inner
  fieldsSorted : Dict.Sorted fields

theorem mirrors_wrap (htype : typeField ∉ explicit) (hcontent : contentField ∉ explicit)
    (h : Dict.Sorted fields) (type : Path) :
    Mirrors explicit type (topFields explicit type fields) (innerFields explicit fields)
      fields where
  tagged := by rw [get?_topFields, if_pos rfl]
  content := by
    have hne : contentField ≠ typeField := by decide
    rw [get?_topFields, if_neg hne, if_pos rfl]
  inside name hname := by rw [get?_innerFields, if_pos hname]
  shared name := by
    rw [get?_topFields, get?_innerFields]
    by_cases hname : name ∈ explicit
    · have hne : name ≠ typeField ∧ name ≠ contentField :=
        ⟨fun heq ↦ htype (heq ▸ hname), fun heq ↦ hcontent (heq ▸ hname)⟩
      simp only [if_pos hname, if_neg hne.1, if_neg hne.2]
    · simp only [if_neg hname]
  topSorted := sorted_topFields h
  innerSorted := sorted_innerFields h
  fieldsSorted := h

theorem Mirrors.unwrap_eq (h : Mirrors explicit type top inner fields) :
    unwrap explicit (.obj top) = .obj fields := by
  have hcontent : (Json.obj top).field? contentField = some (.obj inner) := h.content
  obtain ⟨out, hunwrap, hsorted, hout⟩ := exists_unwrap explicit hcontent
  rw [hunwrap, (hsorted h.innerSorted).ext h.fieldsSorted fun name ↦ ?_]
  rw [hout, h.shared]
  split
  · rename_i hname
    rw [h.inside name hname, Option.or_none, Json.field?_obj]
  · rfl

theorem Mirrors.erase {name : String} (h : Mirrors explicit type top inner fields)
    (hname : name ∈ explicit) (htype : typeField ≠ name) (hcontent : contentField ≠ name) :
    Mirrors explicit type (Dict.erase name top) inner (Dict.erase name fields) where
  tagged := (Dict.get?_erase_of_ne htype top).trans h.tagged
  content := (Dict.get?_erase_of_ne hcontent top).trans h.content
  inside := h.inside
  shared other := by
    by_cases heq : other = name
    · rw [heq, if_pos hname, Dict.get?_erase_self, Dict.get?_erase_self]
    · rw [Dict.get?_erase_of_ne heq, Dict.get?_erase_of_ne heq, h.shared]
  topSorted := h.topSorted.erase name
  innerSorted := h.innerSorted
  fieldsSorted := h.fieldsSorted.erase name

theorem Mirrors.withoutEnvelope (h : Mirrors explicit type top inner fields)
    (hid : idField ∈ explicit) (hrev : revisionField ∈ explicit) :
    unwrap explicit (Json.obj top).withoutEnvelope = (Json.obj fields).withoutEnvelope :=
  ((h.erase hid (by decide) (by decide)).erase hrev (by decide) (by decide)).unwrap_eq

end Mirrors

end RecordService.Generic
