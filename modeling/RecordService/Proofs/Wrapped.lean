import RecordService.Handler.Generic
import RecordService.Proofs.Edits

namespace RecordService

namespace Dict

variable {β : Type} {key : String}

theorem mem_keys_insert {name : String} {value : β} {d : Dict β} :
    name ∈ (insert key value d).map (·.1) ↔ name = key ∨ name ∈ d.map (·.1) := by
  induction d with
  | nil => simp [insert]
  | cons p d ih =>
    obtain ⟨k, v⟩ := p
    simp only [insert]
    split
    · subst_vars
      simp
    · split
      · simp
      · simp only [List.map_cons, List.mem_cons, ih, or_left_comm]

theorem mem_keys_ofList {name : String} {pairs : List (String × β)} :
    name ∈ (ofList pairs).map (·.1) ↔ name ∈ pairs.map (·.1) := by
  have hfold : ∀ d : Dict β, name ∈ (pairs.foldl (fun d p ↦ insert p.1 p.2 d) d).map (·.1) ↔
      name ∈ pairs.map (·.1) ∨ name ∈ d.map (·.1) := by
    induction pairs with
    | nil => simp
    | cons p pairs ih =>
      intro d
      rw [List.foldl_cons, ih, mem_keys_insert, List.map_cons, List.mem_cons, or_left_comm,
        or_assoc]
  rw [ofList, hfold]
  simp

end Dict

namespace Generic

variable {explicit names : List String} {type : Path} {content d d' : Json} {field : Pointer}
  {t : String} {ts : List String}

theorem mem_explicitFields {name : String} :
    name ∈ explicitFields names ↔ name = idField ∨ name = revisionField ∨ name ∈ names := by
  rw [explicitFields, Dict.mem_keys_ofList]
  simp

theorem mem_explicitFields_of_ne {name : String} (hid : name ≠ idField)
    (hrev : name ≠ revisionField) : name ∈ explicitFields names ↔ name ∈ names := by
  rw [mem_explicitFields, or_iff_right hid, or_iff_right hrev]

theorem mem_explicitFields_type : typeField ∈ explicitFields names ↔ typeField ∈ names :=
  mem_explicitFields_of_ne (by decide) (by decide)

theorem mem_explicitFields_content : contentField ∈ explicitFields names ↔ contentField ∈ names :=
  mem_explicitFields_of_ne (by decide) (by decide)

theorem contentField_not_mem (h : contentField ∉ names) : contentField ∉ explicitFields names :=
  mt mem_explicitFields_content.mp h

section Fields

/-- Neither the whole of a record nor its tag or what lies below it. -/
def Inside (field : Pointer) : Prop := field ≠ .root ∧ field.first? ≠ some typeField

instance : DecidablePred Inside := fun field ↦ inferInstanceAs (Decidable (field ≠ .root ∧ _))

theorem Inside.exists_cons (h : Inside field) : ∃ t ts, field = ⟨t :: ts⟩ ∧ t ≠ typeField := by
  obtain ⟨_ | ⟨t, ts⟩⟩ := field
  · exact absurd rfl h.1
  · exact ⟨t, ts, rfl, fun ht ↦ h.2 (congrArg some ht)⟩

theorem moveField_explicit (h : t ∈ explicit) : moveField explicit ⟨t :: ts⟩ = ⟨t :: ts⟩ :=
  if_pos (.inr h)

theorem moveField_type : moveField explicit ⟨typeField :: ts⟩ = ⟨typeField :: ts⟩ := by
  simp [moveField, Pointer.first?]

theorem moveField_inner (ht : t ≠ typeField) (h : t ∉ explicit) :
    moveField explicit ⟨t :: ts⟩ = ⟨contentField :: t :: ts⟩ :=
  if_neg (not_or.mpr ⟨ht, h⟩)

def moved (explicit : List String) (c : Patch.Change) : Patch.Change :=
  { c with field := moveField explicit c.field }

end Fields

section Tags

def Tagged (type : Path) (stored : Json) : Prop :=
  stored.field? typeField = some (.str type.text)

theorem Tagged.withoutEnvelope (h : Tagged type d) : Tagged type d.withoutEnvelope := by
  rw [Tagged, Json.field?_withoutEnvelope (by decide) (by decide)]
  exact h

theorem tagged_wrap (explicit : List String) (type : Path) (content : Json) :
    Tagged type (wrap explicit type content) :=
  Dict.get?_insert_self typeField _ _

/-- Below a field other than the tag, an edit keeps the tag. -/
theorem Tagged.edit (hd : Tagged type d) (h : Patch.Edit (t :: ts) d d') (ht : t ≠ typeField) :
    Tagged type d' := by
  obtain ⟨fields, rfl⟩ := Json.exists_obj_of_field? hd
  obtain ⟨after, rfl, hframe, -⟩ := h.obj
  exact (hframe typeField ht.symm).trans hd

theorem Tagged.moved {c : Patch.Change} (hd : Tagged type d) (hc : Inside c.field)
    (h : (moved explicit c).apply d = .ok d') : Tagged type d' := by
  have hedit := Patch.Change.edit h
  obtain ⟨t, ts, hfield, ht⟩ := hc.exists_cons
  simp only [Generic.moved, hfield] at hedit
  by_cases hmem : t ∈ explicit
  · rw [moveField_explicit hmem] at hedit
    exact hd.edit hedit ht
  · rw [moveField_inner ht hmem] at hedit
    exact hd.edit hedit (by decide)

end Tags

section Records

/-- The shape of the record for an object of a type: an object with the type's tag, and below it an
object without the explicit fields. -/
structure Stored (explicit : List String) (type : Path) (stored : Json) : Prop where
  object : stored.isObject
  tagged : stored.field? typeField = some (.str type.text)
  inner : ∃ fields, stored.field? contentField = some (.obj fields) ∧
    ∀ name ∈ explicit, Dict.get? name fields = none

theorem wrap_obj (explicit : List String) (type : Path) (fields : Dict Json) :
    wrap explicit type (.obj fields) =
      .obj (Dict.insert typeField (.str type.text)
        (Dict.insert contentField (.obj (fields.filter fun p ↦ !explicit.contains p.1))
          (fields.filter fun p ↦ explicit.contains p.1))) := rfl

theorem stored_wrap (h : content.isObject) : Stored explicit type (wrap explicit type content) := by
  obtain ⟨fields, rfl⟩ := Json.exists_obj_of_isObject h
  refine ⟨rfl, tagged_wrap explicit type _, fields.filter fun p ↦ !explicit.contains p.1, ?_,
    fun name hname ↦ ?_⟩
  · have hne : contentField ≠ typeField := by decide
    rw [wrap_obj, Json.field?_obj, Dict.get?_insert_of_ne hne, Dict.get?_insert_self]
  · rw [Dict.get?_filter (fun name ↦ !explicit.contains name)]
    simp [hname]

theorem Stored.withoutEnvelope (h : Stored explicit type d) :
    Stored explicit type d.withoutEnvelope := by
  refine ⟨(Json.isObject_withoutEnvelope d).trans h.object, Tagged.withoutEnvelope h.tagged, ?_⟩
  rw [Json.field?_withoutEnvelope (by decide) (by decide)]
  exact h.inner

theorem Stored.edit_top (hd : Stored explicit type d) (h : Patch.Edit (t :: ts) d d')
    (htag : t ≠ typeField) (hcontent : t ≠ contentField) : Stored explicit type d' := by
  obtain ⟨fields, rfl⟩ := Json.exists_obj_of_isObject hd.object
  obtain ⟨after, rfl, hframe, -⟩ := h.obj
  refine ⟨rfl, (hframe typeField htag.symm).trans hd.tagged, ?_⟩
  rw [Json.field?_obj, hframe contentField hcontent.symm]
  exact hd.inner

theorem Stored.edit_tag (hd : Stored explicit type d)
    (h : Patch.Edit (typeField :: t :: ts) d d') : Stored explicit type d' := by
  obtain ⟨fields, rfl⟩ := Json.exists_obj_of_isObject hd.object
  obtain ⟨after, rfl, hframe, hchild⟩ := h.obj
  -- The tag is a text, and below a text nothing can be written.
  obtain ⟨tag, htag, hedit⟩ := hchild (List.cons_ne_nil t ts) _ hd.tagged
  rw [hedit.below_str] at htag
  refine ⟨rfl, htag, ?_⟩
  have hne : contentField ≠ typeField := by decide
  rw [Json.field?_obj, hframe contentField hne]
  exact hd.inner

theorem Stored.edit_inner (hd : Stored explicit type d)
    (h : Patch.Edit (contentField :: t :: ts) d d') (ht : t ∉ explicit) :
    Stored explicit type d' := by
  obtain ⟨fields, rfl⟩ := Json.exists_obj_of_isObject hd.object
  obtain ⟨inner, hinner, hnone⟩ := hd.inner
  obtain ⟨after, rfl, hframe, hchild⟩ := h.obj
  obtain ⟨child, hafter, hedit⟩ := hchild (List.cons_ne_nil t ts) _ hinner
  obtain ⟨inner', rfl, hframe', -⟩ := hedit.obj
  refine ⟨rfl, (hframe typeField (by decide)).trans hd.tagged, inner', hafter, fun name hname ↦ ?_⟩
  rw [hframe' name fun hne ↦ ht (hne ▸ hname)]
  exact hnone name hname

/-- The changes that reach past the object that a record stands for: those that write over the whole
record, and those that write its tag or take it away. -/
def Reshapes (kind : Patch.Kind) (field : Pointer) : Prop :=
  field = .root ∧ (kind = .add ∨ kind = .replace) ∨ field = ⟨[typeField]⟩ ∧ kind ≠ .increment

theorem Inside.not_reshapes (h : Inside field) (kind : Patch.Kind) : ¬ Reshapes kind field := by
  rintro (⟨rfl, -⟩ | ⟨rfl, -⟩)
  · exact h.1 rfl
  · exact h.2 rfl

theorem Stored.moved {c : Patch.Change} (hd : Stored explicit type d)
    (hexplicit : contentField ∉ explicit) (hc : ¬ Reshapes c.kind c.field)
    (h : (moved explicit c).apply d = .ok d') : Stored explicit type d' := by
  obtain ⟨kind, ⟨_ | ⟨t, ts⟩⟩, value⟩ := c
  · -- At the root, all that is left is to remove nothing or to add to an object.
    obtain ⟨fields, rfl⟩ := Json.exists_obj_of_isObject hd.object
    cases kind with
    | add => exact absurd (.inl ⟨rfl, .inl rfl⟩) hc
    | replace => exact absurd (.inl ⟨rfl, .inr rfl⟩) hc
    | remove =>
      cases h
      exact hd
    | increment => cases h
  · have hedit := Patch.Change.edit h
    by_cases htype : t = typeField
    · subst htype
      simp only [Generic.moved, moveField_type] at hedit h
      cases ts with
      | nil =>
        cases kind with
        | increment =>
          have htag : Pointer.get? ⟨[typeField]⟩ d = some (.str type.text) := by
            obtain ⟨fields, rfl⟩ := Json.exists_obj_of_isObject hd.object
            simpa [Pointer.get?, Json.lookup?, Json.step?] using hd.tagged
          rw [Patch.Change.increment_refused htag rfl] at h
          cases h
        | _ => exact absurd (.inr ⟨rfl, nofun⟩) hc
      | cons t ts => exact hd.edit_tag hedit
    · by_cases hmem : t ∈ explicit
      · simp only [Generic.moved, moveField_explicit hmem] at hedit
        exact hd.edit_top hedit htype fun ht ↦ hexplicit (ht ▸ hmem)
      · simp only [Generic.moved, moveField_inner htype hmem] at hedit
        exact hd.edit_inner hedit hmem

/-- Each of these changes can give up the shape, whatever the record. -/
theorem Stored.reshaped {kind : Patch.Kind} (hd : Stored explicit type d)
    (hr : Reshapes kind field) :
    ∃ d', (Generic.moved explicit ⟨kind, field, .null⟩).apply d = .ok d' ∧
      ¬ Stored explicit type d'.withoutEnvelope := by
  obtain ⟨fields, rfl⟩ := Json.exists_obj_of_isObject hd.object
  have hnull : ¬ Stored explicit type Json.null := fun h ↦ Bool.false_ne_true h.object
  have htag : ∀ {after : Dict Json}, Dict.get? typeField after ≠ some (.str type.text) →
      ¬ Stored explicit type (Json.obj after).withoutEnvelope := by
    intro after hne h
    have htagged := h.tagged
    rw [Json.field?_withoutEnvelope (by decide) (by decide)] at htagged
    exact hne htagged
  have hget : Pointer.get? ⟨[typeField]⟩ (.obj fields) = some (.str type.text) := by
    simpa [Pointer.get?, Json.lookup?, Json.step?] using hd.tagged
  rcases hr with ⟨rfl, rfl | rfl⟩ | ⟨rfl, hkind⟩
  · exact ⟨.null, rfl, hnull⟩
  · exact ⟨.null, rfl, hnull⟩
  · rw [Generic.moved, moveField_type]
    cases kind with
    | add =>
      refine ⟨.obj (Dict.insert typeField .null fields), ?_, htag ?_⟩
      · simp only [Patch.Change.apply, Patch.Change.write, hget]
        rfl
      · simp [Dict.get?_insert_self]
    | replace => exact ⟨_, rfl, htag (by simp [Dict.get?_insert_self])⟩
    | remove => exact ⟨_, rfl, htag (by simp [Dict.get?_erase_self])⟩
    | increment => exact absurd rfl hkind

end Records

end Generic

end RecordService
