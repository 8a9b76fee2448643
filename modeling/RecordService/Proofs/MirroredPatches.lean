import RecordService.Proofs.Projection

namespace RecordService

namespace Json

def written? (value : Json) (ts : List String) (d : Json) : Option Json :=
  match write value ts d with
  | (d', true) => some d'
  | (_, false) => none

theorem written?_cons_obj (value : Json) (t : String) (ts : List String) (fields : Dict Json) :
    written? value (t :: ts) (.obj fields) =
      (written? value ts ((Dict.get? t fields).getD (.obj []))).map fun v ↦
        .obj (Dict.insert t v fields) := by
  rw [written?, written?, write_cons_obj]
  cases write value ts ((Dict.get? t fields).getD (.obj [])) with
  | mk v done => cases done <;> rfl

end Json

namespace Patch

variable {kind : Kind} {value d : Json} {t : String} {ts : List String} {fields : Dict Json}

inductive Deed where
  /-- A value is written at the field or, with a further token, behind it. -/
  | write (behind : List String) (value : Json)
  | remove

/-- The deed of a change that finds a value at its field, or finds none; no deed if the change is
refused on sight. -/
def deed? (kind : Kind) (value : Json) (current : Option Json) : Option Deed :=
  match kind with
  | .add => some (.write (if current.any Json.isArray && !value.isArray then ["-"] else []) value)
  | .replace => some (.write [] value)
  | .remove => some .remove
  | .increment => (sum? (current.getD (.int 0)) value).map (.write [])

def Deed.edit? (ts : List String) (d : Json) : Deed → Option Json
  | .write behind value => Json.written? value (ts ++ behind) d
  | .remove => some (Json.remove ts d)

def edit? (kind : Kind) (value : Json) (ts : List String) (d : Json) : Option Json :=
  (deed? kind value (Json.lookup? ts d)).bind (Deed.edit? ts d)

theorem toOption_setAt (field : Pointer) (d value : Json) :
    (setAt field d value).toOption = Json.written? value field.tokens d := by
  simp only [setAt_eq, Pointer.set, Pointer.write, Json.written?]
  cases Json.write value field.tokens d with
  | mk d' done => cases done <;> rfl

theorem toOption_apply (c : Change) (d : Json) :
    (c.apply d).toOption = edit? c.kind c.value c.field.tokens d := by
  obtain ⟨kind, field, value⟩ := c
  have hcurrent : field.get? d = Json.lookup? field.tokens d := rfl
  simp only [Change.apply, Change.write, edit?, hcurrent]
  cases kind with
  | add =>
    simp only [deed?, Option.bind_some, Deed.edit?]
    split
    · exact toOption_setAt _ d value
    · rw [List.append_nil]
      exact toOption_setAt field d value
  | replace =>
    simp only [deed?, Option.bind_some, Deed.edit?, List.append_nil]
    exact toOption_setAt field d value
  | remove =>
    obtain ⟨_ | ⟨t, ts⟩⟩ := field <;> rfl
  | increment =>
    simp only [deed?]
    cases sum? ((Json.lookup? field.tokens d).getD (.int 0)) value with
    | none => rfl
    | some sum =>
      simp only [Option.map_some, Option.bind_some, Deed.edit?, List.append_nil]
      exact toOption_setAt field d sum

section Fields

def Deed.alter? (ts : List String) (child : Option Json) : Deed → Option (Option Json)
  | .write behind value => (Json.written? value (ts ++ behind) (child.getD (.obj []))).map some
  | .remove => some (if ts = [] then none else child.map (Json.remove ts))

def alter? (kind : Kind) (value : Json) (ts : List String) (child : Option Json) :
    Option (Option Json) :=
  (deed? kind value (child.bind (Json.lookup? ts))).bind (Deed.alter? ts child)

theorem remove_cons (t : String) (ts : List String) (h : Dict.Sorted fields) :
    Json.remove (t :: ts) (.obj fields) =
      .obj (Dict.put t (if ts = [] then none else (Dict.get? t fields).map (Json.remove ts))
        fields) := by
  cases ts with
  | nil => rfl
  | cons t' ts =>
    rw [Json.remove_below_obj]
    exact congrArg Json.obj (h.modify_eq_put t _)

/-- A change of an object alters one field, by what it finds in this field. -/
theorem edit?_obj (h : Dict.Sorted fields) (kind : Kind) (value : Json) (t : String)
    (ts : List String) :
    edit? kind value (t :: ts) (.obj fields) =
      (alter? kind value ts (Dict.get? t fields)).map fun child ↦
        .obj (Dict.put t child fields) := by
  have hlookup : Json.lookup? (t :: ts) (.obj fields) =
      (Dict.get? t fields).bind (Json.lookup? ts) := rfl
  rw [edit?, alter?, hlookup, Option.map_bind]
  congr 1
  funext deed
  cases deed with
  | write behind value =>
    simp only [Function.comp_apply, Deed.edit?, Deed.alter?, List.cons_append,
      Json.written?_cons_obj, Option.map_map]
    rfl
  | remove => exact congrArg some (remove_cons t ts h)

/-- Below a field that is there, a change is a change of what stands in this field. -/
theorem alter?_some (kind : Kind) (value : Json) (t : String) (ts : List String) (d : Json) :
    alter? kind value (t :: ts) (some d) = (edit? kind value (t :: ts) d).map some := by
  rw [edit?, alter?, Option.map_bind, Option.bind_some]
  congr 1
  funext deed
  cases deed <;> rfl

end Fields

end Patch

namespace Generic

variable {explicit names : List String} {type : Path} {top inner fields : Dict Json}
  {c : Patch.Change}

theorem Mirrors.put_top {name : String} (h : Mirrors explicit type top inner fields)
    (hname : name ∈ explicit) (htype : name ≠ typeField) (hcontent : name ≠ contentField)
    (child : Option Json) :
    Mirrors explicit type (Dict.put name child top) inner (Dict.put name child fields) where
  tagged := by rw [Dict.get?_put, if_neg htype.symm, h.tagged]
  content := by rw [Dict.get?_put, if_neg hcontent.symm, h.content]
  inside := h.inside
  shared other := by
    rw [Dict.get?_put, Dict.get?_put]
    by_cases heq : other = name
    · rw [if_pos heq, heq, if_pos hname, if_pos rfl]
    · rw [if_neg heq, if_neg heq, h.shared]
  topSorted := h.topSorted.put name child
  innerSorted := h.innerSorted
  fieldsSorted := h.fieldsSorted.put name child

theorem Mirrors.put_inner {name : String} (h : Mirrors explicit type top inner fields)
    (hcontent : contentField ∉ explicit) (hname : name ∉ explicit) (child : Option Json) :
    Mirrors explicit type (Dict.put contentField (some (.obj (Dict.put name child inner))) top)
      (Dict.put name child inner) (Dict.put name child fields) where
  tagged := by
    have hne : typeField ≠ contentField := by decide
    rw [Dict.get?_put, if_neg hne, h.tagged]
  content := by rw [Dict.get?_put, if_pos rfl]
  inside other hother := by
    have hne : other ≠ name := fun heq ↦ hname (heq ▸ hother)
    rw [Dict.get?_put, if_neg hne, h.inside other hother]
  shared other := by
    rw [Dict.get?_put, Dict.get?_put, Dict.get?_put, h.shared]
    by_cases hother : other ∈ explicit
    · have hne : other ≠ name ∧ other ≠ contentField :=
        ⟨fun heq ↦ hname (heq ▸ hother), fun heq ↦ hcontent (heq ▸ hother)⟩
      rw [if_neg hne.1, if_pos hother, if_pos hother, if_neg hne.2]
    · rw [if_neg hother, if_neg hother]
  topSorted := h.topSorted.put _ _
  innerSorted := h.innerSorted.put name child
  fieldsSorted := h.fieldsSorted.put name child

def Stands (explicit : List String) (type : Path) (stored object : Json) : Prop :=
  ∃ top inner fields, stored = .obj top ∧ object = .obj fields ∧
    Mirrors explicit type top inner fields

theorem Mirrors.stands (h : Mirrors explicit type top inner fields) :
    Stands explicit type (.obj top) (.obj fields) :=
  ⟨top, inner, fields, rfl, rfl, h⟩

theorem Mirrors.change (h : Mirrors explicit type top inner fields)
    (hcontent : contentField ∉ explicit) (hc : Inside c.field) :
    Alike (Stands explicit type) ((moved explicit c).apply (.obj top)) (c.apply (.obj fields)) := by
  obtain ⟨t, ts, hfield, htype⟩ := hc.exists_cons
  have hobject : (c.apply (.obj fields)).toOption =
      (Patch.alter? c.kind c.value ts (Dict.get? t fields)).map fun child ↦
        .obj (Dict.put t child fields) := by
    rw [Patch.toOption_apply, hfield, Patch.edit?_obj h.fieldsSorted]
  by_cases hmem : t ∈ explicit
  · -- The field is at the top of the record too, with the same value.
    have hrecord : ((moved explicit c).apply (.obj top)).toOption =
        (Patch.alter? c.kind c.value ts (Dict.get? t fields)).map fun child ↦
          .obj (Dict.put t child top) := by
      rw [Patch.toOption_apply, moved, hfield, moveField_explicit hmem,
        Patch.edit?_obj h.topSorted, h.shared, if_pos hmem]
    have hne : t ≠ contentField := fun heq ↦ hcontent (heq ▸ hmem)
    exact alike_of_toOption hrecord hobject fun child _ ↦
      (h.put_top hmem htype hne child).stands
  · -- The field is one level further down in the record, with the same value.
    have hrecord : ((moved explicit c).apply (.obj top)).toOption =
        (Patch.alter? c.kind c.value ts (Dict.get? t fields)).map fun child ↦
          .obj (Dict.put contentField (some (.obj (Dict.put t child inner))) top) := by
      rw [Patch.toOption_apply, moved, hfield, moveField_inner htype hmem,
        Patch.edit?_obj h.topSorted, h.content, Patch.alter?_some,
        Patch.edit?_obj h.innerSorted, h.shared, if_neg hmem, Option.map_map, Option.map_map]
      rfl
    exact alike_of_toOption hrecord hobject fun child _ ↦
      (h.put_inner hcontent hmem child).stands

theorem alike_apply {changes : List Patch.Change} {stored object : Json}
    (hcontent : contentField ∉ explicit) (hchanges : ∀ c ∈ changes, Inside c.field)
    (h : Stands explicit type stored object) :
    Alike (Stands explicit type) (Patch.apply (changes.map (moved explicit)) stored)
      (Patch.apply changes object) := by
  induction changes generalizing stored object with
  | nil => exact h
  | cons c cs ih =>
    obtain ⟨hc, hcs⟩ := List.forall_mem_cons.mp hchanges
    obtain ⟨top, inner, fields, rfl, rfl, hmirrors⟩ := h
    rw [List.map_cons, Patch.apply_cons, Patch.apply_cons]
    exact (hmirrors.change hcontent hc).bind fun _ _ ↦ ih hcs

/-- A patch of an object and the moved patch of its record succeed together; then the record without
its envelope still names the type and stands for the patched object without its envelope. -/
theorem patch_through_record (htype : typeField ∉ names) (hcontent : contentField ∉ names)
    (hfields : Dict.Sorted fields) (type : Path) {changes : List Patch.Change}
    (hchanges : ∀ c ∈ changes, Inside c.field) :
    Alike
      (fun stored object ↦
        unwrap (explicitFields names) stored.withoutEnvelope = object.withoutEnvelope ∧
          stored.withoutEnvelope.field? typeField = some (.str type.text))
      (Patch.apply (changes.map (moved (explicitFields names)))
        (wrap (explicitFields names) type (.obj fields)))
      (Patch.apply changes (.obj fields)) := by
  have hcontent' := contentField_not_mem hcontent
  have hstands := (mirrors_wrap (mt mem_explicitFields_type.mp htype) hcontent' hfields type).stands
  refine (alike_apply hcontent' hchanges hstands).imp ?_
  rintro _ _ ⟨top, inner, fields, rfl, rfl, h⟩
  refine ⟨h.withoutEnvelope (mem_explicitFields.mpr (.inl rfl))
    (mem_explicitFields.mpr (.inr (.inl rfl))), ?_⟩
  rw [Json.field?_withoutEnvelope (by decide) (by decide)]
  exact h.tagged

theorem user_patched_through_record :
    let names := ["userName"]
    let fields : Dict Json := [("mail", .str "m"), ("tags", .arr [.str "x"]), ("userName", .str "u")]
    let changes : List Patch.Change := [⟨.add, ⟨["tags"]⟩, .str "y"⟩,
      ⟨.replace, ⟨["address", "city"]⟩, .str "Oslo"⟩, ⟨.remove, ⟨["userName"]⟩, .null⟩]
    typeField ∉ names ∧ contentField ∉ names ∧ Dict.Sorted fields ∧
      (∀ c ∈ changes, Inside c.field) ∧
      ∃ stored object,
        Patch.apply (changes.map (moved (explicitFields names)))
          (wrap (explicitFields names) ⟨["managed", "user"]⟩ (.obj fields)) = .ok stored ∧
        Patch.apply changes (.obj fields) = .ok object ∧
        unwrap (explicitFields names) stored.withoutEnvelope = object.withoutEnvelope ∧
        stored.withoutEnvelope.field? typeField = some (.str "managed/user") := by
  intro names fields changes
  have htype : typeField ∉ names := by decide
  have hcontent : contentField ∉ names := by decide
  have hfields : Dict.Sorted fields := by decide
  have hchanges : ∀ c ∈ changes, Inside c.field := by decide
  have h := patch_through_record htype hcontent hfields ⟨["managed", "user"]⟩ hchanges
  exact ⟨htype, hcontent, hfields, hchanges, _, _, rfl, rfl, h⟩

end Generic

end RecordService
