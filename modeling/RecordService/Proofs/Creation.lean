import RecordService.Proofs.Projection
import RecordService.Proofs.Runs

namespace RecordService

namespace Store

variable {s t : Store} {c : Option Connection} {path : Path} {asked : Option String}
  {content : Json} {record : Record}

structure Created (s : Store) (path : Path) (asked : Option String) (content : Json)
    (record : Record) (t : Store) : Prop where
  chosen : record.id =
    (asked.or ((content.field? idField).bind Json.str?)).getD (s.mint s.minted)
  free : s.find? path record.id = none
  told : record = Entry.record ⟨path, record.id, 1, content.withoutEnvelope⟩
  added : t.entries = s.entries ++ [⟨path, record.id, 1, content.withoutEnvelope⟩]

theorem created_of_create (h : s.create path asked content = (.ok record, t)) :
    s.Created path asked content record t := by
  obtain ⟨hfree, rfl, rfl⟩ := create_eq_ok.mp h
  exact ⟨s.fst_chooseId asked content, hfree, rfl, by rw [insert, entries_chooseId]; rfl⟩

theorem created_of_perform (h : (s.perform c (.create path asked content)).1 = .ok record) :
    s.Created path asked content record (s.perform c (.create path asked content)).2 := by
  cases hc : checkConnection c with
  | error fault => simp [perform, performFor, hc] at h
  | ok =>
    rw [perform_of_open hc] at h ⊢
    obtain ⟨hchosen, hfree, htold, hadded⟩ := created_of_create (Prod.ext h rfl)
    exact ⟨hchosen, hfree, htold, hadded⟩

end Store

namespace Handler

variable {h : Handler} {s : Store} {c : Option Connection} {type : Path} {id : String}
  {asked : Option String} {content : Json} {fields : Dict Json} {record : Record}

def place (h : Handler) (type : Path) : Path :=
  match h.kind with
  | .explicit => h.resource
  | .generic _ => h.typeCollection type

def enclose (h : Handler) (type : Path) (content : Json) : Json :=
  match h.kind with
  | .explicit => content
  | .generic explicit => Generic.wrap explicit type content

def disclose (h : Handler) (r : Record) : Record :=
  match h.kind with
  | .explicit => r
  | .generic explicit => unwrapped explicit r

/-- The fields at the top of records leave the names of the record's own fields to the objects. -/
def Faithful (h : Handler) : Prop :=
  ∀ explicit, h.kind = .generic explicit → ∃ names, explicit = Generic.explicitFields names ∧
    Generic.typeField ∉ names ∧ Generic.contentField ∉ names

theorem disclose_id (h : Handler) (r : Record) : (h.disclose r).id = r.id := by
  unfold disclose
  split <;> rfl

theorem plan_create_object (hcontent : content.isObject) (type : Path) (asked : Option String) :
    h.plan (.create type asked content) =
      Plan.through (.create (h.place type) asked (h.enclose type content))
        fun record ↦ .ok (h.disclose record) := by
  obtain ⟨kind, resource, catalog, limits⟩ := h
  cases kind with
  | explicit => exact Plan.askFor_eq_throughFor .all _
  | generic explicit =>
    rw [plan_generic rfl]
    simp only [genericPlan, requireObject, hcontent, if_true]
    rfl

def fresh (h : Handler) (type : Path) (id : String) (content : Json) : Entry :=
  ⟨h.place type, id, 1, (h.enclose type content).withoutEnvelope⟩

/-- Of a record, what is told is what was stored of the object, less identifier and revision. -/
theorem disclose_enclose (hf : h.Faithful) (hfields : Dict.Sorted fields) (type : Path)
    (id revision : String) :
    h.disclose ⟨id, revision, (h.enclose type (.obj fields)).withoutEnvelope⟩ =
      ⟨id, revision, (Json.obj fields).withoutEnvelope⟩ := by
  obtain ⟨kind, resource, catalog, limits⟩ := h
  cases kind with
  | explicit => rfl
  | generic explicit =>
    obtain ⟨names, rfl, htype, hcontent⟩ := hf explicit rfl
    have hmirrors := Generic.mirrors_wrap (mt Generic.mem_explicitFields_type.mp htype)
      (Generic.contentField_not_mem hcontent) hfields type
    have hunwrap := hmirrors.withoutEnvelope (Generic.mem_explicitFields.mpr (.inl rfl))
      (Generic.mem_explicitFields.mpr (.inr (.inl rfl)))
    exact congrArg (Record.mk id revision) hunwrap

theorem disclose_fresh (hf : h.Faithful) (hfields : Dict.Sorted fields) (type : Path)
    (id : String) : h.disclose (h.fresh type id (.obj fields)).record =
      ⟨id, "1", (Json.obj fields).withoutEnvelope⟩ := by
  have hone : toString 1 = "1" := by decide
  exact (disclose_enclose hf hfields type id _).trans (congrArg (Record.mk id · _) hone)

theorem field?_enclose (hf : h.Faithful) (type : Path) :
    (h.enclose type (.obj fields)).field? idField = (Json.obj fields).field? idField := by
  cases hkind : h.kind with
  | explicit => simp only [enclose, hkind]
  | generic explicit =>
    obtain ⟨names, rfl, -, -⟩ := hf explicit hkind
    have hmem : idField ∈ Generic.explicitFields names := Generic.mem_explicitFields.mpr (.inl rfl)
    simp only [enclose, hkind]
    rw [Generic.wrap_fields, Json.field?_obj, Generic.get?_topFields, if_neg (by decide),
      if_neg (by decide), if_pos hmem]
    rfl

structure Creates (h : Handler) (s : Store) (type : Path) (asked : Option String)
    (fields : Dict Json) (record : Record) (t : Store) : Prop where
  chosen : record.id =
    (asked.or (((Json.obj fields).field? idField).bind Json.str?)).getD (s.mint s.minted)
  free : s.find? (h.place type) record.id = none
  told : record = ⟨record.id, "1", (Json.obj fields).withoutEnvelope⟩
  kept : h.disclose (h.fresh type record.id (.obj fields)).record = record
  added : t.entries = s.entries ++ [h.fresh type record.id (.obj fields)]

theorem creates_of_answer (hf : h.Faithful) (hfields : Dict.Sorted fields)
    (hanswer : h.answer c (.create type asked (.obj fields)) s = .ok record) :
    h.Creates s type asked fields record (h.after c (.create type asked (.obj fields)) s) := by
  have hobject : (Json.obj fields).isObject := rfl
  obtain ⟨hserved, hafter⟩ := serve_of_plan (plan_create_object hobject type asked) c s
  obtain ⟨stored, hperform, hrecord⟩ := bind_eq_ok.mp (hserved.symm.trans hanswer)
  obtain ⟨hchosen, hfree, htold, hadded⟩ := Store.created_of_perform hperform
  obtain rfl := Except.ok.inj hrecord
  have hid : (h.disclose stored).id = stored.id := h.disclose_id stored
  have hkept : h.disclose (h.fresh type stored.id (.obj fields)).record = h.disclose stored :=
    congrArg h.disclose htold.symm
  rw [field?_enclose hf] at hchosen
  refine ⟨?_, ?_, ?_, ?_, ?_⟩
  · rw [hid, hchosen]
  · rw [hid, hfree]
  · rw [hid, ← hkept, disclose_fresh hf hfields]
  · rw [hid, hkept]
  · rw [hid, hafter, hadded]
    rfl

end Handler

end RecordService
