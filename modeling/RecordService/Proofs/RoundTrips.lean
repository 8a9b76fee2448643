import RecordService.Proofs.Projection
import RecordService.Proofs.Routing

namespace RecordService

def Routes.handlers (r : Routes) : List Handler := r.default :: r.configured.map (·.2)

namespace MappingDocument

variable {d : MappingDocument} {limits : Limits} {limit : Nat} {types : TypeSections} {h : Handler}

def defaultEntry (types : TypeSections) : TypeMapping :=
  let settings := types.default.getD {}
  ⟨.empty, true, .ofText (settings.resource.getD defaultResource), settings⟩

theorem mem_handlers_routes :
    h ∈ (d.routes limits limit types).handlers ↔
      ∃ m ∈ defaultEntry types :: mappings types, h = d.handlerOf limits m := by
  have hmap : (d.routes limits limit types).handlers =
      (defaultEntry types :: mappings types).map (d.handlerOf limits) := by
    rw [Routes.handlers, routes, List.map_map, List.map_cons]
    rfl
  rw [hmap, List.mem_map]
  simp only [eq_comm]

theorem kind_handlerOf {m : TypeMapping} {explicit : List String} :
    (d.handlerOf limits m).kind = .generic explicit ↔
      m.isGeneric ∧ explicit = Generic.explicitFields m.settings.explicitProperties := by
  rw [handlerOf]
  cases m.isGeneric <;> simp [eq_comm]

/-- With an empty object at hand, listing one of the record's own names is always told. -/
theorem forall_unwrap_wrap_iff {explicit : List String} :
    (∀ type fields, Dict.Sorted fields →
      Generic.unwrap explicit (Generic.wrap explicit type (.obj fields)) = .obj fields) ↔
      Generic.typeField ∉ explicit ∧ Generic.contentField ∉ explicit := by
  constructor
  · intro hall
    have hempty := hall .empty [] Dict.sorted_nil
    rw [Generic.unwrap_wrap_eq_iff Dict.sorted_nil] at hempty
    refine ⟨fun hmem ↦ ?_, fun hmem ↦ ?_⟩
    · cases hempty.1 hmem
    · cases hempty.2 hmem
  · rintro ⟨htype, hcontent⟩ type fields hfields
    rw [Generic.unwrap_wrap_eq_iff hfields]
    exact ⟨fun hmem ↦ absurd hmem htype, fun hmem ↦ absurd hmem hcontent⟩

/-- Every generic handler of an accepted document gives back just those objects that have what the
record's own fields hold, as far as these are listed as explicit. It gives back all objects just if
neither of them is listed. -/
theorem round_trips_iff_own_unlisted (hvalid : d.validate limits = .ok ()) (hlimit : 1 ≤ limit) :
    ∃ types r, d.typeSections = .ok types ∧ Routes.ofDocument limits limit d = .ok r ∧
      ∀ h ∈ r.handlers, ∀ explicit, h.kind = .generic explicit →
        ∃ m ∈ defaultEntry types :: mappings types,
          let names := m.settings.explicitProperties
          explicit = Generic.explicitFields names ∧
          (∀ type fields, Dict.Sorted fields →
            (Generic.unwrap explicit (Generic.wrap explicit type (.obj fields)) = .obj fields ↔
              (Generic.typeField ∈ names →
                Dict.get? Generic.typeField fields = some (.str type.text)) ∧
              (Generic.contentField ∈ names → Dict.get? Generic.contentField fields =
                some (.obj (Generic.innerFields explicit fields))))) ∧
          ((∀ type fields, Dict.Sorted fields →
              Generic.unwrap explicit (Generic.wrap explicit type (.obj fields)) = .obj fields) ↔
            Generic.typeField ∉ names ∧ Generic.contentField ∉ names) := by
  obtain ⟨types, haccepted⟩ := accepted_of_validate hvalid
  refine ⟨types, _, haccepted.sections, haccepted.ofDocument_eq hvalid hlimit, ?_⟩
  intro h hh explicit hkind
  obtain ⟨m, hm, rfl⟩ := mem_handlers_routes.mp hh
  obtain ⟨-, rfl⟩ := kind_handlerOf.mp hkind
  refine ⟨m, hm, rfl, fun type fields hfields ↦ ?_, ?_⟩
  · rw [Generic.unwrap_wrap_eq_iff hfields, Generic.mem_explicitFields_type,
      Generic.mem_explicitFields_content]
  · rw [forall_unwrap_wrap_iff, Generic.mem_explicitFields_type,
      Generic.mem_explicitFields_content]

theorem config_round_trips_iff :
    let settings : TypeSettings :=
      { resource := some "configobjects", explicitProperties := ["objecttype"] }
    let d : MappingDocument :=
      { queries := some { generic := some [] }
        types := some { generic := [("config", settings)] } }
    d.validate {} = .ok () ∧ 1 ≤ 2 ∧ ∃ types r, d.typeSections = .ok types ∧
      Routes.ofDocument {} 2 d = .ok r ∧
      ∀ h ∈ r.handlers, ∀ explicit, h.kind = .generic explicit →
        ∃ m ∈ defaultEntry types :: mappings types,
          let names := m.settings.explicitProperties
          explicit = Generic.explicitFields names ∧
          (∀ type fields, Dict.Sorted fields →
            (Generic.unwrap explicit (Generic.wrap explicit type (.obj fields)) = .obj fields ↔
              (Generic.typeField ∈ names →
                Dict.get? Generic.typeField fields = some (.str type.text)) ∧
              (Generic.contentField ∈ names → Dict.get? Generic.contentField fields =
                some (.obj (Generic.innerFields explicit fields))))) ∧
          ((∀ type fields, Dict.Sorted fields →
              Generic.unwrap explicit (Generic.wrap explicit type (.obj fields)) = .obj fields) ↔
            Generic.typeField ∉ names ∧ Generic.contentField ∉ names) := by
  intro settings d
  have hvalid : d.validate {} = .ok () := by rfl
  have hlimit : 1 ≤ 2 := by decide
  exact ⟨hvalid, hlimit, round_trips_iff_own_unlisted hvalid hlimit⟩

/-- Where the name of the record's own content is listed, an object comes back with a field that it
never had. -/
theorem content_field_invented :
    ¬ ∀ (d : MappingDocument) (r : Routes), d.validate {} = .ok () →
      Routes.ofDocument {} 1 d = .ok r → ∀ h ∈ r.handlers, ∀ explicit,
        h.kind = .generic explicit → ∀ (type : Path) (fields : Dict Json), Dict.Sorted fields →
          Generic.unwrap explicit (Generic.wrap explicit type (.obj fields)) = .obj fields := by
  intro hall
  let settings : TypeSettings :=
    { resource := some "configobjects", explicitProperties := ["fullobject"] }
  let types : TypeSections := { generic := [("config", settings)] }
  let d : MappingDocument :=
    { queries := some { generic := some [] }, types := some types }
  have hvalid : d.validate {} = .ok () := by rfl
  obtain ⟨types', haccepted⟩ := accepted_of_validate hvalid
  obtain rfl : types = types' := Except.ok.inj haccepted.sections
  let m : TypeMapping := ⟨typeOfKey "config", true, .ofText "configobjects", settings⟩
  have hm : m ∈ defaultEntry types :: mappings types := List.mem_cons_of_mem _ List.mem_cons_self
  have hsame := hall d _ hvalid (haccepted.ofDocument_eq hvalid (Nat.le_refl 1)) _
    (mem_handlers_routes.mpr ⟨m, hm, rfl⟩) _ rfl ⟨["config"]⟩ [("name", .str "ui")] (by decide)
  exact absurd hsame (by decide)

end MappingDocument

end RecordService
