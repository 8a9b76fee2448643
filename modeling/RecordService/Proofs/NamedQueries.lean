import RecordService.Proofs.Clauses
import RecordService.Proofs.Dictionaries
import RecordService.Proofs.NormalForms
import RecordService.Proofs.Routing

namespace RecordService

open Template (Supplied)

namespace Query

variable {q normal : Query} {cap : Int} {id : String}

theorem expression_of_checkForm (h : q.checkForm = .ok ()) (hid : q.queryId = some id) :
    q.expression = none := by
  have hform := checkForm_iff.mp h
  simp only [hid, Option.isSome_some, not_true_eq_false, false_and, true_and, or_false] at hform
  simpa using hform.2

theorem named_of_normalize (h : q.normalize cap = .ok normal) (hid : normal.queryId = some id) :
    normal.expression = none ∧ normal.parameters = q.parameters := by
  obtain ⟨hform, -, -, hn⟩ := checks_of_normalize h
  rw [hn] at hid ⊢
  exact ⟨expression_of_checkForm hform hid, rfl⟩

end Query

namespace Definition

variable {limits : Limits} {d : Definition} {parameters : Dict String}

theorem wellFormed_of_check (h : d.check limits = .ok ()) :
    (∃ f, Where.filter limits.depth d.filter = .ok f) ∧ ∃ keys, d.sorting = .ok keys := by
  obtain ⟨f, hf, h⟩ := bind_eq_ok.mp h
  obtain ⟨keys, hkeys, -⟩ := bind_eq_ok.mp h
  exact ⟨⟨f, hf⟩, keys, hkeys⟩

theorem exists_resolve_iff (h : d.check limits = .ok ()) :
    (∃ f, d.resolve limits parameters = .ok f) ↔ Supplied parameters d.filter := by
  rw [← Template.exists_fill_iff]
  constructor
  · rintro ⟨f, hf⟩
    obtain ⟨w, hw, -⟩ := bind_eq_ok.mp hf
    exact ⟨w, hw⟩
  · rintro ⟨w, hw⟩
    -- What was checked with the tokens in it is still well formed with their values.
    obtain ⟨f, hf⟩ := (Where.filter_alike hw).exists_iff.mp (wellFormed_of_check h).1
    exact ⟨f, bind_eq_ok.mpr ⟨w, hw, orBadRequest_eq_ok.mpr hf⟩⟩

end Definition

namespace Catalog

variable {c : Catalog} {limits : Limits} {id : String} {definition : Definition}

theorem exists_resolveQuery_iff {q normal : Query}
    (hnormal : q.normalize limits.pageSize = .ok normal) (hid : normal.queryId = some id)
    (hdefinition : c.query id = .ok definition) (hcheck : definition.check limits = .ok ()) :
    (∃ resolved, c.resolveQuery limits q = .ok resolved) ↔
      Supplied q.parameters definition.filter := by
  obtain ⟨hexpression, hparameters⟩ := Query.named_of_normalize hnormal hid
  obtain ⟨keys, hkeys⟩ := (Definition.wellFormed_of_check hcheck).2
  rw [← Definition.exists_resolve_iff hcheck, ← hparameters, resolveQuery,
    orBadRequest_eq_ok.mpr hnormal, ok_bind, hexpression, hid]
  simp only [Option.isSome_none, Bool.false_eq_true, if_false, hdefinition, ok_bind]
  constructor
  · rintro ⟨resolved, h⟩
    obtain ⟨f, hf, -⟩ := bind_eq_ok.mp h
    exact ⟨f, hf⟩
  · rintro ⟨f, hf⟩
    rw [hf, ok_bind]
    split
    · rw [orBadRequest_eq_ok.mpr hkeys]
      exact ⟨_, rfl⟩
    · exact ⟨_, rfl⟩

theorem exists_resolveCommand_iff {parameters : Dict String}
    (hid : Dict.get? commandParameter parameters = some id)
    (hdefinition : Dict.get? id c.commands = some definition)
    (hcheck : definition.check limits = .ok ()) :
    (∃ f, c.resolveCommand limits parameters = .ok f) ↔
      Supplied parameters definition.filter := by
  rw [← Definition.exists_resolve_iff hcheck]
  simp only [resolveCommand, hid, hdefinition]

theorem check_of_query (hall : ∀ entry ∈ c.queries, entry.2.check limits = .ok ())
    (hdefinition : c.query id = .ok definition) : definition.check limits = .ok () := by
  unfold query at hdefinition
  split at hdefinition
  · rename_i found hfound
    cases hdefinition
    exact hall _ (Dict.mem_of_get? hfound)
  · split at hdefinition
    · cases hdefinition
      rfl
    · cases hdefinition

end Catalog

namespace MappingDocument

variable {limits : Limits} {d : MappingDocument}

/-- Named queries and commands resolve whenever the tokens of their filters have parameters. -/
structure Resolvable (limits : Limits) (d : MappingDocument) : Prop where
  definition : ∀ entry ∈ d.definitions, (∃ keys, entry.2.sorting = .ok keys) ∧
    ∀ parameters, (∃ f, entry.2.resolve limits parameters = .ok f) ↔
      Supplied parameters entry.2.filter
  query : ∀ m q normal id definition, q.normalize limits.pageSize = .ok normal →
    normal.queryId = some id → (d.handlerOf limits m).catalog.query id = .ok definition →
    ((∃ resolved, (d.handlerOf limits m).catalog.resolveQuery limits q = .ok resolved) ↔
      Supplied q.parameters definition.filter)
  command : ∀ m parameters id definition,
    Dict.get? Catalog.commandParameter parameters = some id →
    Dict.get? id (d.handlerOf limits m).catalog.commands = some definition →
    ((∃ f, (d.handlerOf limits m).catalog.resolveCommand limits parameters = .ok f) ↔
      Supplied parameters definition.filter)

theorem mem_definitions_of_mem_queriesFor {isGeneric : Bool} {entry : String × Definition}
    (h : entry ∈ d.queriesFor isGeneric) : entry ∈ d.definitions := by
  unfold queriesFor at h
  unfold definitions
  cases hqueries : d.queries with
  | none => simp [hqueries] at h
  | some queries => cases isGeneric <;> simp_all

theorem resolvable_of_validate (h : d.validate limits = .ok ()) : Resolvable limits d := by
  obtain ⟨types, haccepted⟩ := accepted_of_validate h
  have hqueries (m : TypeMapping) :
      ∀ entry ∈ (d.handlerOf limits m).catalog.queries, entry.2.check limits = .ok () :=
    fun entry hentry ↦ haccepted.checked entry (mem_definitions_of_mem_queriesFor hentry)
  refine ⟨?_, ?_, ?_⟩
  · intro entry hentry
    have hcheck := haccepted.checked entry hentry
    exact ⟨(Definition.wellFormed_of_check hcheck).2, fun _ ↦ Definition.exists_resolve_iff hcheck⟩
  · intro m q normal id definition hnormal hid hdefinition
    have hcheck := Catalog.check_of_query (hqueries m) hdefinition
    exact Catalog.exists_resolveQuery_iff hnormal hid hdefinition hcheck
  · intro m parameters id definition hid hdefinition
    have hmem : (id, definition) ∈ d.definitions :=
      List.mem_append_right _ (Dict.mem_of_get? hdefinition)
    exact Catalog.exists_resolveCommand_iff hid hdefinition (haccepted.checked _ hmem)

/-- No parameter changes more of a filter than the operands that it is filled into, and nothing but
a missing parameter keeps a named query or command of an accepted document from being resolved. -/
theorem filled_alike_and_resolvable :
    (∀ limit parameters w w', Template.fill parameters w = .ok w' →
      Alike (Filter.Filled parameters) (Where.filter limit w) (Where.filter limit w')) ∧
    ∀ limits d, validate limits d = .ok () → Resolvable limits d :=
  ⟨fun _ _ _ _ ↦ Where.filter_alike, fun _ _ ↦ resolvable_of_validate⟩

/-- A parameter that reads like a clause is compared with as text. -/
theorem clause_in_parameter :
    let w : Json := .obj [("name", .str "$\x7bname\x7d")]
    let parameters : Dict String := [("name", "\x7b\"$ne\": 0\x7d")]
    let w' : Json := .obj [("name", .str "\x7b\"$ne\": 0\x7d")]
    let d : MappingDocument :=
      { queries := some { generic := some [("find-by-name", { filter := w })] }, types := some {} }
    Template.fill parameters w = .ok w' ∧ d.validate {} = .ok () ∧
      Alike (Filter.Filled parameters) (Where.filter 10 w) (Where.filter 10 w') ∧
      Resolvable {} d := by
  intro w parameters w' d
  have hfill : Template.fill parameters w = .ok w' := by rfl
  have hvalid : d.validate {} = .ok () := by rfl
  exact ⟨hfill, hvalid, filled_alike_and_resolvable.1 10 parameters w w' hfill,
    filled_alike_and_resolvable.2 {} d hvalid⟩

end MappingDocument

end RecordService
