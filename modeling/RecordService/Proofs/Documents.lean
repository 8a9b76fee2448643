import RecordService.Mapping.Document
import RecordService.Proofs.Address
import RecordService.Proofs.Results
import Mathlib.Data.List.Nodup

namespace RecordService

theorem mapError_eq_ok {ε ε' α : Type} {x : Except ε α} {f : ε → ε'} {a : α} :
    x.mapError f = .ok a ↔ x = .ok a := by
  cases x <;> simp [Except.mapError]

namespace MappingDocument

variable {d : MappingDocument} {limits : Limits}

def genericMapping? (entry : String × TypeSettings) : Option TypeMapping :=
  entry.2.resource.map fun resource ↦ ⟨typeOfKey entry.1, true, .ofText resource, entry.2⟩

def explicitMapping (entry : String × TypeSettings) : TypeMapping :=
  ⟨typeOfKey entry.1, false, typeOfKey entry.1, entry.2⟩

def mappings (types : TypeSections) : List TypeMapping :=
  types.generic.filterMap genericMapping? ++ types.explicit.map explicitMapping

theorem addMapping_eq_ok {m : TypeMapping} {before after : List TypeMapping} :
    addMapping m before = .ok after ↔ (∀ b ∈ before, b.type ≠ m.type) ∧ after = before ++ [m] := by
  unfold addMapping
  split
  · rename_i h
    obtain ⟨b, hb, hsame⟩ := List.any_eq_true.mp h
    exact iff_of_false nofun fun hall ↦ hall.1 b hb (of_decide_eq_true hsame)
  · rename_i h
    have hnew : ∀ b ∈ before, b.type ≠ m.type := by
      intro b hb hsame
      exact h (List.any_eq_true.mpr ⟨b, hb, decide_eq_true hsame⟩)
    rw [Except.ok.injEq, eq_comm, and_iff_right hnew]

/-- Adding mappings one after the other gives all of them, if none is missing and no two of them map
one type. -/
theorem foldlM_eq_ok
    {add : List TypeMapping → String × TypeSettings → Except MappingError (List TypeMapping)}
    (mapping? : String × TypeSettings → Option TypeMapping)
    (hadd : ∀ before entry after, add before entry = .ok after →
      ∃ m, mapping? entry = some m ∧ addMapping m before = .ok after)
    {entries : List (String × TypeSettings)} {before after : List TypeMapping}
    (h : entries.foldlM add before = .ok after) (hbefore : (before.map (·.type)).Nodup) :
    after = before ++ entries.filterMap mapping? ∧ (after.map (·.type)).Nodup ∧
      ∀ entry ∈ entries, (mapping? entry).isSome := by
  induction entries generalizing before with
  | nil =>
    obtain rfl := Except.ok.inj h
    exact ⟨(List.append_nil _).symm, hbefore, List.forall_mem_nil _⟩
  | cons entry entries ih =>
    rw [List.foldlM_cons] at h
    obtain ⟨middle, hmiddle, hrest⟩ := bind_eq_ok.mp h
    obtain ⟨m, hm, hadded⟩ := hadd before entry middle hmiddle
    obtain ⟨hnew, rfl⟩ := addMapping_eq_ok.mp hadded
    have hnodup : ((before ++ [m]).map (·.type)).Nodup := by
      rw [List.map_append, List.nodup_append]
      refine ⟨hbefore, List.nodup_singleton _, fun p hp q hq ↦ ?_⟩
      obtain ⟨b, hb, rfl⟩ := List.mem_map.mp hp
      rw [List.map_singleton, List.mem_singleton] at hq
      exact hq ▸ hnew b hb
    obtain ⟨rfl, hafter, hrest⟩ := ih hrest hnodup
    have hentry : (mapping? entry).isSome := by rw [hm]; rfl
    refine ⟨?_, hafter, List.forall_mem_cons.mpr ⟨hentry, hrest⟩⟩
    rw [List.filterMap_cons_some hm, List.append_assoc, List.singleton_append]

theorem typeMappings_eq_ok {ms : List TypeMapping} (h : d.typeMappings = .ok ms) :
    ∃ types, d.typeSections = .ok types ∧ ms = mappings types ∧ (ms.map (·.type)).Nodup ∧
      ∀ entry ∈ types.generic, (genericMapping? entry).isSome := by
  obtain ⟨types, htypes, h⟩ := bind_eq_ok.mp h
  obtain ⟨generic, hgeneric, hexplicit⟩ := bind_eq_ok.mp h
  have haddGeneric : ∀ before entry after, addGeneric before entry = .ok after →
      ∃ m, genericMapping? entry = some m ∧ addMapping m before = .ok after := by
    intro before entry after h
    unfold addGeneric at h
    split at h
    · cases h
    · rename_i resource hresource
      exact ⟨_, by rw [genericMapping?, hresource]; rfl, h⟩
  obtain ⟨rfl, hnodup, hresources⟩ := foldlM_eq_ok _ haddGeneric hgeneric List.nodup_nil
  obtain ⟨rfl, hnodup, -⟩ := foldlM_eq_ok (fun entry ↦ some (explicitMapping entry))
    (fun _ _ _ h ↦ ⟨_, rfl, h⟩) hexplicit hnodup
  refine ⟨types, htypes, ?_, hnodup, hresources⟩
  simp [mappings, List.filterMap_eq_map']

structure Accepted (limits : Limits) (d : MappingDocument) (types : TypeSections) : Prop where
  sections : d.typeSections = .ok types
  generic : ∃ queries, d.genericQueries = .ok queries
  explicit : types.explicit ≠ [] → ∃ queries, d.explicitQueries = .ok queries
  checked : ∀ entry ∈ d.definitions, entry.2.check limits = .ok ()
  mapped : d.typeMappings = .ok (mappings types)
  distinct : ((mappings types).map (·.type)).Nodup
  resources : ∀ entry ∈ types.generic, (genericMapping? entry).isSome

theorem check_of_forM {entries : List (String × Definition)}
    (h : entries.forM (checkDefinition limits) = .ok ()) :
    ∀ entry ∈ entries, entry.2.check limits = .ok () := by
  induction entries with
  | nil => exact List.forall_mem_nil _
  | cons entry entries ih =>
    obtain ⟨_, hentry, hrest⟩ := bind_eq_ok.mp h
    exact List.forall_mem_cons.mpr ⟨mapError_eq_ok.mp hentry, ih hrest⟩

theorem accepted_of_validate (h : d.validate limits = .ok ()) :
    ∃ types, Accepted limits d types := by
  obtain ⟨queries, hqueries, h⟩ := bind_eq_ok.mp h
  obtain ⟨types, htypes, h⟩ := bind_eq_ok.mp h
  -- The explicit queries are only asked for if some type is explicit.
  have hexplicit : (types.explicit ≠ [] → ∃ queries, d.explicitQueries = .ok queries) ∧
      (do d.definitions.forM (checkDefinition limits)
          let _ ← d.typeMappings
          .ok ()) = Except.ok () := by
    split at h
    · obtain ⟨queries, hqueries, h⟩ := bind_eq_ok.mp h
      exact ⟨fun _ ↦ ⟨queries, hqueries⟩, h⟩
    · rename_i hempty
      exact ⟨fun hne ↦ absurd (by simpa using hne) hempty, h⟩
  obtain ⟨hexplicit, h⟩ := hexplicit
  obtain ⟨_, hchecked, h⟩ := bind_eq_ok.mp h
  obtain ⟨ms, hmapped, -⟩ := bind_eq_ok.mp h
  obtain ⟨types', htypes', rfl, hdistinct, hresources⟩ := typeMappings_eq_ok hmapped
  obtain rfl := Except.ok.inj (htypes.symm.trans htypes')
  exact ⟨types, htypes, ⟨queries, hqueries⟩, hexplicit, check_of_forM hchecked, hmapped, hdistinct,
    hresources⟩

end MappingDocument

end RecordService
