import RecordService.Proofs.GenericPlans

namespace RecordService

namespace Handler

variable {h : Handler} {explicit : List String} {allowed : Patch.Kind → Pointer → Prop}
  {r : Request} {s : Store} {fits : Path → Json → Prop}

/-- Every entry lies in the collection of one type, with a content that fits this type. -/
def Typed (h : Handler) (fits : Path → Json → Prop) (entries : List Entry) : Prop :=
  ∀ e ∈ entries, ∃ type, type.Clean ∧ e.collection = h.typeCollection type ∧ fits type e.content

/-- What records have from being wrapped and keep through every change that is allowed. -/
structure Kept (explicit : List String) (allowed : Patch.Kind → Pointer → Prop)
    (fits : Path → Json → Prop) : Prop where
  wrapped {type : Path} {content : Json} : content.isObject →
    fits type (Generic.wrap explicit type content)
  moved {type : Path} {c : Patch.Change} {d d' : Json} : fits type d → allowed c.kind c.field →
    (Generic.moved explicit c).apply d = .ok d' → fits type d'
  bare {type : Path} {d : Json} : fits type d → fits type d.withoutEnvelope

theorem Kept.patched (hk : Kept explicit allowed fits) {changes : List Patch.Change} {d d' : Json}
    (hchanges : ∀ c ∈ changes, allowed c.kind c.field) (hd : fits type d)
    (hd' : Patch.apply (changes.map (Generic.moved explicit)) d = .ok d') : fits type d' := by
  refine Patch.apply_induction (fun c hc d d' hd happly ↦ ?_) hd hd'
  obtain ⟨c, hmem, rfl⟩ := List.mem_map.mp hc
  exact hk.moved hd (hchanges c hmem) happly

theorem kept_stored (hcontent : Generic.contentField ∉ explicit)
    (hallowed : ∀ kind field, allowed kind field → ¬ Generic.Reshapes kind field) :
    Kept explicit allowed (Generic.Stored explicit) where
  wrapped := Generic.stored_wrap
  moved hd hc happly := hd.moved hcontent (hallowed _ _ hc) happly
  bare := Generic.Stored.withoutEnvelope

/-- What is kept holds of every entry, however a handler came to it. -/
theorem Reaches.typed (hkind : h.kind = .generic explicit) (hk : Kept explicit allowed fits)
    (hs : h.Reaches (Request.Permitted allowed) s) : h.Typed fits s.entries := by
  let keeps (collection : Path) (content : Json) : Prop :=
    ∃ type : Path, type.Clean ∧ collection = h.typeCollection type ∧ fits type content
  induction hs with
  | empty => exact fun e he ↦ absurd he List.not_mem_nil
  | serve c r _ hr ih =>
    have hcalls : (h.plan r).Calls (Request.Preserves keeps) := by
      rw [plan_generic hkind]
      refine genericPlan_preserves .all hr.1 (fun content hobject ↦ ?_) fun d d' hd happly ↦ ?_
      · exact ⟨_, Request.clean_typePath hr.1, rfl, hk.bare (hk.wrapped hobject)⟩
      · obtain ⟨type, hclean, hcollection, hfits⟩ := hd
        exact ⟨type, hclean, hcollection, hk.bare (hk.patched hr.2 hfits happly)⟩
    exact Plan.run_keeps hcalls
      (fun accepts c r s hr hs ↦ (s.perform_step accepts c r).preserves hr hs) c ih

end Handler

end RecordService
