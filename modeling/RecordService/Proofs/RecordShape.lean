import RecordService.Proofs.TypedStore

namespace RecordService.Handler

variable {h : Handler} {explicit names : List String} {allowed : Patch.Kind → Pointer → Prop}
  {c : Option Connection} {s : Store} {type : Path} {id : String}

theorem after_create (hkind : h.kind = .generic explicit) (hc : Store.checkConnection c = .ok ())
    {content : Json} (hcontent : content.isObject)
    (hnone : s.find? (h.typeCollection type) id = none) :
    (h.after c (.create type (some id) content) s).entries = s.entries ++
      [⟨h.typeCollection type, id, 1, (Generic.wrap explicit type content).withoutEnvelope⟩] := by
  rw [(serve_of_plan (plan_create hkind hcontent type (some id)) c s).2]
  rw [Store.perform_of_open hc, Store.run, Store.create_eq_ok.mpr ⟨hnone, rfl, rfl⟩]
  rfl

theorem after_patch (hkind : h.kind = .generic explicit) (hc : Store.checkConnection c = .ok ())
    (hid : PlainSegment id) {changes : List Patch.Change} {e : Entry} {content : Json}
    (hfind : s.find? (h.typeCollection type) id = some e)
    (hcontent : Patch.apply (changes.map (Generic.moved explicit)) e.content = .ok content) :
    (h.after c (.patch (type ++ ⟨[id]⟩) none changes) s).entries =
      (s.revise e content).2.entries := by
  rw [(serve_of_plan (plan_patch hkind hid type none changes) c s).2]
  have hentry : s.counted.entryAt (h.typeCollection type ++ ⟨[id]⟩) = .ok e :=
    Store.entryAt_of_find? hfind
  rw [Store.perform_of_open hc, Store.run,
    Store.patch_eq_ok.mpr ⟨e, content, hentry, rfl, hcontent, rfl, rfl⟩]
  rfl

theorem exists_misshapen (hkind : h.kind = .generic explicit) (htype : type.Clean)
    (hid : PlainSegment id) {kind : Patch.Kind} {field : Pointer} (hallowed : allowed kind field)
    (hr : Generic.Reshapes kind field) :
    ∃ s, h.Reaches (Request.Permitted allowed) s ∧ ∃ e ∈ s.entries,
      e.collection = h.typeCollection type ∧ ¬ Generic.Stored explicit type e.content := by
  -- The change is made to a new, empty object.
  let c : Option Connection := some ⟨"", false⟩
  let create : Request := .create type (some id) (.obj [])
  let patch : Request := .patch (type ++ ⟨[id]⟩) none [⟨kind, field, .null⟩]
  let s := h.after c create (.empty fun _ ↦ "")
  let e : Entry :=
    ⟨h.typeCollection type, id, 1, (Generic.wrap explicit type (.obj [])).withoutEnvelope⟩
  have hentries : s.entries = [e] := after_create hkind rfl rfl rfl
  have hfind : s.find? (h.typeCollection type) id = some e := by
    simp [Store.find?, hentries, e, Entry.isAt]
  have hwrapped : Generic.Stored explicit type (Generic.wrap explicit type (.obj [])) :=
    Generic.stored_wrap rfl
  obtain ⟨content, happly, hnot⟩ := hwrapped.withoutEnvelope.reshaped hr
  have hchanges : Patch.apply ([⟨kind, field, .null⟩].map (Generic.moved explicit)) e.content =
      .ok content := by
    rw [List.map_singleton, Patch.apply_cons, happly]
    rfl
  have hpatched := after_patch hkind (c := c) rfl hid hfind hchanges
  have hcreate : create.Permitted allowed := Request.permitted_of_unchanging htype rfl
  have hpatch : patch.Permitted allowed :=
    ⟨htype.single hid, fun change hchange ↦ by rwa [List.mem_singleton.mp hchange]⟩
  refine ⟨h.after c patch s, .serve c patch (.serve c create (.empty _) hcreate) hpatch, ?_⟩
  rw [hpatched]
  have he : e ∈ s.entries := hentries ▸ List.mem_singleton_self e
  exact ⟨_, Store.revised_mem he content, rfl, hnot⟩

/-- Records have their shape in every store a handler leads to just if the changes it lets through
stay inside the objects. -/
theorem stored_iff (hkind : h.kind = .generic (Generic.explicitFields names))
    (hnames : Generic.contentField ∉ names) :
    (∀ s, h.Reaches (Request.Permitted allowed) s →
      ∀ type e, e ∈ s.entries → e.collection = h.typeCollection type →
        Generic.Stored (Generic.explicitFields names) type e.content) ↔
      ∀ kind field, allowed kind field → ¬ Generic.Reshapes kind field := by
  constructor
  · intro hshape kind field hallowed hr
    have htype : (⟨["t"]⟩ : Path).Clean := by decide
    have hid : PlainSegment "x" := by decide
    obtain ⟨s, hs, e, he, hcollection, hnot⟩ := exists_misshapen hkind htype hid hallowed hr
    exact hnot (hshape s hs _ e he hcollection)
  · intro hallowed s hs type e he hcollection
    have hkept : Kept (Generic.explicitFields names) allowed (Generic.Stored _) :=
      kept_stored (Generic.contentField_not_mem hnames) hallowed
    obtain ⟨type', -, htype', hstored⟩ := hs.typed hkind hkept e he
    obtain rfl := Path.append_left_cancel (hcollection.symm.trans htype')
    exact hstored

theorem stored_iff_inside :
    Generic.contentField ∉ ["userName"] ∧
      let h : Handler :=
        ⟨.generic (Generic.explicitFields ["userName"]), ⟨["managedobjects"]⟩, {}, {}⟩
      ((∀ s, h.Reaches (Request.Permitted fun _ field ↦ Generic.Inside field) s →
        ∀ type e, e ∈ s.entries → e.collection = h.typeCollection type →
          Generic.Stored (Generic.explicitFields ["userName"]) type e.content) ↔
        ∀ kind field, Generic.Inside field → ¬ Generic.Reshapes kind field) :=
  ⟨by decide, stored_iff rfl (by decide)⟩

/-- A patch can put a record of one type under the name of another. -/
theorem tag_overwritten :
    let h : Handler := ⟨.generic (Generic.explicitFields []), ⟨["managedobjects"]⟩, {}, {}⟩
    ¬ ∀ s, h.Reaches (Request.Permitted fun _ _ ↦ True) s →
      ∀ type e, e ∈ s.entries → e.collection = h.typeCollection type →
        Generic.Stored (Generic.explicitFields []) type e.content := by
  intro h hshape
  let c : Option Connection := some ⟨"local-1", false⟩
  let create : Request := .create ⟨["managed", "user"]⟩ (some "p") (.obj [("n", .int 1)])
  let patch : Request := .patch ⟨["managed", "user", "p"]⟩ none
    [⟨.replace, .ofText "objecttype", .str "managed/role"⟩]
  have hcreate : create.Permitted fun _ _ ↦ True := ⟨by decide, fun _ _ ↦ trivial⟩
  have hpatch : patch.Permitted fun _ _ ↦ True := ⟨by decide, fun _ _ ↦ trivial⟩
  let s := h.after c patch (h.after c create (.empty fun _ ↦ ""))
  let e : Entry := ⟨⟨["managedobjects", "managed", "user"]⟩, "p", 2,
    .obj [("fullobject", .obj [("n", .int 1)]), ("objecttype", .str "managed/role")]⟩
  have he : s.entries = [e] := by rfl
  have hstored := hshape s (.serve c patch (.serve c create (.empty _) hcreate) hpatch)
    ⟨["managed", "user"]⟩ e (he ▸ List.mem_singleton_self e) rfl
  exact absurd hstored.tagged (by decide)

end RecordService.Handler
