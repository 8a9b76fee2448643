import RecordService.Proofs.Listing

namespace RecordService

def Pointer.InContent (field : Pointer) : Prop :=
  field.first? ≠ some idField ∧ field.first? ≠ some revisionField

instance : DecidablePred Pointer.InContent := fun _ ↦ inferInstanceAs (Decidable (_ ∧ _))

namespace Json

variable {content : Json} {selected : Dict Json} {field : Pointer} {fields : List Pointer}
  {t name : String} {ts : List String}

def pick (content selected : Json) (field : Pointer) : Json :=
  if field.first? = some idField || field.first? = some revisionField then selected
  else match field.get? content with
    | some v => (field.write selected v).1
    | none => selected

theorem select_eq_foldl (hne : fields ≠ []) (hroot : ∀ field ∈ fields, field ≠ .root) :
    content.select fields = fields.foldl content.pick (.obj []) := by
  have hall : fields.any Pointer.isRoot = false := by
    refine List.any_eq_false.mpr fun field hfield hempty ↦ hroot field hfield ?_
    exact congrArg Pointer.mk (List.isEmpty_iff.mp hempty)
  have hsome : fields.isEmpty = false := by simpa using hne
  rw [select, hsome, hall]
  rfl

theorem pick_envelope (h : ¬ field.InContent) (selected : Json) :
    content.pick selected field = selected := by
  rw [Pointer.InContent, not_and_or, not_not, not_not] at h
  simp [pick, h]

def grow (v : Json) (t : String) (ts : List String) (fields : Dict Json) : Dict Json :=
  Dict.insert t (write v ts ((Dict.get? t fields).getD (.obj []))).1 fields

theorem get?_grow (v : Json) (t : String) (ts : List String) (fields : Dict Json) (name : String) :
    Dict.get? name (grow v t ts fields) =
      if name = t then some (write v ts ((Dict.get? t fields).getD (.obj []))).1
      else Dict.get? name fields := by
  by_cases h : name = t
  · rw [if_pos h, h, grow, Dict.get?_insert_self]
  · rw [if_neg h, grow, Dict.get?_insert_of_ne h]

theorem grow_ne_nil (v : Json) (t : String) (ts : List String) (fields : Dict Json) :
    grow v t ts fields ≠ [] := by
  intro h
  have hget := get?_grow v t ts fields t
  rw [h, if_pos rfl] at hget
  cases hget

theorem pick_obj (h : Pointer.InContent ⟨t :: ts⟩) (content : Json) (selected : Dict Json) :
    content.pick (.obj selected) ⟨t :: ts⟩ = match Pointer.get? ⟨t :: ts⟩ content with
      | some v => .obj (grow v t ts selected)
      | none => .obj selected := by
  obtain ⟨hid, hrev⟩ := h
  simp only [pick, hid, hrev, decide_false, Bool.or_self, Bool.false_eq_true, if_false]
  cases Pointer.get? ⟨t :: ts⟩ content with
  | none => rfl
  | some v => exact congrArg Prod.fst (write_cons_obj v t ts selected)

/-- Only what is found is selected, and all of it stays. -/
theorem foldl_pick_eq_empty (hroot : ∀ field ∈ fields, field ≠ .root) :
    fields.foldl content.pick (.obj selected) = .obj [] ↔
      selected = [] ∧ ∀ field ∈ fields, field.InContent → field.get? content = none := by
  induction fields generalizing selected with
  | nil => simp
  | cons field fields ih =>
    obtain ⟨hfirst, hrest⟩ := List.forall_mem_cons.mp hroot
    rw [List.foldl_cons, List.forall_mem_cons]
    by_cases hin : field.InContent
    · obtain ⟨_ | ⟨t, ts⟩⟩ := field
      · exact absurd rfl hfirst
      · rw [pick_obj hin]
        cases Pointer.get? ⟨t :: ts⟩ content with
        | none => simp [ih hrest]
        | some v => simp [ih hrest, grow_ne_nil, hin]
    · simp [pick_envelope hin, ih hrest, hin]

end Json

namespace Generic

variable {explicit names : List String} {type : Path} {stored object : Json}
  {top inner out : Dict Json} {begun : Bool} {field : Pointer} {fields : List Pointer}

def LiesBelow (explicit : List String) (object : Json) (field : Pointer) : Bool :=
  field.first?.all (· ∉ explicit) && (field.get? object).isSome

/-- Where a field of an object is moved to, the record holds what the object has there. -/
theorem Stored.get?_moveField (h : Stored explicit type stored) (hfield : Inside field) :
    (moveField explicit field).get? stored = field.get? (unwrap explicit stored) := by
  obtain ⟨t, ts, rfl, ht⟩ := hfield.exists_cons
  obtain ⟨fields, inner, hinner, hunwrap, hget⟩ := h.exists_unwrap
  rw [hunwrap, Pointer.get?, Pointer.get?, Json.lookup?_cons t ts rfl, Json.field?_obj, hget]
  by_cases hmem : t ∈ explicit
  · rw [moveField_explicit hmem, Json.lookup?_cons t ts h.object, if_pos hmem]
  · rw [moveField_inner ht hmem, Json.lookup?_cons _ _ h.object, hinner, Option.bind_some,
      Json.lookup?_cons t ts rfl, Json.field?_obj, if_neg hmem]

/-- What has been selected so far: from the record at its top and below, and from the object. The
record has nothing below until the first field from there is selected. -/
structure Picked (explicit : List String) (begun : Bool) (top inner out : Dict Json) : Prop where
  content : Dict.get? contentField top = if begun then some (.obj inner) else none
  fresh : begun = false → inner = []
  inside : ∀ name ∈ explicit, Dict.get? name inner = none
  shared : ∀ name, Dict.get? name out =
    if name ∈ explicit then Dict.get? name top else Dict.get? name inner
  innerSorted : Dict.Sorted inner
  sorted : Dict.Sorted out

namespace Picked

theorem empty (explicit : List String) : Picked explicit false [] [] [] where
  content := rfl
  fresh _ := rfl
  inside _ _ := rfl
  shared _ := by simp
  innerSorted := Dict.sorted_nil
  sorted := Dict.sorted_nil

theorem content_getD (h : Picked explicit begun top inner out) :
    (Dict.get? contentField top).getD (.obj []) = .obj inner := by
  rw [h.content]
  cases begun with
  | false => rw [h.fresh rfl]; rfl
  | true => rfl

variable {t : String} {ts : List String}

theorem grow_top (h : Picked explicit begun top inner out) (ht : t ∈ explicit)
    (hcontent : contentField ∉ explicit) (v : Json) :
    Picked explicit begun (Json.grow v t ts top) inner (Json.grow v t ts out) where
  content := by
    have hne : contentField ≠ t := fun heq ↦ hcontent (heq ▸ ht)
    rw [Json.get?_grow, if_neg hne, h.content]
  fresh := h.fresh
  inside := h.inside
  shared name := by
    have hsame := h.shared t
    rw [if_pos ht] at hsame
    rw [Json.get?_grow, Json.get?_grow, hsame, h.shared name]
    by_cases heq : name = t
    · simp only [heq, if_pos ht]
    · simp only [if_neg heq]
  innerSorted := h.innerSorted
  sorted := h.sorted.insert t _

theorem grow_below (h : Picked explicit begun top inner out) (ht : t ∉ explicit)
    (hcontent : contentField ∉ explicit) (v : Json) :
    Picked explicit true (Json.grow v contentField (t :: ts) top) (Json.grow v t ts inner)
      (Json.grow v t ts out) where
  content := by
    rw [Json.get?_grow, if_pos rfl, if_pos rfl, h.content_getD, Json.write_cons_obj]
    rfl
  fresh := nofun
  inside name hname := by
    have hne : name ≠ t := fun heq ↦ ht (heq ▸ hname)
    rw [Json.get?_grow, if_neg hne, h.inside name hname]
  shared name := by
    have hsame := h.shared t
    rw [if_neg ht] at hsame
    rw [Json.get?_grow, Json.get?_grow, Json.get?_grow, hsame, h.shared name]
    by_cases heq : name = t
    · simp only [heq, if_neg ht]
    · by_cases hname : name ∈ explicit
      · have hne : name ≠ contentField := fun heq ↦ hcontent (heq ▸ hname)
        simp only [if_neg heq, if_neg hne]
      · simp only [if_neg heq, if_neg hname]
  innerSorted := h.innerSorted.insert t _
  sorted := h.sorted.insert t _

/-- The same field is selected from the record and from the object. -/
theorem exists_pick (h : Picked explicit begun top inner out) (hfield : Inside field)
    (hid : idField ∈ explicit) (hrev : revisionField ∈ explicit)
    (hcontent : contentField ∉ explicit)
    (hget : (moveField explicit field).get? stored = field.get? object) :
    ∃ top' inner' out', stored.pick (.obj top) (moveField explicit field) = .obj top' ∧
      object.pick (.obj out) field = .obj out' ∧
      Picked explicit (begun || LiesBelow explicit object field) top' inner' out' := by
  obtain ⟨t, ts, rfl, ht⟩ := hfield.exists_cons
  by_cases hmem : t ∈ explicit
  · have hbelow : LiesBelow explicit object ⟨t :: ts⟩ = false := by
      simp [LiesBelow, Pointer.first?, hmem]
    rw [hbelow, Bool.or_false]
    rw [moveField_explicit hmem] at hget ⊢
    by_cases hin : Pointer.InContent ⟨t :: ts⟩
    · rw [Json.pick_obj hin, Json.pick_obj hin, hget]
      cases Pointer.get? ⟨t :: ts⟩ object with
      | none => exact ⟨_, _, _, rfl, rfl, h⟩
      | some v => exact ⟨_, _, _, rfl, rfl, h.grow_top hmem hcontent v⟩
    -- Identifier and revision are explicit, and selected from neither.
    · exact ⟨_, _, _, Json.pick_envelope hin _, Json.pick_envelope hin _, h⟩
  · have hin : Pointer.InContent ⟨t :: ts⟩ :=
      ⟨fun heq ↦ hmem (Option.some.inj heq ▸ hid), fun heq ↦ hmem (Option.some.inj heq ▸ hrev)⟩
    have hmoved : Pointer.InContent ⟨contentField :: t :: ts⟩ :=
      ⟨show some contentField ≠ some idField by decide,
        show some contentField ≠ some revisionField by decide⟩
    have hbelow : LiesBelow explicit object ⟨t :: ts⟩ =
        (Pointer.get? ⟨t :: ts⟩ object).isSome := by
      simp [LiesBelow, Pointer.first?, hmem]
    rw [hbelow]
    rw [moveField_inner ht hmem] at hget ⊢
    rw [Json.pick_obj hmoved, Json.pick_obj hin, hget]
    cases Pointer.get? ⟨t :: ts⟩ object with
    | none =>
      refine ⟨_, inner, _, rfl, rfl, ?_⟩
      rwa [Option.isSome_none, Bool.or_false]
    | some v =>
      refine ⟨_, Json.grow v t ts inner, _, rfl, rfl, ?_⟩
      rw [Option.isSome_some, Bool.or_true]
      exact h.grow_below hmem hcontent v

theorem exists_foldl (h : Picked explicit begun top inner out) (hid : idField ∈ explicit)
    (hrev : revisionField ∈ explicit) (hcontent : contentField ∉ explicit)
    (hfields : ∀ field ∈ fields, Inside field)
    (hget : ∀ field ∈ fields, (moveField explicit field).get? stored = field.get? object) :
    ∃ top' inner' out',
      (fields.map (moveField explicit)).foldl stored.pick (.obj top) = .obj top' ∧
      fields.foldl object.pick (.obj out) = .obj out' ∧
      Picked explicit (begun || fields.any (LiesBelow explicit object)) top' inner' out' := by
  induction fields generalizing begun top inner out with
  | nil =>
    refine ⟨top, inner, out, rfl, rfl, ?_⟩
    rwa [List.any_nil, Bool.or_false]
  | cons field fields ih =>
    obtain ⟨hfield, hfields⟩ := List.forall_mem_cons.mp hfields
    obtain ⟨hfirst, hget⟩ := List.forall_mem_cons.mp hget
    obtain ⟨_, _, _, htop, hout, hpicked⟩ := h.exists_pick hfield hid hrev hcontent hfirst
    rw [List.map_cons, List.foldl_cons, List.foldl_cons, htop, hout, List.any_cons, ← Bool.or_assoc]
    exact ih hpicked hfields hget

theorem unwrap_eq (h : Picked explicit begun top inner out) :
    unwrap explicit (.obj top) = if begun then .obj out else .obj [] := by
  have hcontent : (Json.obj top).field? contentField = if begun then some (.obj inner) else none :=
    h.content
  cases begun with
  | false => simp [unwrap, hcontent]
  | true =>
    obtain ⟨fields, hunwrap, hsorted, hget⟩ := exists_unwrap explicit hcontent
    rw [hunwrap, if_pos rfl, (hsorted h.innerSorted).ext h.sorted fun name ↦ ?_]
    rw [hget, h.shared]
    by_cases hname : name ∈ explicit
    · rw [if_pos hname, if_pos hname, h.inside name hname, Option.or_none, Json.field?_obj]
    · rw [if_neg hname, if_neg hname]

end Picked

/-- A selection comes through the record if some of it lies below there, or if there is nothing to
select. -/
def Comes (explicit : List String) (fields : List Pointer) (object : Json) : Prop :=
  (∃ field ∈ fields, LiesBelow explicit object field) ∨
    ∀ field ∈ fields, field.InContent → field.get? object = none

instance (explicit : List String) (fields : List Pointer) (object : Json) :
    Decidable (Comes explicit fields object) := inferInstanceAs (Decidable (_ ∨ _))

def selected (explicit : List String) (fields : List Pointer) (object : Json) : Json :=
  if Comes explicit fields object then object.select fields else .obj []

section Selections

variable (hstored : Stored explicit type stored) (hid : idField ∈ explicit)
  (hrev : revisionField ∈ explicit) (hcontent : contentField ∉ explicit) (hne : fields ≠ [])
  (hfields : ∀ field ∈ fields, Inside field)
include hstored hid hrev hcontent hne hfields

theorem unwrap_select :
    unwrap explicit (stored.select (fields.map (moveField explicit))) =
      if fields.any (LiesBelow explicit (unwrap explicit stored))
      then (unwrap explicit stored).select fields else .obj [] := by
  have hmoved : ∀ field ∈ fields.map (moveField explicit), field ≠ .root := by
    rw [List.forall_mem_map]
    intro field hfield
    obtain ⟨t, ts, rfl, ht⟩ := (hfields field hfield).exists_cons
    by_cases hmem : t ∈ explicit
    · rw [moveField_explicit hmem]
      nofun
    · rw [moveField_inner ht hmem]
      nofun
  obtain ⟨_, _, _, htop, hout, hpicked⟩ := (Picked.empty explicit).exists_foldl hid hrev hcontent
    hfields fun field hfield ↦ hstored.get?_moveField (hfields field hfield)
  rw [Json.select_eq_foldl (mt List.map_eq_nil_iff.mp hne) hmoved, htop,
    Json.select_eq_foldl hne fun field hfield ↦ (hfields field hfield).1, hout, hpicked.unwrap_eq,
    Bool.false_or]

theorem unwrap_select_eq_iff :
    unwrap explicit (stored.select (fields.map (moveField explicit))) =
        (unwrap explicit stored).select fields ↔
      Comes explicit fields (unwrap explicit stored) := by
  have hnone : (unwrap explicit stored).select fields = .obj [] ↔
      ∀ field ∈ fields, field.InContent → field.get? (unwrap explicit stored) = none := by
    rw [Json.select_eq_foldl hne fun field hfield ↦ (hfields field hfield).1,
      Json.foldl_pick_eq_empty fun field hfield ↦ (hfields field hfield).1]
    exact and_iff_right rfl
  rw [unwrap_select hstored hid hrev hcontent hne hfields, Comes, ← hnone,
    ← List.any_eq_true]
  split
  · rename_i hsome
    exact iff_of_true rfl (.inl hsome)
  · rename_i hsome
    rw [or_iff_right hsome, eq_comm]

theorem unwrap_select_eq_selected :
    unwrap explicit (stored.select (fields.map (moveField explicit))) =
      selected explicit fields (unwrap explicit stored) := by
  have hiff := unwrap_select_eq_iff hstored hid hrev hcontent hne hfields
  by_cases hcomes : Comes explicit fields (unwrap explicit stored)
  · rw [selected, if_pos hcomes, hiff.mpr hcomes]
  · have hnone : ¬ fields.any (LiesBelow explicit (unwrap explicit stored)) :=
      fun hany ↦ hcomes (.inl (List.any_eq_true.mp hany))
    rw [selected, if_neg hcomes, unwrap_select hstored hid hrev hcontent hne hfields, if_neg hnone]

end Selections

end Generic

namespace Handler

variable {h : Handler} {explicit names : List String} {fields : List Pointer} {s : Store}
  {q resolved : Query}

def cut (explicit : List String) (fields : List Pointer) (record : Record) : Record :=
  { record with content := Generic.selected explicit fields record.content }

section Fields

variable (hid : idField ∈ explicit) (hrev : revisionField ∈ explicit)
  (hcontent : Generic.contentField ∉ explicit) (hne : fields ≠ [])
  (hfields : ∀ field ∈ fields, Generic.Inside field)
include hid hrev hcontent hne hfields

theorem unwrapped_select {type : Path} {record : Record}
    (hstored : Generic.Stored explicit type record.content) :
    unwrapped explicit { record with
      content := record.content.select (fields.map (Generic.moveField explicit)) } =
        cut explicit fields (unwrapped explicit record) :=
  congrArg (Record.mk record.id record.revision)
    (Generic.unwrap_select_eq_selected hstored hid hrev hcontent hne hfields)

theorem map_pageOf_cut {found : List Entry}
    (hstored : ∀ e ∈ found, ∃ type, Generic.Stored explicit type e.content)
    (hq : q.fields = fields.map (Generic.moveField explicit)) :
    (q.pageOf found).map (unwrapped explicit) =
      (({ q with fields := [] }.pageOf found).map (unwrapped explicit)).map
        (cut explicit fields) := by
  rw [Query.pageOf_fields, hq]
  refine congrArg₂ Page.mk ?_ rfl
  simp only [Page.map, List.map_map]
  refine List.map_congr_left fun record hrecord ↦ ?_
  obtain ⟨e, he, rfl⟩ := Query.exists_of_mem_pageOf hrecord
  obtain ⟨type, htype⟩ := hstored e he
  exact unwrapped_select hid hrev hcontent hne hfields htype

variable (hkind : h.kind = .generic explicit)
  (hs : h.Typed (Generic.Stored explicit) s.entries) (c : Option Connection)
include hkind hs

theorem answer_read_cut (path : Path) :
    h.answer c (.read path fields) s =
      (h.answer c (.read path []) s).map (cut explicit fields) := by
  cases hparts : path.instanceParts with
  | error fault =>
    simp only [answer, plan_generic hkind, genericPlan, hparts, Plan.run_lift_bind]
    rfl
  | ok parts =>
    obtain ⟨type, id⟩ := parts
    obtain rfl := Path.instanceParts_eq_ok.mp hparts
    let found := s.matching h.resource (.all [Filter.fieldIs idField id, Generic.ofType type])
    have hpage : ((h.readQuery explicit type id fields).pageOf found).map (unwrapped explicit) =
        (((h.readQuery explicit type id []).pageOf found).map (unwrapped explicit)).map
          (cut explicit fields) := by
      refine map_pageOf_cut hid hrev hcontent hne hfields (fun e he ↦ ?_) rfl
      obtain ⟨type, -, -, htype⟩ := hs e (Store.mem_matching.mp he).1
      exact ⟨type, htype⟩
    have hrecords := congrArg Page.records hpage
    refine (answer_read_page hkind type id fields c s).trans ?_
    rw [answer_read_page hkind type id [] c s]
    cases Store.checkConnection c with
    | error fault => rfl
    | ok =>
      simp only [ok_bind]
      simp only [Page.map] at hrecords
      cases hwhole : ((h.readQuery explicit type id []).pageOf found).records with
      | nil =>
        rw [hwhole, List.map_nil, List.map_nil, List.map_eq_nil_iff] at hrecords
        rw [hrecords]
        rfl
      | cons record records =>
        rw [hwhole, List.map_cons, List.map_cons, List.map_eq_cons_iff] at hrecords
        obtain ⟨first, rest, hpart, hfirst, -⟩ := hrecords
        rw [hpart]
        exact congrArg Except.ok hfirst

theorem answer_query_cut (hq : h.catalog.resolveQuery h.limits q = .ok resolved)
    (hresolved : resolved.fields = fields) :
    h.answer c (.query q) s =
      (h.answer c (.query { resolved with fields := [] }) s).map
        (Page.map (cut explicit fields)) := by
  obtain ⟨hnormal, hpath⟩ := Catalog.resolved_of_resolveQuery hq
  let whole : Query := { resolved with fields := [] }
  have hwhole : h.catalog.resolveQuery h.limits whole = .ok whole :=
    Catalog.resolveQuery_again
      ⟨hnormal.unnamed, hnormal.filtered, hnormal.plain, hnormal.size, hnormal.offset⟩ rfl
  let filter := Generic.restrict explicit q.path resolved.filter
  have hfilter : Store.queryFilter (h.typeQuery explicit q.path resolved) = .ok filter :=
    queryFilter_typeQuery hnormal.plain h explicit q.path
  have hfilter' : Store.queryFilter (h.typeQuery explicit q.path whole) = .ok filter := hfilter
  have hpage : ((h.typeQuery explicit q.path resolved).pageOf (s.matching h.resource filter)).map
      (unwrapped explicit) =
        (((h.typeQuery explicit q.path whole).pageOf (s.matching h.resource filter)).map
          (unwrapped explicit)).map (cut explicit fields) := by
    refine map_pageOf_cut hid hrev hcontent hne hfields (fun e he ↦ ?_) ?_
    · obtain ⟨type, -, -, htype⟩ := hs e (Store.mem_matching.mp he).1
      exact ⟨type, htype⟩
    · rw [typeQuery, hresolved]
  rw [answer_search hq, answer_search hwhole, show whole.path = q.path from hpath,
    search_generic hkind, search_generic hkind, disclose_generic hkind, Store.query_eq s hfilter,
    Store.query_eq s hfilter']
  cases Store.checkConnection c with
  | error fault => rfl
  | ok => exact congrArg Except.ok hpage

end Fields

/-- Selecting fields on the record gives the fields of the object just if the selection comes through
the record. A read or a query that asks for some fields is answered with what comes through of the
objects that it is answered with when it asks for all. -/
theorem selected_through_record (hkind : h.kind = .generic (Generic.explicitFields names))
    (htype : Generic.typeField ∉ names) (hcontent : Generic.contentField ∉ names)
    (hne : fields ≠ []) (hfields : ∀ field ∈ fields, Generic.Inside field) :
    let explicit := Generic.explicitFields names
    (∀ type object, Dict.Sorted object →
      (Generic.unwrap explicit ((Generic.wrap explicit type (.obj object)).select
          (fields.map (Generic.moveField explicit))) = (Json.obj object).select fields ↔
        Generic.Comes explicit fields (.obj object))) ∧
      ∀ s, h.Reaches Request.Guarded s → ∀ c,
        (∀ path, h.answer c (.read path fields) s =
          (h.answer c (.read path []) s).map (cut explicit fields)) ∧
        ∀ q resolved, h.catalog.resolveQuery h.limits q = .ok resolved →
          resolved.fields = fields → h.answer c (.query q) s =
            (h.answer c (.query { resolved with fields := [] }) s).map
              (Page.map (cut explicit fields)) := by
  have hid : idField ∈ Generic.explicitFields names := Generic.mem_explicitFields.mpr (.inl rfl)
  have hrev : revisionField ∈ Generic.explicitFields names :=
    Generic.mem_explicitFields.mpr (.inr (.inl rfl))
  have hcontent := Generic.contentField_not_mem hcontent
  have htype := mt Generic.mem_explicitFields_type.mp htype
  refine ⟨fun type object hobject ↦ ?_, fun s hs c ↦ ?_⟩
  · let explicit := Generic.explicitFields names
    have hback : Generic.unwrap explicit (Generic.wrap explicit type (.obj object)) =
        .obj object := (Generic.unwrap_wrap_eq_iff hobject).mpr
      ⟨fun hmem ↦ absurd hmem htype, fun hmem ↦ absurd hmem hcontent⟩
    have hstored : Generic.Stored explicit type (Generic.wrap explicit type (.obj object)) :=
      Generic.stored_wrap rfl
    have hiff := Generic.unwrap_select_eq_iff hstored hid hrev hcontent hne hfields
    rwa [hback] at hiff
  · have hstored := hs.typed hkind
      (kept_stored hcontent fun kind field hfield ↦ hfield.not_reshapes kind)
    refine ⟨answer_read_cut hid hrev hcontent hne hfields hkind hstored c, fun q resolved hq ↦ ?_⟩
    exact answer_query_cut hid hrev hcontent hne hfields hkind hstored c hq

theorem mail_and_name_selected :
    let explicit := Generic.explicitFields ["userName"]
    let h : Handler := ⟨.generic explicit, ⟨["managedobjects"]⟩, {}, {}⟩
    let fields : List Pointer := [⟨["mail"]⟩, ⟨["userName"]⟩]
    Generic.typeField ∉ ["userName"] ∧ Generic.contentField ∉ ["userName"] ∧ fields ≠ [] ∧
      (∀ field ∈ fields, Generic.Inside field) ∧
      (∀ type object, Dict.Sorted object →
        (Generic.unwrap explicit ((Generic.wrap explicit type (.obj object)).select
            (fields.map (Generic.moveField explicit))) = (Json.obj object).select fields ↔
          Generic.Comes explicit fields (.obj object))) ∧
      ∀ s, h.Reaches Request.Guarded s → ∀ c,
        (∀ path, h.answer c (.read path fields) s =
          (h.answer c (.read path []) s).map (cut explicit fields)) ∧
        ∀ q resolved, h.catalog.resolveQuery h.limits q = .ok resolved →
          resolved.fields = fields → h.answer c (.query q) s =
            (h.answer c (.query { resolved with fields := [] }) s).map
              (Page.map (cut explicit fields)) := by
  intro explicit h fields
  have htype : Generic.typeField ∉ ["userName"] := by decide
  have hcontent : Generic.contentField ∉ ["userName"] := by decide
  have hne : fields ≠ [] := by decide
  have hfields : ∀ field ∈ fields, Generic.Inside field := by decide
  exact ⟨htype, hcontent, hne, hfields,
    selected_through_record (h := h) rfl htype hcontent hne hfields⟩

/-- On their own, explicit fields do not come through. -/
theorem explicit_alone_lost :
    ¬ ∀ (names : List String) (type : Path) (object : Dict Json) (fields : List Pointer),
      Generic.typeField ∉ names → Generic.contentField ∉ names → Dict.Sorted object →
      fields ≠ [] → (∀ field ∈ fields, Generic.Inside field) →
        let explicit := Generic.explicitFields names
        Generic.unwrap explicit ((Generic.wrap explicit type (.obj object)).select
          (fields.map (Generic.moveField explicit))) = (Json.obj object).select fields := by
  intro hall
  have hsame := hall ["userName"] ⟨["managed", "user"]⟩
    [("name", .str "Ann"), ("userName", .str "ann")] [⟨["userName"]⟩] (by decide) (by decide)
    (by decide) (by decide) (by decide)
  exact absurd hsame (by decide)

end Handler

end RecordService
