import RecordService.Proofs.NormalForms
import RecordService.Proofs.TypedStore

namespace RecordService

namespace Json

variable {id revision : String} {fields : Dict Json}

theorem field?_inEnvelope (id revision : String) (fields : Dict Json) (key : String) :
    ((obj fields).inEnvelope (some id) (some revision)).field? key =
      if key = idField then some (.str id)
      else if key = revisionField then some (.str revision) else Dict.get? key fields := by
  simp only [inEnvelope, field?_obj]
  by_cases hid : key = idField
  · rw [if_pos hid, hid, Dict.get?_insert_self]
  · rw [if_neg hid, Dict.get?_insert_of_ne hid]
    by_cases hrev : key = revisionField
    · rw [if_pos hrev, hrev, Dict.get?_insert_self]
    · rw [if_neg hrev, Dict.get?_insert_of_ne hrev]

theorem lookup?_cons (t : String) (ts : List String) {v : Json} (h : v.isObject) :
    lookup? (t :: ts) v = (v.field? t).bind (lookup? ts) := by
  obtain ⟨fields, rfl⟩ := exists_obj_of_isObject h
  rfl

end Json

theorem Filter.matches_fieldIs {name text found : String} {d : Json}
    (h : d.field? name = some (.str found)) :
    (Filter.fieldIs name text).matches d = decide (found = text) := by
  obtain ⟨fields, rfl⟩ := Json.exists_obj_of_field? h
  have hget : Pointer.get? ⟨[name]⟩ (.obj fields) = some (.str found) := by
    simpa [Pointer.get?, Json.lookup?, Json.step?] using h
  simp only [fieldIs, «matches», hget, comparison, Option.any_some, anyValue, holds, valuesEqual,
    Json.same]
  rfl

section Documents

variable {e : Entry} {type other : Path}

theorem Entry.isObject_document (h : e.content.isObject) : e.document.isObject := by
  obtain ⟨fields, hfields⟩ := Json.exists_obj_of_isObject h
  simp [document, Record.json, record, hfields, Json.inEnvelope, Json.isObject]

theorem Entry.field?_document (h : e.content.isObject) (key : String) :
    e.document.field? key =
      if key = idField then some (.str e.id)
      else if key = revisionField then some (.str (toString e.revision))
      else e.content.field? key := by
  obtain ⟨fields, hfields⟩ := Json.exists_obj_of_isObject h
  rw [document, Record.json, record, hfields]
  exact Json.field?_inEnvelope e.id (toString e.revision) fields key

theorem Generic.Tagged.isObject {d : Json} (h : Tagged type d) : d.isObject := by
  obtain ⟨fields, rfl⟩ := Json.exists_obj_of_field? h
  rfl

theorem Generic.Tagged.matches_ofType (h : Tagged type e.content) (htype : type.Clean)
    (hother : other.Clean) : (ofType other).matches e.document = decide (type = other) := by
  have htag : e.document.field? typeField = some (.str type.text) := by
    rw [Entry.field?_document h.isObject, if_neg (by decide), if_neg (by decide)]
    exact h
  rw [ofType, Filter.matches_fieldIs htag]
  simp only [Path.text_inj htype hother]

end Documents

namespace Store

variable {s : Store} {collection : Path} {id : String}

def inCollection (s : Store) (collection : Path) : List Entry :=
  byId (s.entries.filter (·.collection = collection))

theorem mem_inCollection {e : Entry} :
    e ∈ s.inCollection collection ↔ e ∈ s.entries ∧ e.collection = collection := by
  simp [inCollection, (byId_perm _).mem_iff]

theorem Keyed.nodup_inCollection (hs : s.Keyed) (collection : Path) :
    (s.inCollection collection).Nodup :=
  (byId_perm _).nodup_iff.mpr ((List.Nodup.of_map _ hs).filter _)

/-- Looking an entry up is searching its collection for its identifier. -/
theorem Keyed.inCollection_id (hs : s.Keyed) (collection : Path) (id : String) :
    (s.inCollection collection).filter (·.id = id) = (s.find? collection id).toList := by
  have hmem : ∀ e, e ∈ (s.inCollection collection).filter (·.id = id) ↔
      e ∈ s.entries ∧ e.key = (collection, id) := by
    intro e
    rw [List.mem_filter, mem_inCollection, and_assoc, decide_eq_true_eq, Entry.key, Prod.mk.injEq]
  cases hfind : s.find? collection id with
  | none =>
    refine List.eq_nil_iff_forall_not_mem.mpr fun e he ↦ ?_
    obtain ⟨hentry, hkey⟩ := (hmem e).mp he
    exact find?_eq_none.mp hfind e hentry hkey
  | some e =>
    have he := mem_of_find? hfind
    have hnodup := (hs.nodup_inCollection collection).filter (·.id = id)
    by_contra hne
    rcases (hnodup.ne_singleton_iff e).mp hne with hnil | ⟨e', he', hdiff⟩
    · exact List.not_mem_nil (hnil ▸ (hmem e).mpr he)
    · obtain ⟨hentry', hkey'⟩ := (hmem e').mp he'
      exact hdiff (hs.eq_of_key hentry' he.1 (hkey'.trans he.2.symm))

end Store

theorem Catalog.normal_of_resolveQuery {catalog : Catalog} {limits : Limits}
    {q resolved : Query} (h : catalog.resolveQuery limits q = .ok resolved) :
    ∃ normal, q.normalize limits.pageSize = .ok normal ∧ resolved.expression = none ∧
      resolved.pageSize = normal.pageSize ∧ resolved.offset = normal.offset := by
  obtain ⟨normal, hnormal, h⟩ := bind_eq_ok.mp h
  refine ⟨normal, orBadRequest_eq_ok.mp hnormal, ?_⟩
  split at h
  · cases h
  · rename_i hexpression
    rw [Bool.not_eq_true, Option.isSome_eq_false_iff, Option.isNone_iff_eq_none] at hexpression
    split at h
    · cases h
      exact ⟨hexpression, rfl, rfl⟩
    · obtain ⟨definition, -, h⟩ := bind_eq_ok.mp h
      obtain ⟨filter, -, h⟩ := bind_eq_ok.mp h
      dsimp only at h
      split at h
      · obtain ⟨keys, -, h⟩ := bind_eq_ok.mp h
        cases h
        exact ⟨hexpression, rfl, rfl⟩
      · cases h
        exact ⟨hexpression, rfl, rfl⟩

namespace Query

variable {q normal : Query} {cap : Int}

theorem isSome_filter_of_checkForm (h : q.checkForm = .ok ()) (hid : q.queryId = none)
    (hexpression : q.expression = none) : q.filter.isSome := by
  simpa [hid, hexpression] using checkForm_iff.mp h

theorem queryId_of_checkForm (h : q.checkForm = .ok ()) (hfilter : q.filter.isSome) :
    q.queryId = none := by
  have hform := checkForm_iff.mp h
  simp only [hfilter, not_true_eq_false, false_and, and_false, true_and, false_or, or_false] at hform
  simpa using hform.1

theorem checked_of_normalize (h : q.normalize cap = .ok normal) :
    normal.checkForm = .ok () ∧ pageSizeWithin cap normal.pageSize = .ok normal.pageSize ∧
      checkedOffset normal.offset = .ok normal.offset ∧ normal.path = q.path := by
  obtain ⟨hform, hsize, hoffset, hn⟩ := checks_of_normalize h
  refine ⟨?_, pageSizeWithin_again hsize, checkedOffset_again hoffset, ?_⟩
  · rw [hn]
    exact hform
  · rw [hn]
    rfl

theorem fields_of_normalize (h : q.normalize cap = .ok normal) :
    normal.fields = distinct q.fields := by
  obtain ⟨-, rfl⟩ := normalize_eq_ok.mp h
  rfl

/-- What queries are resolved to: a filter of its own, and paging in normal form. -/
structure Resolved (cap : Int) (q : Query) : Prop where
  unnamed : q.queryId = none
  filtered : q.filter.isSome
  plain : q.expression = none
  size : pageSizeWithin cap q.pageSize = .ok q.pageSize
  offset : checkedOffset q.offset = .ok q.offset

theorem Resolved.normalize (h : q.Resolved cap) (hfields : q.fields = []) :
    q.normalize cap = .ok q := by
  obtain ⟨path, queryId, filter, expression, fields, sortKeys, pageSize, offset, parameters⟩ := q
  obtain ⟨rfl, hfilter, rfl, hsize, hoffset⟩ := h
  obtain ⟨filter, rfl⟩ := Option.isSome_iff_exists.mp hfilter
  obtain rfl : fields = [] := hfields
  simp only at hsize hoffset
  simp only [Query.normalize, hsize, hoffset, ok_bind]
  rfl

end Query

namespace Catalog

variable {catalog : Catalog} {limits : Limits} {q resolved : Query}

theorem resolved_of_resolveQuery (h : catalog.resolveQuery limits q = .ok resolved) :
    resolved.Resolved limits.pageSize ∧ resolved.path = q.path := by
  obtain ⟨normal, hnormal, h⟩ := bind_eq_ok.mp h
  obtain ⟨hform, hsize, hoffset, hpath⟩ :=
    Query.checked_of_normalize (orBadRequest_eq_ok.mp hnormal)
  split at h
  · cases h
  · rename_i hexpression
    rw [Bool.not_eq_true, Option.isSome_eq_false_iff, Option.isNone_iff_eq_none] at hexpression
    split at h
    · rename_i hid
      cases h
      have hfilter := Query.isSome_filter_of_checkForm hform hid hexpression
      exact ⟨⟨hid, hfilter, hexpression, hsize, hoffset⟩, hpath⟩
    · obtain ⟨definition, -, h⟩ := bind_eq_ok.mp h
      obtain ⟨filter, -, h⟩ := bind_eq_ok.mp h
      dsimp only at h
      split at h
      · obtain ⟨keys, -, h⟩ := bind_eq_ok.mp h
        cases h
        exact ⟨⟨rfl, rfl, hexpression, hsize, hoffset⟩, hpath⟩
      · cases h
        exact ⟨⟨rfl, rfl, hexpression, hsize, hoffset⟩, hpath⟩

/-- A query by filter keeps its own selection of fields. -/
theorem fields_of_resolveQuery (h : catalog.resolveQuery limits q = .ok resolved)
    (hfilter : q.filter.isSome) : resolved.fields = distinct q.fields := by
  obtain ⟨normal, hnormal, h⟩ := bind_eq_ok.mp h
  obtain ⟨_, hform, hnormal⟩ := bind_eq_ok.mp (orBadRequest_eq_ok.mp hnormal)
  obtain ⟨_, -, hnormal⟩ := bind_eq_ok.mp hnormal
  obtain ⟨_, -, hnormal⟩ := bind_eq_ok.mp hnormal
  have hunnamed := Query.queryId_of_checkForm hform hfilter
  cases hnormal
  simp only at hunnamed
  simp only [hunnamed] at h
  split at h
  · cases h
  · cases h
    rfl

/-- Resolving once more changes nothing. -/
theorem resolveQuery_again (h : q.Resolved limits.pageSize) (hfields : q.fields = []) :
    catalog.resolveQuery limits q = .ok q := by
  rw [resolveQuery, orBadRequest_eq_ok.mpr (h.normalize hfields), ok_bind, h.plain, h.unnamed]
  rfl

end Catalog

/-- No change touches the whole of a record or its tag. -/
abbrev Request.Guarded : Request → Prop := Request.Permitted fun _ field ↦ Generic.Inside field

namespace Handler

variable {h : Handler} {explicit : List String} {type : Path} {s : Store}

theorem kept_tagged : Kept explicit (fun _ field ↦ Generic.Inside field) Generic.Tagged where
  wrapped _ := Generic.tagged_wrap explicit _ _
  moved hd hc happly := hd.moved hc happly
  bare := Generic.Tagged.withoutEnvelope

theorem Reaches.tagged (hkind : h.kind = .generic explicit) (hs : h.Reaches Request.Guarded s) :
    h.Typed Generic.Tagged s.entries :=
  hs.typed hkind kept_tagged

section Matching

variable (hs : h.Typed Generic.Tagged s.entries) (hkeyed : s.Keyed) (htype : type.Clean)
include hs hkeyed htype

theorem matching_ofType :
    s.matching h.resource (Generic.ofType type) = s.inCollection (h.typeCollection type) := by
  have htest : ∀ e ∈ s.entries,
      ((Generic.ofType type).matches e.document && e.collection.startsWith h.resource) =
        decide (e.collection = h.typeCollection type) := by
    intro e he
    obtain ⟨type', htype', hcollection, htag⟩ := hs e he
    have hbelow : e.collection.startsWith h.resource :=
      Path.startsWith_iff.mpr ⟨type', hcollection⟩
    rw [htag.matches_ofType htype' htype, hbelow, Bool.and_true, decide_eq_decide, hcollection]
    exact ⟨congrArg h.typeCollection, Path.append_left_cancel⟩
  rw [Store.matching, Store.below, Store.filter_byId, List.filter_filter, Store.inCollection,
    List.filter_congr htest]
  intro a ha b hb hta htb hid
  obtain ⟨ha, hbelow⟩ := List.mem_filter.mp ha
  obtain ⟨hb, hbelow'⟩ := List.mem_filter.mp hb
  have hcollection := htest a ha
  have hcollection' := htest b hb
  rw [hta, hbelow, Bool.and_self, eq_comm, decide_eq_true_eq] at hcollection
  rw [htb, hbelow', Bool.and_self, eq_comm, decide_eq_true_eq] at hcollection'
  exact hkeyed.eq_of_key ha hb (Prod.ext (hcollection.trans hcollection'.symm) hid)

theorem matching_all_ofType (f : Filter) :
    s.matching h.resource (.all [f, Generic.ofType type]) =
      (s.inCollection (h.typeCollection type)).filter fun e ↦ f.matches e.document := by
  rw [← matching_ofType hs hkeyed htype, Store.matching, Store.matching, List.filter_filter]
  simp only [Filter.matches, Filter.matchesAll, Bool.and_true]

theorem matching_restrict (filter : Option Filter) :
    s.matching h.resource (Generic.restrict explicit type filter) =
      (s.inCollection (h.typeCollection type)).filter fun e ↦
        filter.all fun f ↦ (f.mapFields (Generic.moveField explicit)).matches e.document := by
  cases filter with
  | none =>
    rw [Generic.restrict, matching_ofType hs hkeyed htype]
    simp
  | some f => exact matching_all_ofType hs hkeyed htype _

end Matching

theorem queryFilter_typeQuery {resolved : Query} (hplain : resolved.expression = none)
    (h : Handler) (explicit : List String) (type : Path) :
    Store.queryFilter (h.typeQuery explicit type resolved) =
      .ok (Generic.restrict explicit type resolved.filter) := by
  simp only [Store.queryFilter, typeQuery, hplain, Option.isSome_none, Bool.false_eq_true, if_false]

/-- A read is answered with the first record that a search for the object finds. -/
theorem answer_read_page (hkind : h.kind = .generic explicit) (type : Path) (id : String)
    (fields : List Pointer) (c : Option Connection) (s : Store) :
    h.answer c (.read (type ++ ⟨[id]⟩) fields) s = Store.checkConnection c >>= fun _ ↦
      match ((h.readQuery explicit type id fields).pageOf (s.matching h.resource
          (.all [Filter.fieldIs idField id, Generic.ofType type]))).records with
      | record :: _ => .ok (unwrapped explicit record)
      | [] => .error (objectNotFound id type) := by
  let found := (h.readQuery explicit type id fields).pageOf (s.matching h.resource
    (.all [Filter.fieldIs idField id, Generic.ofType type]))
  have hquery : s.query .first (h.readQuery explicit type id fields) = .ok (found.takenBy .first) :=
    Store.query_eq_takenBy s .first rfl
  have hplan : h.planFor .all _ = Plan.throughFor .first _ _ := plan_read hkind type id fields
  refine (serve_of_planFor hplan c s).1.trans ?_
  rw [Store.fst_performFor_query, hquery]
  cases Store.checkConnection c with
  | error fault => rfl
  | ok =>
    simp only [ok_bind, Page.records_takenBy_first]
    cases found.records <;> rfl

section Answers

variable (hs : h.Typed Generic.Tagged s.entries) (hkeyed : s.Keyed)
include hs hkeyed

theorem answer_read (hkind : h.kind = .generic explicit) (htype : type.Clean) (id : String)
    (fields : List Pointer) (c : Option Connection) :
    h.answer c (.read (type ++ ⟨[id]⟩) fields) s = Store.checkConnection c >>= fun _ ↦
      match ((h.readQuery explicit type id fields).pageOf
          ((s.inCollection (h.typeCollection type)).filter (·.id = id))).records with
      | record :: _ => .ok (unwrapped explicit record)
      | [] => .error (objectNotFound id type) := by
  have hid : ∀ e ∈ s.inCollection (h.typeCollection type),
      (Filter.fieldIs idField id).matches e.document = decide (e.id = id) := by
    intro e he
    obtain ⟨_, -, -, htag⟩ := hs e (Store.mem_inCollection.mp he).1
    refine Filter.matches_fieldIs ?_
    rw [Entry.field?_document htag.isObject, if_pos rfl]
  have hanswer := answer_read_page hkind type id fields c s
  rw [matching_all_ofType hs hkeyed htype, List.filter_congr hid] at hanswer
  exact hanswer

theorem answer_query (hkind : h.kind = .generic explicit) {q resolved : Query}
    (hpath : q.path.Clean) (hq : h.catalog.resolveQuery h.limits q = .ok resolved)
    (c : Option Connection) :
    h.answer c (.query q) s = Store.checkConnection c >>= fun _ ↦
      .ok (((h.typeQuery explicit q.path resolved).pageOf
        ((s.inCollection (h.typeCollection q.path)).filter fun e ↦ resolved.filter.all fun f ↦
          (f.mapFields (Generic.moveField explicit)).matches e.document)).map
            (unwrapped explicit)) := by
  obtain ⟨-, -, hplain, -⟩ := Catalog.normal_of_resolveQuery hq
  rw [(serve_of_plan (plan_query hkind hq) c s).1, Store.fst_perform_query,
    Store.query_eq s (queryFilter_typeQuery hplain h explicit q.path)]
  simp only [typeQuery]
  rw [matching_restrict hs hkeyed hpath]
  cases Store.checkConnection c <;> rfl

end Answers

end Handler

end RecordService
