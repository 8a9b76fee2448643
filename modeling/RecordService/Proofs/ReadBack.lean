import RecordService.Proofs.Creation
import RecordService.Proofs.Serving
import RecordService.Proofs.TypedSearch

namespace RecordService

theorem Store.fst_perform_read {c : Option Connection} (hc : checkConnection c = .ok ())
    (path : Path) (fields : List Pointer) (s : Store) :
    (s.perform c (.read path fields)).1 = s.read path fields := by
  rw [perform_of_open hc]
  rfl

theorem Query.records_pageOf {q : Query} (hkeys : q.sortKeys = []) (hfields : q.fields = [])
    (hsize : q.pageSize = none) (hoffset : q.offset = none) (found : List Entry) :
    (q.pageOf found).records = found.map Entry.record := by
  simp only [pageOf, hkeys, hfields, hsize, hoffset, Store.pageBounds, List.isEmpty_nil, if_true,
    List.take_length]
  rfl

namespace Handler

variable {h : Handler} {s u : Store} {c : Option Connection} {type path target : Path} {id : String}
  {record : Record} {explicit : List String} {e : Entry}

section Explicit

theorem explicitInstance_single (h : Handler) (hid : PlainSegment id) (hne : type ≠ .empty) :
    h.explicitInstance (type ++ ⟨[id]⟩) = .ok (h.resource ++ ⟨[id]⟩) := by
  obtain ⟨_ | ⟨first, rest⟩⟩ := type
  · exact absurd rfl hne
  · have hleaf := Path.leaf?_single ⟨first :: rest⟩ id
    cases rest <;>
      simp only [explicitInstance, Path.segments_append, List.cons_append, List.nil_append, hleaf,
        Path.child_plain hid]

theorem explicitInstance_eq_ok (hpath : path.Clean) (hi : h.explicitInstance path = .ok target) :
    ∃ type id, type ≠ .empty ∧ path = type ++ ⟨[id]⟩ ∧ target = h.resource ++ ⟨[id]⟩ := by
  obtain ⟨segments⟩ := path
  rcases List.eq_nil_or_concat segments with rfl | ⟨init, id, rfl⟩
  · cases hi
  · have hsplit : (⟨init.concat id⟩ : Path) = ⟨init⟩ ++ ⟨[id]⟩ :=
      Path.segments_injective List.concat_eq_append
    rw [hsplit] at hpath hi ⊢
    cases init with
    | nil => cases hi
    | cons first rest =>
      have hne : (⟨first :: rest⟩ : Path) ≠ .empty := nofun
      refine ⟨_, id, hne, rfl, ?_⟩
      rw [explicitInstance_single h hpath.plain hne] at hi
      exact (Except.ok.inj hi).symm

theorem explicitInstance_eq_error {fault : Fault} (hi : h.explicitInstance path = .error fault) :
    fault = expectedInstance path := by
  unfold explicitInstance at hi
  split at hi
  · split at hi
    · cases hi
    · exact (Except.error.inj hi).symm
  · exact (Except.error.inj hi).symm

theorem answer_read_explicit (hkind : h.kind = .explicit) (hc : Store.checkConnection c = .ok ())
    (hi : h.explicitInstance path = .ok (h.resource ++ ⟨[id]⟩)) (s : Store) :
    h.answer c (.read path []) s = match s.find? h.resource id with
      | some e => .ok e.record
      | none => .error (objectNotFound id h.resource) := by
  have hrun : h.answer c (.read path []) s =
      (s.perform c (.read (h.resource ++ ⟨[id]⟩) [])).1 := by
    simp only [answer, plan_explicit hkind, explicitPlan, hi]
    rfl
  rw [hrun, Store.fst_perform_read hc, Store.read, Store.entryAt_single]
  cases s.find? h.resource id <;> rfl

theorem exists_of_read_explicit (hkind : h.kind = .explicit) (hc : Store.checkConnection c = .ok ())
    (hpath : path.Clean) (hanswer : h.answer c (.read path []) s = .ok record) :
    ∃ type, type ≠ .empty ∧ path = type ++ ⟨[record.id]⟩ := by
  cases hi : h.explicitInstance path with
  | error fault =>
    simp only [answer, plan_explicit hkind, explicitPlan, hi, Plan.run_lift_bind] at hanswer
    cases hanswer
  | ok target =>
    obtain ⟨type, id, hne, rfl, rfl⟩ := explicitInstance_eq_ok hpath hi
    rw [answer_read_explicit hkind hc hi] at hanswer
    cases hfind : s.find? h.resource id with
    | none =>
      rw [hfind] at hanswer
      cases hanswer
    | some e =>
      rw [hfind] at hanswer
      obtain rfl := Except.ok.inj hanswer
      obtain ⟨-, rfl⟩ := Prod.mk.inj (Store.mem_of_find? hfind).2
      exact ⟨type, hne, rfl⟩

end Explicit

section Generic

def sought (type : Path) (id : String) : Filter :=
  .all [Filter.fieldIs idField id, Generic.ofType type]

theorem answer_read_generic (hkind : h.kind = .generic explicit)
    (hc : Store.checkConnection c = .ok ()) (type : Path) (id : String) (s : Store) :
    h.answer c (.read (type ++ ⟨[id]⟩) []) s = match s.matching h.resource (sought type id) with
      | e :: _ => .ok (unwrapped explicit e.record)
      | [] => .error (objectNotFound id type) := by
  have hrecords : ((h.readQuery explicit type id []).pageOf
      (s.matching h.resource (sought type id))).records =
        (s.matching h.resource (sought type id)).map Entry.record :=
    Query.records_pageOf rfl rfl rfl rfl _
  refine (answer_read_page hkind type id [] c s).trans ?_
  rw [← sought, hrecords, hc, ok_bind]
  cases s.matching h.resource (sought type id) <;> rfl

/-- Only objects have an identifier that a search can see. -/
theorem isObject_of_id (h : (Filter.fieldIs idField id).matches e.document) :
    e.content.isObject := by
  cases hcontent : e.content with
  | obj fields => rfl
  | _ =>
    simp only [Entry.document, Record.json, Entry.record, hcontent, Json.inEnvelope] at h
    cases h

theorem id_of_sought (h : (sought type id).matches e.document) : e.id = id := by
  simp only [sought, Filter.matches, Filter.matchesAll, Bool.and_true, Bool.and_eq_true] at h
  have hfield : e.document.field? idField = some (.str e.id) := by
    rw [Entry.field?_document (isObject_of_id h.1), if_pos rfl]
  rw [Filter.matches_fieldIs hfield] at h
  exact of_decide_eq_true h.1

theorem exists_of_read_generic (hkind : h.kind = .generic explicit)
    (hc : Store.checkConnection c = .ok ()) (hanswer : h.answer c (.read path []) s = .ok record) :
    ∃ type, path = type ++ ⟨[record.id]⟩ := by
  cases hparts : path.instanceParts with
  | error fault =>
    simp only [answer, plan_generic hkind, genericPlan, hparts, Plan.run_lift_bind] at hanswer
    cases hanswer
  | ok parts =>
    obtain ⟨type, id⟩ := parts
    obtain rfl := Path.instanceParts_eq_ok.mp hparts
    rw [answer_read_generic hkind hc] at hanswer
    cases hfound : s.matching h.resource (sought type id) with
    | nil =>
      rw [hfound] at hanswer
      cases hanswer
    | cons e es =>
      rw [hfound] at hanswer
      obtain rfl := Except.ok.inj hanswer
      have he : e ∈ s.matching h.resource (sought type id) := hfound ▸ List.mem_cons_self
      obtain rfl := id_of_sought (Store.mem_matching.mp he).2.2
      exact ⟨type, rfl⟩

theorem matches_sought (h : Generic.Tagged type e.content) :
    (sought type e.id).matches e.document := by
  have hid : e.document.field? idField = some (.str e.id) := by
    rw [Entry.field?_document h.isObject, if_pos rfl]
  have htype : e.document.field? Generic.typeField = some (.str type.text) := by
    rw [Entry.field?_document h.isObject, if_neg (by decide), if_neg (by decide)]
    exact h
  simp only [sought, Filter.matches, Filter.matchesAll, Generic.ofType, Filter.matches_fieldIs hid,
    Filter.matches_fieldIs htype, decide_true, Bool.and_self]

theorem fresh_sought (hkind : h.kind = .generic explicit) (type : Path) (id : String)
    (content : Json) : (sought type id).matches (h.fresh type id content).document := by
  refine matches_sought (e := h.fresh type id content) ?_
  simp only [fresh, enclose, hkind]
  exact (Generic.tagged_wrap explicit type content).withoutEnvelope

/-- It does not matter what a read comes upon first, if all that it finds is told as one record. -/
theorem answer_read_alike (hkind : h.kind = .generic explicit)
    (hc : Store.checkConnection c = .ok ()) (he : e ∈ s.matching h.resource (sought type id))
    (hall : ∀ e ∈ s.matching h.resource (sought type id), h.disclose e.record = record) :
    h.answer c (.read (type ++ ⟨[id]⟩) []) s = .ok record := by
  simp only [disclose, hkind] at hall
  rw [answer_read_generic hkind hc]
  cases hfound : s.matching h.resource (sought type id) with
  | nil => exact absurd (hfound ▸ he) List.not_mem_nil
  | cons e es => exact congrArg Except.ok (hall e (hfound ▸ List.mem_cons_self))

end Generic

section Created

/-- A read of a path that was read from text answers with the identifier that the path ends with. -/
theorem exists_of_read (hc : Store.checkConnection c = .ok ()) (hpath : path.Clean)
    (hanswer : h.answer c (.read path []) s = .ok record) :
    ∃ type, (h.kind = .explicit → type ≠ .empty) ∧ path = type ++ ⟨[record.id]⟩ := by
  cases hkind : h.kind with
  | explicit =>
    obtain ⟨type, hne, hsplit⟩ := exists_of_read_explicit hkind hc hpath hanswer
    exact ⟨type, fun _ ↦ hne, hsplit⟩
  | generic explicit =>
    obtain ⟨type, hsplit⟩ := exists_of_read_generic hkind hc hanswer
    refine ⟨type, ?_, hsplit⟩
    rintro ⟨⟩

/-- A read is refused for a path that names no object, or for an object that is not there. -/
theorem fault_of_refused_read {fault : Fault} (hpath : path.Clean)
    (hc : Store.checkConnection c = .ok ()) (hanswer : h.answer c (.read path []) s = .error fault) :
    fault = expectedInstance path ∨ ∃ id place, fault = objectNotFound id place := by
  cases hkind : h.kind with
  | explicit =>
    cases hi : h.explicitInstance path with
    | error refusal =>
      simp only [answer, plan_explicit hkind, explicitPlan, hi, Plan.run_lift_bind] at hanswer
      cases hanswer
      exact .inl (explicitInstance_eq_error hi)
    | ok target =>
      obtain ⟨type, id, -, rfl, rfl⟩ := explicitInstance_eq_ok hpath hi
      rw [answer_read_explicit hkind hc hi] at hanswer
      split at hanswer <;> cases hanswer
      exact .inr ⟨id, h.resource, rfl⟩
  | generic explicit =>
    cases hparts : path.instanceParts with
    | error refusal =>
      simp only [answer, plan_generic hkind, genericPlan, hparts, Plan.run_lift_bind] at hanswer
      cases hanswer
      exact .inl (Path.instanceParts_eq_error hparts)
    | ok parts =>
      obtain ⟨type, id⟩ := parts
      obtain rfl := Path.instanceParts_eq_ok.mp hparts
      rw [answer_read_generic hkind hc] at hanswer
      split at hanswer <;> cases hanswer
      exact .inr ⟨id, type, rfl⟩

structure Legible (h : Handler) (s : Store) (type : Path) (record : Record) : Prop where
  plain : PlainSegment record.id
  below : h.kind = .explicit → type ≠ .empty
  /-- Whatever else a search for the object finds is told as the same record. -/
  alike : h.kind.isGeneric →
    ∀ e ∈ s.matching h.resource (sought type record.id), h.disclose e.record = record

variable {t : Store} {asked : Option String} {fields : Dict Json}

section Creates

variable (hcreates : h.Creates s type asked fields record t) (hu : u.entries.Perm t.entries)
include hcreates hu

theorem Creates.mem_entries :
    e ∈ u.entries ↔ e ∈ s.entries ∨ e = h.fresh type record.id (.obj fields) := by
  rw [hu.mem_iff, hcreates.added, List.mem_append, List.mem_singleton]

theorem Creates.find?_eq :
    u.find? (h.place type) record.id = some (h.fresh type record.id (.obj fields)) := by
  have hnew := (hcreates.mem_entries hu).mpr (.inr rfl)
  cases hfind : u.find? (h.place type) record.id with
  | none => exact absurd rfl (Store.find?_eq_none.mp hfind _ hnew)
  | some e =>
    obtain ⟨he, hkey⟩ := Store.mem_of_find? hfind
    rcases (hcreates.mem_entries hu).mp he with hold | rfl
    · exact absurd hkey (Store.find?_eq_none.mp hcreates.free e hold)
    · rfl

theorem Creates.answer_read (hl : h.Legible s type record)
    (hc : Store.checkConnection c = .ok ()) :
    h.answer c (.read (type ++ ⟨[record.id]⟩) []) u = .ok record := by
  have hkept := hcreates.kept
  cases hkind : h.kind with
  | explicit =>
    have hfind := hcreates.find?_eq hu
    simp only [place, hkind] at hfind
    simp only [disclose, hkind] at hkept
    rw [answer_read_explicit hkind hc (explicitInstance_single h hl.plain (hl.below hkind)), hfind]
    exact congrArg Except.ok hkept
  | generic explicit =>
    have hgeneric : h.kind.isGeneric := by rw [hkind]; rfl
    have hbelow : (h.fresh type record.id (.obj fields)).collection.startsWith h.resource := by
      simp only [fresh, place, hkind]
      exact Path.startsWith_iff.mpr ⟨type, rfl⟩
    have hnew : h.fresh type record.id (.obj fields) ∈
        u.matching h.resource (sought type record.id) :=
      Store.mem_matching.mpr ⟨(hcreates.mem_entries hu).mpr (.inr rfl), hbelow,
        fresh_sought hkind type record.id _⟩
    have hall : ∀ e ∈ u.matching h.resource (sought type record.id),
        h.disclose e.record = record := by
      intro e he
      obtain ⟨he, hbelow, hmatches⟩ := Store.mem_matching.mp he
      rcases (hcreates.mem_entries hu).mp he with hold | rfl
      · exact hl.alike hgeneric e (Store.mem_matching.mpr ⟨hold, hbelow, hmatches⟩)
      · exact hkept
    exact answer_read_alike hkind hc hnew hall

end Creates

/-- Where all requests have kept to the types, nothing else is taken for a new object. -/
theorem Creates.legible (hcreates : h.Creates s type asked fields record t)
    (hs : h.Reaches Request.Guarded s) (htype : type.Clean) (hplain : PlainSegment record.id)
    (hbelow : h.kind = .explicit → type ≠ .empty) : h.Legible s type record := by
  refine ⟨hplain, hbelow, fun hkind e he ↦ ?_⟩
  obtain ⟨explicit, hkind⟩ := HandlerKind.exists_of_isGeneric hkind
  have hid := id_of_sought (Store.mem_matching.mp he).2.2
  rw [sought, matching_all_ofType (hs.tagged hkind) hs.reached.keyed htype] at he
  obtain ⟨hmem, hcollection⟩ := Store.mem_inCollection.mp (List.mem_filter.mp he).1
  have hfree := hcreates.free
  simp only [place, hkind] at hfree
  exact absurd (Prod.ext hcollection hid) (Store.find?_eq_none.mp hfree e hmem)

/-- An entry that a search for an object finds is told first in some order of the entries. -/
theorem alike_of_reads (hkind : h.kind.isGeneric)
    (hreads : ∀ entries, entries.Perm s.entries → ∃ c, Store.checkConnection c = .ok () ∧
      h.answer c (.read (type ++ ⟨[record.id]⟩) []) { s with entries } = .ok record)
    (he : e ∈ s.matching h.resource (sought type record.id)) : h.disclose e.record = record := by
  obtain ⟨hmem, hbelow, hmatches⟩ := Store.mem_matching.mp he
  let t : Store := { s with entries := e :: s.entries.erase e }
  have hfound : t.matching h.resource (sought type record.id) =
      e :: (s.entries.erase e).filter fun e ↦
        e.collection.startsWith h.resource && (sought type record.id).matches e.document := by
    rw [Store.matching_eq_filter fun e he ↦ id_of_sought (Store.mem_matching.mp he).2.2,
      List.filter_cons_of_pos (by rw [hbelow, hmatches]; rfl)]
  obtain ⟨c, hc, hanswer⟩ := hreads _ (List.perm_cons_erase hmem).symm
  obtain ⟨explicit, hkind⟩ := HandlerKind.exists_of_isGeneric hkind
  rw [answer_read_generic hkind hc, hfound] at hanswer
  simp only [disclose, hkind]
  exact Except.ok.inj hanswer

end Created

end Handler

namespace Service

variable {s s' : Service} {context : Context} {type : Path} {asked : Option String}
  {fields : Dict Json} {record : Record}

/-- A read of the record's path is answered with the record, in whichever order the store keeps its
entries. -/
def Shows (s : Service) (type : Path) (record : Record) : Prop :=
  ∀ context entries, entries.Perm s.store.entries →
    (serve context (.read (type.child record.id) [])
      { s with store := { s.store with entries } }).1 = .ok record

theorem exists_answer_read (h : s.pool.refusing = false) (context : Context) {id : String}
    (hid : PlainSegment id) (type : Path) :
    ∃ c, Store.checkConnection c = .ok () ∧
      (s.serve context (.read (type.child id) [])).1 =
        (s.routes.handlerFor type).answer c (.read (type ++ ⟨[id]⟩) []) s.store := by
  obtain ⟨c, hc, hserve⟩ := exists_answer h context (.read (type.child id) [])
  refine ⟨c, hc, ?_⟩
  rw [hserve, Path.child_plain hid, Request.typePath, Path.typePath_single]

/-- What creating an object at the service comes to. -/
theorem creates_of_serve (hfields : Dict.Sorted fields)
    (hfaithful : (s.routes.handlerFor type).Faithful)
    (hcreate : s.serve context (.create type asked (.obj fields)) = (.ok record, s')) :
    (s.routes.handlerFor type).Creates s.store type asked fields record s'.store ∧
      s'.routes.handlerFor type = s.routes.handlerFor type ∧ s'.pool.refusing = false := by
  have hrefusing : s.pool.refusing = false := by
    cases hp : s.pool.refusing with
    | false => rfl
    | true =>
      have hrefused := serve_refused hp context (.create type asked (.obj fields))
      rw [hcreate] at hrefused
      cases hrefused
  obtain ⟨c, -, pool, hpool, hserve⟩ :=
    serve_eq hrefusing context (.create type asked (.obj fields))
  obtain ⟨hanswer, rfl⟩ := Prod.mk.inj (hcreate.symm.trans hserve)
  exact ⟨Handler.creates_of_answer hfaithful hfields hanswer.symm, s.routes.handlerFor_again type,
    hpool⟩

section Created

variable {h : Handler} {t : Store} (hcreates : h.Creates t type asked fields record s.store)
  (hsame : s.routes.handlerFor type = h) (hpool : s.pool.refusing = false)
include hcreates hsame hpool

theorem shows_of_legible (hlegible : h.Legible t type record) : s.Shows type record := by
  intro context entries hperm
  let reordered : Service := { s with store := { s.store with entries } }
  have hopen : reordered.pool.refusing = false := hpool
  obtain ⟨c, hc, hserve⟩ := exists_answer_read hopen context hlegible.plain type
  rw [hserve, hsame]
  exact hcreates.answer_read hperm hlegible hc

theorem legible_of_shows (hclean : type.Clean) (hshows : s.Shows type record) :
    h.Legible t type record := by
  have hchild : (type.child record.id).Clean := hclean.append (Path.clean_ofText _)
  have hreads : ∀ entries, entries.Perm s.store.entries → ∃ c, Store.checkConnection c = .ok () ∧
      (s.routes.handlerFor ((type.child record.id).parent?.getD .empty)).answer c
        (.read (type.child record.id) []) { s.store with entries } = .ok record := by
    intro entries hperm
    let reordered : Service := { s with store := { s.store with entries } }
    have hopen : reordered.pool.refusing = false := hpool
    obtain ⟨c, hc, hserve⟩ := exists_answer hopen {} (.read (type.child record.id) [])
    exact ⟨c, hc, hserve.symm.trans (hshows {} entries hperm)⟩
  obtain ⟨c, hc, hanswer⟩ := hreads _ (.refl _)
  obtain ⟨type', hbelow, hpath⟩ := Handler.exists_of_read hc hchild hanswer
  have hplain : PlainSegment record.id := (hpath ▸ hchild : (type' ++ ⟨[record.id]⟩).Clean).plain
  -- The path splits into type and identifier, so it is the handler of the type that is asked.
  rw [Path.child_plain hplain] at hpath hreads hbelow
  obtain ⟨rfl, -⟩ := Path.append_single_inj.mp hpath
  rw [Path.typePath_single, hsame] at hreads hbelow
  refine ⟨hplain, hbelow, fun hkind e he ↦ ?_⟩
  obtain ⟨hmem, hplace, hmatches⟩ := Store.mem_matching.mp he
  have hmem : e ∈ s.store.entries := (hcreates.mem_entries (.refl _)).mpr (.inl hmem)
  exact Handler.alike_of_reads hkind hreads (Store.mem_matching.mpr ⟨hmem, hplace, hmatches⟩)

end Created

/-- A created object is told with revision one, under the identifier that the client gave it, as it
was given less identifier and revision. The next read tells the same just if the identifier is one
segment of a path, an explicit handler has a type above it, and all else that a generic handler
takes for the object reads alike. -/
theorem shown_iff_legible (hfields : Dict.Sorted fields)
    (hfaithful : (s.routes.handlerFor type).Faithful)
    (hcreate : s.serve context (.create type asked (.obj fields)) = (.ok record, s')) :
    record.revision = "1" ∧ record.content = (Json.obj fields).withoutEnvelope ∧
      (∀ id, asked.or (((Json.obj fields).field? idField).bind Json.str?) = some id →
        record.id = id) ∧
      ((s.routes.handlerFor type).Legible s.store type record → s'.Shows type record) ∧
      (type.Clean → s'.Shows type record →
        (s.routes.handlerFor type).Legible s.store type record) := by
  obtain ⟨hcreates, hsame, hpool⟩ := creates_of_serve hfields hfaithful hcreate
  refine ⟨congrArg Record.revision hcreates.told, congrArg Record.content hcreates.told, ?_,
    shows_of_legible hcreates hsame hpool, legible_of_shows hcreates hsame hpool⟩
  intro id hid
  rw [hcreates.chosen, hid, Option.getD_some]

theorem user_shown :
    let h : Handler :=
      ⟨.generic (Generic.explicitFields ["userName"]), ⟨["managedobjects"]⟩, {}, {}⟩
    let role : Request := .create ⟨["managed", "role"]⟩ (some "1") (.obj [])
    let s : Service :=
      { routes := { configured := [], default := h }
        store := h.after (some ⟨"local-1", false⟩) role (.empty fun _ ↦ "") }
    let type : Path := ⟨["managed", "user"]⟩
    let fields : Dict Json := [("_id", .str "1"), ("n", .int 1), ("userName", .str "u")]
    Dict.Sorted fields ∧ (s.routes.handlerFor type).Faithful ∧ ∃ record s',
      s.serve {} (.create type none (.obj fields)) = (.ok record, s') ∧
      record = ⟨"1", "1", .obj [("n", .int 1), ("userName", .str "u")]⟩ ∧
      (s.routes.handlerFor type).Legible s.store type record ∧ s'.Shows type record := by
  intro h role s type fields
  have hfields : Dict.Sorted fields := by decide
  have hfaithful : (s.routes.handlerFor type).Faithful := by
    rintro _ ⟨⟩
    exact ⟨["userName"], rfl, by decide, by decide⟩
  have hrole : role.Guarded := ⟨by decide, fun _ hc ↦ absurd hc List.not_mem_nil⟩
  have hs : h.Reaches Request.Guarded s.store := .serve _ role (.empty _) hrole
  obtain ⟨record, s', hcreate⟩ : ∃ record s',
      s.serve {} (.create type none (.obj fields)) = (.ok record, s') := ⟨_, _, rfl⟩
  obtain ⟨hrevision, hcontent, hid, hshown, -⟩ := shown_iff_legible hfields hfaithful hcreate
  have hid : record.id = "1" := hid "1" rfl
  have hlegible : (s.routes.handlerFor type).Legible s.store type record :=
    (creates_of_serve hfields hfaithful hcreate).1.legible hs (by decide) (hid ▸ by decide) nofun
  refine ⟨hfields, hfaithful, record, s', hcreate, ?_, hlegible, hshown hlegible⟩
  obtain ⟨id, revision, content⟩ := record
  obtain rfl : id = "1" := hid
  obtain rfl : revision = "1" := hrevision
  exact congrArg (Record.mk "1" "1") hcontent

/-- An identifier with a slash in it leads a read past the object. -/
theorem slash_unread :
    ¬ ∀ (s s' : Service) (context : Context) (type : Path) (asked : Option String)
      (fields : Dict Json) (record : Record), type.Clean → Dict.Sorted fields →
      (s.routes.handlerFor type).Faithful →
      (asked.or (((Json.obj fields).field? idField).bind Json.str?)).isSome →
      s.serve context (.create type asked (.obj fields)) = (.ok record, s') →
      (s'.serve context (.read (type.child record.id) [])).1 =
        .ok ⟨record.id, "1", (Json.obj fields).withoutEnvelope⟩ := by
  intro hall
  let type : Path := ⟨["internal", "user"]⟩
  let h : Handler := ⟨.explicit, type, {}, {}⟩
  let s : Service :=
    { routes := { configured := [(type, h)], default := h }, store := .empty fun _ ↦ "" }
  have hfaithful : (s.routes.handlerFor type).Faithful := nofun
  have hpath : type.child "a/b" = ⟨["internal", "user", "a", "b"]⟩ := by decide +kernel
  have hread := hall s _ {} type (some "a/b") [("n", .int 1)] _ (by decide) (by decide) hfaithful
    rfl rfl
  change (serve {} (.read (type.child "a/b") []) _).1 = _ at hread
  rw [hpath] at hread
  cases hread

end Service

end RecordService
