import RecordService.Proofs.Belonging
import RecordService.Proofs.Listing

namespace RecordService

namespace Handler

variable {h : Handler} {s : Store} {q resolved : Query} {c : Option Connection} {page : Page}
  {record : Record}

theorem path_search (h : Handler) (type : Path) (resolved : Query) :
    (h.search type resolved).path = h.resource := by
  unfold search
  split <;> rfl

theorem fields_search (h : Handler) (type : Path) (hfields : resolved.fields = []) :
    (h.search type resolved).fields = [] := by
  unfold search
  split
  · exact hfields
  · exact congrArg (List.map _) hfields

theorem matches_search {filter : Filter} {e : Entry} {type : Path} (hkind : h.kind.isGeneric)
    (hfilter : Store.queryFilter (h.search type resolved) = .ok filter)
    (hplain : resolved.expression = none) (hmatches : filter.matches e.document) :
    (Generic.ofType type).matches e.document := by
  obtain ⟨explicit, hkind⟩ := HandlerKind.exists_of_isGeneric hkind
  rw [search_generic hkind, queryFilter_typeQuery hplain] at hfilter
  rw [← Except.ok.inj hfilter] at hmatches
  cases hasked : resolved.filter with
  | none => simpa only [hasked, Generic.restrict] using hmatches
  | some f =>
    simp only [hasked, Generic.restrict, Filter.matches, Filter.matchesAll, Bool.and_true,
      Bool.and_eq_true] at hmatches
    exact hmatches.2

/-- Whatever is listed is told of an entry at or below the collection of the handler; a generic
handler asks for the tag of the type as well. -/
theorem exists_of_listed (hanswer : h.answer c (.query q) s = .ok page) (hfilter : q.filter.isSome)
    (hfields : q.fields = []) (hrecord : record ∈ page.records) :
    ∃ e ∈ s.entries, e.collection.startsWith h.resource ∧ record = h.disclose e.record ∧
      (h.kind.isGeneric → (Generic.ofType q.path).matches e.document) := by
  obtain ⟨resolved, hq⟩ := exists_resolved_of_answer hanswer
  obtain ⟨hresolved, -⟩ := Catalog.resolved_of_resolveQuery hq
  have hnone : resolved.fields = [] := by
    rw [Catalog.fields_of_resolveQuery hq hfilter, hfields]
    rfl
  obtain ⟨filter, hsought⟩ := exists_queryFilter_search q.path h hresolved
  rw [answer_search hq] at hanswer
  obtain ⟨_, -, hanswer⟩ := bind_eq_ok.mp hanswer
  rw [Store.query_eq s hsought] at hanswer
  cases hanswer
  obtain ⟨stored, hstored, rfl⟩ := List.mem_map.mp hrecord
  obtain ⟨e, he, rfl⟩ := Query.exists_of_mem_pageOf hstored
  obtain ⟨hmem, hbelow, hmatches⟩ := Store.mem_matching.mp he
  rw [path_search] at hbelow
  rw [fields_search h q.path hnone]
  exact ⟨e, hmem, hbelow, rfl, fun hkind ↦
    matches_search hkind hsought hresolved.plain hmatches⟩

theorem mem_listed {filter : Filter} {e : Entry} {type : Path} (hfields : resolved.fields = [])
    (he : e ∈ s.entries) (hbelow : e.collection.startsWith h.resource)
    (hmatches : filter.matches e.document) :
    h.disclose e.record ∈ h.listed s type resolved filter := by
  have hfound : e ∈ s.matching (h.search type resolved).path filter := by
    rw [path_search]
    exact Store.mem_matching.mpr ⟨he, hbelow, hmatches⟩
  have hsorted : e ∈ Sorting.sortBy Entry.document (h.search type resolved).sortKeys
      (s.matching (h.search type resolved).path filter) :=
    (List.mergeSort_perm _ _).mem_iff.mpr hfound
  refine List.mem_map_of_mem (List.mem_map.mpr ⟨e, hsorted, ?_⟩)
  rw [fields_search h type hfields]
  rfl

end Handler

namespace Routes

/-- No other collection comes within the reach of what an explicit handler lists. -/
def Alone (r : Routes) (h : Handler) : Prop :=
  ∀ h' ∈ r.handlers, if h'.kind.isGeneric
    then ¬ h'.resource.startsWith h.resource ∧ ¬ h.resource.startsWith h'.resource
    else h'.resource.startsWith h.resource → h'.resource = h.resource

/-- No explicit handler keeps its objects within the reach of what a generic one lists. -/
def Unmixed (r : Routes) (h : Handler) : Prop :=
  ∀ h' ∈ r.handlers, h'.kind = .explicit → ¬ h'.resource.startsWith h.resource

instance (r : Routes) (h : Handler) : Decidable (r.Unmixed h) :=
  inferInstanceAs (Decidable (∀ h' ∈ r.handlers, _ → ¬ _))

variable {r : Routes} {collection type : Path} {content : Json}

theorem Alone.eq_of_keeps {h : Handler} (halone : r.Alone h) (hkeeps : r.Keeps collection content)
    (hbelow : collection.startsWith h.resource) : collection = h.resource := by
  cases hkeeps with
  | @explicit type hkind hplace =>
    have hother := halone _ (r.mem_handlers_sent type)
    have hexplicit : ¬ (r.sent type).kind.isGeneric := by rw [hkind]; exact Bool.false_ne_true
    rw [if_neg hexplicit, ← hplace] at hother
    exact hother hbelow
  | @generic type htype hkind hplace htag =>
    have hother := halone _ (r.mem_handlers_sent type)
    rw [if_pos hkind] at hother
    have hwithin : collection.startsWith (r.sent type).resource :=
      Path.startsWith_iff.mpr ⟨type, hplace⟩
    rcases Path.startsWith_total hbelow hwithin with hover | hunder
    · exact absurd hover hother.2
    · exact absurd hunder hother.1

/-- Of the records within the reach of a generic handler, those that carry the tag of one of its
types lie in the collection of this. -/
theorem Unmixed.of_keeps {e : Entry} (hunmixed : r.Unmixed (r.sent type)) (htype : type.Clean)
    (hkeeps : r.Keeps e.collection e.content)
    (hbelow : e.collection.startsWith (r.sent type).resource)
    (hmatches : (Generic.ofType type).matches e.document) :
    e.collection = (r.sent type).typeCollection type ∧ Generic.Tagged type e.content := by
  cases hkeeps with
  | @explicit type' hkind hplace =>
    exact absurd (hplace ▸ hbelow) (hunmixed _ (r.mem_handlers_sent type') hkind)
  | @generic type' htype' hkind hplace htag =>
    rw [htag.matches_ofType htype' htype] at hmatches
    obtain rfl := of_decide_eq_true hmatches
    exact ⟨hplace, htag⟩

end Routes

namespace Service

variable {r : Routes} {s : Service} {type : Path} {record : Record} {e : Entry}

section Explicit

variable {h : Handler} {id : String} (hkind : h.kind = .explicit) (hne : type ≠ .empty)
  (hpool : s.pool.refusing = false) (hsame : s.routes.handlerFor type = h)
include hkind hne hpool hsame

theorem serve_read_explicit (hid : PlainSegment id) (context : Context) :
    (s.serve context (.read (type.child id) [])).1 = match s.store.find? h.resource id with
      | some e => .ok e.record
      | none => .error (objectNotFound id h.resource) := by
  obtain ⟨c, hc, hserve⟩ := exists_answer_read hpool context hid type
  have hinstance := h.explicitInstance_single hid hne
  rw [hserve, hsame]
  refine (Handler.answer_read_explicit hkind hc hinstance s.store).trans ?_
  cases s.store.find? h.resource id <;> rfl

/-- An explicit type shows the records of its own collection. -/
theorem Ordered.shows_iff (hs : s.Ordered r) (hid : PlainSegment record.id) :
    s.Shows type record ↔ ∃ e ∈ s.store.entries, e.collection = h.resource ∧ e.record = record := by
  constructor
  · intro hshows
    have hread := hshows {} _ (.refl _)
    rw [serve_read_explicit hkind hne hpool hsame hid] at hread
    cases hfind : s.store.find? h.resource record.id with
    | none =>
      rw [hfind] at hread
      cases hread
    | some e =>
      rw [hfind] at hread
      obtain ⟨he, hkey⟩ := Store.mem_of_find? hfind
      exact ⟨e, he, congrArg Prod.fst hkey, Except.ok.inj hread⟩
  · rintro ⟨e, he, hplace, rfl⟩ context entries hperm
    have hfind := (hs.perm hperm).keyed.find?_eq (hperm.mem_iff.mpr he)
    rw [serve_read_explicit hkind hne (s := { s with store := { s.store with entries } }) hpool
      hsame hid, ← hplace]
    exact hfind ▸ rfl

end Explicit

/-- A generic type shows every record that carries its tag. -/
theorem Ordered.shows_of_tagged (hs : s.Ordered r) (hpool : s.pool.refusing = false)
    (hsame : s.routes.handlerFor type = r.sent type) (htype : type.Clean)
    (hkind : (r.sent type).kind.isGeneric) (hunmixed : r.Unmixed (r.sent type))
    (he : e ∈ s.store.entries) (hbelow : e.collection.startsWith (r.sent type).resource)
    (hmatches : (Generic.ofType type).matches e.document) (hid : PlainSegment e.id) :
    s.Shows type ((r.sent type).disclose e.record) := by
  obtain ⟨explicit, hkind⟩ := HandlerKind.exists_of_isGeneric hkind
  obtain ⟨hplace, htag⟩ := hunmixed.of_keeps htype (hs.kept e he) hbelow hmatches
  intro context entries hperm
  let t : Service := { s with store := { s.store with entries } }
  have ht : t.Ordered r := hs.perm hperm
  have hfound : e ∈ t.store.matching (r.sent type).resource (Handler.sought type e.id) :=
    Store.mem_matching.mpr ⟨hperm.mem_iff.mpr he, hbelow, Handler.matches_sought htag⟩
  have hall : ∀ e' ∈ t.store.matching (r.sent type).resource (Handler.sought type e.id),
      (r.sent type).disclose e'.record = (r.sent type).disclose e.record := by
    intro e' he'
    -- Tag and identifier leave only one key.
    obtain ⟨hmem, hbelow', hmatches'⟩ := Store.mem_matching.mp he'
    have hid' : e'.id = e.id := Handler.id_of_sought hmatches'
    simp only [Handler.sought, Filter.matches, Filter.matchesAll, Bool.and_true,
      Bool.and_eq_true] at hmatches'
    obtain ⟨hplace', -⟩ := hunmixed.of_keeps htype (ht.kept e' hmem) hbelow' hmatches'.2
    rw [ht.keyed.eq_of_key hmem (hperm.mem_iff.mpr he)
      (Prod.ext (hplace'.trans hplace.symm) hid')]
  have hpool' : t.pool.refusing = false := hpool
  obtain ⟨c, hc, hserve⟩ := exists_answer_read hpool' context hid type
  rw [Handler.disclose_id]
  refine hserve.trans ?_
  have hsame' : t.routes.handlerFor type = r.sent type := hsame
  rw [hsame']
  exact Handler.answer_read_alike hkind hc hfound hall

/-- A query that asks for no page is answered with all that it lists. -/
theorem serve_unpaged {h : Handler} {q resolved : Query} {filter : Filter}
    (hpool : s.pool.refusing = false) (hsame : s.routes.handlerFor q.path = h)
    (hq : h.catalog.resolveQuery h.limits (q.page none none) = .ok resolved)
    (hfilter : Store.queryFilter (h.search q.path resolved) = .ok filter) (context : Context) :
    (s.serve context (.query (q.page none none))).1 =
      .ok ⟨h.listed s.store q.path resolved filter,
        { total := (h.listed s.store q.path resolved filter).length }⟩ := by
  obtain ⟨c, hc, hserve⟩ := exists_answer hpool context (.query (q.page none none))
  have hsame' : s.routes.handlerFor (q.page none none).path = h := hsame
  rw [hserve, Request.typePath, hsame']
  exact Handler.answer_unpaged hq hfilter hc

end Service

namespace MappingDocument

variable {d : MappingDocument} {limits : Limits} {limit : Nat}

/-- A query by filter lists records that an explicit type need not show. It shows those that lie in
its own collection, all of them if no other collection is in reach, and otherwise tells what its own
collection has under the identifier. A generic type shows whatever it lists, if no explicit type
keeps its objects in reach. -/
theorem listed_shown (hvalid : d.validate limits = .ok ()) (hlimit : 1 ≤ limit) :
    ∃ r, Routes.ofDocument limits limit d = .ok r ∧
      ∀ s, Service.Reached r Request.Guarded s → ∀ context q page, q.path.Clean →
        q.filter.isSome → q.fields = [] → (s.serve context (.query q)).1 = .ok page →
        ∀ record ∈ page.records, PlainSegment record.id →
          let h := s.routes.handlerFor q.path
          (h.kind.isGeneric → r.Unmixed h → s.Shows q.path record) ∧
          (h.kind = .explicit → q.path ≠ .empty →
            (r.Alone h → s.Shows q.path record) ∧
            (s.Shows q.path record ↔
              ∃ e ∈ s.store.entries, e.collection = h.resource ∧ e.record = record) ∧
            ∀ context, (s.serve context (.read (q.path.child record.id) [])).1 =
              match s.store.find? h.resource record.id with
              | some e => .ok e.record
              | none => .error (objectNotFound record.id h.resource)) := by
  obtain ⟨types, haccepted⟩ := accepted_of_validate hvalid
  refine ⟨_, haccepted.ofDocument_eq hvalid hlimit, ?_⟩
  intro s hs context q page hpath hfilter hfields hserve record hrecord hid
  have hordered := hs.ordered fun r' hused ↦ handlerFor_routes haccepted hlimit hused
  have hsame := handlerFor_routes haccepted hlimit hordered.used q.path
  have hpool : s.pool.refusing = false := by
    cases hrefusing : s.pool.refusing with
    | false => rfl
    | true =>
      rw [Service.serve_refused hrefusing] at hserve
      cases hserve
  obtain ⟨c, -, hanswer⟩ := Service.exists_answer hpool context (.query q)
  have hlisted : (s.routes.handlerFor q.path).answer c (.query q) s.store = .ok page :=
    hanswer.symm.trans hserve
  obtain ⟨e, he, hbelow, rfl, htag⟩ :=
    Handler.exists_of_listed hlisted hfilter hfields hrecord
  refine ⟨fun hkind hunmixed ↦ ?_, fun hkind hne ↦ ⟨fun halone ↦ ?_, ?_, ?_⟩⟩
  · rw [Handler.disclose_id] at hid
    have hmatches := htag hkind
    rw [hsame] at hkind hunmixed hbelow ⊢
    exact hordered.shows_of_tagged hpool hsame hpath hkind hunmixed he hbelow hmatches hid
  · have hplace := halone.eq_of_keeps (hordered.kept e he) hbelow
    refine (hordered.shows_iff hkind hne hpool rfl hid).mpr ⟨e, he, hplace, ?_⟩
    rw [Handler.disclose_explicit hkind, id]
  · exact hordered.shows_iff hkind hne hpool rfl hid
  · exact Service.serve_read_explicit hkind hne hpool rfl hid

theorem user_listed_shown :
    let types : TypeSections := { explicit := [("internal/user", {})] }
    let d : MappingDocument :=
      { queries := some { generic := some [], explicit := some [] }, types := some types }
    let user : Path := ⟨["managed", "user"]⟩
    let create : Request := .create user (some "u1") (.obj [("n", .int 1)])
    let q : Query := { path := user, filter := some (.constant true) }
    let record : Record := ⟨"u1", "1", .obj [("n", .int 1)]⟩
    d.validate {} = .ok () ∧ 1 ≤ 1 ∧ ∃ r, Routes.ofDocument {} 1 d = .ok r ∧
      let s := (Service.serve {} create ⟨r, {}, .empty fun _ ↦ ""⟩).2
      Service.Reached r Request.Guarded s ∧ r.Unmixed (s.routes.handlerFor user) ∧
        ∃ page, (s.serve {} (.query q)).1 = .ok page ∧ record ∈ page.records ∧
          s.Shows user record := by
  intro types d user create q record
  have hvalid : d.validate {} = .ok () := by rfl
  obtain ⟨r, hr, hlisted⟩ := listed_shown hvalid (Nat.le_refl 1)
  refine ⟨hvalid, Nat.le_refl 1, r, hr, ?_⟩
  obtain ⟨types', haccepted⟩ := accepted_of_validate hvalid
  obtain rfl : types = types' := Except.ok.inj haccepted.sections
  obtain rfl := Except.ok.inj ((haccepted.ofDocument_eq hvalid (Nat.le_refl 1)).symm.trans hr)
  intro s
  have hcreate : create.Guarded := ⟨by decide, fun _ hc ↦ absurd hc List.not_mem_nil⟩
  have hs : Service.Reached (d.routes {} 1 types) Request.Guarded s :=
    .served {} create (.start {} _) hcreate
  let h : Handler := d.defaultHandler {} types
  have hsame : s.routes.handlerFor q.path = h := by rfl
  have hunmixed : (d.routes {} 1 types).Unmixed h := by decide +kernel
  let e : Entry := h.fresh user "u1" (.obj [("n", .int 1)])
  have he : e ∈ s.store.entries := by
    have hentries : s.store.entries = [e] := by rfl
    rw [hentries]
    exact List.mem_singleton_self e
  let filter : Filter := Generic.restrict (Generic.explicitFields []) user q.filter
  have hfilter : Store.queryFilter (h.search user q) = .ok filter := by rfl
  have hserve := Service.serve_unpaged (s := s) (q := q) rfl hsame rfl hfilter {}
  have hmatches : filter.matches e.document := by decide +kernel
  have htold : h.disclose e.record = record := by decide +kernel
  have hrecord : record ∈ h.listed s.store user q filter :=
    htold ▸ h.mem_listed rfl he (by decide +kernel) hmatches
  refine ⟨hs, hsame ▸ hunmixed, _, hserve, hrecord, ?_⟩
  exact (hlisted s hs {} q _ (by decide) rfl rfl hserve record hrecord (by decide)).1 rfl
    (hsame ▸ hunmixed)

/-- A record of one explicit type is listed with another above it and not found there. -/
theorem nested_unread :
    ¬ ∀ (d : MappingDocument) (r : Routes), d.validate {} = .ok () →
      Routes.ofDocument {} 1 d = .ok r → ∀ s, Service.Reached r
        (fun request ↦ ∃ type id content, type.Clean ∧ request = .create type id content) s →
      ∀ (context : Context) (q : Query) (page : Page), q.path.Clean →
        q.filter = some (.constant true) → q.fields = [] → q.pageSize = none → q.offset = none →
        (s.serve context (.query q)).1 = .ok page →
        ∀ record ∈ page.records, PlainSegment record.id →
          (s.serve context (.read (q.path.child record.id) [])).1 = .ok record := by
  intro hall
  let types : TypeSections := { explicit := [("internal", {}), ("internal/user", {})] }
  let d : MappingDocument :=
    { queries := some { generic := some [], explicit := some [] }, types := some types }
  have hvalid : d.validate {} = .ok () := by rfl
  obtain ⟨types', haccepted⟩ := accepted_of_validate hvalid
  obtain rfl : types = types' := Except.ok.inj haccepted.sections
  let r : Routes := d.routes {} 1 types
  let create : Request := .create ⟨["internal", "user"]⟩ (some "u1") (.obj [("n", .int 1)])
  let start : Service := ⟨r, {}, .empty fun _ ↦ ""⟩
  let s : Service := (start.serve {} create).2
  let e : Entry := ⟨⟨["internal", "user"]⟩, "u1", 1, .obj [("n", .int 1)]⟩
  let q : Query := { path := ⟨["internal"]⟩, filter := some (.constant true) }
  have hs : Service.Reached r
      (fun request ↦ ∃ type id content, type.Clean ∧ request = .create type id content) s :=
    .served {} create (.start {} _) ⟨_, _, _, by decide, rfl⟩
  let h : Handler := d.handlerOf {} ⟨typeOfKey "internal", false, typeOfKey "internal", {}⟩
  have hsame : s.routes.handlerFor q.path = h := by rfl
  have he : e ∈ s.store.entries := by
    have hentries : s.store.entries = [e] := by rfl
    rw [hentries]
    exact List.mem_singleton_self e
  have hserve := Service.serve_unpaged (s := s) (q := q) rfl hsame rfl rfl {}
  have hplain : PlainSegment "u1" := by decide
  have hread := hall d r hvalid (haccepted.ofDocument_eq hvalid (Nat.le_refl 1)) s hs {} q _
    (by decide) rfl rfl rfl rfl hserve _ (h.mem_listed rfl he (by decide +kernel) (by rfl)) hplain
  have hne : q.path ≠ .empty := by decide
  have hunread := Service.serve_read_explicit rfl hne rfl hsame hplain {}
  cases hunread.symm.trans hread

end MappingDocument

end RecordService
