import RecordService.Proofs.Creation
import RecordService.Proofs.LogicalQuery

namespace RecordService

namespace Query

variable {q : Query} {cap : Int} {size size' offset offset' : Option Int}

def listed (q : Query) (found : List Entry) : List Record :=
  (Sorting.sortBy Entry.document q.sortKeys found).map fun e ↦
    { e.record with content := e.content.select q.fields }

theorem pageOf_eq_paged (hsize : ∀ n ∈ q.pageSize, 0 < n) (found : List Entry) :
    q.pageOf found = paged q.offset q.pageSize (q.listed found) := by
  let whole : Query := { q with fields := [] }
  have hwhole : whole.fields = [] := rfl
  rw [pageOf_fields]
  exact map_pageOf hwhole hsize found _

theorem map_paged (offset size : Option Int) (records : List Record) (f : Record → Record) :
    (paged offset size records).map f = paged offset size (records.map f) := by
  cases size <;>
    simp only [paged, Page.map, List.map_take, List.map_drop, List.length_map, List.length_drop,
      List.isEmpty_iff, List.drop_eq_nil_iff]

theorem paged_congr (h : offset.getD 0 = offset'.getD 0) (size : Option Int)
    (records : List Record) : paged offset size records = paged offset' size records := by
  simp only [paged, h]

theorem exists_checkedOffset (hoffset : 0 ≤ offset.getD 0) :
    ∃ offset', checkedOffset offset = .ok offset' ∧ offset.getD 0 = offset'.getD 0 := by
  cases offset with
  | none => exact ⟨none, rfl, rfl⟩
  | some n =>
    have hpos : ¬ n < 0 := Int.not_lt.mpr hoffset
    by_cases hzero : n = 0
    · exact ⟨none, by simp [checkedOffset, hzero], by simp [hzero]⟩
    · exact ⟨some n, by simp [checkedOffset, hpos, hzero], rfl⟩

def page (q : Query) (size offset : Option Int) : Query := { q with pageSize := size, offset }

theorem normalize_page {normal : Query} (h : (q.page none none).normalize cap = .ok normal)
    (hsize : pageSizeWithin cap size = .ok size') (hoffset : checkedOffset offset = .ok offset') :
    (q.page size offset).normalize cap = .ok (normal.page size' offset') := by
  have hform : (q.page size offset).trimmed.checkForm = (q.page none none).trimmed.checkForm := rfl
  rw [normalize_eq] at h ⊢
  obtain ⟨_, hform', h⟩ := bind_eq_ok.mp h
  rw [hform, hform', ok_bind, page, hsize, ok_bind, hoffset]
  cases h
  rfl

end Query

/-- Paging has no part in what a query is resolved to. -/
theorem Catalog.resolveQuery_page {c : Catalog} {limits : Limits} {q resolved : Query}
    {size size' offset offset' : Option Int}
    (h : c.resolveQuery limits (q.page none none) = .ok resolved)
    (hsize : Query.pageSizeWithin limits.pageSize size = .ok size')
    (hoffset : Query.checkedOffset offset = .ok offset') :
    c.resolveQuery limits (q.page size offset) = .ok (resolved.page size' offset') := by
  obtain ⟨normal, hnormal, -⟩ := bind_eq_ok.mp h
  have hpage := Query.normalize_page (orBadRequest_eq_ok.mp hnormal) hsize hoffset
  suffices hsame : c.resolveQuery limits (q.page size offset) =
      (c.resolveQuery limits (q.page none none)).map (·.page size' offset') by
    rw [hsame, h]
    rfl
  simp only [resolveQuery, hnormal, orBadRequest_eq_ok.mpr hpage, ok_bind]
  obtain ⟨path, queryId, filter, expression, fields, sortKeys, pageSize, start, parameters⟩ := normal
  cases expression with
  | some text => rfl
  | none =>
    cases queryId with
    | none => rfl
    | some id =>
      simp only [Query.page, Option.isSome_none, Bool.false_eq_true, if_false]
      cases c.query id with
      | error fault => rfl
      | ok definition =>
        simp only [ok_bind]
        cases definition.resolve limits parameters with
        | error fault => rfl
        | ok filter =>
          cases sortKeys with
          | nil =>
            simp only [List.isEmpty_nil, if_true]
            cases orBadRequest definition.sorting <;> rfl
          | cons key keys => rfl

theorem Store.query_page {s : Store} {q : Query} {filter : Filter} {size : Option Int}
    (hfilter : queryFilter q = .ok filter) (hsize : ∀ n ∈ size, 0 < n) (offset : Option Int) :
    s.query .all (q.page size offset) =
      .ok (Query.paged offset size (q.listed (s.matching q.path filter))) := by
  have hsame : queryFilter (q.page size offset) = .ok filter := hfilter
  rw [query_eq s hsame, Query.pageOf_eq_paged hsize]
  rfl

namespace Handler

variable {h : Handler} {s : Store} {q resolved : Query} {c : Option Connection} {filter : Filter}
  {size size' offset : Option Int}

def search (h : Handler) (type : Path) (resolved : Query) : Query :=
  match h.kind with
  | .explicit => { resolved with path := h.resource }
  | .generic explicit => h.typeQuery explicit type resolved

theorem search_explicit (hkind : h.kind = .explicit) (type : Path) (resolved : Query) :
    h.search type resolved = { resolved with path := h.resource } := by
  simp only [search, hkind]

theorem search_generic {explicit : List String} (hkind : h.kind = .generic explicit) (type : Path)
    (resolved : Query) : h.search type resolved = h.typeQuery explicit type resolved := by
  simp only [search, hkind]

theorem disclose_explicit (hkind : h.kind = .explicit) : h.disclose = id := by
  funext record
  simp only [disclose, hkind, id]

theorem disclose_generic {explicit : List String} (hkind : h.kind = .generic explicit) :
    h.disclose = unwrapped explicit := by
  funext record
  simp only [disclose, hkind]

theorem search_page (h : Handler) (type : Path) (resolved : Query) (size offset : Option Int) :
    h.search type (resolved.page size offset) = (h.search type resolved).page size offset := by
  unfold search
  split <;> rfl

/-- A consumer of a type's records takes what is disclosed of those that the search finds. -/
theorem planFor_search (hq : h.catalog.resolveQuery h.limits q = .ok resolved)
    (accepts : Consumer) :
    h.planFor accepts (.query q) = Plan.throughFor (accepts.through h.disclose)
      (.query (h.search q.path resolved)) fun page ↦ .ok (page.map h.disclose) := by
  cases hkind : h.kind with
  | explicit =>
    have hpage : ∀ page : Page, page.map id = page := fun page ↦
      congrArg (Page.mk · page.progress) (List.map_id page.records)
    have htaken : accepts.through id = accepts := funext fun received ↦
      congrArg accepts (List.map_id received)
    rw [search_explicit hkind, disclose_explicit hkind, htaken]
    simp only [planFor_explicit hkind, explicitPlan, hq, hpage]
    exact Plan.askFor_eq_throughFor accepts _
  | generic explicit => rw [planFor_query hkind hq, search_generic hkind, disclose_generic hkind]

theorem planFor_of_unresolved {fault : Fault}
    (hq : h.catalog.resolveQuery h.limits q = .error fault) (accepts : Consumer) :
    h.planFor accepts (.query q) = Plan.fail fault := by
  cases hkind : h.kind with
  | explicit => rw [planFor_explicit hkind, explicitPlan, hq]; rfl
  | generic explicit => rw [planFor_generic hkind, genericPlan, hq]; rfl

theorem exists_queryFilter_search (type : Path) (h : Handler) {cap : Int}
    (hresolved : resolved.Resolved cap) :
    ∃ filter, Store.queryFilter (h.search type resolved) = .ok filter := by
  obtain ⟨filter, hfilter⟩ := Option.isSome_iff_exists.mp hresolved.filtered
  cases hkind : h.kind with
  | explicit =>
    rw [search_explicit hkind]
    exact ⟨filter, by simp [Store.queryFilter, hresolved.plain, hfilter]⟩
  | generic explicit =>
    rw [search_generic hkind]
    exact ⟨_, queryFilter_typeQuery hresolved.plain h explicit type⟩

theorem answerFor_search (hq : h.catalog.resolveQuery h.limits q = .ok resolved)
    (accepts : Consumer) (c : Option Connection) (s : Store) :
    h.answerFor accepts c (.query q) s = Store.checkConnection c >>= fun _ ↦
      (s.query (accepts.through h.disclose) (h.search q.path resolved)).map
        (Page.map h.disclose) := by
  rw [(serve_of_planFor (planFor_search hq accepts) c s).1, Store.fst_performFor_query]
  cases Store.checkConnection c with
  | error fault => rfl
  | ok => cases s.query (accepts.through h.disclose) (h.search q.path resolved) <;> rfl

theorem answer_search (hq : h.catalog.resolveQuery h.limits q = .ok resolved)
    (c : Option Connection) (s : Store) :
    h.answer c (.query q) s = Store.checkConnection c >>= fun _ ↦
      (s.query .all (h.search q.path resolved)).map (Page.map h.disclose) :=
  answerFor_search hq .all c s

/-- The consumer of a query has a part in nothing but in how many records it receives. -/
theorem run_planFor_query (h : Handler) (accepts : Consumer) (c : Option Connection) (q : Query)
    (s : Store) :
    (h.planFor accepts (.query q)).run c s =
      ((h.answer c (.query q) s).map (Page.takenBy accepts), h.after c (.query q) s) := by
  cases hq : h.catalog.resolveQuery h.limits q with
  | error fault =>
    simp only [answer, after, plan, planFor_of_unresolved hq]
    rfl
  | ok resolved =>
    refine Prod.ext ?_ ?_
    · change h.answerFor accepts c (.query q) s = _
      rw [answerFor_search hq, answer_search hq, Store.query_takenBy]
      cases Store.checkConnection c with
      | error fault => rfl
      | ok =>
        cases s.query .all (h.search q.path resolved) with
        | error fault => rfl
        | ok page => exact congrArg Except.ok (page.map_takenBy_through h.disclose accepts)
    · rw [(serve_of_planFor (planFor_search hq accepts) c s).2, Store.snd_performFor_query]
      have hall := (serve_of_planFor (planFor_search hq .all) c s).2
      rw [Store.snd_performFor_query] at hall
      exact hall.symm

def listed (h : Handler) (s : Store) (type : Path) (resolved : Query) (filter : Filter) :
    List Record :=
  ((h.search type resolved).listed (s.matching (h.search type resolved).path filter)).map h.disclose

theorem answer_page (hq : h.catalog.resolveQuery h.limits (q.page none none) = .ok resolved)
    (hfilter : Store.queryFilter (h.search q.path resolved) = .ok filter)
    (hc : Store.checkConnection c = .ok ())
    (hsize : Query.pageSizeWithin h.limits.pageSize size = .ok size')
    (hoffset : 0 ≤ offset.getD 0) :
    h.answer c (.query (q.page size offset)) s =
      .ok (Query.paged offset size' (h.listed s q.path resolved filter)) := by
  obtain ⟨offset', hchecked, hsame⟩ := Query.exists_checkedOffset hoffset
  have hpage := Catalog.resolveQuery_page hq hsize hchecked
  rw [answer_search hpage, hc, ok_bind, search_page]
  have hpath : (q.page size offset).path = q.path := rfl
  rw [hpath, Store.query_page hfilter fun n hn ↦ (Query.bounds_of_pageSizeWithin hsize n hn).1,
    Except.map, Query.map_paged, ← Query.paged_congr hsame]
  rfl

theorem answer_unpaged (hq : h.catalog.resolveQuery h.limits (q.page none none) = .ok resolved)
    (hfilter : Store.queryFilter (h.search q.path resolved) = .ok filter)
    (hc : Store.checkConnection c = .ok ()) :
    h.answer c (.query (q.page none none)) s =
      .ok ⟨h.listed s q.path resolved filter,
        { total := (h.listed s q.path resolved filter).length }⟩ := by
  have hsize : Query.pageSizeWithin h.limits.pageSize none = .ok none := rfl
  have hstart : 0 ≤ (none : Option Int).getD 0 := Int.le_refl 0
  exact answer_page hq hfilter hc hsize hstart

/-- A query that is answered has been resolved. -/
theorem exists_resolved_of_answer {page : Page} (hanswer : h.answer c (.query q) s = .ok page) :
    ∃ resolved, h.catalog.resolveQuery h.limits q = .ok resolved := by
  cases hq : h.catalog.resolveQuery h.limits q with
  | ok resolved => exact ⟨resolved, rfl⟩
  | error fault =>
    rw [answer, plan, planFor_of_unresolved hq] at hanswer
    cases hanswer

end Handler

end RecordService
