import RecordService.Proofs.Digits
import RecordService.Proofs.Listing
import RecordService.Proofs.Ordering

namespace RecordService

section Consumers

variable {accepts : Consumer} {ask : Consumer → Except Fault Page} {n : Nat} {page : Page}
  {all : List Record}

/-- A consumer who wants no more when it is given the `n`-th of some records. -/
def DeclinesAt (n : Nat) (records : List Record) (accepts : Consumer) : Prop :=
  ∀ received, received ≠ [] → received <+: records → received.length ≤ n →
    (accepts received ↔ received.length ≠ n)

theorem Page.offer_eq (h : DeclinesAt n all accepts) {received records : List Record}
    (hall : received ++ records = all) (hlt : received.length < n) :
    offer accepts received records = all.take n := by
  induction records generalizing received with
  | nil =>
    rw [List.append_nil] at hall
    rw [offer, ← hall, List.take_of_length_le hlt.le]
  | cons record records ih =>
    have hlength : (received ++ [record]).length = received.length + 1 := List.length_append
    have hnext : received ++ [record] ++ records = all := by
      rw [List.append_assoc, List.singleton_append, hall]
    have hasked := h (received ++ [record]) (by simp) ⟨records, hnext⟩ (by omega)
    rw [offer]
    by_cases hlast : (received ++ [record]).length = n
    · rw [if_neg (mt hasked.mp (not_not.mpr hlast)), ← hnext, ← hlast, List.take_left]
    · rw [if_pos (hasked.mpr hlast), ih hnext (by omega)]

theorem Page.deliver_eq (h : DeclinesAt n page.records accepts) (hn : 1 ≤ n) :
    page.deliver accepts = page.records.take (min n page.records.length) := by
  have hempty : ([] : List Record).length < n := hn
  rw [deliver, offer_eq h (List.nil_append _) hempty, ← List.take_eq_take_min]

/-- A page is offered to consumers: the answer is the same for all of them, but for the records that
are left when they decline. -/
structure Offers (ask : Consumer → Except Fault Page) : Prop where
  refused : ∀ fault, ask .all = .error fault → ∀ accepts, ask accepts = .error fault
  answered : ∀ page, ask .all = .ok page → ∀ accepts, ∃ received, received <+: page.records ∧
    ask accepts = .ok ⟨received, page.progress⟩ ∧
    ∀ n, 1 ≤ n → DeclinesAt n page.records accepts →
      received = page.records.take (min n page.records.length)

theorem offers_of_takenBy
    (h : ∀ accepts, ask accepts = (ask .all).map (Page.takenBy accepts)) : Offers ask where
  refused fault hfault accepts := by rw [h, hfault, Except.map]
  answered page hpage accepts := by
    refine ⟨page.deliver accepts, Page.isPrefix_offer accepts [] page.records, ?_,
      fun n hn hdeclines ↦ Page.deliver_eq hdeclines hn⟩
    rw [h, hpage, Except.map, Page.takenBy]

end Consumers

namespace Query

variable {ask : Option Int → Except Fault Page} {whole : List Record} {size : Int} {start : Nat}
  {offset : Option Int} {pages pages' : List Page}

/-- The pages of a caller who starts at an offset and asks on while there is a cookie. -/
inductive Follows (ask : Option Int → Except Fault Page) : Option Int → List Page → Prop
  | last {offset : Option Int} {page : Page} : ask offset = .ok page →
      page.progress.cookie = none → Follows ask offset [page]
  | next {offset : Option Int} {page : Page} {cookie : String} {n : Int} {pages : List Page} :
      ask offset = .ok page → page.progress.cookie = some cookie →
      Http.integer "_pagedResultsOffset" cookie = .ok n → Follows ask (some n) pages →
      Follows ask offset (page :: pages)

theorem Follows.unique (h : Follows ask offset pages) (h' : Follows ask offset pages') :
    pages' = pages := by
  induction h generalizing pages' with
  | last hpage hcookie =>
    cases h' with
    | last hpage' => rw [Except.ok.inj (hpage'.symm.trans hpage)]
    | next hpage' hcookie' =>
      rw [Except.ok.inj (hpage'.symm.trans hpage), hcookie] at hcookie'
      cases hcookie'
  | next hpage hcookie hn _ ih =>
    cases h' with
    | last hpage' hcookie' =>
      rw [Except.ok.inj (hpage'.symm.trans hpage), hcookie] at hcookie'
      cases hcookie'
    | next hpage' hcookie' hn' hrest =>
      obtain rfl := Except.ok.inj (hpage'.symm.trans hpage)
      obtain rfl := Option.some_inj.mp (hcookie'.symm.trans hcookie)
      obtain rfl := Except.ok.inj (hn'.symm.trans hn)
      rw [ih hrest]

/-- Pages that hold, one after the other, all results from an offset on. -/
structure Chain (size start : Nat) (whole : List Record) (pages : List Page) : Prop where
  records : pages.flatMap Page.records = whole.drop start
  sized : ∀ page ∈ pages, page.records.length ≤ size
  total : ∀ page ∈ pages, page.progress.total = whole.length
  /-- What is said to remain after a page, with all that has been given by then, is everything. -/
  remaining : ∀ before page after, pages = before ++ page :: after →
    page.progress.remaining +
      (start + ((before ++ [page]).flatMap Page.records).length : Nat) = whole.length

section Paged

variable (hstart : (offset.getD 0).toNat = start) (hle : start ≤ whole.length)
include hstart

theorem records_paged :
    (paged offset (some size) whole).records = (whole.drop start).take size.toNat := by
  rw [← hstart]
  rfl

theorem progress_paged : (paged offset (some size) whole).progress =
    { cookie := if whole.length ≤ start + size.toNat then none
        else some (toString (start + size.toNat))
      total := whole.length
      remaining := (whole.length - (start + size.toNat) : Nat) } := by
  rw [← hstart]
  simp only [paged, List.isEmpty_iff, List.drop_drop, List.drop_eq_nil_iff, List.length_drop]

include hle

theorem remaining_paged :
    (paged offset (some size) whole).progress.remaining +
      (start + (paged offset (some size) whole).records.length : Nat) = whole.length := by
  rw [progress_paged hstart, records_paged hstart, List.length_take, List.length_drop]
  dsimp only
  omega

theorem Chain.last (hend : whole.length ≤ start + size.toNat) :
    Chain size.toNat start whole [paged offset (some size) whole] where
  records := by
    rw [List.flatMap_singleton, records_paged hstart]
    exact List.take_of_length_le (by rw [List.length_drop]; omega)
  sized page hpage := by
    rw [List.mem_singleton.mp hpage, records_paged hstart]
    exact List.length_take_le _ _
  total page hpage := by
    rw [List.mem_singleton.mp hpage, progress_paged hstart]
  remaining before page after heq := by
    obtain ⟨rfl, rfl, rfl⟩ : before = [] ∧ paged offset (some size) whole = page ∧ after = [] := by
      cases before <;> simp_all
    rw [List.nil_append, List.flatMap_singleton]
    exact remaining_paged hstart hle

omit hle in
theorem Chain.cons (hmore : start + size.toNat ≤ whole.length)
    (h : Chain size.toNat (start + size.toNat) whole pages) :
    Chain size.toNat start whole (paged offset (some size) whole :: pages) where
  records := by
    rw [List.flatMap_cons, h.records, records_paged hstart, ← List.drop_drop,
      List.take_append_drop]
  sized page hpage := by
    obtain rfl | hpage := List.mem_cons.mp hpage
    · rw [records_paged hstart]
      exact List.length_take_le _ _
    · exact h.sized page hpage
  total page hpage := by
    obtain rfl | hpage := List.mem_cons.mp hpage
    · rw [progress_paged hstart]
    · exact h.total page hpage
  remaining before page after heq := by
    have hle : start ≤ whole.length := by omega
    cases before with
    | nil =>
      obtain ⟨rfl, -⟩ := List.cons.inj heq
      rw [List.nil_append, List.flatMap_singleton]
      exact remaining_paged hstart hle
    | cons first before =>
      obtain ⟨rfl, hrest⟩ := List.cons.inj heq
      have hfull : (paged offset (some size) whole).records.length = size.toNat := by
        rw [records_paged hstart, List.length_take, List.length_drop]
        omega
      have hremaining := h.remaining before page after hrest
      rw [List.cons_append, List.flatMap_cons, List.length_append, hfull, ← Nat.add_assoc]
      exact hremaining

end Paged

/-- Whatever the size of the pages, the cookies lead through all results. -/
theorem exists_follows
    (hask : ∀ offset : Option Int, 0 ≤ offset.getD 0 →
      ask offset = .ok (paged offset (some size) whole))
    (hsize : 0 < size) (hfew : whole.length ≤ Text.maxOfBits 31) (hoffset : 0 ≤ offset.getD 0)
    (hstart : (offset.getD 0).toNat = start) (hle : start ≤ whole.length) :
    ∃ pages, Follows ask offset pages ∧ Chain size.toNat start whole pages := by
  -- By what is left from the start on; a page that is not the last takes some of it.
  induction hleft : whole.length - start using Nat.strongRecOn generalizing start offset with
  | ind left ih =>
    have hpage := hask offset hoffset
    have hcookie : (paged offset (some size) whole).progress.cookie = _ :=
      congrArg Progress.cookie (progress_paged hstart)
    by_cases hend : whole.length ≤ start + size.toNat
    · rw [if_pos hend] at hcookie
      exact ⟨_, .last hpage hcookie, .last hstart hle hend⟩
    · rw [if_neg hend] at hcookie
      have hnumber : Http.integer "_pagedResultsOffset" (toString (start + size.toNat)) =
          .ok ((start + size.toNat : Nat) : Int) := Http.integer_toString _ (by omega)
      let next : Option Int := some ((start + size.toNat : Nat) : Int)
      have hoffset' : 0 ≤ next.getD 0 := Int.natCast_nonneg _
      have hstart' : (next.getD 0).toNat = start + size.toNat := Int.toNat_natCast _
      obtain ⟨pages, hfollows, hchain⟩ :=
        ih (whole.length - (start + size.toNat)) (by omega) hoffset' hstart' (by omega) rfl
      exact ⟨_, .next hpage hcookie hnumber hfollows, .cons hstart (by omega) hchain⟩

/-- Asking for pages of a size comes to all of the results: from the start the cookies lead through
them, and from behind their end there is nothing. -/
structure Covers (ask : Option Int → Except Fault Page) (size : Nat) (whole : List Record) :
    Prop where
  followed : ∀ start : Option Int, start.getD 0 = 0 → ∃ pages, Follows ask start pages ∧
    (∀ pages', Follows ask start pages' → pages' = pages) ∧ Chain size 0 whole pages
  beyond : ∀ n : Int, whole.length ≤ n →
    ∃ page, ask (some n) = .ok page ∧ page.records = [] ∧ page.progress.cookie = none

theorem covers_of_paged
    (hask : ∀ offset : Option Int, 0 ≤ offset.getD 0 →
      ask offset = .ok (paged offset (some size) whole))
    (hsize : 0 < size) (hfew : whole.length ≤ Text.maxOfBits 31) : Covers ask size.toNat whole where
  followed start hstart := by
    have hzero : (start.getD 0).toNat = 0 := by rw [hstart]; rfl
    obtain ⟨pages, hfollows, hchain⟩ :=
      exists_follows hask hsize hfew (Int.le_of_eq hstart.symm) hzero (Nat.zero_le _)
    exact ⟨pages, hfollows, fun pages' ↦ hfollows.unique, hchain⟩
  beyond n hn := by
    have hnonneg : 0 ≤ (some n).getD 0 := Int.le_trans (Int.natCast_nonneg _) hn
    have hend : whole.length ≤ ((some n).getD 0).toNat := Int.le_toNat hnonneg |>.mpr hn
    refine ⟨_, hask (some n) hnonneg, ?_, ?_⟩
    · rw [records_paged rfl, List.drop_eq_nil_of_le hend, List.take_nil]
    · rw [progress_paged rfl, if_pos (Nat.le_add_right_of_le hend)]

end Query

section Answers

variable {s : Store} {h : Handler} {q resolved : Query} {filter : Filter} {size : Int}
  {c : Option Connection}

theorem Store.covers (hfilter : queryFilter q = .ok filter) (hsize : 0 < size)
    (hfew : (s.matching q.path filter).length ≤ Text.maxOfBits 31) :
    Query.Covers (fun offset ↦ s.query .all (q.page (some size) offset)) size.toNat
      (q.listed (s.matching q.path filter)) := by
  have hsome : ∀ n ∈ some size, 0 < n := by simpa using hsize
  refine Query.covers_of_paged (fun offset _ ↦ query_page hfilter hsome offset) hsize ?_
  rwa [Query.listed, List.length_map,
    (Sorting.stable_sortBy Entry.document q.sortKeys _).perm.length_eq]

def Limits.sizeOf (limits : Limits) (size : Int) : Int :=
  if 0 < limits.pageSize ∧ limits.pageSize < size then limits.pageSize else size

theorem Limits.sizeOf_pos (limits : Limits) (hsize : 0 < size) : 0 < limits.sizeOf size := by
  unfold sizeOf
  split <;> omega

theorem Limits.pageSizeWithin_some (limits : Limits) (hsize : 0 < size) :
    Query.pageSizeWithin limits.pageSize (some size) = .ok (some (limits.sizeOf size)) := by
  have hpos : ¬ size < 0 := by omega
  have hne : size ≠ 0 := by omega
  simp only [Query.pageSizeWithin, sizeOf, hpos, hne, if_false]
  split <;> simp_all

theorem Handler.length_listed (h : Handler) (s : Store) (type : Path) (resolved : Query)
    (filter : Filter) :
    (h.listed s type resolved filter).length =
      (s.entries.filter fun e ↦ e.collection.startsWith (h.search type resolved).path &&
        filter.matches e.document).length := by
  rw [listed, Query.listed, List.length_map, List.length_map,
    (Sorting.stable_sortBy Entry.document _ _).perm.length_eq,
    (s.stable_matching _ filter).perm.length_eq]

theorem Handler.covers (hq : h.catalog.resolveQuery h.limits (q.page none none) = .ok resolved)
    (hfilter : Store.queryFilter (h.search q.path resolved) = .ok filter)
    (hc : Store.checkConnection c = .ok ()) (hsize : 0 < size)
    (hfew : (h.listed s q.path resolved filter).length ≤ Text.maxOfBits 31) :
    Query.Covers (fun offset ↦ h.answer c (.query (q.page (some size) offset)) s)
      (h.limits.sizeOf size).toNat (h.listed s q.path resolved filter) :=
  Query.covers_of_paged (fun _ ↦ answer_page hq hfilter hc (h.limits.pageSizeWithin_some hsize))
    (h.limits.sizeOf_pos hsize) hfew

theorem Store.offers (s : Store) (q : Query) : Offers fun accepts ↦ s.query accepts q :=
  offers_of_takenBy fun accepts ↦ s.query_takenBy accepts q

theorem Handler.offers (h : Handler) (c : Option Connection) (q : Query) (s : Store) :
    Offers fun accepts ↦ h.answerFor accepts c (.query q) s :=
  offers_of_takenBy fun accepts ↦ congrArg Prod.fst (h.run_planFor_query accepts c q s)

/-- The cookies lead through every match once. What a query lists is sorted stably out of the
matches, and these stand by identifier; asked for pages of a size, the store or a handler comes to
just that list, in pages of that size or of the handler's own where this is less. A consumer who
declines is given the page up to the record at which it does so, and the answer is otherwise that of
all consumers. -/
theorem pages_cover_whole :
    (∀ (s : Store) (q : Query) (filter : Filter), Store.queryFilter q = .ok filter →
      ∃ found sorted,
        Sorting.Stable (fun a b : Entry ↦ decide (a.id ≤ b.id))
          (s.entries.filter fun e ↦
            e.collection.startsWith q.path && filter.matches e.document) found ∧
        Sorting.Stable (Sorting.comesBefore Entry.document q.sortKeys) found sorted ∧
        ∃ whole, whole = sorted.map (fun e ↦
            { e.record with content := e.content.select q.fields }) ∧
          s.query .all (q.page none none) = .ok ⟨whole, { total := whole.length }⟩ ∧
          ∀ size : Int, 0 < size → whole.length ≤ Text.maxOfBits 31 →
            Query.Covers (fun offset ↦ s.query .all (q.page (some size) offset)) size.toNat
              whole) ∧
    (∀ (h : Handler) (s : Store) (q resolved : Query) (c : Option Connection),
      h.catalog.resolveQuery h.limits (q.page none none) = .ok resolved →
      Store.checkConnection c = .ok () →
      ∃ filter whole, Store.queryFilter (h.search q.path resolved) = .ok filter ∧
        whole = h.listed s q.path resolved filter ∧
        h.answer c (.query (q.page none none)) s = .ok ⟨whole, { total := whole.length }⟩ ∧
        ∀ size : Int, 0 < size → whole.length ≤ Text.maxOfBits 31 →
          Query.Covers (fun offset ↦ h.answer c (.query (q.page (some size) offset)) s)
            (h.limits.sizeOf size).toNat whole) ∧
    (∀ (s : Store) (q : Query), Offers fun accepts ↦ s.query accepts q) ∧
    ∀ (h : Handler) (s : Store) (q : Query) (c : Option Connection),
      (Offers fun accepts ↦ h.answerFor accepts c (.query q) s) ∧
      ∀ accepts, ((h.planFor accepts (.query q)).run c s).2 = h.after c (.query q) s := by
  refine ⟨fun s q filter hfilter ↦ ?_, fun h s q resolved c hq hc ↦ ?_, Store.offers,
    fun h s q c ↦ ⟨h.offers c q s, fun accepts ↦ by rw [h.run_planFor_query accepts c q s]⟩⟩
  · have hunpaged : ∀ n ∈ (none : Option Int), 0 < n := nofun
    have hsorted := Sorting.stable_sortBy Entry.document q.sortKeys (s.matching q.path filter)
    refine ⟨_, _, s.stable_matching q.path filter, hsorted, _, rfl,
      Store.query_page hfilter hunpaged none, fun size hsize hfew ↦ ?_⟩
    rw [List.length_map, hsorted.perm.length_eq] at hfew
    exact Store.covers hfilter hsize hfew
  · obtain ⟨hform, -⟩ := Catalog.resolved_of_resolveQuery hq
    obtain ⟨filter, hfilter⟩ := Handler.exists_queryFilter_search q.path h hform
    exact ⟨filter, _, hfilter, rfl, Handler.answer_unpaged hq hfilter hc,
      fun size hsize ↦ Handler.covers hq hfilter hc hsize⟩

theorem cookies_lead_through_users :
    let users : Path := ⟨["users"]⟩
    let s : Store :=
      { entries := [⟨users, "b", 1, .obj [("n", .num (.int 1))]⟩,
          ⟨users, "a", 3, .obj [("n", .num (.int 1))]⟩, ⟨⟨["jobs"]⟩, "a", 2, .obj []⟩],
        mint := fun _ ↦ "" }
    let q : Query :=
      { path := users, filter := some (.constant true), sortKeys := [⟨⟨["n"]⟩, true⟩] }
    let h : Handler := ⟨.explicit, users, {}, { pageSize := 1 }⟩
    let c : Option Connection := some ⟨"local-1", false⟩
    Store.queryFilter q = .ok (.constant true) ∧
      (∃ whole, whole.length = 2 ∧
        Query.Covers (fun offset ↦ s.query .all (q.page (some 2) offset)) 2 whole) ∧
      (∃ whole, h.answer c (.query (q.page none none)) s = .ok ⟨whole, { total := 2 }⟩ ∧
        Query.Covers (fun offset ↦ h.answer c (.query (q.page (some 2) offset)) s) 1 whole) ∧
      ∃ page, h.answer c (.query q) s = .ok page ∧ page.records.length = 2 ∧
        h.answerFor (·.length ≠ 1) c (.query q) s = .ok ⟨page.records.take 1, page.progress⟩ := by
  intro users s q h c
  obtain ⟨hstore, hhandler, -, hoffers⟩ := pages_cover_whole
  have hlength : (s.entries.filter fun e ↦
      e.collection.startsWith users && (Filter.constant true).matches e.document).length = 2 := rfl
  have hfew : 2 ≤ Text.maxOfBits 31 := by decide
  obtain ⟨filter, whole, hfilter, hwhole, hanswer, hcovers⟩ := hhandler h s q q c rfl rfl
  obtain rfl : Filter.constant true = filter := Except.ok.inj hfilter
  have htwo : whole.length = 2 := by
    rw [hwhole, Handler.length_listed]
    exact hlength
  refine ⟨rfl, ?_, ?_, ?_⟩
  · obtain ⟨found, sorted, hfound, hsorted, whole, rfl, -, hcovers⟩ := hstore s q _ rfl
    have htwo : (sorted.map fun e ↦
        { e.record with content := e.content.select q.fields }).length = 2 := by
      rw [List.length_map, hsorted.perm.length_eq, hfound.perm.length_eq, hlength]
    exact ⟨_, htwo, hcovers 2 (by decide) (htwo ▸ hfew)⟩
  · rw [htwo] at hanswer hcovers
    exact ⟨whole, hanswer, hcovers 2 (by decide) hfew⟩
  · obtain ⟨received, -, hreceived, hfirst⟩ :=
      (hoffers h s q c).1.answered _ hanswer (·.length ≠ 1)
    have hone := hfirst 1 (Nat.le_refl 1) fun received _ _ _ ↦ by simp
    rw [htwo] at hone
    exact ⟨_, hanswer, htwo, hone ▸ hreceived⟩

end Answers

end RecordService
