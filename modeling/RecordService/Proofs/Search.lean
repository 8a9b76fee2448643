import RecordService.Proofs.Entries

namespace RecordService

namespace Store

variable {s : Store} {e : Entry} {place : Path} {filter : Filter}

theorem byId_perm (entries : List Entry) : (byId entries).Perm entries :=
  List.mergeSort_perm _ _

theorem byId_pairwise (entries : List Entry) : (byId entries).Pairwise fun a b ↦ a.id ≤ b.id := by
  have hsorted : (byId entries).Pairwise fun a b ↦ decide (a.id ≤ b.id) = true := by
    refine List.pairwise_mergeSort (fun a b c hab hbc ↦ ?_) (fun a b ↦ ?_) entries
    · exact decide_eq_true (String.le_trans (of_decide_eq_true hab) (of_decide_eq_true hbc))
    · simpa using String.le_total a.id b.id
  exact hsorted.imp of_decide_eq_true

/-- Entries that stand in order already keep their order. -/
theorem sublist_byId {es entries : List Entry} (hes : es.Pairwise fun a b ↦ a.id ≤ b.id)
    (h : es.Sublist entries) : es.Sublist (byId entries) := by
  refine List.sublist_mergeSort (fun a b c hab hbc ↦ ?_) (fun a b ↦ ?_) (hes.imp decide_eq_true) h
  · exact decide_eq_true (String.le_trans (of_decide_eq_true hab) (of_decide_eq_true hbc))
  · simpa using String.le_total a.id b.id

/-- The entries that pass a test come as they would if they were alone, when no two of them share an
identifier. -/
theorem filter_byId {entries : List Entry} {test : Entry → Bool}
    (h : ∀ a ∈ entries, ∀ b ∈ entries, test a → test b → a.id = b.id → a = b) :
    (byId entries).filter test = byId (entries.filter test) := by
  have hperm : ((byId entries).filter test).Perm (byId (entries.filter test)) :=
    ((byId_perm entries).filter test).trans (byId_perm _).symm
  refine hperm.eq_of_pairwise (fun a b ha hb hab hba ↦ ?_)
    ((byId_pairwise entries).sublist List.filter_sublist) (byId_pairwise _)
  obtain ⟨ha, hta⟩ := List.mem_filter.mp ha
  obtain ⟨hb, htb⟩ := List.mem_filter.mp ((byId_perm _).mem_iff.mp hb)
  exact h a ((byId_perm entries).mem_iff.mp ha) b hb hta htb (String.le_antisymm hab hba)

def matching (s : Store) (place : Path) (filter : Filter) : List Entry :=
  (s.below place).filter fun e ↦ filter.matches e.document

theorem mem_matching :
    e ∈ s.matching place filter ↔
      e ∈ s.entries ∧ e.collection.startsWith place ∧ filter.matches e.document := by
  rw [matching, List.mem_filter, below, (byId_perm _).mem_iff, List.mem_filter, and_assoc]

theorem matching_perm (s : Store) (place : Path) (filter : Filter) :
    (s.matching place filter).Perm
      (s.entries.filter fun e ↦ e.collection.startsWith place && filter.matches e.document) := by
  have h := (byId_perm (s.entries.filter (·.collection.startsWith place))).filter
    fun e ↦ filter.matches e.document
  rw [List.filter_filter] at h
  simpa only [matching, below, Bool.and_comm] using h

/-- Entries that are all found under one identifier come in the order in which they are kept. -/
theorem matching_eq_filter {id : String} (h : ∀ e ∈ s.matching place filter, e.id = id) :
    s.matching place filter = s.entries.filter fun e ↦
      e.collection.startsWith place && filter.matches e.document := by
  have hperm := s.matching_perm place filter
  let below := s.entries.filter (·.collection.startsWith place)
  have hsplit : s.entries.filter (fun e ↦
      e.collection.startsWith place && filter.matches e.document) =
        below.filter fun e ↦ filter.matches e.document := by
    rw [List.filter_filter]
    simp only [Bool.and_comm]
  rw [hsplit] at hperm ⊢
  have hordered : (below.filter fun e ↦ filter.matches e.document).Pairwise
      fun a b ↦ a.id ≤ b.id := by
    refine List.pairwise_of_forall_mem_list fun a ha b hb ↦ ?_
    have hsame := (h a (hperm.mem_iff.mpr ha)).trans (h b (hperm.mem_iff.mpr hb)).symm
    exact hsame ▸ String.le_refl a.id
  have hsublist := (sublist_byId hordered List.filter_sublist).filter
    fun e ↦ filter.matches e.document
  rw [List.filter_filter] at hsublist
  simp only [Bool.and_self] at hsublist
  exact (hsublist.eq_of_length hperm.length_eq.symm).symm

end Store

def Query.pageOf (q : Query) (found : List Entry) : Page :=
  let sorted := if q.sortKeys.isEmpty then found else Sorting.sortBy Entry.document q.sortKeys found
  let (start, stop) := Store.pageBounds sorted.length q.offset q.pageSize
  ⟨((sorted.take stop).drop start).map fun e ↦
      { e.record with content := e.content.select q.fields },
    Store.pageProgress sorted.length stop q.pageSize⟩

/-- Fields are selected from a page once it is found. -/
theorem Query.pageOf_fields (q : Query) (found : List Entry) :
    q.pageOf found = ({ q with fields := [] }.pageOf found).map fun record ↦
      { record with content := record.content.select q.fields } := by
  have hselect : ∀ e : Entry, { e.record with content := e.content.select [] } = e.record :=
    fun _ ↦ rfl
  simp only [pageOf, hselect, Page.map, List.map_map]
  rfl

theorem Query.exists_of_mem_pageOf {q : Query} {found : List Entry} {record : Record}
    (h : record ∈ (q.pageOf found).records) :
    ∃ entry ∈ found, record = { entry.record with content := entry.content.select q.fields } := by
  obtain ⟨entry, hentry, rfl⟩ := List.mem_map.mp h
  have hsorted := List.mem_of_mem_take (List.mem_of_mem_drop hentry)
  refine ⟨entry, ?_, rfl⟩
  split at hsorted
  · exact hsorted
  · exact (List.mergeSort_perm _ _).mem_iff.mp hsorted

namespace Page

theorem offer_all (received records : List Record) :
    offer .all received records = received ++ records := by
  induction records generalizing received with
  | nil => rw [offer, List.append_nil]
  | cons record records ih =>
    rw [offer, ih, List.append_assoc, List.singleton_append]
    rfl

theorem takenBy_all (page : Page) : page.takenBy .all = page := by
  rw [takenBy, deliver, offer_all, List.nil_append]

theorem records_takenBy_first (page : Page) :
    (page.takenBy .first).records = page.records.take 1 := by
  rw [takenBy, deliver]
  cases page.records <;> rfl

/-- A consumer receives the records from the first one on. -/
theorem isPrefix_offer (accepts : Consumer) (received records : List Record) :
    offer accepts received records <+: received ++ records := by
  induction records generalizing received with
  | nil => exact ⟨[], rfl⟩
  | cons record records ih =>
    rw [offer]
    split
    · simpa using ih (received ++ [record])
    · exact ⟨records, by simp⟩

theorem map_offer_through (f : Record → Record) (accepts : Consumer)
    (received records : List Record) :
    (offer (accepts.through f) received records).map f =
      offer accepts (received.map f) (records.map f) := by
  induction records generalizing received with
  | nil => rfl
  | cons record records ih =>
    have hreceived : (received ++ [record]).map f = received.map f ++ [f record] := List.map_append
    rw [offer, List.map_cons, offer, Consumer.through, ← hreceived, apply_ite (List.map f), ih]

/-- A consumer of changed records receives what it would of a changed page. -/
theorem map_takenBy_through (f : Record → Record) (accepts : Consumer) (page : Page) :
    (page.takenBy (accepts.through f)).map f = (page.map f).takenBy accepts :=
  congrArg (Page.mk · page.progress) (map_offer_through f accepts [] page.records)

theorem mem_of_mem_takenBy {accepts : Consumer} {page : Page} {record : Record}
    (h : record ∈ (page.takenBy accepts).records) : record ∈ page.records :=
  (isPrefix_offer accepts [] page.records).subset h

end Page

namespace Store

variable {s : Store} {q : Query} {filter : Filter} {c : Option Connection}

theorem query_eq_takenBy (s : Store) (accepts : Consumer) (h : queryFilter q = .ok filter) :
    s.query accepts q = .ok ((q.pageOf (s.matching q.path filter)).takenBy accepts) := by
  simp only [query, h, ok_bind]
  rfl

theorem query_eq (s : Store) (h : queryFilter q = .ok filter) :
    s.query .all q = .ok (q.pageOf (s.matching q.path filter)) := by
  rw [query_eq_takenBy s .all h, Page.takenBy_all]

theorem query_takenBy (s : Store) (accepts : Consumer) (q : Query) :
    s.query accepts q = (s.query .all q).map (Page.takenBy accepts) := by
  cases hfilter : queryFilter q with
  | error fault => simp only [query, hfilter, error_bind, Except.map]
  | ok filter => rw [query_eq_takenBy s accepts hfilter, query_eq s hfilter, Except.map]

theorem fst_performFor (accepts : Consumer) (c : Option Connection) (r : Request) (s : Store) :
    (s.performFor accepts c r).1 = checkConnection c >>= fun _ ↦ (s.counted.run accepts r).1 := by
  unfold performFor
  cases checkConnection c <;> rfl

theorem perform_of_open (hc : checkConnection c = .ok ()) (r : Request) (s : Store) :
    s.perform c r = s.counted.run .all r := by
  rw [perform, performFor, hc]

theorem fst_performFor_query (accepts : Consumer) (c : Option Connection) (q : Query) (s : Store) :
    (s.performFor accepts c (.query q)).1 = checkConnection c >>= fun _ ↦ s.query accepts q :=
  fst_performFor accepts c (.query q) s

theorem snd_performFor_query (accepts : Consumer) (c : Option Connection) (q : Query) (s : Store) :
    (s.performFor accepts c (.query q)).2 = s.counted := by
  unfold performFor
  cases checkConnection c <;> rfl

theorem fst_perform_query (c : Option Connection) (q : Query) (s : Store) :
    (s.perform c (.query q)).1 = checkConnection c >>= fun _ ↦ s.query .all q :=
  fst_performFor_query .all c q s

theorem entries_perform_query (c : Option Connection) (q : Query) (s : Store) :
    (s.perform c (.query q)).2.entries = s.entries :=
  (perform_step .all c (.query q) s).untouched fun _ ↦ id

end Store

end RecordService
