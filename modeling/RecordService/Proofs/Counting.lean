import RecordService.Proofs.Listed
import RecordService.Proofs.Paging

namespace RecordService

theorem Path.startsWith_of_append_left {outer p q : Path}
    (h : (outer ++ p).startsWith (outer ++ q)) : p.startsWith q := by
  obtain ⟨r, hr⟩ := startsWith_iff.mp h
  rw [append_assoc] at hr
  exact startsWith_iff.mpr ⟨r, append_left_cancel hr⟩

namespace Store

variable {s : Store} {base : Path} {e : Entry}

def nested (s : Store) (base : Path) : List Entry :=
  s.entries.filter fun e ↦ !decide (e.collection = base) && e.collection.startsWith base

theorem mem_nested : e ∈ s.nested base ↔
    e ∈ s.entries ∧ e.collection ≠ base ∧ e.collection.startsWith base := by
  rw [nested, List.mem_filter, Bool.and_eq_true, Bool.not_eq_true', decide_eq_false_iff_not]

theorem length_below (s : Store) (base : Path) :
    (s.below base).length = (s.inCollection base).length + (s.nested base).length := by
  let under := s.entries.filter (·.collection.startsWith base)
  have hself : under.filter (·.collection = base) = s.entries.filter (·.collection = base) := by
    rw [List.filter_filter]
    refine List.filter_congr fun e _ ↦ Bool.and_eq_left_iff_imp.mpr fun hbase ↦ ?_
    rw [of_decide_eq_true hbase]
    exact Path.startsWith_self base
  have hsplit : under.length = _ :=
    List.length_eq_length_filter_add fun e ↦ decide (e.collection = base)
  rw [hself, List.filter_filter] at hsplit
  rw [below, inCollection, (byId_perm _).length_eq, (byId_perm _).length_eq]
  exact hsplit

end Store

def Query.everything (type : Path) : Query := { path := type, filter := some (.constant true) }

namespace Handler

variable {h : Handler} {explicit : List String} {s : Store} {type other : Path}
  {c : Option Connection}

theorem answer_everything (hkind : h.kind = .generic explicit) (hs : h.Reaches Request.Guarded s)
    (htype : type.Clean) (hc : Store.checkConnection c = .ok ()) :
    ∃ page, h.answer c (.query (.everything type)) s = .ok page ∧
      page.records.length = (s.inCollection (h.typeCollection type)).length := by
  let q : Query := .everything type
  have hq : h.catalog.resolveQuery h.limits (q.page none none) = .ok q :=
    Catalog.resolveQuery_again ⟨rfl, rfl, rfl, rfl, rfl⟩ rfl
  have hfilter : Store.queryFilter (h.search q.path q) =
      .ok (Generic.restrict explicit type q.filter) := by
    rw [search_generic hkind]
    rfl
  refine ⟨_, answer_unpaged hq hfilter hc, ?_⟩
  rw [length_listed, ← (s.matching_perm _ _).length_eq, path_search,
    matching_restrict (hs.tagged hkind) hs.reached.keyed htype]
  exact congrArg List.length (List.filter_eq_self.mpr fun e _ ↦ rfl)

theorem answer_count (hkind : h.kind = .generic explicit) (hc : Store.checkConnection c = .ok ())
    (type : Path) (content : Json) (parameters : Dict String) (s : Store) :
    h.answer c (.action type "count" content parameters) s =
      .ok (.record [("count", .int (s.below (h.typeCollection type)).length)]) := by
  have hplan : h.plan (.action type "count" content parameters) =
      Plan.through (.action (h.typeCollection type) "count" content parameters) fun answer ↦
        .ok (if Generic.looksWrapped answer then Generic.unwrap explicit answer else answer) := by
    rw [plan_generic hkind]
    rfl
  rw [(serve_of_plan hplan c s).1, Store.perform_of_open hc]
  rfl

theorem nested_eq_nil_iff (hs : h.Typed Generic.Tagged s.entries) :
    s.nested (h.typeCollection type) = [] ↔
      ∀ other : Path, other.Clean → other.startsWith type → other ≠ type →
        s.inCollection (h.typeCollection other) = [] := by
  constructor
  · intro hnil other hother hbelow hne
    refine List.eq_nil_iff_forall_not_mem.mpr fun e he ↦ ?_
    obtain ⟨hmem, hplace⟩ := Store.mem_inCollection.mp he
    have hnested : e ∈ s.nested (h.typeCollection type) := by
      rw [Store.mem_nested, hplace]
      exact ⟨hmem, mt Path.append_left_cancel hne, Path.startsWith_append_left h.resource hbelow⟩
    exact List.not_mem_nil (hnil ▸ hnested)
  · intro hnone
    refine List.eq_nil_iff_forall_not_mem.mpr fun e he ↦ ?_
    obtain ⟨hmem, hne, hbelow⟩ := Store.mem_nested.mp he
    obtain ⟨other, hother, hplace, -⟩ := hs e hmem
    rw [hplace] at hne hbelow
    have hempty := hnone other hother (Path.startsWith_of_append_left hbelow)
      fun heq ↦ hne (congrArg h.typeCollection heq)
    exact List.not_mem_nil (hempty ▸ Store.mem_inCollection.mpr ⟨hmem, hplace⟩)

/-- A count is of the objects that a query on the type lists and of those of the types nested below
it, so it agrees with the query just when nothing is listed for these. -/
theorem count_eq_listed_add_nested (hkind : h.kind = .generic explicit)
    (hs : h.Reaches Request.Guarded s) (htype : type.Clean)
    (hc : Store.checkConnection c = .ok ()) (content : Json) (parameters : Dict String) :
    ∃ page, h.answer c (.query (.everything type)) s = .ok page ∧
      h.answer c (.action type "count" content parameters) s = .ok (.record
        [("count", .int (page.records.length + (s.nested (h.typeCollection type)).length : Nat))]) ∧
      (s.nested (h.typeCollection type) = [] ↔
        ∀ other : Path, other.Clean → other.startsWith type → other ≠ type →
          ∃ below, h.answer c (.query (.everything other)) s = .ok below ∧ below.records = []) := by
  obtain ⟨page, hpage, hlength⟩ := answer_everything hkind hs htype hc
  refine ⟨page, hpage, ?_, (nested_eq_nil_iff (hs.tagged hkind)).trans ?_⟩
  · rw [answer_count hkind hc, Store.length_below, hlength]
  · refine forall_congr' fun other ↦ forall_congr' fun hother ↦ ?_
    obtain ⟨below, hbelow, hnumber⟩ := answer_everything hkind hs hother hc
    refine forall_congr' fun _ ↦ forall_congr' fun _ ↦ ?_
    rw [← List.length_eq_zero_iff, ← hnumber, List.length_eq_zero_iff]
    constructor
    · exact fun hnil ↦ ⟨below, hbelow, hnil⟩
    · rintro ⟨below', hbelow', hnil⟩
      rwa [Except.ok.inj (hbelow.symm.trans hbelow')]

section Nested

def people : Handler := ⟨.generic (Generic.explicitFields []), ⟨["managedobjects"]⟩, {}, {}⟩

def openConnection : Option Connection := some ⟨"local-1", false⟩

def userAndAdmin : Store :=
  let user : Request := .create ⟨["managed", "user"]⟩ (some "u1") (.obj [("n", .int 1)])
  let admin : Request := .create ⟨["managed", "user", "admin"]⟩ (some "u2") (.obj [("n", .int 2)])
  people.after openConnection admin (people.after openConnection user (.empty fun _ ↦ ""))

theorem reaches_userAndAdmin {allowed : Request → Prop}
    (h : ∀ type id content, type.Clean → allowed (.create type id content)) :
    people.Reaches allowed userAndAdmin :=
  .serve _ _ (.serve _ _ (.empty _) (h _ _ _ (by decide))) (h _ _ _ (by decide))

theorem guarded_create (type : Path) (id : Option String) (content : Json) (h : type.Clean) :
    (Request.create type id content).Guarded := Request.permitted_of_unchanging h rfl

theorem admin_counted_with_users :
    let user : Path := ⟨["managed", "user"]⟩
    people.Reaches Request.Guarded userAndAdmin ∧ user.Clean ∧
      Store.checkConnection openConnection = .ok () ∧
      ∃ page, people.answer openConnection (.query (.everything user)) userAndAdmin = .ok page ∧
        people.answer openConnection (.action user "count" .null []) userAndAdmin =
          .ok (.record [("count", .int (page.records.length + 1 : Nat))]) := by
  intro user
  have hs := reaches_userAndAdmin guarded_create
  have hclean : user.Clean := by decide
  have hopen : Store.checkConnection openConnection = .ok () := rfl
  obtain ⟨page, hpage, hcount, -⟩ := count_eq_listed_add_nested rfl hs hclean hopen .null []
  have hnested : (userAndAdmin.nested (people.typeCollection user)).length = 1 := by decide +kernel
  rw [hnested] at hcount
  exact ⟨hs, hclean, hopen, page, hpage, hcount⟩

/-- A query on a type need not list as many objects as are counted. -/
theorem count_apart_from_query :
    ¬ ∀ (h : Handler) (explicit : List String) (s : Store) (type : Path) (c : Option Connection)
      (page : Page) (n : Nat), h.kind = .generic explicit →
      h.Reaches (fun r ↦ ∃ type id content, type.Clean ∧ r = .create type id content) s →
      type.Clean → Store.checkConnection c = .ok () →
      h.answer c (.query (.everything type)) s = .ok page →
      h.answer c (.action type "count" .null []) s = .ok (.record [("count", .int n)]) →
      n = page.records.length := by
  intro hall
  let user : Path := ⟨["managed", "user"]⟩
  have hclean : user.Clean := by decide
  have hkind : people.kind = .generic (Generic.explicitFields []) := rfl
  have hopen : Store.checkConnection openConnection = .ok () := rfl
  obtain ⟨page, hpage, hlength⟩ :=
    answer_everything hkind (reaches_userAndAdmin guarded_create) hclean hopen
  have hcount := answer_count hkind hopen user .null [] userAndAdmin
  have hsame := hall people _ userAndAdmin user openConnection page _ hkind
    (reaches_userAndAdmin fun type id content h ↦ ⟨type, id, content, h, rfl⟩) hclean hopen hpage
    hcount
  have hnested : (userAndAdmin.nested (people.typeCollection user)).length = 1 := by decide +kernel
  rw [Store.length_below] at hsame
  omega

end Nested

end Handler

end RecordService
