import RecordService.Proofs.Runs

namespace RecordService

def Entry.path (e : Entry) : Path := e.collection ++ ⟨[e.id]⟩

theorem Entry.path_inj {e e' : Entry} : e.path = e'.path ↔ e.key = e'.key := by
  rw [path, path, Path.append_single_inj, key, key, Prod.mk.injEq]

theorem Entry.path_ne_empty (e : Entry) : e.path ≠ .empty := fun h ↦
  List.append_ne_nil_of_right_ne_nil _ (List.cons_ne_nil _ _) (congrArg Path.segments h)

namespace Store

variable {s : Store} {c : Option Connection} {e : Entry}

theorem Keyed.path_inj (hs : s.Keyed) {e' : Entry} (he : e ∈ s.entries) (he' : e' ∈ s.entries) :
    e.path = e'.path ↔ e = e' :=
  ⟨fun h ↦ hs.eq_of_key he he' (Entry.path_inj.mp h), congrArg Entry.path⟩

theorem entries_erase (s : Store) (e : Entry) :
    (s.erase e.collection e.id).entries = s.entries.filter (·.path ≠ e.path) := by
  refine List.filter_congr fun e' _ ↦ ?_
  have hat : e'.isAt e.collection e.id ↔ e'.path = e.path :=
    Entry.isAt_iff.trans Entry.path_inj.symm
  rw [Bool.eq_iff_iff, Bool.not_eq_true', ← Bool.not_eq_true, hat, decide_eq_true_eq]

theorem Keyed.length_erase (hs : s.Keyed) (he : e ∈ s.entries) :
    (s.erase e.collection e.id).entries.length + 1 = s.entries.length := by
  have hpath : ∀ e' ∈ s.entries, decide (e'.path ≠ e.path) = (e' != e) := by
    intro e' he'
    rw [Bool.eq_iff_iff, decide_eq_true_eq, bne_iff_ne, ne_eq, hs.path_inj he' he]
  have hnodup : s.entries.Nodup := List.Nodup.of_map _ hs
  rw [entries_erase, List.filter_congr hpath, ← List.Nodup.erase_eq_filter hnodup,
    List.length_erase_of_mem he]
  exact Nat.sub_add_cancel (List.length_pos_of_mem he)

theorem perform_delete (hc : checkConnection c = .ok ()) (path : Path) (s : Store) :
    (∃ e ∈ s.entries, e.path = path ∧ s.perform c (.delete path none) =
      (.ok e.record, s.counted.erase e.collection e.id)) ∨
    (∀ e ∈ s.entries, e.path ≠ path) ∧ ∃ fault, (path ≠ .empty → fault.isNotFound) ∧
      s.perform c (.delete path none) = (.error fault, s.counted) := by
  obtain ⟨segments⟩ := path
  rcases List.eq_nil_or_concat segments with rfl | ⟨segments, id, rfl⟩
  · refine .inr ⟨fun e _ ↦ e.path_ne_empty, expectedInstance .empty, fun h ↦ absurd rfl h, ?_⟩
    rw [perform_of_open hc]
    rfl
  · have hpath : (⟨segments.concat id⟩ : Path) = ⟨segments⟩ ++ ⟨[id]⟩ :=
      Path.segments_injective List.concat_eq_append
    rw [hpath]
    cases hfind : s.find? ⟨segments⟩ id with
    | none =>
      refine .inr ⟨fun e he h ↦ find?_eq_none.mp hfind e he ?_, objectNotFound id ⟨segments⟩,
        fun _ ↦ rfl, ?_⟩
      · exact Prod.ext_iff.mpr (Path.append_single_inj.mp h)
      · have hentry : s.counted.entryAt (⟨segments⟩ ++ ⟨[id]⟩) =
            .error (objectNotFound id ⟨segments⟩) := by
          rw [entryAt_single, find?_counted, hfind]
        rw [perform_of_open hc, run, delete, withEntry_of_no_entry hentry]
    | some e =>
      obtain ⟨he, hkey⟩ := mem_of_find? hfind
      refine .inl ⟨e, he, Path.append_single_inj.mpr (Prod.ext_iff.mp hkey), ?_⟩
      have hentry : s.counted.entryAt (⟨segments⟩ ++ ⟨[id]⟩) = .ok e := entryAt_of_find? hfind
      have hrev : checkRevision none e = .ok () := rfl
      rw [perform_of_open hc, run, delete, withEntry_of_entryAt hentry hrev]

end Store

namespace Handler

variable {s : Store} {c : Option Connection} {place : Path}

theorem run_deleteAll_cons (place : Path) (id : String) (ids : List String) (count : Nat) :
    (deleteAll place (id :: ids) count).run c s =
      match s.perform c (.delete (place.child id) none) with
      | (.ok _, t) => (deleteAll place ids (count + 1)).run c t
      | (.error fault, t) =>
        if fault.isNotFound then (deleteAll place ids count).run c t else (.error fault, t) := by
  rw [deleteAll, Plan.run_attempt_bind]
  cases s.perform c (.delete (place.child id) none) with
  | mk reply t =>
    cases reply with
    | ok record => rfl
    | error fault => cases hfault : fault.isNotFound <;> simp only [hfault] <;> rfl

/-- What deleting a list of identifiers does: it takes away the entries at the paths that these
make, and adds their number to the count. -/
structure Deletes (place : Path) (ids : List String) (count : Nat) (s : Store) (n : Nat)
    (t : Store) : Prop where
  entries : t.entries = s.entries.filter (fun e ↦ ∀ id ∈ ids, e.path ≠ place.child id)
  counted : n + t.entries.length = count + s.entries.length

theorem Deletes.cons {id : String} {ids : List String} {count m n : Nat} {t₁ t : Store}
    (hentries : t₁.entries = s.entries.filter (·.path ≠ place.child id))
    (hcounted : m + t₁.entries.length = count + s.entries.length)
    (h : Deletes place ids m t₁ n t) : Deletes place (id :: ids) count s n t := by
  refine ⟨?_, h.counted.trans hcounted⟩
  rw [h.entries, hentries, List.filter_filter]
  refine List.filter_congr fun e _ ↦ ?_
  simp only [List.forall_mem_cons, ← Bool.decide_and, and_comm]

theorem run_deleteAll_step (hc : Store.checkConnection c = .ok ()) (hs : s.Keyed)
    (place : Path) (id : String) (ids : List String) (count : Nat) :
    (∃ m t₁, t₁.Keyed ∧ t₁.entries = s.entries.filter (·.path ≠ place.child id) ∧
      m + t₁.entries.length = count + s.entries.length ∧
      (deleteAll place (id :: ids) count).run c s = (deleteAll place ids m).run c t₁) ∨
    place.child id = .empty ∧
      ∃ fault t₁, (deleteAll place (id :: ids) count).run c s = (.error fault, t₁) := by
  let called : Store := { s with calls := s.calls + 1 }
  rw [run_deleteAll_cons]
  -- Whether or not there is an entry at the path, there is none afterwards.
  rcases Store.perform_delete hc (place.child id) s with
    ⟨e, he, hpath, hperform⟩ | ⟨hnone, fault, hfault, hperform⟩
  · have hentries := Store.entries_erase s e
    have hlength := hs.length_erase he
    rw [hpath] at hentries
    simp only [hperform]
    refine .inl ⟨count + 1, called.erase e.collection e.id,
      hs.sublist (List.filter_sublist.map _), hentries, ?_, rfl⟩
    change count + 1 + (s.erase e.collection e.id).entries.length = _
    omega
  · have hentries : s.entries = s.entries.filter (·.path ≠ place.child id) :=
      (List.filter_eq_self.mpr fun e he ↦ decide_eq_true (hnone e he)).symm
    simp only [hperform]
    split
    · exact .inl ⟨count, called, hs, hentries, rfl, rfl⟩
    · rename_i hfound
      exact .inr ⟨not_not.mp (mt hfault hfound), fault, called, rfl⟩

theorem deletes_of_run (hc : Store.checkConnection c = .ok ()) {ids : List String}
    {count n : Nat} {t : Store} (hs : s.Keyed)
    (hrun : (deleteAll place ids count).run c s = (.ok n, t)) :
    Deletes place ids count s n t := by
  induction ids generalizing s count with
  | nil =>
    obtain ⟨hn, rfl⟩ := Prod.mk.inj hrun
    obtain rfl := Except.ok.inj hn
    exact ⟨by simp, rfl⟩
  | cons id ids ih =>
    rcases run_deleteAll_step hc hs place id ids count with
      ⟨m, t₁, hkeyed, hentries, hcounted, hrest⟩ | ⟨-, fault, t₁, hfails⟩
    · exact .cons hentries hcounted (ih hkeyed (hrest.symm.trans hrun))
    · cases hfails.symm.trans hrun

theorem exists_run_deleteAll (hc : Store.checkConnection c = .ok ()) {ids : List String}
    (hs : s.Keyed) (hpath : ∀ id ∈ ids, place.child id ≠ .empty) (count : Nat) :
    ∃ n t, (deleteAll place ids count).run c s = (.ok n, t) := by
  induction ids generalizing s count with
  | nil => exact ⟨count, s, rfl⟩
  | cons id ids ih =>
    rcases run_deleteAll_step hc hs place id ids count with
      ⟨m, t₁, hkeyed, -, -, hrest⟩ | ⟨hempty, -⟩
    · rw [hrest]
      exact ih hkeyed (fun id' hid' ↦ hpath id' (List.mem_cons_of_mem id hid')) m
    · exact absurd hempty (hpath id List.mem_cons_self)

section Served

variable {h : Handler} {type : Path} {filter : Filter} {parameters : Dict String}

def commandPlace (h : Handler) (type : Path) : Path :=
  match h.kind with
  | .explicit => h.resource
  | .generic _ => h.typeCollection type

def commandFilter (h : Handler) (type : Path) (filter : Filter) : Filter :=
  match h.kind with
  | .explicit => filter
  | .generic explicit => Generic.restrict explicit type (some filter)

theorem plan_command (hfilter : h.catalog.resolveCommand h.limits parameters = .ok filter)
    (type : Path) (content : Json) :
    h.plan (.action type Catalog.commandAction content parameters) =
      deleteMatching (h.commandPlace type) (h.commandFilter type filter) := by
  cases hkind : h.kind with
  | explicit =>
    simp only [plan_explicit hkind, explicitPlan, commandPlace, commandFilter, hkind, if_true,
      hfilter]
    rfl
  | generic explicit =>
    simp only [plan_generic hkind, genericPlan, commandPlace, commandFilter, hkind, if_true,
      hfilter]
    rfl

theorem run_deleteMatching (hc : Store.checkConnection c = .ok ()) (place : Path)
    (filter : Filter) (s : Store) :
    ∃ t, t.entries = s.entries ∧ (deleteMatching place filter).run c s =
      (((deleteAll place ((s.matching place filter).map (·.id)) 0).run c t).1.map
        fun n ↦ .record [("count", .int n)],
      ((deleteAll place ((s.matching place filter).map (·.id)) 0).run c t).2) := by
  let q : Query := { path := place, filter := some filter }
  have hpage : (s.perform c (.query q)).1 = .ok (q.pageOf (s.matching place filter)) := by
    rw [Store.fst_perform_query, hc, ok_bind, Store.query_eq s rfl]
  have hids : (q.pageOf (s.matching place filter)).records.map (·.id) =
      (s.matching place filter).map (·.id) := by
    simp [Query.pageOf, q, Store.pageBounds, Function.comp_def, Entry.record]
  refine ⟨(s.perform c (.query q)).2, Store.entries_perform_query c q s, ?_⟩
  rw [deleteMatching, Plan.run_ask_bind, ← hids]
  cases hperform : s.perform c (.query q) with
  | mk reply t =>
    rw [hperform] at hpage
    subst hpage
    exact Plan.run_bind_pure _ _ c t

/-- A command that is answered has taken away the entries at the paths that the identifiers it found
make, and answers with their number. -/
theorem command_effect (hs : s.Keyed) (hc : Store.checkConnection c = .ok ())
    (hfilter : h.catalog.resolveCommand h.limits parameters = .ok filter) (type : Path)
    (content : Json) :
    let ids := (s.matching (h.commandPlace type) (h.commandFilter type filter)).map (·.id)
    let command : Request := .action type Catalog.commandAction content parameters
    (∀ answer, h.answer c command s = .ok answer → ∃ n : Nat,
      answer = .record [("count", .int n)] ∧
        Deletes (h.commandPlace type) ids 0 s n (h.after c command s)) ∧
    ((∀ id ∈ ids, (h.commandPlace type).child id ≠ .empty) →
      ∃ answer, h.answer c command s = .ok answer) := by
  intro ids command
  obtain ⟨t, ht, hrun⟩ :=
    run_deleteMatching hc (h.commandPlace type) (h.commandFilter type filter) s
  have hkeyed : t.Keyed := by
    rw [Store.Keyed, ht]
    exact hs
  simp only [answer, after, command, plan_command hfilter, hrun]
  constructor
  · intro answer hanswer
    obtain ⟨n, hn, rfl⟩ := map_eq_ok.mp hanswer
    obtain ⟨hentries, hcounted⟩ := deletes_of_run hc hkeyed (Prod.ext hn rfl)
    rw [ht] at hentries hcounted
    exact ⟨n, rfl, hentries, hcounted⟩
  · intro hpath
    obtain ⟨n, t', hdeleted⟩ := exists_run_deleteAll hc hkeyed hpath 0
    exact ⟨_, map_eq_ok.mpr ⟨n, congrArg Prod.fst hdeleted, rfl⟩⟩

section Exact

variable {matched : List Entry}

/-- An entry that lies at the very place searched and has a plain identifier. -/
def Direct (place : Path) (e : Entry) : Prop := e.collection = place ∧ PlainSegment e.id

theorem Direct.child {e : Entry} (h : Direct place e) : place.child e.id = e.path := by
  rw [Path.child_plain h.2, Entry.path, h.1]

theorem plain_of_child {e : Entry} {id : String} (hbelow : e.collection.startsWith place)
    (h : e.path = place.child id) : PlainSegment e.id := by
  obtain ⟨rest, hrest⟩ := Path.startsWith_iff.mp hbelow
  rw [Entry.path, hrest, Path.append_assoc] at h
  have hclean := Path.clean_ofText id
  rw [← Path.append_left_cancel h] at hclean
  exact hclean.plain

theorem direct_of_addressed (hbelow : ∀ e ∈ matched, e.collection.startsWith place)
    (h : ∀ e ∈ matched, ∃ id ∈ matched.map (·.id), e.path = place.child id) :
    ∀ e ∈ matched, Direct place e := by
  -- The last segment of a path made below the place is plain, so each identifier is, being the last
  -- segment of such a path. A plain identifier makes a path at the very place.
  have hplain : ∀ e ∈ matched, PlainSegment e.id := by
    intro e he
    obtain ⟨id, -, hid⟩ := h e he
    exact plain_of_child (hbelow e he) hid
  intro e he
  obtain ⟨_, hid, hpath⟩ := h e he
  obtain ⟨e', he', rfl⟩ := List.mem_map.mp hid
  rw [Path.child_plain (hplain e' he'), Entry.path, Path.append_single_inj] at hpath
  exact ⟨hpath.1, hplain e he⟩

theorem addressed_iff (hs : s.Keyed) (hmatched : ∀ e ∈ matched, e ∈ s.entries)
    (h : ∀ e ∈ matched, Direct place e) {e : Entry} (he : e ∈ s.entries) :
    (∀ id ∈ matched.map (·.id), e.path ≠ place.child id) ↔ e ∉ matched := by
  constructor
  · intro hne hmem
    exact hne e.id (List.mem_map_of_mem hmem) (h e hmem).child.symm
  · intro hmem id hid hpath
    obtain ⟨e', he', rfl⟩ := List.mem_map.mp hid
    rw [(h e' he').child, hs.path_inj he (hmatched e' he')] at hpath
    exact hmem (hpath ▸ he')

theorem length_matching_add (s : Store) (place : Path) (filter : Filter) :
    (s.matching place filter).length +
      (s.entries.filter (· ∉ s.matching place filter)).length = s.entries.length := by
  let test (e : Entry) : Bool := e.collection.startsWith place && filter.matches e.document
  have hothers : ∀ e ∈ s.entries, decide (e ∉ s.matching place filter) = !test e := by
    intro e he
    rw [Bool.eq_iff_iff, decide_eq_true_eq, Store.mem_matching, Bool.not_eq_true',
      ← Bool.not_eq_true, Bool.and_eq_true, and_iff_right he]
  rw [(s.matching_perm place filter).length_eq, List.filter_congr hothers]
  exact (List.length_eq_length_filter_add test).symm

/-- A command deletes the entries that it finds, and counts them, just if all of them lie at the
very place it searches under plain identifiers; then nothing stops it. -/
theorem command_exact_iff (hs : s.Reached) (hc : Store.checkConnection c = .ok ())
    (hfilter : h.catalog.resolveCommand h.limits parameters = .ok filter) (content : Json) :
    let matched := s.matching (h.commandPlace type) (h.commandFilter type filter)
    let command : Request := .action type Catalog.commandAction content parameters
    ((∀ e ∈ matched, Direct (h.commandPlace type) e) →
      ∃ answer, h.answer c command s = .ok answer) ∧
    ∀ answer, h.answer c command s = .ok answer →
      ((answer = .record [("count", .int matched.length)] ∧
        ∀ e, e ∈ (h.after c command s).entries ↔ e ∈ s.entries ∧ e ∉ matched) ↔
        ∀ e ∈ matched, Direct (h.commandPlace type) e) := by
  intro matched command
  have hmatched : ∀ e ∈ matched, e ∈ s.entries ∧ e.collection.startsWith (h.commandPlace type) :=
    fun e he ↦ ⟨(Store.mem_matching.mp he).1, (Store.mem_matching.mp he).2.1⟩
  obtain ⟨heffect, hok⟩ := command_effect hs.keyed hc hfilter type content
  refine ⟨fun hdirect ↦ hok fun id hid ↦ ?_, fun answer hanswer ↦ ?_⟩
  · obtain ⟨e, he, rfl⟩ := List.mem_map.mp hid
    rw [(hdirect e he).child]
    exact e.path_ne_empty
  · obtain ⟨n, rfl, hleft, hcount⟩ := heffect answer hanswer
    constructor
    · rintro ⟨-, hexact⟩
      refine direct_of_addressed (fun e he ↦ (hmatched e he).2) fun e he ↦ ?_
      have hgone : e ∉ (h.after c command s).entries := fun hmem ↦ ((hexact e).mp hmem).2 he
      rw [hleft, List.mem_filter, decide_eq_true_eq] at hgone
      by_contra hnone
      exact hgone ⟨(hmatched e he).1, fun id hid hpath ↦ hnone ⟨id, hid, hpath⟩⟩
    · intro hdirect
      rw [List.filter_congr fun e he ↦ decide_eq_decide.mpr
        (addressed_iff hs.keyed (fun e he ↦ (hmatched e he).1) hdirect he)] at hleft
      refine ⟨?_, fun e ↦ by rw [hleft, List.mem_filter, decide_eq_true_eq]⟩
      have hlength := length_matching_add s (h.commandPlace type) (h.commandFilter type filter)
      rw [hleft, Nat.zero_add] at hcount
      rw [Nat.add_right_cancel (hcount.trans hlength.symm)]

theorem resolveCommand_purge :
    Catalog.resolveCommand
      { commands := [("purge", { filter := .obj [("status", .str "inactive")] })] } {}
      [("commandId", "purge")] = .ok (.test ⟨["status"]⟩ .eq (.str "inactive")) := by
  let clause : Json := .obj [("status", .str "inactive")]
  have hfill : Template.fill [("commandId", "purge")] clause = .ok clause := rfl
  have hwhere : Where.filter 10 clause = .ok (.test ⟨["status"]⟩ .eq (.str "inactive")) := rfl
  change (Template.fill [("commandId", "purge")] clause >>= fun w ↦
    orBadRequest (Where.filter 10 w)) = _
  rw [hfill, ok_bind, hwhere]
  rfl

theorem purge_exact_iff :
    let h : Handler := ⟨.generic (Generic.explicitFields []), ⟨["managedobjects"]⟩,
      { commands := [("purge", { filter := .obj [("status", .str "inactive")] })] }, {}⟩
    let c : Option Connection := some ⟨"local-1", false⟩
    let type : Path := ⟨["managed", "user"]⟩
    let filter : Filter := .test ⟨["status"]⟩ .eq (.str "inactive")
    let create : Request := .create type (some "1") (.obj [("status", .str "inactive")])
    let s := h.after c create (.empty fun _ ↦ "")
    let matched := s.matching (h.commandPlace type) (h.commandFilter type filter)
    let command : Request := .action type Catalog.commandAction .null [("commandId", "purge")]
    s.Reached ∧ h.catalog.resolveCommand h.limits [("commandId", "purge")] = .ok filter ∧
      ((∀ e ∈ matched, Direct (h.commandPlace type) e) →
        ∃ answer, h.answer c command s = .ok answer) ∧
      ∀ answer, h.answer c command s = .ok answer →
        ((answer = .record [("count", .int matched.length)] ∧
          ∀ e, e ∈ (h.after c command s).entries ↔ e ∈ s.entries ∧ e ∉ matched) ↔
          ∀ e ∈ matched, Direct (h.commandPlace type) e) := by
  intro h c type filter create s matched command
  have hs : s.Reached := reached_after c create (.empty _)
  have hfilter : h.catalog.resolveCommand h.limits [("commandId", "purge")] = .ok filter :=
    resolveCommand_purge
  exact ⟨hs, hfilter, command_exact_iff hs rfl hfilter .null⟩

/-- An identifier with a slash leads a command away from the record that it found. -/
theorem purge_misses :
    let h : Handler := ⟨.generic (Generic.explicitFields []), ⟨["managedobjects"]⟩,
      { commands := [("purge", { filter := .obj [("status", .str "inactive")] })] }, {}⟩
    let c : Option Connection := some ⟨"local-1", false⟩
    let type : Path := ⟨["managed", "user"]⟩
    let filter : Filter := .test ⟨["status"]⟩ .eq (.str "inactive")
    let found : Request := .create type (some "x/1") (.obj [("status", .str "inactive")])
    let other : Request :=
      .create ⟨["managed", "user", "x"]⟩ (some "1") (.obj [("status", .str "active")])
    let s := h.after c other (h.after c found (.empty fun _ ↦ ""))
    let matched := s.matching (h.commandPlace type) (h.commandFilter type filter)
    let command : Request := .action type Catalog.commandAction .null [("commandId", "purge")]
    s.Reached ∧ h.catalog.resolveCommand h.limits [("commandId", "purge")] = .ok filter ∧
      ∃ answer, h.answer c command s = .ok answer ∧
        ¬ (answer = .record [("count", .int matched.length)] ∧
          ∀ e, e ∈ (h.after c command s).entries ↔ e ∈ s.entries ∧ e ∉ matched) := by
  intro h c type filter found other s matched command
  have hs : s.Reached := reached_after c other (reached_after c found (.empty _))
  have hfilter : h.catalog.resolveCommand h.limits [("commandId", "purge")] = .ok filter :=
    resolveCommand_purge
  let e : Entry := ⟨⟨["managedobjects", "managed", "user"]⟩, "x/1", 1,
    .obj [("fullobject", .obj [("status", .str "inactive")]), ("objecttype", .str "managed/user")]⟩
  let e' : Entry := ⟨⟨["managedobjects", "managed", "user", "x"]⟩, "1", 1,
    .obj [("fullobject", .obj [("status", .str "active")]), ("objecttype", .str "managed/user/x")]⟩
  have hentries : s.entries = [e, e'] := by rfl
  have hmatched : ∀ d, d ∈ matched ↔ d = e := by
    intro d
    rw [Store.mem_matching, hentries]
    constructor
    · rintro ⟨hd, -, hmatches⟩
      rcases List.mem_pair.mp hd with rfl | rfl
      · rfl
      · exact absurd hmatches (by decide)
    · rintro rfl
      exact ⟨List.mem_cons_self, by decide, by decide⟩
  have hids : ∀ id ∈ matched.map (·.id), id = "x/1" := by
    intro id hid
    obtain ⟨d, hd, rfl⟩ := List.mem_map.mp hid
    rw [(hmatched d).mp hd]
  obtain ⟨heffect, hok⟩ := command_effect (c := c) hs.keyed rfl hfilter type .null
  obtain ⟨answer, hanswer⟩ := hok fun id hid ↦ by
    rw [hids id hid]
    decide
  refine ⟨hs, hfilter, answer, hanswer, fun ⟨_, hexact⟩ ↦ ?_⟩
  obtain ⟨_, -, hleft, -⟩ := heffect answer hanswer
  have hkept : e ∈ (h.after c command s).entries := by
    rw [hleft, List.mem_filter, hentries, decide_eq_true_eq]
    refine ⟨List.mem_cons_self, fun id hid ↦ ?_⟩
    rw [hids id hid]
    decide
  exact ((hexact e).mp hkept).2 ((hmatched e).mpr rfl)

end Exact

end Served

end Handler

end RecordService
