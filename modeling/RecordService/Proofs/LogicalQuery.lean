import RecordService.Proofs.Projection
import RecordService.Proofs.TypedSearch

namespace RecordService

namespace Filter

variable {move : Pointer → Pointer} {d d' : Json}

mutual

theorem matches_mapFields : ∀ f : Filter, (∀ p ∈ f.fields, (move p).get? d = p.get? d') →
    (f.mapFields move).matches d = f.matches d'
  | .constant _, _ => rfl
  | .test field op operand, h => by
    simp only [mapFields, «matches», h field (List.mem_singleton_self field)]
  | .present field, h => by
    simp only [mapFields, «matches», isPresent, h field (List.mem_singleton_self field)]
  | .all fs, h => matchesAll_mapFields fs h
  | .any fs, h => matchesAny_mapFields fs h
  | .negation f, h => congrArg (!·) (matches_mapFields f h)

theorem matchesAll_mapFields : ∀ fs : List Filter,
    (∀ p ∈ fieldsAll fs, (move p).get? d = p.get? d') →
    matchesAll d (mapFieldsAll move fs) = matchesAll d' fs
  | [], _ => rfl
  | f :: fs, h => congrArg₂ (· && ·)
    (matches_mapFields f fun p hp ↦ h p (List.mem_append_left _ hp))
    (matchesAll_mapFields fs fun p hp ↦ h p (List.mem_append_right _ hp))

theorem matchesAny_mapFields : ∀ fs : List Filter,
    (∀ p ∈ fieldsAll fs, (move p).get? d = p.get? d') →
    matchesAny d (mapFieldsAll move fs) = matchesAny d' fs
  | [], _ => rfl
  | f :: fs, h => congrArg₂ (· || ·)
    (matches_mapFields f fun p hp ↦ h p (List.mem_append_left _ hp))
    (matchesAny_mapFields fs fun p hp ↦ h p (List.mem_append_right _ hp))

end

end Filter

namespace Sorting

variable {α β : Type} {document : α → Json}

theorem unsorted_eq_sortBy (keys : List SortKey) (items : List α) :
    (if keys.isEmpty then items else sortBy document keys items) = sortBy document keys items := by
  cases keys with
  | nil => exact (List.mergeSort_of_pairwise (List.pairwise_of_forall fun _ _ ↦ rfl)).symm
  | cons key keys => rfl

theorem compareBy_map {move : Pointer → Pointer} {keys : List SortKey} {a b a' b' : Json}
    (ha : ∀ key ∈ keys, (move key.field).get? a = key.field.get? a')
    (hb : ∀ key ∈ keys, (move key.field).get? b = key.field.get? b') :
    compareBy (keys.map fun key ↦ { key with field := move key.field }) a b =
      compareBy keys a' b' := by
  induction keys with
  | nil => rfl
  | cons key keys ih =>
    have hrest := ih (fun k hk ↦ ha k (List.mem_cons_of_mem key hk))
      fun k hk ↦ hb k (List.mem_cons_of_mem key hk)
    simp only [List.map_cons, compareBy, ha key List.mem_cons_self, hb key List.mem_cons_self,
      hrest]

/-- Sorting by moved keys and then passing to other documents is passing first and sorting then,
when the keys find the same on both. -/
theorem map_sortBy {document' : β → Json} {f : α → β} {keys : List SortKey} {items : List α}
    {move : Pointer → Pointer}
    (h : ∀ a ∈ items, ∀ key ∈ keys,
      (move key.field).get? (document a) = key.field.get? (document' (f a))) :
    (sortBy document (keys.map fun key ↦ { key with field := move key.field }) items).map f =
      sortBy document' keys (items.map f) :=
  List.map_mergeSort fun a ha b hb ↦ congrArg Ordering.isLE (compareBy_map (h a ha) (h b hb))

end Sorting

section Objects

variable {explicit : List String} {type : Path} {field : Pointer}

/-- Where a field of an object is moved to, the record holds what the object has there. -/
theorem get?_moveField {e : Entry} (h : Generic.Stored explicit type e.content)
    (hid : idField ∈ explicit) (hrev : revisionField ∈ explicit)
    (hfield : Generic.Inside field) :
    (Generic.moveField explicit field).get? e.document =
      field.get? (Handler.unwrapped explicit e.record).json := by
  obtain ⟨t, ts, rfl, ht⟩ := hfield.exists_cons
  obtain ⟨fields, inner, hinner, hunwrap, hget⟩ := h.exists_unwrap
  have hjson : (Handler.unwrapped explicit e.record).json =
      (Json.obj fields).inEnvelope (some e.id) (some (toString e.revision)) := by
    simp only [Record.json, Handler.unwrapped, Entry.record, hunwrap]
  have hobject : (Handler.unwrapped explicit e.record).json.isObject := by rw [hjson]; rfl
  have hdocument := Entry.isObject_document h.object
  rw [Pointer.get?, Pointer.get?, Json.lookup?_cons t ts hobject, hjson, Json.field?_inEnvelope]
  by_cases hmem : t ∈ explicit
  · rw [Generic.moveField_explicit hmem, Json.lookup?_cons t ts hdocument,
      Entry.field?_document h.object, hget, if_pos hmem]
  · have hne : t ≠ idField ∧ t ≠ revisionField :=
      ⟨fun heq ↦ hmem (heq ▸ hid), fun heq ↦ hmem (heq ▸ hrev)⟩
    have htop : e.document.field? Generic.contentField = some (.obj inner) := by
      rw [Entry.field?_document h.object, if_neg (by decide), if_neg (by decide), hinner]
    rw [Generic.moveField_inner ht hmem, Json.lookup?_cons _ _ hdocument, htop, Option.bind_some,
      Json.lookup?_cons t ts rfl, Json.field?_obj, hget, if_neg hmem, if_neg hne.1, if_neg hne.2]

end Objects

namespace Query

variable {q normal : Query}

section Paging

/-- The part of the results that starts at the offset and has the size of a page. Without a size,
all that is left is one page. -/
def paged (offset pageSize : Option Int) (found : List Record) : Page :=
  let start := (offset.getD 0).toNat
  let rest := found.drop start
  match pageSize with
  | none => ⟨rest, { total := found.length }⟩
  | some size =>
    let left := rest.drop size.toNat
    ⟨rest.take size.toNat,
      { cookie := if left.isEmpty then none else some (toString (start + size.toNat))
        total := found.length
        remaining := left.length }⟩

theorem pos_of_normalize {cap : Int} (h : q.normalize cap = .ok normal) :
    ∀ n ∈ normal.pageSize, 0 < n := by
  obtain ⟨-, hsize, -, -⟩ := checks_of_normalize h
  exact fun n hn ↦ (bounds_of_pageSizeWithin hsize n hn).1

theorem pageProgress_sized {size : Int} (hpos : 0 < size) (total start : Nat) :
    Store.pageProgress total (min (start + size.toNat) total) (some size) =
      { cookie := if total ≤ start + size.toNat then none else some (toString (start + size.toNat))
        total := total
        remaining := (total - (start + size.toNat) : Nat) } := by
  have hfilter : (some size).filter (fun n ↦ decide (0 < n)) = some size := by simp [hpos]
  simp only [Store.pageProgress, hfilter]
  by_cases hle : total ≤ start + size.toNat
  · rw [Nat.min_eq_right hle, if_neg (Nat.lt_irrefl total), if_pos hle, Nat.sub_self,
      Nat.sub_eq_zero_of_le hle]
  · rw [Nat.min_eq_left (Nat.le_of_not_le hle), if_pos (Nat.lt_of_not_le hle), if_neg hle]

theorem map_pageOf (hfields : q.fields = []) (hsize : ∀ n ∈ q.pageSize, 0 < n)
    (found : List Entry) (f : Record → Record) :
    (q.pageOf found).map f = paged q.offset q.pageSize
      ((Sorting.sortBy Entry.document q.sortKeys found).map fun e ↦ f e.record) := by
  have hselect : ∀ e : Entry, { e.record with content := e.content.select [] } = e.record :=
    fun _ ↦ rfl
  simp only [pageOf, Sorting.unsorted_eq_sortBy, hfields, hselect]
  generalize Sorting.sortBy Entry.document q.sortKeys found = sorted
  let start := (q.offset.getD 0).toNat
  cases hp : q.pageSize with
  | none =>
    have hrecords : (((sorted.take sorted.length).drop start).map Entry.record).map f =
        (sorted.map fun e ↦ f e.record).drop start := by
      rw [List.take_length, List.map_map, List.map_drop]
      rfl
    have htotal : sorted.length = (sorted.map fun e ↦ f e.record).length := by
      rw [List.length_map]
    exact congrArg₂ Page.mk hrecords (congrArg (fun n : Nat ↦ ({ total := n } : Progress)) htotal)
  | some size =>
    have hpos : 0 < size := hsize size hp
    have hrecords :
        (((sorted.take (min (start + size.toNat) sorted.length)).drop start).map Entry.record).map
            f =
          ((sorted.map fun e ↦ f e.record).drop start).take size.toNat := by
      rw [← List.take_eq_take_min, List.take_drop, List.map_map, List.map_drop, List.map_take]
      rfl
    have hprogress := pageProgress_sized hpos sorted.length start
    simp only [paged, List.isEmpty_iff, List.drop_drop, List.drop_eq_nil_iff, List.length_drop,
      List.length_map]
    have hpage := congrArg₂ Page.mk hrecords hprogress
    simpa only [Store.pageBounds, if_pos hpos, Page.map] using hpage

end Paging

/-- The page that a query asks for out of some objects. -/
def reference (q : Query) (objects : List Record) : Page :=
  let kept := objects.filter fun r ↦ q.filter.all fun f ↦ f.matches r.json
  paged q.offset q.pageSize (Sorting.sortBy Record.json q.sortKeys kept)

/-- A query with moved fields on entries is the query itself on what the entries stand for, when
each field is found where it has been moved to. -/
theorem map_pageOf_moved (q moved : Query) {move : Pointer → Pointer} {entries : List Entry}
    {f : Record → Record} (hpage : moved.offset = q.offset ∧ moved.pageSize = q.pageSize)
    (hfields : moved.fields = [])
    (hkeys : moved.sortKeys = q.sortKeys.map fun key ↦ { key with field := move key.field })
    (hsize : ∀ n ∈ q.pageSize, 0 < n)
    (hfilter : ∀ e ∈ entries, ∀ filter ∈ q.filter, ∀ field ∈ filter.fields,
      (move field).get? e.document = field.get? (f e.record).json)
    (hsort : ∀ e ∈ entries, ∀ key ∈ q.sortKeys,
      (move key.field).get? e.document = key.field.get? (f e.record).json) :
    (moved.pageOf (entries.filter fun e ↦ q.filter.all fun filter ↦
      (filter.mapFields move).matches e.document)).map f =
        q.reference (entries.map fun e ↦ f e.record) := by
  have hmatch : ∀ e ∈ entries,
      (q.filter.all fun filter ↦ (filter.mapFields move).matches e.document) =
        q.filter.all fun filter ↦ filter.matches (f e.record).json := by
    intro e he
    cases hf : q.filter with
    | none => rfl
    | some filter => exact Filter.matches_mapFields filter (hfilter e he filter hf)
  rw [List.filter_congr hmatch, map_pageOf hfields (hpage.2 ▸ hsize), hpage.1, hpage.2, hkeys,
    Sorting.map_sortBy fun e he ↦ hsort e (List.mem_of_mem_filter he), reference, List.filter_map]
  rfl

end Query

namespace Handler

variable {h : Handler} {names : List String} {s : Store} {q resolved : Query}

def objects (h : Handler) (explicit : List String) (type : Path) (s : Store) : List Record :=
  (s.collection (h.typeCollection type)).map (unwrapped explicit)

/-- A query on a type is answered with the page that it asks for out of the objects of the type. -/
theorem query_eq_reference (hkind : h.kind = .generic (Generic.explicitFields names))
    (hnames : Generic.contentField ∉ names) (hs : h.Reaches Request.Guarded s)
    (hpath : q.path.Clean) (hq : h.catalog.resolveQuery h.limits q = .ok resolved)
    (hfields : resolved.fields = [])
    (hfilter : ∀ f ∈ resolved.filter, ∀ field ∈ f.fields, Generic.Inside field)
    (hsort : ∀ key ∈ resolved.sortKeys, Generic.Inside key.field) (c : Option Connection) :
    h.answer c (.query q) s = Store.checkConnection c >>= fun _ ↦
      .ok (resolved.reference (h.objects (Generic.explicitFields names) q.path s)) := by
  have hstored := hs.typed hkind (kept_stored (Generic.contentField_not_mem hnames)
    fun kind field hfield ↦ hfield.not_reshapes kind)
  have hfind : ∀ e ∈ s.inCollection (h.typeCollection q.path), ∀ field, Generic.Inside field →
      (Generic.moveField (Generic.explicitFields names) field).get? e.document =
        field.get? (unwrapped (Generic.explicitFields names) e.record).json := by
    intro e he field hfield
    obtain ⟨type, -, -, hrecord⟩ := hstored e (Store.mem_inCollection.mp he).1
    exact get?_moveField hrecord (Generic.mem_explicitFields.mpr (.inl rfl))
      (Generic.mem_explicitFields.mpr (.inr (.inl rfl))) hfield
  obtain ⟨normal, hnormal, -, hsize, -⟩ := Catalog.normal_of_resolveQuery hq
  have hpositive : ∀ n ∈ resolved.pageSize, 0 < n := hsize ▸ Query.pos_of_normalize hnormal
  let moved := h.typeQuery (Generic.explicitFields names) q.path resolved
  have hmoved : moved.fields = [] := congrArg (List.map (Generic.moveField _)) hfields
  rw [answer_query (hs.tagged hkind) hs.reached.keyed hkind hpath hq,
    Query.map_pageOf_moved resolved moved ⟨rfl, rfl⟩ hmoved rfl hpositive
      (fun e he f hf field hfield ↦ hfind e he field (hfilter f hf field hfield))
      (fun e he key hkey ↦ hfind e he key.field (hsort key hkey)),
    objects, Store.collection, List.map_map]
  rfl

theorem users_by_name :
    let h : Handler :=
      ⟨.generic (Generic.explicitFields ["userName"]), ⟨["managedobjects"]⟩, {}, {}⟩
    let c : Option Connection := some ⟨"local-1", false⟩
    let create : Request :=
      .create ⟨["managed", "user"]⟩ (some "1") (.obj [("mail", .str "m"), ("userName", .str "u")])
    let s := h.after c create (.empty fun _ ↦ "")
    let q : Query :=
      { path := ⟨["managed", "user"]⟩, filter := some (.present ⟨["mail"]⟩),
        sortKeys := [⟨⟨["userName"]⟩, true⟩], pageSize := some 1 }
    Generic.contentField ∉ ["userName"] ∧ h.Reaches Request.Guarded s ∧ q.path.Clean ∧
      h.catalog.resolveQuery h.limits q = .ok q ∧
      h.answer c (.query q) s = Store.checkConnection c >>= fun _ ↦
        .ok (q.reference (h.objects (Generic.explicitFields ["userName"]) q.path s)) := by
  intro h c create s q
  have hcreate : create.Guarded := ⟨by decide, fun _ hc ↦ absurd hc List.not_mem_nil⟩
  have hs : h.Reaches Request.Guarded s := .serve c create (.empty _) hcreate
  have hq : h.catalog.resolveQuery h.limits q = .ok q := rfl
  refine ⟨by decide, hs, by decide, hq, ?_⟩
  refine query_eq_reference rfl (by decide) hs (by decide) hq rfl ?_ ?_ c
  · rintro _ ⟨⟩ field hfield
    rw [List.mem_singleton.mp hfield]
    decide
  · intro key hkey
    rw [List.mem_singleton.mp hkey]
    decide

end Handler

end RecordService
