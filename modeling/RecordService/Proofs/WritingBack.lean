import RecordService.Proofs.Events
import RecordService.Proofs.Isolation
import RecordService.Proofs.ReadBack

namespace RecordService

/-- No change reaches past the object that a record stands for. -/
abbrev Request.Contained : Request → Prop :=
  Request.Permitted fun kind field ↦ ¬ Generic.Reshapes kind field

namespace Json

variable {id revision : String} {content : Json} {fields : Dict Json}

/-- A record that is told as an object tells its identifier and revision among the fields. -/
theorem told_in_envelope (h : content.inEnvelope (some id) (some revision) = .obj fields) :
    Dict.get? idField fields = some (.str id) ∧
      Dict.get? revisionField fields = some (.str revision) := by
  cases content with
  | obj inner =>
    have hget := field?_inEnvelope id revision inner
    rw [h] at hget
    exact ⟨(hget idField).trans (if_pos rfl),
      (hget revisionField).trans ((if_neg (by decide)).trans (if_pos rfl))⟩
  | _ => cases h

/-- With the identifier it had, an object is told as it was but for the revision. -/
theorem inEnvelope_again (hfields : Dict.Sorted fields)
    (hid : Dict.get? idField fields = some (.str id)) (revision : String) :
    (obj fields).withoutEnvelope.inEnvelope (some id) (some revision) =
      .obj (Dict.insert revisionField (.str revision) fields) := by
  have hbare := (hfields.erase idField).erase revisionField
  refine congrArg obj (((hbare.insert revisionField _).insert idField _).ext
    (hfields.insert revisionField _) fun name ↦ ?_)
  by_cases hname : name = idField
  · rw [hname, Dict.get?_insert_self, Dict.get?_insert_of_ne (by decide), hid]
  rw [Dict.get?_insert_of_ne hname]
  by_cases hrev : name = revisionField
  · rw [hrev, Dict.get?_insert_self, Dict.get?_insert_self]
  · rw [Dict.get?_insert_of_ne hrev, Dict.get?_insert_of_ne hrev, Dict.get?_erase_of_ne hrev,
      Dict.get?_erase_of_ne hname]

end Json

namespace Store

variable {s : Store} {e : Entry} {collection : Path} {id : String} {revision : Option String}
  {c : Option Connection}

theorem find?_revise (hfind : s.find? collection id = some e) (content : Json) :
    (s.revise e content).2.find? collection id = some (e.revised content) := by
  obtain ⟨rfl, rfl⟩ := Prod.mk.inj (mem_of_find? hfind).2
  have hget : (s.replace (e.revised content)).get? e.key = _ := get?_revised hfind content
  exact hget.trans (if_pos rfl)

theorem perform_update (hc : checkConnection c = .ok ()) (hfind : s.find? collection id = some e)
    (hrev : checkRevision revision e = .ok ()) (content : Json) :
    (s.perform c (.update (collection ++ ⟨[id]⟩) revision content)).1 =
        .ok (e.revised content).record ∧
      (s.perform c (.update (collection ++ ⟨[id]⟩) revision content)).2.find? collection id =
        some (e.revised content) := by
  have hentry : s.counted.entryAt (collection ++ ⟨[id]⟩) = .ok e := entryAt_of_find? hfind
  have hfind' : s.counted.find? collection id = some e := hfind
  rw [perform_of_open hc, run, update, withEntry_of_entryAt hentry hrev]
  exact ⟨rfl, find?_revise hfind' content⟩

end Store

namespace Handler

variable {h : Handler} {explicit : List String} {s : Store} {c : Option Connection}
  {type path : Path} {id : String} {record : Record} {fields : Dict Json}

theorem tagged_of_contained (hf : h.Faithful) (hkind : h.kind = .generic explicit)
    (hs : h.Reaches Request.Contained s) : h.Typed Generic.Tagged s.entries := by
  obtain ⟨names, rfl, -, hcontent⟩ := hf explicit hkind
  have hstored := hs.typed hkind (kept_stored (Generic.contentField_not_mem hcontent)
    fun kind field hfield ↦ hfield)
  intro e he
  obtain ⟨type, htype, hplace, hrecord⟩ := hstored e he
  exact ⟨type, htype, hplace, hrecord.tagged⟩

/-- Only a read looks for an object by its tag, but it finds the entry that is kept in its place. -/
theorem answer_read_iff (hf : h.Faithful) (hs : h.Reaches Request.Contained s)
    (hc : Store.checkConnection c = .ok ()) (hpath : (type ++ ⟨[id]⟩ : Path).Clean)
    (hbelow : h.kind = .explicit → type ≠ .empty) :
    h.answer c (.read (type ++ ⟨[id]⟩) []) s = .ok record ↔
      ∃ e, s.find? (h.place type) id = some e ∧ h.disclose e.record = record := by
  cases hkind : h.kind with
  | explicit =>
    have hinstance := explicitInstance_single h hpath.plain (hbelow hkind)
    rw [answer_read_explicit hkind hc hinstance]
    simp only [place, disclose, hkind]
    cases s.find? h.resource id <;> simp
  | generic explicit =>
    rw [read_eq hkind hc (tagged_of_contained hf hkind hs) hs.reached.keyed hpath.left]
    simp only [place, disclose, hkind]
    cases s.find? (h.typeCollection type) id <;> simp

theorem entries_after_read (h : Handler) (c : Option Connection) (path : Path)
    (fields : List Pointer) (s : Store) : (h.after c (.read path fields) s).entries = s.entries := by
  have hcalls : (h.plan (.read path fields)).Calls fun call ↦ ∀ key, ¬ call.Touches key := by
    unfold plan planFor
    split
    · exact Plan.calls_lift_bind fun _ _ ↦ Plan.calls_ask fun _ ↦ id
    · refine Plan.calls_lift_bind fun _ _ ↦
        Plan.calls_bind (Plan.calls_askFor (fun _ ↦ id) .first) fun page ↦ ?_
      cases page.records <;> trivial
  let keeps (t : Store) : Prop := t.entries = s.entries
  refine Plan.run_keeps (I := keeps) hcalls (fun accepts c call t hcall ht ↦ ?_) c rfl
  exact ((t.perform_step accepts c call).untouched hcall).trans ht

theorem plan_update_object {content : Json} (hcontent : content.isObject) (hid : PlainSegment id)
    (hbelow : h.kind = .explicit → type ≠ .empty) (revision : Option String) :
    h.plan (.update (type ++ ⟨[id]⟩) revision content) =
      Plan.through (.update (h.place type ++ ⟨[id]⟩) revision (h.enclose type content))
        fun record ↦ .ok (h.disclose record) := by
  obtain ⟨kind, resource, catalog, limits⟩ := h
  cases kind with
  | explicit =>
    have hinstance := explicitInstance_single ⟨.explicit, resource, catalog, limits⟩ hid (hbelow rfl)
    rw [plan_explicit rfl, explicitPlan, hinstance]
    exact Plan.askFor_eq_throughFor .all _
  | generic explicit => exact plan_update rfl hcontent hid type revision

theorem disclose_revision (h : Handler) (r : Record) : (h.disclose r).revision = r.revision := by
  unfold disclose
  split <;> rfl

theorem checkRevision_told {e : Entry} {revision : Option String}
    (hread : h.disclose e.record = record) (hrevision : ∀ r ∈ revision, r = record.revision) :
    Store.checkRevision revision e = .ok () := by
  cases revision with
  | none => rfl
  | some r =>
    have hsame := hrevision r rfl
    rw [← hread, disclose_revision] at hsame
    exact if_pos (.inr hsame)

/-- Reading once more tells the same. -/
theorem answer_read_again (hf : h.Faithful) (hs : h.Reaches Request.Contained s)
    (hpath : path.Clean) (hc : Store.checkConnection c = .ok ())
    (hread : h.answer c (.read path []) s = .ok record) {c' : Option Connection}
    (hc' : Store.checkConnection c' = .ok ()) :
    h.answer c' (.read path []) (h.after c (.read path []) s) = .ok record := by
  obtain ⟨type, hbelow, rfl⟩ := exists_of_read hc hpath hread
  have hreached : h.Reaches Request.Contained (h.after c (.read (type ++ ⟨[record.id]⟩) []) s) :=
    .serve c _ hs (Request.permitted_of_unchanging hpath rfl)
  have hentries := h.entries_after_read c (type ++ ⟨[record.id]⟩) [] s
  rw [answer_read_iff hf hs hc hpath hbelow] at hread
  rw [answer_read_iff hf hreached hc' hpath hbelow, Store.find?, hentries]
  exact hread

theorem exists_revision_of_read (hf : h.Faithful) (hs : h.Reaches Request.Contained s)
    (hpath : path.Clean) (hc : Store.checkConnection c = .ok ())
    (hread : h.answer c (.read path []) s = .ok record) :
    ∃ n : Nat, record.revision = toString n := by
  obtain ⟨type, hbelow, rfl⟩ := exists_of_read hc hpath hread
  obtain ⟨e, -, rfl⟩ := (answer_read_iff hf hs hc hpath hbelow).mp hread
  exact ⟨e.revision, h.disclose_revision e.record⟩

/-- An object written back as it was read is answered, and read again, as it was but for its
revision, which is one higher. -/
theorem answer_write_back (hf : h.Faithful) (hs : h.Reaches Request.Contained s)
    (hpath : path.Clean) (hc : Store.checkConnection c = .ok ())
    (hread : h.answer c (.read path []) s = .ok record) (hjson : record.json = .obj fields)
    (hfields : Dict.Sorted fields) {revision : Option String}
    (hrevision : ∀ r ∈ revision, r = record.revision) {c' : Option Connection}
    (hc' : Store.checkConnection c' = .ok ()) :
    ∃ (n : Nat) (written : Record), record.revision = toString n ∧
      written.json = .obj (Dict.insert revisionField (.str (toString (n + 1))) fields) ∧
      h.answer c' (.update path revision (.obj fields)) s = .ok written ∧
      ∀ c, Store.checkConnection c = .ok () →
        h.answer c (.read path []) (h.after c' (.update path revision (.obj fields)) s) =
          .ok written := by
  obtain ⟨type, hbelow, rfl⟩ := exists_of_read hc hpath hread
  obtain ⟨e, hfind, hdisclose⟩ := (answer_read_iff hf hs hc hpath hbelow).mp hread
  obtain ⟨-, hkey⟩ := Store.mem_of_find? hfind
  have hid : e.id = record.id := congrArg Prod.snd hkey
  have hobject : (Json.obj fields).isObject := rfl
  obtain ⟨hanswer, hafter⟩ :=
    serve_of_plan (plan_update_object hobject hpath.plain hbelow revision) c' s
  obtain ⟨hperform, hfound⟩ := Store.perform_update hc' hfind
    (checkRevision_told hdisclose hrevision) (h.enclose type (.obj fields))
  let written : Record := ⟨e.id, toString (e.revision + 1), (Json.obj fields).withoutEnvelope⟩
  have hwritten : h.disclose (e.revised (h.enclose type (.obj fields))).record = written :=
    disclose_enclose hf hfields type e.id (toString (e.revision + 1))
  refine ⟨e.revision, written, ?_, ?_, ?_, fun c hc ↦ ?_⟩
  · rw [← hdisclose, disclose_revision]
    rfl
  · exact Json.inEnvelope_again hfields ((Json.told_in_envelope hjson).1.trans (hid ▸ rfl)) _
  · rw [hanswer, hperform, ok_bind]
    exact congrArg Except.ok hwritten
  · have hreached : h.Reaches Request.Contained
        (h.after c' (.update (type ++ ⟨[record.id]⟩) revision (.obj fields)) s) :=
      .serve c' _ hs (Request.permitted_of_unchanging hpath rfl)
    rw [answer_read_iff hf hreached hc hpath hbelow, hafter]
    exact ⟨_, hfound, hwritten⟩

end Handler

end RecordService
