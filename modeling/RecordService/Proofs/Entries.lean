import RecordService.Proofs.Address
import RecordService.Proofs.Results
import RecordService.Store
import Mathlib.Data.List.Nodup

namespace RecordService

def Entry.key (e : Entry) : Path × String := (e.collection, e.id)

theorem Entry.isAt_iff {collection : Path} {id : String} {e : Entry} :
    e.isAt collection id ↔ e.key = (collection, id) := by
  simp [isAt, key, and_comm]

def Request.Touches (r : Request) (key : Path × String) : Prop :=
  match r with
  | .create path _ _ => key.1 = path
  | .update path .. | .patch path .. | .delete path _ => path = key.1 ++ ⟨[key.2]⟩
  | .read .. | .action .. | .query _ => False

/-- Where contents are such as may be kept in their collections, a call writes such ones only. -/
def Request.Preserves (keeps : Path → Json → Prop) : Request → Prop
  | .create path _ content => keeps path content.withoutEnvelope
  | .update path _ content => ∀ collection id, path = collection ++ ⟨[id]⟩ →
      keeps collection content.withoutEnvelope
  | .patch path _ changes => ∀ collection id, path = collection ++ ⟨[id]⟩ →
      ∀ d d', keeps collection d → Patch.apply changes d = .ok d' →
        keeps collection d'.withoutEnvelope
  | .read .. | .delete .. | .action .. | .query _ => True

namespace Store

variable {s : Store} {c : Option Connection} {e : Entry} {collection path : Path} {id : String}

/-- Collection and identifier tell every entry from the others. -/
def Keyed (s : Store) : Prop := (s.entries.map Entry.key).Nodup

theorem Keyed.eq_of_key (h : s.Keyed) {e e' : Entry} (he : e ∈ s.entries) (he' : e' ∈ s.entries)
    (hkey : e.key = e'.key) : e = e' :=
  List.inj_on_of_nodup_map h he he' hkey

theorem mem_of_find? (h : s.find? collection id = some e) :
    e ∈ s.entries ∧ e.key = (collection, id) :=
  ⟨List.mem_of_find?_eq_some h, Entry.isAt_iff.mp (List.find?_some h)⟩

theorem Keyed.find?_eq (hs : s.Keyed) (he : e ∈ s.entries) :
    s.find? e.collection e.id = some e := by
  cases hfind : s.find? e.collection e.id with
  | none => exact absurd (Entry.isAt_iff.mpr rfl) (List.find?_eq_none.mp hfind e he)
  | some e' =>
    obtain ⟨he', hkey⟩ := mem_of_find? hfind
    rw [hs.eq_of_key he' he hkey]

@[simp] theorem find?_counted (s : Store) (collection : Path) (id : String) :
    s.counted.find? collection id = s.find? collection id := rfl

theorem find?_eq_none :
    s.find? collection id = none ↔ ∀ e ∈ s.entries, e.key ≠ (collection, id) := by
  simp only [find?, List.find?_eq_none, Entry.isAt_iff, ne_eq]

theorem entryAt_single (s : Store) (collection : Path) (id : String) :
    s.entryAt (collection ++ ⟨[id]⟩) = match s.find? collection id with
      | some entry => .ok entry
      | none => .error (objectNotFound id collection) := by
  have hparts : (collection ++ ⟨[id]⟩ : Path).instanceParts = .ok (collection, id) :=
    Path.instanceParts_eq_ok.mpr rfl
  unfold entryAt
  rw [hparts]
  rfl

theorem entryAt_of_find? (h : s.find? collection id = some e) :
    s.entryAt (collection ++ ⟨[id]⟩) = .ok e := by
  rw [entryAt_single, h]

theorem mem_of_entryAt (h : s.entryAt path = .ok e) :
    e ∈ s.entries ∧ path = e.collection ++ ⟨[e.id]⟩ := by
  obtain ⟨⟨collection, id⟩, hparts, hfind⟩ := bind_eq_ok.mp h
  obtain rfl := Path.instanceParts_eq_ok.mp hparts
  cases hf : s.find? collection id with
  | none => simp [hf] at hfind
  | some entry =>
    simp only [hf, Except.ok.injEq] at hfind
    subst hfind
    obtain ⟨hmem, hkey⟩ := mem_of_find? hf
    obtain ⟨rfl, rfl⟩ := Prod.mk.inj hkey
    exact ⟨hmem, rfl⟩

section Operations

variable {t : Store} {record : Record} {fault : Fault} {revision asked : Option String}
  {content : Json} {changes : List Patch.Change} {go : Entry → Store → Except Fault Record × Store}

theorem fst_chooseId (s : Store) (asked : Option String) (content : Json) :
    (s.chooseId asked content).1 =
      (asked.or ((content.field? idField).bind Json.str?)).getD (s.mint s.minted) := by
  unfold chooseId
  cases asked.or ((content.field? idField).bind Json.str?) <;> rfl

theorem entries_chooseId (s : Store) (asked : Option String) (content : Json) :
    (s.chooseId asked content).2.entries = s.entries := by
  unfold chooseId
  split <;> rfl

theorem create_eq_ok : s.create path asked content = (.ok record, t) ↔
    let entry : Entry := ⟨path, (s.chooseId asked content).1, 1, content.withoutEnvelope⟩
    s.find? path entry.id = none ∧ entry.record = record ∧
      (s.chooseId asked content).2.insert entry = t := by
  have hsame (id : String) : (s.chooseId asked content).2.find? path id = s.find? path id := by
    rw [find?, find?, entries_chooseId]
  simp only [create, hsame]
  cases s.find? path (s.chooseId asked content).1 <;> simp

theorem withEntry_eq_ok : s.withEntry path revision go = (.ok record, t) ↔
    ∃ e, s.entryAt path = .ok e ∧ checkRevision revision e = .ok () ∧ go e s = (.ok record, t) := by
  unfold withEntry
  cases s.entryAt path with
  | error fault => simp
  | ok e => cases hrev : checkRevision revision e <;> simp [hrev]

theorem withEntry_of_entryAt (he : s.entryAt path = .ok e)
    (hrev : checkRevision revision e = .ok ()) : s.withEntry path revision go = go e s := by
  simp only [withEntry, he, hrev]

theorem withEntry_of_no_entry (he : s.entryAt path = .error fault) :
    s.withEntry path revision go = (.error fault, s) := by
  simp only [withEntry, he]

theorem update_eq_ok : s.update path revision content = (.ok record, t) ↔
    ∃ e, s.entryAt path = .ok e ∧ checkRevision revision e = .ok () ∧
      (s.revise e content).1 = record ∧ (s.revise e content).2 = t := by
  simp only [update, withEntry_eq_ok, Prod.mk.injEq, Except.ok.injEq]

theorem patch_eq_ok : s.patch path revision changes = (.ok record, t) ↔
    ∃ e content, s.entryAt path = .ok e ∧ checkRevision revision e = .ok () ∧
      Patch.apply changes e.content = .ok content ∧
      (s.revise e content).1 = record ∧ (s.revise e content).2 = t := by
  simp only [patch, withEntry_eq_ok, Patch.apply, Patch.written]
  refine exists_congr fun e ↦ ?_
  cases Patch.write changes e.content with
  | mk content result => cases result <;> simp [Except.map]

theorem delete_eq_ok : s.delete path revision = (.ok record, t) ↔
    ∃ e, s.entryAt path = .ok e ∧ checkRevision revision e = .ok () ∧
      e.record = record ∧ s.erase e.collection e.id = t := by
  simp only [delete, withEntry_eq_ok, Prod.mk.injEq, Except.ok.injEq]

theorem entries_of_create (h : s.create path asked content = (.error fault, t)) :
    t.entries = s.entries := by
  simp only [create] at h
  split at h
  · obtain ⟨-, rfl⟩ := Prod.mk.inj h
    exact entries_chooseId s asked content
  · cases h

theorem withEntry_eq_error (hgo : ∀ e, go e s = (.error fault, t) → t = s)
    (h : s.withEntry path revision go = (.error fault, t)) : t = s := by
  unfold withEntry at h
  split at h
  · exact (Prod.mk.inj h).2.symm
  · split at h
    · exact (Prod.mk.inj h).2.symm
    · exact hgo _ h

theorem update_eq_error (h : s.update path revision content = (.error fault, t)) : t = s := by
  refine withEntry_eq_error (fun e hgo ↦ ?_) h
  cases hgo

/-- Where a change fails, what the ones before it have made is in the copy only. -/
theorem patch_eq_error (h : s.patch path revision changes = (.error fault, t)) : t = s := by
  refine withEntry_eq_error (fun e hgo ↦ ?_) h
  split at hgo
  · cases hgo
  · exact (Prod.mk.inj hgo).2.symm

-- Only the copy holds what the first of these changes has made when the second is refused.
example :
    Patch.write [⟨.replace, ⟨["n"]⟩, .int 2⟩, ⟨.increment, ⟨["n"]⟩, .bool true⟩]
        (.obj [("n", .int 1)]) =
      (.obj [("n", .int 2)], .error (.badRequest "Cannot increment /n by true")) := by
  rfl

theorem delete_eq_error (h : s.delete path revision = (.error fault, t)) : t = s := by
  refine withEntry_eq_error (fun e hgo ↦ ?_) h
  cases hgo

/-- An operation that refuses its request leaves all entries as they are. -/
theorem entries_of_refused {accepts : Consumer} {r : Request}
    (h : s.run accepts r = (.error fault, t)) : t.entries = s.entries := by
  cases r with
  | create => exact entries_of_create h
  | update => rw [update_eq_error h]
  | patch => rw [patch_eq_error h]
  | delete => rw [delete_eq_error h]
  | read | action | query =>
    obtain ⟨-, rfl⟩ := Prod.mk.inj h
    rfl

end Operations

section Steps

inductive Step (s : Store) : Request → List Entry → Prop
  | kept (r : Request) : Step s r s.entries
  | created {path : Path} {asked : Option String} {content : Json} {id : String} :
      (s.chooseId asked content).1 = id → s.find? path id = none →
      Step s (.create path asked content)
        (s.entries ++ [⟨path, id, 1, content.withoutEnvelope⟩])
  | updated {path : Path} {revision : Option String} {content : Json} {e : Entry} :
      s.entryAt path = .ok e → checkRevision revision e = .ok () →
      Step s (.update path revision content) (s.revise e content).2.entries
  | patched {path : Path} {revision : Option String} {changes : List Patch.Change} {e : Entry}
      {content : Json} :
      s.entryAt path = .ok e → checkRevision revision e = .ok () →
      Patch.apply changes e.content = .ok content →
      Step s (.patch path revision changes) (s.revise e content).2.entries
  | deleted {path : Path} {revision : Option String} {e : Entry} :
      s.entryAt path = .ok e → checkRevision revision e = .ok () →
      Step s (.delete path revision) (s.erase e.collection e.id).entries

theorem step_of_run {accepts : Consumer} {r : Request} {reply : r.Reply} {t : Store}
    (h : s.run accepts r = (.ok reply, t)) : Step s r t.entries := by
  cases r with
  | create path asked content =>
    obtain ⟨hfind, -, rfl⟩ := create_eq_ok.mp h
    simpa only [insert, entries_chooseId] using Step.created rfl hfind
  | update path revision content =>
    obtain ⟨e, he, hrev, -, rfl⟩ := update_eq_ok.mp h
    exact .updated he hrev
  | patch path revision changes =>
    obtain ⟨e, content, he, hrev, hcontent, -, rfl⟩ := patch_eq_ok.mp h
    exact .patched he hrev hcontent
  | delete path revision =>
    obtain ⟨e, he, hrev, -, rfl⟩ := delete_eq_ok.mp h
    exact .deleted he hrev
  | read | action | query =>
    obtain ⟨-, rfl⟩ := Prod.mk.inj h
    exact .kept _

theorem Step.of_counted {r : Request} {entries : List Entry} (h : Step s.counted r entries) :
    Step s r entries := by
  cases h with
  | kept => exact .kept r
  | created hid hfind =>
    rw [fst_chooseId] at hid
    exact .created ((fst_chooseId s _ _).trans hid) hfind
  | updated he hrev => exact .updated he hrev
  | patched he hrev hcontent => exact .patched he hrev hcontent
  | deleted he hrev => exact .deleted he hrev

theorem perform_step (accepts : Consumer) (c : Option Connection) (r : Request) (s : Store) :
    Step s r (s.performFor accepts c r).2.entries := by
  unfold performFor
  cases checkConnection c with
  | error fault => exact .kept r
  | ok =>
    cases hrun : s.counted.run accepts r with
    | mk result t =>
      cases result with
      | error fault =>
        have hentries : t.entries = s.counted.entries := entries_of_refused hrun
        rw [hentries]
        exact .kept r
      | ok reply => exact (step_of_run hrun).of_counted

theorem mem_revise (entry : Entry) (content : Json) {e : Entry}
    (h : e ∈ (s.revise entry content).2.entries) :
    (e ∈ s.entries ∧ e.key ≠ entry.key) ∨
      e = { entry with content := content.withoutEnvelope, revision := entry.revision + 1 } := by
  obtain ⟨e', he', rfl⟩ := List.mem_map.mp h
  split
  · exact .inr rfl
  · rename_i hat
    exact .inl ⟨he', fun hkey ↦ hat (Entry.isAt_iff.mpr hkey)⟩

theorem revised_mem {entry : Entry} (h : entry ∈ s.entries) (content : Json) :
    { entry with content := content.withoutEnvelope, revision := entry.revision + 1 } ∈
      (s.revise entry content).2.entries :=
  List.mem_map.mpr ⟨entry, h, if_pos (Entry.isAt_iff.mpr rfl)⟩

theorem keys_revise (entry : Entry) (content : Json) :
    (s.revise entry content).2.entries.map Entry.key = s.entries.map Entry.key := by
  simp only [revise, replace, List.map_map]
  refine List.map_congr_left fun e he ↦ ?_
  simp only [Function.comp_apply]
  split
  · rename_i hat
    exact (Entry.isAt_iff.mp hat).symm
  · rfl

theorem Step.keyed {r : Request} {entries : List Entry} (h : Step s r entries) (hs : s.Keyed) :
    (entries.map Entry.key).Nodup := by
  cases h with
  | kept => exact hs
  | created hid hfind =>
    rw [List.map_append, List.map_singleton]
    refine hs.append (List.nodup_singleton _) (List.disjoint_singleton.mpr fun hmem ↦ ?_)
    obtain ⟨e, he, hkey⟩ := List.mem_map.mp hmem
    exact find?_eq_none.mp hfind e he hkey
  | updated => rwa [keys_revise]
  | patched => rwa [keys_revise]
  | deleted => exact hs.sublist (List.filter_sublist.map _)

theorem filter_replace {keep : Path × String → Bool} {entry : Entry} (h : keep entry.key = false) :
    (s.replace entry).entries.filter (fun e ↦ keep e.key) =
      s.entries.filter fun e ↦ keep e.key := by
  simp only [replace]
  induction s.entries with
  | nil => rfl
  | cons e es ih =>
    by_cases hat : e.isAt entry.collection entry.id
    · have hkey : keep e.key = false := by rw [Entry.isAt_iff.mp hat]; exact h
      simp [hat, h, hkey, ih]
    · cases hkey : keep e.key <;> simp [hat, hkey, ih]

/-- Entries that a request cannot touch stay as they are, and in their order. -/
theorem Step.frame {r : Request} {entries : List Entry} (h : Step s r entries)
    (keep : Path × String → Bool) (hkeep : ∀ key, r.Touches key → keep key = false) :
    entries.filter (fun e ↦ keep e.key) = s.entries.filter fun e ↦ keep e.key := by
  cases h with
  | kept => rfl
  | @created path asked content id hid hfind =>
    have hnew : keep (path, id) = false := hkeep _ rfl
    simp [Entry.key, hnew]
  | updated he hrev => exact filter_replace (hkeep _ (mem_of_entryAt he).2)
  | patched he hrev hcontent => exact filter_replace (hkeep _ (mem_of_entryAt he).2)
  | @deleted path revision e he hrev =>
    have hgone : keep (e.collection, e.id) = false := hkeep _ (mem_of_entryAt he).2
    simp only [erase, List.filter_filter]
    refine List.filter_congr fun e' _ ↦ ?_
    cases hat : e'.isAt e.collection e.id with
    | false => simp
    | true => simp [Entry.isAt_iff.mp hat, hgone]

theorem Step.untouched {r : Request} {entries : List Entry} (h : Step s r entries)
    (hr : ∀ key, ¬ r.Touches key) : entries = s.entries := by
  simpa using h.frame (fun _ ↦ true) fun key hkey ↦ absurd hkey (hr key)

theorem Step.preserves {r : Request} {entries : List Entry} {keeps : Path → Json → Prop}
    (h : Step s r entries) (hr : r.Preserves keeps)
    (hs : ∀ e ∈ s.entries, keeps e.collection e.content) :
    ∀ e ∈ entries, keeps e.collection e.content := by
  have hrevise : ∀ {entry : Entry} {content : Json},
      keeps entry.collection content.withoutEnvelope →
      ∀ e ∈ (s.revise entry content).2.entries, keeps e.collection e.content := by
    intro entry content hcontent e he
    rcases mem_revise entry content he with ⟨hmem, -⟩ | rfl
    · exact hs e hmem
    · exact hcontent
  cases h with
  | kept => exact hs
  | created =>
    intro e he
    rcases List.mem_append.mp he with he | he
    · exact hs e he
    · rw [List.mem_singleton.mp he]
      exact hr
  | updated hentry => exact hrevise (hr _ _ (mem_of_entryAt hentry).2)
  | patched hentry _ happly =>
    obtain ⟨hmem, hpath⟩ := mem_of_entryAt hentry
    exact hrevise (hr _ _ hpath _ _ (hs _ hmem) happly)
  | deleted => exact fun e he ↦ hs e (List.mem_of_mem_filter he)

end Steps

/-- The stores that calls lead to, whatever they ask for and over whichever connections. -/
inductive Reached : Store → Prop
  | empty (mint : Nat → String) : Reached (.empty mint)
  | step {s : Store} (accepts : Consumer) (c : Option Connection) (r : Request) :
      Reached s → Reached (s.performFor accepts c r).2

theorem Reached.keyed (h : s.Reached) : s.Keyed := by
  induction h with
  | empty => exact List.nodup_nil
  | step accepts c r _ ih => exact (perform_step accepts c r _).keyed ih

end Store

end RecordService
