import RecordService.Proofs.Entries

namespace RecordService

/-- What a request does to the one entry it is about; searches are about no single entry. -/
inductive Deed where
  | create
  | read
  | revise
  | delete
  | search
deriving DecidableEq

namespace Request

def deed : Request → Deed
  | .create .. => .create
  | .read .. => .read
  | .update .. | .patch .. => .revise
  | .delete .. => .delete
  | .action .. | .query _ => .search

def expected? : Request → Option String
  | .update _ revision _ | .patch _ revision _ | .delete _ revision => revision
  | .create .. | .read .. | .action .. | .query _ => none

def tellsContent : Request → Bool
  | .create .. | .update .. | .patch .. => true
  | .read _ fields => fields.isEmpty
  | .delete .. | .action .. | .query _ => false

def record? : (r : Request) → r.Reply → Option Record
  | .create .., record | .read .., record | .update .., record | .patch .., record
  | .delete .., record => some record
  | .action .., _ | .query _, _ => none

def key? : Request → Record → Option (Path × String)
  | .create path .., record => some (path, record.id)
  | .read path _, _ | .update path .., _ | .patch path .., _ | .delete path _, _ =>
    path.splitInstance?
  | .action .., _ | .query _, _ => none

end Request

structure Event where
  client : String
  request : Request
  answer : Except Fault request.Reply

namespace Event

variable {key : Path × String} {e : Event}

def record? (e : Event) : Option Record := e.answer.toOption.bind e.request.record?

def key? (e : Event) : Option (Path × String) := e.record?.bind e.request.key?

/-- A call that was not refused did this to an entry. -/
def Does (deed : Deed) (key : Path × String) (e : Event) : Prop :=
  e.request.deed = deed ∧ e.key? = some key

instance (deed : Deed) (key : Path × String) (e : Event) : Decidable (e.Does deed key) :=
  inferInstanceAs (Decidable (_ ∧ _))

def Writes (key : Path × String) (e : Event) : Prop :=
  e.request.deed ≠ .read ∧ e.key? = some key

def Tells (key : Path × String) (record : Record) (e : Event) : Prop :=
  e.request.tellsContent ∧ e.key? = some key ∧ e.record? = some record

theorem key?_of_search (h : e.request.deed = .search) : e.key? = none := by
  obtain ⟨client, r, answer⟩ := e
  cases r with
  | action => cases answer <;> rfl
  | query => cases answer <;> rfl
  | _ => cases h

theorem writes_iff :
    e.Writes key ↔ e.Does .create key ∨ e.Does .revise key ∨ e.Does .delete key := by
  have hsearch : e.request.deed = .search → e.key? ≠ some key := by
    intro h
    simp [key?_of_search h]
  unfold Writes Does
  cases hdeed : e.request.deed <;> simp_all

end Event

section Entries

namespace Store

variable {s : Store} {e entry : Entry} {key : Path × String}

def get? (s : Store) (key : Path × String) : Option Entry := s.find? key.1 key.2

theorem mem_of_get? (h : s.get? key = some e) : e ∈ s.entries ∧ e.key = key := mem_of_find? h

theorem get?_eq (s : Store) (key : Path × String) :
    s.get? key = s.entries.find? fun e ↦ e.key = key := by
  have hat : Entry.isAt key.1 key.2 = fun e ↦ decide (e.key = key) := by
    funext e
    rw [Bool.eq_iff_iff, Entry.isAt_iff, decide_eq_true_eq]
  rw [get?, find?, hat]

theorem Keyed.get?_of_mem (hs : s.Keyed) (he : e ∈ s.entries) : s.get? e.key = some e := by
  cases hfind : s.get? e.key with
  | none => exact absurd rfl (find?_eq_none.mp hfind e he)
  | some e' =>
    obtain ⟨he', hkey⟩ := mem_of_get? hfind
    rw [hs.eq_of_key he' he hkey]

theorem get?_insert (s : Store) (entry : Entry) (key : Path × String) :
    (s.insert entry).get? key =
      (s.get? key).or (if entry.key = key then some entry else none) := by
  simp only [get?_eq, insert, List.find?_append, List.find?_singleton, decide_eq_true_eq]

theorem get?_replace (s : Store) (entry : Entry) (key : Path × String) :
    (s.replace entry).get? key =
      (s.get? key).map fun e ↦ if key = entry.key then entry else e := by
  let put (e : Entry) : Entry := if e.isAt entry.collection entry.id then entry else e
  have hput : ∀ e, put e = if e.key = entry.key then entry else e := fun e ↦
    if_congr Entry.isAt_iff rfl rfl
  have hkey : ∀ e, (put e).key = e.key := by
    intro e
    rw [hput]
    split
    · rename_i h
      exact h.symm
    · rfl
  have hmap : (s.replace entry).get? key = (s.get? key).map put := by
    simp only [get?_eq, replace, List.find?_map, Function.comp_def, put, hkey]
  rw [hmap]
  refine Option.map_congr fun e he ↦ ?_
  rw [hput, (mem_of_get? he).2]

theorem get?_erase (s : Store) (e : Entry) (key : Path × String) :
    (s.erase e.collection e.id).get? key = if key = e.key then none else s.get? key := by
  have hat (e' : Entry) : e'.isAt e.collection e.id = decide (e'.key = e.key) := by
    rw [Bool.eq_iff_iff, decide_eq_true_eq]
    exact Entry.isAt_iff
  simp only [get?_eq, erase, List.find?_filter, hat]
  split
  · rename_i hkey
    simp [hkey]
  · rename_i hkey
    congr 1
    funext e'
    by_cases h : e'.key = key
    · simp [h, hkey]
    · simp [h]

end Store

end Entries

def Entry.revised (e : Entry) (content : Json) : Entry :=
  { e with content := content.withoutEnvelope, revision := e.revision + 1 }

section Lives

/-- What one event can be in the life of the entry with a key, which is or is not there before and
after. -/
inductive Turn (key : Path × String) : Option Entry → Event → Option Entry → Prop
  | aside {e : Event} (entry : Option Entry) : e.key? ≠ some key → Turn key entry e entry
  | read {client : String} {fields : List Pointer} {entry : Entry} :
      Turn key (some entry)
        ⟨client, .read (key.1 ++ ⟨[key.2]⟩) fields,
          .ok { entry.record with content := entry.content.select fields }⟩ (some entry)
  | created {client : String} {asked : Option String} {content : Json} {entry : Entry} :
      entry = ⟨key.1, key.2, 1, content.withoutEnvelope⟩ →
      Turn key none ⟨client, .create key.1 asked content, .ok entry.record⟩ (some entry)
  | updated {client : String} {revision : Option String} {content : Json} {entry : Entry} :
      Store.checkRevision revision entry = .ok () →
      Turn key (some entry)
        ⟨client, .update (key.1 ++ ⟨[key.2]⟩) revision content, .ok (entry.revised content).record⟩
        (some (entry.revised content))
  | patched {client : String} {revision : Option String} {changes : List Patch.Change}
      {content : Json} {entry : Entry} :
      Store.checkRevision revision entry = .ok () →
      Patch.apply changes entry.content = .ok content →
      Turn key (some entry)
        ⟨client, .patch (key.1 ++ ⟨[key.2]⟩) revision changes, .ok (entry.revised content).record⟩
        (some (entry.revised content))
  | deleted {client : String} {revision : Option String} {entry : Entry} :
      Store.checkRevision revision entry = .ok () →
      Turn key (some entry) ⟨client, .delete (key.1 ++ ⟨[key.2]⟩) revision, .ok entry.record⟩ none

theorem splitInstance?_key (key : Path × String) :
    (key.1 ++ ⟨[key.2]⟩ : Path).splitInstance? = some key :=
  Path.splitInstance?_eq_some.mpr rfl

namespace Store

variable {s t : Store} {entry : Entry} {client : String} {key : Path × String} {path : Path}

theorem get?_of_entryAt (h : s.entryAt path = .ok entry) :
    s.get? entry.key = some entry ∧ path = entry.collection ++ ⟨[entry.id]⟩ := by
  obtain ⟨⟨collection, id⟩, hparts, hfind⟩ := bind_eq_ok.mp h
  have hpath : path = collection ++ ⟨[id]⟩ := Path.instanceParts_eq_ok.mp hparts
  cases hf : s.find? collection id with
  | none => simp [hf] at hfind
  | some found =>
    simp only [hf, Except.ok.injEq] at hfind
    subst hfind
    have hkey : found.key = (collection, id) := (mem_of_find? hf).2
    obtain ⟨rfl, rfl⟩ := Prod.mk.inj hkey
    exact ⟨hf, hpath⟩

theorem get?_revised (h : s.get? entry.key = some entry) (content : Json) :
    (s.replace (entry.revised content)).get? key =
      if key = entry.key then some (entry.revised content) else s.get? key := by
  have hkey : (entry.revised content).key = entry.key := rfl
  rw [get?_replace, hkey]
  split
  · rename_i hsame
    rw [hsame, h, Option.map_some]
  · exact Option.map_id'

theorem turn_elsewhere {e : Event} {other : Path × String} (he : e.key? = some other)
    (hne : key ≠ other) (h : t.get? key = s.get? key) :
    Turn key (s.get? key) e (t.get? key) := by
  have haside : e.key? ≠ some key := by simpa [he] using hne.symm
  rw [h]
  exact .aside _ haside

theorem turn_of_create {asked : Option String} {content : Json} {record : Record}
    (h : s.create path asked content = (.ok record, t)) :
    Turn key (s.get? key) ⟨client, .create path asked content, .ok record⟩ (t.get? key) := by
  have hentry (key : Path × String) :
      (s.chooseId asked content).2.get? key = s.get? key := by
    rw [get?_eq, get?_eq, entries_chooseId]
  obtain ⟨hfree, rfl, rfl⟩ := create_eq_ok.mp h
  let entry : Entry := ⟨path, (s.chooseId asked content).1, 1, content.withoutEnvelope⟩
  have hnone : s.get? entry.key = none := hfree
  by_cases hkey : key = entry.key
  · subst hkey
    rw [get?_insert, hentry, hnone, Option.none_or, if_pos rfl]
    exact .created rfl
  · refine turn_elsewhere (show _ = some entry.key from rfl) hkey ?_
    rw [get?_insert, hentry, if_neg (Ne.symm hkey), Option.or_none]

theorem turn_of_revise {e : Event} {content : Json} (h : s.get? entry.key = some entry)
    (he : e.key? = some entry.key)
    (hturn : Turn entry.key (some entry) e (some (entry.revised content))) :
    Turn key (s.get? key) e ((s.replace (entry.revised content)).get? key) := by
  by_cases hkey : key = entry.key
  · subst hkey
    rwa [get?_revised h, if_pos rfl, h]
  · refine turn_elsewhere he hkey ?_
    rw [get?_revised h, if_neg hkey]

theorem turn_of_run {accepts : Consumer} {r : Request} {reply : r.Reply}
    (h : s.run accepts r = (.ok reply, t)) (client : String) (key : Path × String) :
    Turn key (s.get? key) ⟨client, r, .ok reply⟩ (t.get? key) := by
  cases r with
  | create path asked content => exact turn_of_create h
  | read path fields =>
    obtain ⟨hread, rfl⟩ := Prod.mk.inj h
    obtain ⟨entry, hentry, hrecord⟩ := bind_eq_ok.mp hread
    cases hrecord
    obtain ⟨hfind, rfl⟩ := get?_of_entryAt hentry
    by_cases hkey : key = entry.key
    · subst hkey
      rw [hfind]
      exact .read
    · exact turn_elsewhere (splitInstance?_key entry.key) hkey rfl
  | update path revision content =>
    obtain ⟨entry, hentry, hrevision, rfl, rfl⟩ := update_eq_ok.mp h
    obtain ⟨hfind, rfl⟩ := get?_of_entryAt hentry
    exact turn_of_revise hfind (splitInstance?_key entry.key) (.updated hrevision)
  | patch path revision changes =>
    obtain ⟨entry, content, hentry, hrevision, hcontent, rfl, rfl⟩ := patch_eq_ok.mp h
    obtain ⟨hfind, rfl⟩ := get?_of_entryAt hentry
    exact turn_of_revise hfind (splitInstance?_key entry.key) (.patched hrevision hcontent)
  | delete path revision =>
    obtain ⟨entry, hentry, hrevision, rfl, rfl⟩ := delete_eq_ok.mp h
    obtain ⟨hfind, rfl⟩ := get?_of_entryAt hentry
    by_cases hkey : key = entry.key
    · subst hkey
      rw [get?_erase, if_pos rfl, hfind]
      exact .deleted hrevision
    · refine turn_elsewhere (splitInstance?_key entry.key) hkey ?_
      rw [get?_erase, if_neg hkey]
  | action path name content parameters =>
    obtain ⟨-, rfl⟩ := Prod.mk.inj h
    exact .aside _ nofun
  | query q =>
    obtain ⟨-, rfl⟩ := Prod.mk.inj h
    exact .aside _ nofun

/-- A call is not let in, or what comes of it is what its operation does. -/
theorem performFor_cases (accepts : Consumer) (c : Option Connection) (r : Request) (s : Store) :
    (∃ fault, s.performFor accepts c r = (.error fault, s.counted)) ∨
      s.performFor accepts c r = s.counted.run accepts r := by
  unfold performFor
  cases checkConnection c with
  | error fault => exact .inl ⟨fault, rfl⟩
  | ok => exact .inr rfl

end Store

namespace Turn

variable {key : Path × String} {entry : Entry} {after : Option Entry} {e : Event}

theorem kept (h : Turn key (some entry) e after) (hdelete : ¬ e.Does .delete key) :
    ¬ e.Does .create key ∧ ∃ entry', after = some entry' ∧
      if e.Does .revise key then entry'.revision = entry.revision + 1 else entry' = entry := by
  cases h with
  | aside _ hkey =>
    have hdoes (deed : Deed) : ¬ e.Does deed key := fun h ↦ hkey h.2
    exact ⟨hdoes .create, entry, rfl, by rw [if_neg (hdoes .revise)]⟩
  | read => exact ⟨nofun, entry, rfl, by rw [if_neg nofun]⟩
  | updated =>
    refine ⟨nofun, _, rfl, ?_⟩
    rw [if_pos ⟨rfl, splitInstance?_key key⟩]
    rfl
  | patched =>
    refine ⟨nofun, _, rfl, ?_⟩
    rw [if_pos ⟨rfl, splitInstance?_key key⟩]
    rfl
  | deleted => exact absurd ⟨rfl, splitInstance?_key key⟩ hdelete

theorem kept_or_created {before : Option Entry} (h : Turn key before e (some entry)) :
    (∃ entry', before = some entry') ∧ ¬ e.Does .delete key ∨
      before = none ∧ e.Does .create key ∧ entry.revision = 1 := by
  cases h with
  | aside _ hkey => exact .inl ⟨⟨_, rfl⟩, fun h ↦ hkey h.2⟩
  | read => exact .inl ⟨⟨_, rfl⟩, nofun⟩
  | created hentry =>
    subst hentry
    exact .inr ⟨rfl, ⟨rfl, rfl⟩, rfl⟩
  | updated => exact .inl ⟨⟨_, rfl⟩, nofun⟩
  | patched => exact .inl ⟨⟨_, rfl⟩, nofun⟩

theorem exists_created {before : Option Entry} (h : Turn key before e after)
    (he : e.Does .create key) : ∃ entry, after = some entry ∧ entry.revision = 1 := by
  cases h with
  | aside _ hkey => exact absurd he.2 hkey
  | @created _ _ _ entry hentry => exact ⟨entry, rfl, by rw [hentry]⟩
  | _ => exact absurd he.1 nofun

theorem unwritten {before : Option Entry} (h : Turn key before e after) (hkey : ¬ e.Writes key) :
    after = before := by
  have hwrites (hdeed : e.request.deed ≠ .read) : e.key? ≠ some key := fun h ↦ hkey ⟨hdeed, h⟩
  cases h with
  | aside => rfl
  | read => rfl
  | created hentry =>
    subst hentry
    exact absurd rfl (hwrites nofun)
  | _ => exact absurd (splitInstance?_key key) (hwrites nofun)

/-- The record in an answer is that of the entry after the event, or of the entry deleted. -/
theorem answered {before : Option Entry} (h : Turn key before e after) (hkey : e.key? = some key) :
    ∃ record entry, e.record? = some record ∧
      (if e.request.deed = .delete then before else after) = some entry ∧
      record.id = entry.id ∧ record.revision = toString entry.revision ∧
      (e.request.tellsContent → record = entry.record) := by
  cases h with
  | aside _ hne => exact absurd hkey hne
  | @read _ fields entry =>
    refine ⟨_, entry, rfl, if_neg nofun, rfl, rfl, fun hfields ↦ ?_⟩
    have hnil : fields = [] := List.isEmpty_iff.mp hfields
    rw [hnil]
    rfl
  | @created _ _ _ entry => exact ⟨entry.record, entry, rfl, if_neg nofun, rfl, rfl, fun _ ↦ rfl⟩
  | @updated _ _ content entry =>
    let revised := entry.revised content
    exact ⟨revised.record, revised, rfl, if_neg nofun, rfl, rfl, fun _ ↦ rfl⟩
  | @patched _ _ _ content entry =>
    let revised := entry.revised content
    exact ⟨revised.record, revised, rfl, if_neg nofun, rfl, rfl, fun _ ↦ rfl⟩
  | @deleted _ _ entry => exact ⟨entry.record, entry, rfl, if_pos rfl, rfl, rfl, nofun⟩

theorem expected {before : Option Entry} {revision : String} (h : Turn key before e after)
    (hkey : e.key? = some key) (hexpected : e.request.expected? = some revision) :
    ∃ entry, before = some entry ∧ (revision = "*" ∨ revision = toString entry.revision) := by
  -- Reads and creations expect nothing, so one check stands for all that do.
  have hchecked {expected : Option String} {entry : Entry}
      (hcheck : Store.checkRevision expected entry = .ok ()) (h : expected = some revision) :
      revision = "*" ∨ revision = toString entry.revision := by
    subst h
    simp only [Store.checkRevision] at hcheck
    split at hcheck
    · assumption
    · cases hcheck
  cases h with
  | aside _ hne => exact absurd hkey hne
  | read => cases hexpected
  | created => cases hexpected
  | updated hcheck => exact ⟨_, rfl, hchecked hcheck hexpected⟩
  | patched hcheck => exact ⟨_, rfl, hchecked hcheck hexpected⟩
  | deleted hcheck => exact ⟨_, rfl, hchecked hcheck hexpected⟩

end Turn

end Lives

section Runs

/-- Over some connection and for some consumer, the call of an event takes the store from `s` to `t`
and is answered as the event says. -/
def Event.Happens (s : Store) (e : Event) (t : Store) : Prop :=
  ∃ accepts c, s.performFor accepts c e.request = (e.answer, t)

/-- Events that happen one after the other, whoever makes the calls. -/
inductive Run : Store → List Event → Store → Prop
  | nil (s : Store) : Run s [] s
  | cons {s t u : Store} {e : Event} {es : List Event} :
      e.Happens s t → Run t es u → Run s (e :: es) u

variable {s t u : Store} {e : Event} {es es' : List Event} {key : Path × String} {entry : Entry}

theorem Event.Happens.turn (h : e.Happens s t) (key : Path × String) :
    Turn key (s.get? key) e (t.get? key) := by
  obtain ⟨client, r, answer⟩ := e
  obtain ⟨accepts, c, hc⟩ := h
  rcases Store.performFor_cases accepts c r s with ⟨fault, hfault⟩ | hrun
  · obtain ⟨rfl, rfl⟩ := Prod.mk.inj (hfault.symm.trans hc)
    exact .aside _ nofun
  · have hrun := hrun.symm.trans hc
    cases answer with
    | ok reply => exact Store.turn_of_run hrun client key
    | error fault =>
      have hentries := Store.entries_of_refused hrun
      rw [Store.get?_eq, Store.get?_eq, hentries]
      exact .aside _ nofun

theorem Event.Happens.reached (h : e.Happens s t) (hs : s.Reached) : t.Reached := by
  obtain ⟨accepts, c, hc⟩ := h
  have ht : (s.performFor accepts c e.request).2 = t := by rw [hc]
  rw [← ht]
  exact .step accepts c e.request hs

theorem Run.reached (h : Run s es t) (hs : s.Reached) : t.Reached := by
  induction h with
  | nil => exact hs
  | cons he _ ih => exact ih (he.reached hs)

theorem Run.append_inv (h : Run s (es ++ es') u) : ∃ t, Run s es t ∧ Run t es' u := by
  induction es generalizing s with
  | nil => exact ⟨s, .nil s, h⟩
  | cons e es ih =>
    cases h with
    | cons he hrest =>
      obtain ⟨t, ht, hu⟩ := ih hrest
      exact ⟨t, .cons he ht, hu⟩

/-- Until an entry is deleted its revision counts the events that revise it, and it is not created
anew. -/
theorem Run.kept (h : Run s es t) (hs : s.get? key = some entry)
    (hdelete : ∀ e ∈ es, ¬ e.Does .delete key) :
    (∀ e ∈ es, ¬ e.Does .create key) ∧ ∃ entry', t.get? key = some entry' ∧
      entry'.revision = entry.revision + es.countP (·.Does .revise key) ∧
      (entry'.revision = entry.revision → entry' = entry) := by
  -- Revisions never decrease, so an event that revises the entry keeps its first revision from
  -- coming back; the content can only differ along with the revision.
  induction h generalizing entry with
  | nil => exact ⟨List.forall_mem_nil _, entry, hs, rfl, fun _ ↦ rfl⟩
  | @cons s t u e es he _ ih =>
    have hturn := he.turn key
    rw [hs] at hturn
    obtain ⟨hcreate, entry₁, hentry₁, hrevision₁⟩ := hturn.kept (hdelete e List.mem_cons_self)
    obtain ⟨hcreates, entry', hentry', hrevision, hsame⟩ :=
      ih hentry₁ fun e he ↦ hdelete e (List.mem_cons_of_mem _ he)
    refine ⟨List.forall_mem_cons.mpr ⟨hcreate, hcreates⟩, entry', hentry', ?_, fun heq ↦ ?_⟩
    · rw [List.countP_cons]
      split at hrevision₁
      · rename_i hrevise
        simp only [hrevise, decide_true, if_true]
        omega
      · rename_i hrevise
        subst hrevision₁
        simpa [hrevise] using hrevision
    · split at hrevision₁
      · omega
      · subst hrevision₁
        exact hsame heq

theorem Run.kept_or_created (h : Run s es t) (ht : t.get? key = some entry) :
    ((∃ entry', s.get? key = some entry') ∧ ∀ e ∈ es, ¬ e.Does .delete key) ∨
      ∃ earlier created since, es = earlier ++ created :: since ∧ created.Does .create key ∧
        ∀ e ∈ since, ¬ e.Does .delete key := by
  induction h with
  | nil => exact .inl ⟨⟨entry, ht⟩, List.forall_mem_nil _⟩
  | @cons s t u e es he _ ih =>
    rcases ih ht with ⟨⟨entry', hentry'⟩, hdelete⟩ | ⟨earlier, created, since, rfl, hcreated⟩
    · have hturn := he.turn key
      rw [hentry'] at hturn
      rcases hturn.kept_or_created with ⟨hbefore, hkept⟩ | ⟨-, hcreate, -⟩
      · exact .inl ⟨hbefore, List.forall_mem_cons.mpr ⟨hkept, hdelete⟩⟩
      · exact .inr ⟨[], e, es, rfl, hcreate, hdelete⟩
    · exact .inr ⟨e :: earlier, created, since, rfl, hcreated⟩

end Runs

end RecordService
