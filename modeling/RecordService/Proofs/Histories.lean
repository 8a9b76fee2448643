import RecordService.Proofs.Digits
import RecordService.Proofs.Events
import RecordService.Proofs.Search

namespace RecordService

def Json.Bare (v : Json) : Prop := v.field? idField = none ∧ v.field? revisionField = none

theorem Json.bare_withoutEnvelope (v : Json) : v.withoutEnvelope.Bare := by
  cases v with
  | obj fields =>
    have hne : idField ≠ revisionField := by decide
    have hid : Dict.get? idField (Dict.erase revisionField (Dict.erase idField fields)) = none := by
      rw [Dict.get?_erase_of_ne hne, Dict.get?_erase_self]
    exact ⟨hid, Dict.get?_erase_self revisionField _⟩
  | _ => exact ⟨rfl, rfl⟩

section Calls

variable {s t u v : Store} {e : Event} {es : List Event} {key : Path × String} {entry : Entry}

theorem Turn.bare {before after : Option Entry} (h : Turn key before e after)
    (hbare : ∀ entry ∈ before, entry.content.Bare) : ∀ entry ∈ after, entry.content.Bare := by
  cases h with
  | aside => exact hbare
  | read => exact hbare
  | created hentry =>
    intro entry hafter
    rw [← Option.some_inj.mp hafter, hentry]
    exact Json.bare_withoutEnvelope _
  | updated =>
    intro entry hafter
    rw [← Option.some_inj.mp hafter]
    exact Json.bare_withoutEnvelope _
  | patched =>
    intro entry hafter
    rw [← Option.some_inj.mp hafter]
    exact Json.bare_withoutEnvelope _
  | deleted => nofun

theorem Run.bare (h : Run s es t) (hbare : ∀ entry ∈ s.get? key, entry.content.Bare) :
    ∀ entry ∈ t.get? key, entry.content.Bare := by
  induction h with
  | nil => exact hbare
  | cons he _ ih => exact ih ((he.turn key).bare hbare)

theorem Event.Happens.entries_of_refused (h : e.Happens s t) {fault : Fault}
    (hanswer : e.answer = .error fault) : t.entries = s.entries := by
  obtain ⟨accepts, c, hc⟩ := h
  rw [hanswer] at hc
  rcases Store.performFor_cases accepts c e.request s with ⟨_, hrefused⟩ | hrun
  · obtain ⟨-, rfl⟩ := Prod.mk.inj (hrefused.symm.trans hc)
    rfl
  · have hentries : t.entries = s.counted.entries := Store.entries_of_refused (hrun.symm.trans hc)
    exact hentries

theorem Event.Happens.entries_of_looking (h : e.Happens s t)
    (hdeed : e.request.deed = .read ∨ e.request.deed = .search) : t.entries = s.entries := by
  obtain ⟨accepts, c, hc⟩ := h
  have ht : (s.performFor accepts c e.request).2 = t := by rw [hc]
  rw [← ht]
  refine (Store.perform_step accepts c e.request s).untouched fun key ↦ ?_
  cases hr : e.request <;> simp [hr, Request.deed] at hdeed <;> exact id

theorem Event.Happens.get?_elsewhere (h : e.Happens s t) (hkey : ¬ e.Writes key) :
    t.get? key = s.get? key :=
  (h.turn key).unwritten hkey

/-- What a row of events leaves behind in a store that was empty before. -/
structure Store.Accounted (es : List Event) (s : Store) : Prop where
  /-- A revision is one more than the updates and patches since the entry was created. -/
  counted : ∀ entry ∈ s.entries, ∃ earlier created since, es = earlier ++ created :: since ∧
    created.Does .create entry.key ∧
    (∀ e ∈ since, ¬ e.Does .create entry.key ∧ ¬ e.Does .delete entry.key) ∧
    entry.revision = 1 + since.countP (·.Does .revise entry.key)
  bare : ∀ entry ∈ s.entries, entry.content.Bare

structure Event.Confined (s : Store) (e : Event) (t : Store) : Prop where
  refused : ∀ fault, e.answer = .error fault → t.entries = s.entries
  looking : e.request.deed = .read ∨ e.request.deed = .search → t.entries = s.entries
  /-- No entry changes but the one that was written. -/
  elsewhere : ∀ key, ¬ e.Writes key → t.get? key = s.get? key
  /-- The answer names the entry as it is after the event, or was before it was deleted. -/
  answered : ∀ key, e.key? = some key → ∃ record entry, e.record? = some record ∧
    (if e.request.deed = .delete then s else t).get? key = some entry ∧
    record.id = entry.id ∧ record.revision = toString entry.revision
  found : ∀ client q page, e = ⟨client, .query q, .ok page⟩ → ∀ record ∈ page.records,
    ∃ entry ∈ s.entries, record.id = entry.id ∧ record.revision = toString entry.revision

theorem Run.counted {mint : Nat → String} (h : Run (.empty mint) es s)
    (hentry : s.get? key = some entry) :
    ∃ earlier created since, es = earlier ++ created :: since ∧ created.Does .create key ∧
      (∀ e ∈ since, ¬ e.Does .create key ∧ ¬ e.Does .delete key) ∧
      entry.revision = 1 + since.countP (·.Does .revise key) := by
  rcases h.kept_or_created hentry with
    ⟨⟨_, hempty⟩, -⟩ | ⟨earlier, created, since, rfl, hcreate, hdelete⟩
  · cases hempty
  · obtain ⟨t, -, hrest⟩ := h.append_inv
    cases hrest with
    | cons hcreated hsince =>
      obtain ⟨first, hfirst, hone⟩ := (hcreated.turn key).exists_created hcreate
      obtain ⟨hcreates, last, hlast, hrevision, -⟩ := hsince.kept hfirst hdelete
      obtain rfl := Option.some_inj.mp (hentry.symm.trans hlast)
      refine ⟨earlier, created, since, rfl, hcreate, fun e he ↦ ⟨hcreates e he, hdelete e he⟩, ?_⟩
      rw [hrevision, hone]

theorem Event.Happens.found {q : Query} {page : Page} {client : String}
    (h : Event.Happens s ⟨client, .query q, .ok page⟩ t) :
    ∀ record ∈ page.records,
      ∃ entry ∈ s.entries, record.id = entry.id ∧ record.revision = toString entry.revision := by
  obtain ⟨accepts, c, hc⟩ := h
  have hanswer := Store.fst_performFor_query accepts c q s
  rw [hc] at hanswer
  obtain ⟨_, -, hquery⟩ := bind_eq_ok.mp hanswer.symm
  obtain ⟨filter, hfilter, -⟩ := bind_eq_ok.mp hquery
  rw [Store.query_eq_takenBy s accepts hfilter] at hquery
  obtain rfl := Except.ok.inj hquery
  intro record hrecord
  obtain ⟨entry, hentry, rfl⟩ := Query.exists_of_mem_pageOf (Page.mem_of_mem_takenBy hrecord)
  exact ⟨entry, (Store.mem_matching.mp hentry).1, rfl, rfl⟩

/-- Calls that are refused change nothing, all others at most the entry that they are about; and
every revision, stored or answered, counts the changes since its entry was created. -/
theorem accounted_and_confined {mint : Nat → String} (hrun : Run (.empty mint) es s) :
    s.Accounted es ∧ ∀ (e : Event) (t : Store), e.Happens s t → e.Confined s t := by
  have hkeyed : s.Keyed := (hrun.reached (.empty mint)).keyed
  refine ⟨⟨fun entry hentry ↦ hrun.counted (hkeyed.get?_of_mem hentry), fun entry hentry ↦ ?_⟩,
    fun e t he ↦ ⟨fun fault ↦ he.entries_of_refused, he.entries_of_looking,
      fun key ↦ he.get?_elsewhere, fun key hkey ↦ ?_, ?_⟩⟩
  · exact hrun.bare nofun entry (hkeyed.get?_of_mem hentry)
  · obtain ⟨record, entry, hrecord, hentry, hid, hrevision, -⟩ := (he.turn key).answered hkey
    refine ⟨record, entry, hrecord, ?_, hid, hrevision⟩
    rw [← hentry]
    split <;> rfl
  · rintro client q page rfl
    exact he.found

theorem accounted_and_confined_after_update :
    let c : Option Connection := some ⟨"local-1", false⟩
    let created : Event := ⟨"alice",
      .create ⟨["users"]⟩ (some "p") (.obj [("_id", .str "x"), ("n", .int 1)]),
      .ok ⟨"p", "1", .obj [("n", .int 1)]⟩⟩
    let updated : Event := ⟨"bob", .update ⟨["users", "p"]⟩ (some "1") (.obj [("n", .int 2)]),
      .ok ⟨"p", "2", .obj [("n", .int 2)]⟩⟩
    let es := [created, updated]
    let s := (((Store.empty fun _ ↦ "").perform c created.request).2.perform c updated.request).2
    Run (.empty fun _ ↦ "") es s ∧
      s.Accounted es ∧ ∀ (e : Event) (t : Store), e.Happens s t → e.Confined s t := by
  intro c created updated es s
  have hrun : Run (.empty fun _ ↦ "") es s := .cons ⟨.all, c, rfl⟩ (.cons ⟨.all, c, rfl⟩ (.nil s))
  exact ⟨hrun, accounted_and_confined hrun⟩

end Calls

section Expectations

variable {s t u v : Store} {key : Path × String} {given write : Event} {between : List Event}
  {record : Record}

theorem toString_ne_star (n : Nat) : toString n ≠ "*" := by
  intro h
  have hmem : '*' ∈ Nat.toDigits 10 n := by simp [toDigits_of_toString h]
  have hdigit : '*'.isDigit := Nat.isDigit_of_mem_toDigits (by omega) (by omega) hmem
  exact absurd hdigit (by decide)

theorem Event.Happens.exists_told (h : given.Happens s t) (htold : given.Tells key record) :
    ∃ entry, t.get? key = some entry ∧ record = entry.record := by
  obtain ⟨hall, hkey, hrecord⟩ := htold
  obtain ⟨record', entry, hrecord', hentry, -, -, hcontent⟩ := (h.turn key).answered hkey
  obtain rfl := Option.some_inj.mp (hrecord.symm.trans hrecord')
  have hdeed : given.request.deed ≠ .delete := by
    cases hr : given.request <;> simp [hr, Request.tellsContent, Request.deed] at hall ⊢
  rw [if_neg hdeed] at hentry
  exact ⟨entry, hentry, hcontent hall⟩

/-- Who writes to an entry expecting the revision that some client was told finds the content that
client was told, with no write to the entry in between, just if nobody deleted it in between. -/
theorem write_unspoilt_iff (hgiven : given.Happens s t) (htold : given.Tells key record)
    (hbetween : Run t between u) (hwrite : write.Happens u v) (hwrites : write.Writes key)
    (hexpected : write.request.expected? = some record.revision) :
    ((u.get? key).map (·.content) = some record.content ∧ ∀ e ∈ between, ¬ e.Writes key) ↔
      ∀ e ∈ between, ¬ e.Does .delete key := by
  constructor
  · intro ⟨_, hunwritten⟩ e he hdelete
    exact hunwritten e he (Event.writes_iff.mpr (.inr (.inr hdelete)))
  · intro hdelete
    obtain ⟨entry, hentry, rfl⟩ := hgiven.exists_told htold
    obtain ⟨hcreates, entry', hentry', hcount, hsame⟩ := hbetween.kept hentry hdelete
    obtain ⟨entry'', hentry'', hmatches⟩ := (hwrite.turn key).expected hwrites.2 hexpected
    obtain rfl := Option.some_inj.mp (hentry'.symm.trans hentry'')
    have hrevision : entry'.revision = entry.revision := by
      rcases hmatches with hstar | hsame
      · exact absurd hstar (toString_ne_star _)
      · exact (toString_injective hsame).symm
    -- The revision is the one that was told and counts what revised the entry, so nothing did.
    have hnone : between.countP (·.Does .revise key) = 0 := by omega
    refine ⟨by rw [hentry', hsame hrevision]; rfl, fun e he hwritten ↦ ?_⟩
    rcases Event.writes_iff.mp hwritten with hcreate | hrevise | hdeleted
    · exact hcreates e he hcreate
    · have hcounted := List.countP_eq_zero.mp hnone e he
      simp [hrevise] at hcounted
    · exact hdelete e he hdeleted

theorem alice_update_unspoilt :
    let c : Option Connection := some ⟨"local-1", false⟩
    let created : Event := ⟨"alice",
      .create ⟨["users"]⟩ (some "p") (.obj [("n", .int 1)]), .ok ⟨"p", "1", .obj [("n", .int 1)]⟩⟩
    let read : Event := ⟨"bob", .read ⟨["users", "p"]⟩ [], .ok ⟨"p", "1", .obj [("n", .int 1)]⟩⟩
    let other : Event := ⟨"bob",
      .create ⟨["users"]⟩ (some "q") (.obj []), .ok ⟨"q", "1", .obj []⟩⟩
    let write : Event := ⟨"alice", .update ⟨["users", "p"]⟩ (some "1") (.obj [("n", .int 3)]),
      .ok ⟨"p", "2", .obj [("n", .int 3)]⟩⟩
    let s := Store.empty fun _ ↦ ""
    let t := (s.perform c created.request).2
    let u := ((t.perform c read.request).2.perform c other.request).2
    let v := (u.perform c write.request).2
    let key : Path × String := (⟨["users"]⟩, "p")
    created.Happens s t ∧ created.Tells key ⟨"p", "1", .obj [("n", .int 1)]⟩ ∧
      Run t [read, other] u ∧ write.Happens u v ∧ write.Writes key ∧
      write.request.expected? = some "1" ∧
      (((u.get? key).map (·.content) = some (.obj [("n", .int 1)]) ∧
          ∀ e ∈ [read, other], ¬ e.Writes key) ↔
        ∀ e ∈ [read, other], ¬ e.Does .delete key) := by
  intro c created read other write s t u v key
  have hgiven : created.Happens s t := ⟨.all, c, rfl⟩
  have htold : created.Tells key ⟨"p", "1", .obj [("n", .int 1)]⟩ := ⟨rfl, rfl, rfl⟩
  have hbetween : Run t [read, other] u := .cons ⟨.all, c, rfl⟩ (.cons ⟨.all, c, rfl⟩ (.nil u))
  have hwrite : write.Happens u v := ⟨.all, c, rfl⟩
  have hwrites : write.Writes key := ⟨nofun, rfl⟩
  exact ⟨hgiven, htold, hbetween, hwrite, hwrites, rfl,
    write_unspoilt_iff hgiven htold hbetween hwrite hwrites rfl⟩

/-- An entry that is deleted and created anew has its first revision again, and is overwritten by a
client that was told of the entry before it. -/
theorem recreated_overwritten :
    ¬ ∀ (s t u v : Store) (key : Path × String) (given write : Event) (between : List Event)
      (record : Record), s.Reached → given.Happens s t → given.Tells key record →
      Run t between u → write.Happens u v → write.Writes key →
      write.request.expected? = some record.revision →
      (u.get? key).map (·.content) = some record.content ∧
        ∀ e ∈ between, e.client ≠ given.client → ¬ e.Writes key := by
  intro h
  let c : Option Connection := some ⟨"local-1", false⟩
  let created : Event := ⟨"alice",
    .create ⟨["users"]⟩ (some "p") (.obj [("n", .int 1)]), .ok ⟨"p", "1", .obj [("n", .int 1)]⟩⟩
  let deleted : Event := ⟨"bob",
    .delete ⟨["users", "p"]⟩ none, .ok ⟨"p", "1", .obj [("n", .int 1)]⟩⟩
  let recreated : Event := ⟨"bob",
    .create ⟨["users"]⟩ (some "p") (.obj [("n", .int 2)]), .ok ⟨"p", "1", .obj [("n", .int 2)]⟩⟩
  let write : Event := ⟨"alice", .update ⟨["users", "p"]⟩ (some "1") (.obj [("n", .int 3)]),
    .ok ⟨"p", "2", .obj [("n", .int 3)]⟩⟩
  let s := Store.empty fun _ ↦ ""
  let t := (s.perform c created.request).2
  let u := ((t.perform c deleted.request).2.perform c recreated.request).2
  let key : Path × String := (⟨["users"]⟩, "p")
  have hbetween : Run t [deleted, recreated] u :=
    .cons ⟨.all, c, rfl⟩ (.cons ⟨.all, c, rfl⟩ (.nil u))
  have hlost := h s t u (u.perform c write.request).2 key created write [deleted, recreated]
    ⟨"p", "1", .obj [("n", .int 1)]⟩ (.empty _) ⟨.all, c, rfl⟩ ⟨rfl, rfl, rfl⟩ hbetween
    ⟨.all, c, rfl⟩ ⟨nofun, rfl⟩ rfl
  have hcontent : (u.get? key).map (·.content) = some (.obj [("n", .int 2)]) := rfl
  exact absurd (hcontent.symm.trans hlost.1) (by decide)

end Expectations

end RecordService
