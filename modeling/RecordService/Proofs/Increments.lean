import RecordService.Proofs.Commands
import RecordService.Proofs.Edits
import RecordService.Proofs.Histories
import RecordService.Proofs.Rounding

namespace RecordService

namespace Number

variable {m n : Int}

def In64Bits (n : Int) : Prop := int64Min ≤ n ∧ n ≤ 18446744073709551615

instance (n : Int) : Decidable (In64Bits n) :=
  inferInstanceAs (Decidable (int64Min ≤ n ∧ n ≤ 18446744073709551615))

theorem In64Bits.natAbs_lt (h : In64Bits n) : n.natAbs < 2 ^ 65 := by
  obtain ⟨hmin, hmax⟩ := h
  simp only [int64Min] at hmin
  omega

theorem add?_signed (h : m ≤ int64Max ∧ n ≤ int64Max) : (int m).add? (int n) =
    if int64Min ≤ m + n ∧ m + n ≤ int64Max then some (int (m + n)) else none :=
  if_pos h

theorem add?_unsigned (h : ¬ (m ≤ int64Max ∧ n ≤ int64Max)) (hm : In64Bits m) (hn : In64Bits n) :
    ∃ x, (int m).add? (int n) = some (float x) := by
  have hfloats : (int m).add? (int n) = (Binary64.ofInt? m).bind fun x ↦
      (Binary64.ofInt? n).bind fun y ↦ (x.add? y).map float := if_neg h
  obtain ⟨x, hx, hunits⟩ := Binary64.exists_ofInt? (by omega) hm.natAbs_lt
  obtain ⟨y, hy, hunits'⟩ := Binary64.exists_ofInt? (by omega) hn.natAbs_lt
  obtain ⟨z, hz⟩ := Binary64.exists_add? (by omega) hunits hunits'
  refine ⟨z, ?_⟩
  rw [hfloats, hx, Option.bind_some, hy, Option.bind_some, hz, Option.map_some]

end Number

namespace Json

variable {d d' v w : Json} {ts : List String}

/-- The second value is the first with something else in the place that the tokens lead to. -/
inductive ChangedAt : List String → Json → Json → Prop
  | here (v w : Json) : ChangedAt [] v w
  | field {t : String} {ts : List String} {fields fields' : Dict Json} {v w : Json} :
      Dict.get? t fields = some v → Dict.get? t fields' = some w →
      (∀ name, name ≠ t → Dict.get? name fields' = Dict.get? name fields) → ChangedAt ts v w →
      ChangedAt (t :: ts) (.obj fields) (.obj fields')
  | item {t : String} {ts : List String} {items : List Json} {i : Nat} {v w : Json} :
      Text.index? t = some i → items[i]? = some v → ChangedAt ts v w →
      ChangedAt (t :: ts) (.arr items) (.arr (items.set i w))

/-- Where something is, something else can be written, and this is all that changes. -/
theorem write_present (h : d.lookup? ts = some v) (w : Json) :
    ∃ d', write w ts d = (d', true) ∧ ChangedAt ts d d' ∧ d'.lookup? ts = some w := by
  induction ts generalizing d with
  | nil => exact ⟨w, rfl, .here d w, rfl⟩
  | cons t ts ih =>
    obtain ⟨child, hstep, hchild⟩ := lookup?_cons_eq_some.mp h
    obtain ⟨child', hwrite, hchanged, hread⟩ := ih hchild
    cases d with
    | obj fields =>
      have hget : Dict.get? t fields = some child := hstep
      have hget' := Dict.get?_insert_self t child' fields
      refine ⟨.obj (Dict.insert t child' fields), ?_, ?_, ?_⟩
      · rw [write_cons_obj, hget, Option.getD_some, hwrite]
      · refine .field hget hget' (fun name hname ↦ ?_) hchanged
        exact Dict.get?_insert_of_ne hname child' fields
      · exact lookup?_cons_eq_some.mpr ⟨child', hget', hread⟩
    | arr items =>
      obtain ⟨i, hi, hitem⟩ := Option.bind_eq_some_iff.mp hstep
      refine ⟨.arr (items.set i child'), ?_, .item hi hitem hchanged, ?_⟩
      · rw [write_cons_arr hi hitem, hwrite]
      · refine lookup?_cons_eq_some.mpr ⟨child', ?_, hread⟩
        have hlt : i < items.length := (List.getElem?_eq_some_iff.mp hitem).1
        simp [step?, hi, hlt]
    | _ => cases hstep

theorem Bare.withoutEnvelope_eq (h : v.Bare) : v.withoutEnvelope = v := by
  cases v with
  | obj fields =>
    obtain ⟨hid, hrevision⟩ := h
    rw [field?_obj] at hid hrevision
    rw [withoutEnvelope, Dict.erase_of_get?_eq_none hid, Dict.erase_of_get?_eq_none hrevision]
  | _ => rfl

/-- A number that is put into bare content leaves it bare. -/
theorem ChangedAt.bare {n : Number} (h : ChangedAt ts d d') (hread : d'.lookup? ts = some (.num n))
    (hd : d.Bare) : d'.Bare := by
  cases h with
  | here =>
    cases hread
    exact ⟨rfl, rfl⟩
  | @field t _ fields fields' _ _ hget _ hothers _ =>
    have hkept {key : String} (hkey : Dict.get? key fields = none) :
        Dict.get? key fields' = none := by
      have hne : key ≠ t := by
        intro heq
        rw [heq, hget] at hkey
        cases hkey
      rw [hothers key hne, hkey]
    exact ⟨hkept hd.1, hkept hd.2⟩
  | item => exact ⟨rfl, rfl⟩

end Json

namespace Patch

variable {document : Json} {field : Pointer} {n d : Int} {sum : Number}

/-- An increment writes the sum that numbers have, and nothing else. -/
theorem apply_increment (hn : field.get? document = some (.int n))
    (hsum : (Number.int n).add? (.int d) = some sum) :
    ∃ document', apply [⟨.increment, field, .int d⟩] document = .ok document' ∧
      Json.ChangedAt field.tokens document document' ∧
      field.get? document' = some (.num sum) := by
  obtain ⟨document', hwrite, hchanged, hread⟩ := Json.write_present hn (.num sum)
  have hset : setAt field document (.num sum) = .ok document' := by
    rw [setAt_eq, Pointer.set, Pointer.write, hwrite]
    rfl
  have hsum' : sum? (.int n) (.int d) = some (.num sum) := congrArg (Option.map Json.num) hsum
  refine ⟨document', ?_, hchanged, hread⟩
  rw [apply_cons, Change.increment_eq hn hsum', hset]
  rfl

theorem apply_increment_refused (hn : field.get? document = some (.int n))
    (hsum : (Number.int n).add? (.int d) = none) :
    apply [⟨.increment, field, .int d⟩] document = .error
      (.badRequest ("Cannot increment " ++ field.text ++ " by " ++ (Json.int d).text)) := by
  have hsum' : sum? (.int n) (.int d) = none := congrArg (Option.map Json.num) hsum
  rw [apply_cons, Change.increment_refused hn hsum']
  rfl

end Patch

namespace Store

variable {s : Store} {e : Entry} {revision : Option String} {c : Option Connection}

theorem Reached.bare (h : s.Reached) : ∀ e ∈ s.entries, e.content.Bare := by
  let keeps (_ : Path) (content : Json) : Prop := content.Bare
  have hpreserves (r : Request) : r.Preserves keeps := by
    cases r with
    | create => exact Json.bare_withoutEnvelope _
    | update => exact fun _ _ _ ↦ Json.bare_withoutEnvelope _
    | patch => exact fun _ _ _ d d' _ _ ↦ Json.bare_withoutEnvelope d'
    | _ => trivial
  induction h with
  | empty => exact nofun
  | step accepts c r _ ih => exact (perform_step accepts c r _).preserves (hpreserves r) ih

/-- A patch that asks for no other revision does to an entry what it does to its content. -/
theorem patch_entry (hs : s.Keyed) (he : e ∈ s.entries) (hrev : checkRevision revision e = .ok ())
    (changes : List Patch.Change) :
    s.patch e.path revision changes = match Patch.apply changes e.content with
      | .ok content => (.ok (e.revised content).record, (s.revise e content).2)
      | .error fault => (.error fault, s) := by
  have hentry : s.entryAt e.path = .ok e := entryAt_of_find? (hs.find?_eq he)
  rw [patch, withEntry_of_entryAt hentry hrev, Patch.apply, Patch.written]
  cases Patch.write changes e.content with
  | mk content result => cases result <;> rfl

theorem perform_patch (hs : s.Keyed) (he : e ∈ s.entries) (hc : checkConnection c = .ok ())
    (hrev : checkRevision revision e = .ok ()) {changes : List Patch.Change} {content : Json}
    (hcontent : Patch.apply changes e.content = .ok content) :
    (s.perform c (.patch e.path revision changes)).1 = .ok (e.revised content).record ∧
      ∀ key, (s.perform c (.patch e.path revision changes)).2.get? key =
        if key = e.key then some (e.revised content) else s.get? key := by
  rw [perform_of_open hc, run, s.counted.patch_entry hs he hrev, hcontent]
  have hget : s.counted.get? e.key = some e := hs.get?_of_mem he
  exact ⟨rfl, fun key ↦ get?_revised hget content⟩

theorem perform_patch_refused (hs : s.Keyed) (he : e ∈ s.entries)
    (hc : checkConnection c = .ok ()) (hrev : checkRevision revision e = .ok ())
    {changes : List Patch.Change} {fault : Fault}
    (hfault : Patch.apply changes e.content = .error fault) :
    s.perform c (.patch e.path revision changes) = (.error fault, s.counted) := by
  rw [perform_of_open hc, run, s.counted.patch_entry hs he hrev, hfault]

end Store

section Increments

variable {s : Store} {e : Entry} {field : Pointer} {n d : Int} {revision : Option String}
  {c : Option Connection}

/-- What is to come of an increment: the sum stands in the entry, in which nothing else has changed
but the revision, or the increment is refused and all entries are as they were. -/
inductive ExactOrRefused (s : Store) (e : Entry) (field : Pointer) (sum : Int) :
    Except Fault Record × Store → Prop
  | exact {content : Json} {t : Store} :
      Json.ChangedAt field.tokens e.content content → field.get? content = some (.int sum) →
      (∀ key, t.get? key =
        if key = e.key then some ⟨e.collection, e.id, e.revision + 1, content⟩ else s.get? key) →
      ExactOrRefused s e field sum (.ok ⟨e.id, toString (e.revision + 1), content⟩, t)
  | refused {message : String} {t : Store} : t.entries = s.entries →
      ExactOrRefused s e field sum (.error (.badRequest message), t)

section Reached

variable (hs : s.Reached) (he : e ∈ s.entries) (hc : Store.checkConnection c = .ok ())
  (hrev : Store.checkRevision revision e = .ok ()) (hn : field.get? e.content = some (.int n))
include hs he hc hrev hn

/-- Whatever sum the numbers have, this is what the entry holds then. -/
theorem increment_stores {sum : Number} (hsum : (Number.int n).add? (.int d) = some sum) :
    ∃ content, Json.ChangedAt field.tokens e.content content ∧
      field.get? content = some (.num sum) ∧
      (s.perform c (.patch e.path revision [⟨.increment, field, .int d⟩])).1 =
        .ok ⟨e.id, toString (e.revision + 1), content⟩ ∧
      ∀ key, (s.perform c (.patch e.path revision [⟨.increment, field, .int d⟩])).2.get? key =
        if key = e.key then some ⟨e.collection, e.id, e.revision + 1, content⟩
        else s.get? key := by
  obtain ⟨content, happly, hchanged, hread⟩ := Patch.apply_increment hn hsum
  have hbare : content.withoutEnvelope = content :=
    (hchanged.bare hread (hs.bare e he)).withoutEnvelope_eq
  have hperform := Store.perform_patch hs.keyed he hc hrev happly
  rw [Entry.revised, hbare] at hperform
  exact ⟨content, hchanged, hread, hperform.1, hperform.2⟩

theorem increment_signed (h : n ≤ Number.int64Max ∧ d ≤ Number.int64Max) :
    ExactOrRefused s e field (n + d)
      (s.perform c (.patch e.path revision [⟨.increment, field, .int d⟩])) := by
  have hadd := Number.add?_signed h
  split at hadd
  · obtain ⟨content, hchanged, hread, hanswer, hget⟩ := increment_stores hs he hc hrev hn hadd
    have hexact := ExactOrRefused.exact (s := s) hchanged hread hget
    rwa [← hanswer] at hexact
  · have hrefused := Patch.apply_increment_refused hn hadd
    rw [Store.perform_patch_refused hs.keyed he hc hrev hrefused]
    exact .refused rfl

variable (hn64 : Number.In64Bits n) (hd64 : Number.In64Bits d)
include hn64 hd64

theorem increment_rounded (h : ¬ (n ≤ Number.int64Max ∧ d ≤ Number.int64Max)) :
    ∃ content x, field.get? content = some (.num (.float x)) ∧
      (s.perform c (.patch e.path revision [⟨.increment, field, .int d⟩])).1 =
        .ok ⟨e.id, toString (e.revision + 1), content⟩ := by
  obtain ⟨x, hx⟩ := Number.add?_unsigned h hn64 hd64
  obtain ⟨content, -, hread, hanswer, -⟩ := increment_stores hs he hc hrev hn hx
  exact ⟨content, x, hread, hanswer⟩

theorem increment_answered_iff :
    (∃ record, (s.perform c (.patch e.path revision [⟨.increment, field, .int d⟩])).1 =
        .ok record) ↔
      (n ≤ Number.int64Max ∧ d ≤ Number.int64Max →
        Number.int64Min ≤ n + d ∧ n + d ≤ Number.int64Max) := by
  by_cases hsigned : n ≤ Number.int64Max ∧ d ≤ Number.int64Max
  · have hadd := Number.add?_signed hsigned
    split at hadd
    · rename_i hfits
      obtain ⟨content, -, -, hanswer, -⟩ := increment_stores hs he hc hrev hn hadd
      exact ⟨fun _ _ ↦ hfits, fun _ ↦ ⟨_, hanswer⟩⟩
    · rename_i hexceeds
      have hrefused := Patch.apply_increment_refused hn hadd
      rw [Store.perform_patch_refused hs.keyed he hc hrev hrefused]
      exact ⟨nofun, fun hfits ↦ absurd (hfits hsigned) hexceeds⟩
  · obtain ⟨content, x, -, hanswer⟩ := increment_rounded hs he hc hrev hn hn64 hd64 hsigned
    exact ⟨fun _ h ↦ absurd h hsigned, fun _ ↦ ⟨_, hanswer⟩⟩

/-- Increments are exact or refused just if both integers are signed ones. They are refused only if
the sum of such integers is not. -/
theorem increment_exact_iff :
    (ExactOrRefused s e field (n + d)
        (s.perform c (.patch e.path revision [⟨.increment, field, .int d⟩])) ↔
      n ≤ Number.int64Max ∧ d ≤ Number.int64Max) ∧
    ((∃ record, (s.perform c (.patch e.path revision [⟨.increment, field, .int d⟩])).1 =
        .ok record) ↔
      (n ≤ Number.int64Max ∧ d ≤ Number.int64Max →
        Number.int64Min ≤ n + d ∧ n + d ≤ Number.int64Max)) := by
  refine ⟨⟨fun hexact ↦ ?_, increment_signed hs he hc hrev hn⟩,
    increment_answered_iff hs he hc hrev hn hn64 hd64⟩
  -- What is stored otherwise is a float, and so not the sum of the integers.
  by_contra hbeyond
  obtain ⟨content, x, hread, hanswer⟩ := increment_rounded hs he hc hrev hn hn64 hd64 hbeyond
  generalize s.perform c (.patch e.path revision [⟨.increment, field, .int d⟩]) = outcome
    at hexact hanswer
  cases hexact with
  | exact _ hsum =>
    cases hanswer
    cases hread.symm.trans hsum
  | refused => cases hanswer

end Reached

theorem counter_incremented :
    let c : Option Connection := some ⟨"local-1", false⟩
    let content : Json := .obj [("counts", .arr [.str "x", .int 9223372036854775806])]
    let s := ((Store.empty fun _ ↦ "").perform c (.create ⟨["users"]⟩ (some "p") content)).2
    let e : Entry := ⟨⟨["users"]⟩, "p", 1, content⟩
    let field : Pointer := ⟨["counts", "1"]⟩
    s.Reached ∧ e ∈ s.entries ∧ Store.checkConnection c = .ok () ∧
      Store.checkRevision (some "1") e = .ok () ∧
      field.get? e.content = some (.int 9223372036854775806) ∧
      Number.In64Bits 9223372036854775806 ∧ Number.In64Bits 1 ∧
      (ExactOrRefused s e field (9223372036854775806 + 1)
          (s.perform c (.patch e.path (some "1") [⟨.increment, field, .int 1⟩])) ↔
        9223372036854775806 ≤ Number.int64Max ∧ 1 ≤ Number.int64Max) ∧
      ((∃ record, (s.perform c (.patch e.path (some "1") [⟨.increment, field, .int 1⟩])).1 =
          .ok record) ↔
        (9223372036854775806 ≤ Number.int64Max ∧ 1 ≤ Number.int64Max →
          Number.int64Min ≤ 9223372036854775806 + 1 ∧
            9223372036854775806 + 1 ≤ Number.int64Max)) := by
  intro c content s e field
  have hs : s.Reached := .step .all c _ (.empty _)
  have he : e ∈ s.entries := List.mem_singleton.mpr rfl
  have hc : Store.checkConnection c = .ok () := rfl
  have hrev : Store.checkRevision (some "1") e = .ok () := by decide
  have hn : field.get? e.content = some (.int 9223372036854775806) := rfl
  have hn64 : Number.In64Bits 9223372036854775806 := by decide
  have hd64 : Number.In64Bits 1 := by decide
  exact ⟨hs, he, hc, hrev, hn, hn64, hd64, increment_exact_iff hs he hc hrev hn hn64 hd64⟩

/-- One above the largest signed integer, the next increment stores a float. -/
theorem counter_rounded :
    ¬ ∀ (s : Store) (e : Entry) (field : Pointer) (n d : Int) (revision : Option String)
      (c : Option Connection), s.Reached → e ∈ s.entries → Store.checkConnection c = .ok () →
      Store.checkRevision revision e = .ok () → field.get? e.content = some (.int n) →
      Number.In64Bits n → Number.In64Bits d →
      ExactOrRefused s e field (n + d)
        (s.perform c (.patch e.path revision [⟨.increment, field, .int d⟩])) := by
  intro h
  let c : Option Connection := some ⟨"local-1", false⟩
  let content : Json := .obj [("n", .int 9223372036854775808)]
  let s := ((Store.empty fun _ ↦ "").perform c (.create ⟨["users"]⟩ (some "p") content)).2
  let e : Entry := ⟨⟨["users"]⟩, "p", 1, content⟩
  let field : Pointer := ⟨["n"]⟩
  have hexact := h s e field 9223372036854775808 1 none c (.step .all c _ (.empty _))
    (List.mem_singleton.mpr rfl) rfl rfl rfl (by decide) (by decide)
  -- The sum is rounded to two to the power 63.
  let rounded : Binary64 := ⟨false, 4890909195324358656, by decide⟩
  have hanswer : (s.perform c (.patch e.path none [⟨.increment, field, .int 1⟩])).1.toOption =
      some ⟨"p", "2", .obj [("n", .num (.float rounded))]⟩ := by
    decide +kernel
  generalize s.perform c (.patch e.path none [⟨.increment, field, .int 1⟩]) = outcome
    at hexact hanswer
  cases hexact with
  | exact _ hsum =>
    obtain rfl := congrArg Record.content (Option.some_inj.mp hanswer)
    cases hsum
  | refused => cases hanswer

end Increments

end RecordService
