import Mathlib.Data.List.DropRight
import RecordService.Proofs.Results
import RecordService.Query

namespace RecordService

namespace Text

variable {cs : List Char}

structure Trims (cs left : List Char) : Prop where
  cut : ∃ before after, cs = before ++ left ++ after ∧ (∀ c ∈ before, isBlank c) ∧
    ∀ c ∈ after, isBlank c
  first : ∀ c ∈ left.head?, ¬ isBlank c
  last : ∀ c ∈ left.getLast?, ¬ isBlank c

theorem trim_eq_rdropWhile (cs : List Char) :
    trim cs = (cs.dropWhile isBlank).rdropWhile isBlank := rfl

theorem head?_dropWhile_not_blank (cs : List Char) :
    ∀ c ∈ (cs.dropWhile isBlank).head?, ¬ isBlank c := by
  induction cs with
  | nil => exact nofun
  | cons c cs ih =>
    by_cases hc : isBlank c
    · rwa [List.dropWhile_cons_of_pos hc]
    · rw [List.dropWhile_cons_of_neg hc]
      rintro _ ⟨⟩
      exact hc

theorem trims_trim (cs : List Char) : Trims cs (trim cs) := by
  have hprefix : trim cs <+: cs.dropWhile isBlank := List.rdropWhile_prefix _ _
  refine ⟨⟨cs.takeWhile isBlank, (cs.dropWhile isBlank).rtakeWhile isBlank, ?_, ?_, ?_⟩, ?_, ?_⟩
  · rw [List.append_assoc, trim_eq_rdropWhile, List.rdropWhile_append_rtakeWhile,
      List.takeWhile_append_dropWhile]
  · exact fun c hc ↦ List.mem_takeWhile_imp hc
  · exact fun c hc ↦ List.mem_rtakeWhile_imp hc
  · intro c hc
    obtain ⟨after, hafter⟩ := hprefix
    refine head?_dropWhile_not_blank cs c ?_
    rw [← hafter, List.head?_append, hc]
    rfl
  · intro c hc
    obtain ⟨hne, rfl⟩ := List.mem_getLast?_eq_getLast hc
    exact List.rdropWhile_last_not _ _ hne

theorem trim_eq_nil_iff : trim cs = [] ↔ ∀ c ∈ cs, isBlank c := by
  rw [trim_eq_rdropWhile, List.rdropWhile_eq_nil_iff]
  constructor
  · intro h c hc
    rw [← List.takeWhile_append_dropWhile (p := isBlank) (l := cs), List.mem_append] at hc
    exact hc.elim List.mem_takeWhile_imp (h c)
  · exact fun h c hc ↦ h c ((List.dropWhile_sublist _).subset hc)

theorem Trims.trim_eq {left : List Char} (h : Trims cs left) : trim left = left := by
  have hfirst : left.dropWhile isBlank = left := by
    cases left with
    | nil => rfl
    | cons c left => exact List.dropWhile_cons_of_neg (h.first c rfl)
  rw [trim_eq_rdropWhile, hfirst, List.rdropWhile_eq_self_iff]
  exact fun hne ↦ h.last _ (List.getLast?_eq_some_getLast hne)

end Text

section Distinct

variable {α : Type} [DecidableEq α] {a : α} {as : List α}

theorem mem_distinct : a ∈ distinct as ↔ a ∈ as := by
  induction as with
  | nil => rfl
  | cons b as ih =>
    rw [distinct, List.mem_cons, List.mem_cons, List.mem_filter, ih]
    by_cases h : a = b <;> simp [h]

structure FirstOccurrences (as kept : List α) : Prop where
  same : ∀ a, a ∈ kept ↔ a ∈ as
  ordered : kept.Pairwise fun a b ↦ as.idxOf a < as.idxOf b

theorem firstOccurrences_distinct (as : List α) : FirstOccurrences as (distinct as) := by
  refine ⟨fun a ↦ mem_distinct, ?_⟩
  induction as with
  | nil => exact .nil
  | cons a as ih =>
    have hlater : ∀ b ∈ (distinct as).filter (· ≠ a),
        (a :: as).idxOf b = (as.idxOf b).succ := by
      intro b hb
      have hne : b ≠ a := of_decide_eq_true (List.mem_filter.mp hb).2
      exact List.idxOf_cons_ne as hne.symm
    refine .cons (fun b hb ↦ ?_) ((ih.filter _).imp_of_mem fun hb hc hlt ↦ ?_)
    · rw [List.idxOf_cons_self, hlater b hb]
      exact Nat.succ_pos _
    · rw [hlater _ hb, hlater _ hc]
      exact Nat.succ_lt_succ hlt

theorem FirstOccurrences.nodup {kept : List α} (h : FirstOccurrences as kept) : kept.Nodup :=
  h.ordered.imp fun hlt heq ↦ absurd (congrArg as.idxOf heq) hlt.ne

theorem distinct_of_nodup (h : as.Nodup) : distinct as = as := by
  induction as with
  | nil => rfl
  | cons a as ih =>
    obtain ⟨hnot, has⟩ := List.nodup_cons.mp h
    rw [distinct, ih has, List.filter_eq_self.mpr]
    intro b hb
    exact decide_eq_true fun heq ↦ hnot (heq ▸ hb)

theorem distinct_distinct (as : List α) : distinct (distinct as) = distinct as :=
  distinct_of_nodup (firstOccurrences_distinct as).nodup

end Distinct

namespace Query

variable {q n : Query} {cap : Int} {text short : Option String} {asked found : Option Int}

section Texts

def Given (text : Option String) : Prop := ∃ s ∈ text, ∃ c ∈ s.toList, ¬ Text.isBlank c

structure Trimmed (text short : Option String) : Prop where
  isSome_iff : short.isSome ↔ Given text
  trims : ∀ s ∈ text, ∀ t ∈ short, Text.Trims s.toList t.toList

theorem nonBlank_some (s : String) : nonBlank (some s) =
    if Text.trim s.toList = [] then none else some (String.ofList (Text.trim s.toList)) := by
  simp only [nonBlank, Option.bind_some, List.isEmpty_iff]

theorem trimmed_nonBlank (text : Option String) : Trimmed text (nonBlank text) := by
  cases text with
  | none => exact ⟨⟨nofun, fun ⟨_, hs, _⟩ ↦ nomatch hs⟩, nofun⟩
  | some s =>
    have hgiven : Given (some s) ↔ Text.trim s.toList ≠ [] := by
      simp [Given, Text.trim_eq_nil_iff]
    rw [nonBlank_some]
    split
    case isTrue hblank => exact ⟨by simp [hgiven, hblank], nofun⟩
    case isFalse hne =>
      refine ⟨by simp [hgiven, hne], ?_⟩
      rintro _ ⟨⟩ _ ⟨⟩
      rw [String.toList_ofList]
      exact Text.trims_trim s.toList

theorem Trimmed.nonBlank_eq (h : Trimmed text short) : nonBlank short = short := by
  cases short with
  | none => rfl
  | some t =>
    obtain ⟨s, hs, c, hc, hblank⟩ := h.isSome_iff.mp rfl
    have htrims := h.trims s hs t rfl
    rw [nonBlank_some, htrims.trim_eq, String.ofList_toList, if_neg]
    intro hnil
    obtain ⟨before, after, hcut, hbefore, hafter⟩ := htrims.cut
    rw [hcut, hnil, List.append_nil, List.mem_append] at hc
    exact hblank (hc.elim (hbefore c) (hafter c))

end Texts

section Forms

inductive Form where
  | named
  | filtered
  | native

def Has (q : Query) : Form → Prop
  | .named => Given q.queryId
  | .filtered => q.filter.isSome
  | .native => Given q.expression

theorem checkForm_iff : q.checkForm = .ok () ↔
    (q.queryId.isSome ∧ ¬ q.filter.isSome ∧ ¬ q.expression.isSome) ∨
      (¬ q.queryId.isSome ∧ q.filter.isSome ∧ ¬ q.expression.isSome) ∨
      (¬ q.queryId.isSome ∧ ¬ q.filter.isSome ∧ q.expression.isSome) := by
  unfold checkForm supplied
  cases q.queryId <;> cases q.filter <;> cases q.expression <;> simp

theorem existsUnique_form {P : Form → Prop} : (∃! form, P form) ↔
    (P .named ∧ ¬ P .filtered ∧ ¬ P .native) ∨ (¬ P .named ∧ P .filtered ∧ ¬ P .native) ∨
      (¬ P .named ∧ ¬ P .filtered ∧ P .native) := by
  constructor
  · rintro ⟨form, hform, honly⟩
    have hnot {other : Form} (hne : other ≠ form) : ¬ P other := fun h ↦ hne (honly other h)
    cases form with
    | named => exact .inl ⟨hform, hnot nofun, hnot nofun⟩
    | filtered => exact .inr (.inl ⟨hnot nofun, hform, hnot nofun⟩)
    | native => exact .inr (.inr ⟨hnot nofun, hnot nofun, hform⟩)
  · rintro (⟨h, h₁, h₂⟩ | ⟨h₁, h, h₂⟩ | ⟨h₁, h₂, h⟩)
    all_goals
      refine ⟨_, h, fun form hform ↦ ?_⟩
      cases form <;> first | rfl | contradiction

end Forms

section Paging

/-- The size of a page that is asked for, under a cap that counts only if it is positive. -/
def capped (cap size : Int) : Int := if 0 < cap then min size cap else size

theorem capped_bounds {size : Int} (h : 0 < size) :
    0 < capped cap size ∧ (0 < cap → capped cap size ≤ cap) := by
  unfold capped
  split <;> omega

theorem capped_capped (cap size : Int) : capped cap (capped cap size) = capped cap size := by
  unfold capped
  split <;> omega

theorem pageSizeWithin_pos {size : Int} (h : 0 < size) :
    pageSizeWithin cap (some size) = .ok (some (capped cap size)) := by
  have hcapped : capped cap size = if 0 < cap ∧ cap < size then cap else size := by
    unfold capped
    split_ifs <;> omega
  rw [pageSizeWithin, if_neg (by omega), if_neg (by omega), hcapped]
  split <;> rfl

theorem pageSizeWithin_eq_ok : pageSizeWithin cap asked = .ok found ↔
    (∀ size ∈ asked, 0 ≤ size) ∧ found = (asked.filter (0 < ·)).map (capped cap) := by
  cases asked with
  | none => simp [pageSizeWithin, eq_comm]
  | some size =>
    rcases Int.lt_trichotomy 0 size with hpos | rfl | hneg
    · simp [pageSizeWithin_pos hpos, Option.filter_some, hpos, Int.le_of_lt hpos, eq_comm]
    · simp [pageSizeWithin, Option.filter_some, eq_comm]
    · simp [pageSizeWithin, hneg, Int.not_le.mpr hneg]

theorem checkedOffset_eq_ok : checkedOffset asked = .ok found ↔
    (∀ start ∈ asked, 0 ≤ start) ∧ found = asked.filter (0 < ·) := by
  cases asked with
  | none => simp [checkedOffset, eq_comm]
  | some start =>
    rcases Int.lt_trichotomy 0 start with hpos | rfl | hneg
    · have hstays : checkedOffset (some start) = .ok (some start) := by
        rw [checkedOffset, if_neg (by omega), if_neg (by omega)]
      simp [hstays, Option.filter_some, hpos, Int.le_of_lt hpos, eq_comm]
    · simp [checkedOffset, Option.filter_some, eq_comm]
    · simp [checkedOffset, hneg, Int.not_le.mpr hneg]

theorem pos_of_mem_filter {start : Int} (h : start ∈ asked.filter (0 < ·)) : 0 < start :=
  of_decide_eq_true (Option.mem_filter_iff.mp h).2

theorem bounds_of_pageSizeWithin (h : pageSizeWithin cap asked = .ok found) :
    ∀ size ∈ found, 0 < size ∧ (0 < cap → size ≤ cap) := by
  obtain ⟨-, rfl⟩ := pageSizeWithin_eq_ok.mp h
  intro size hsize
  obtain ⟨asked, hasked, rfl⟩ := Option.map_eq_some_iff.mp hsize
  exact capped_bounds (pos_of_mem_filter hasked)

theorem pageSizeWithin_again (h : pageSizeWithin cap asked = .ok found) :
    pageSizeWithin cap found = .ok found := by
  obtain ⟨-, rfl⟩ := pageSizeWithin_eq_ok.mp h
  cases hfound : asked.filter (0 < ·) with
  | none => rfl
  | some size =>
    have hpos : 0 < capped cap size := (capped_bounds (pos_of_mem_filter hfound)).1
    rw [Option.map_some, pageSizeWithin_pos hpos, capped_capped]

theorem checkedOffset_again (h : checkedOffset asked = .ok found) :
    checkedOffset found = .ok found := by
  obtain ⟨-, rfl⟩ := checkedOffset_eq_ok.mp h
  cases hfound : asked.filter (0 < ·) with
  | none => rfl
  | some start =>
    have hpos : 0 < start := pos_of_mem_filter hfound
    rw [checkedOffset, if_neg (by omega), if_neg (by omega)]

end Paging

section Normal

structure Acceptable (q : Query) : Prop where
  form : ∃! form, q.Has form
  pageSize : ∀ size ∈ q.pageSize, 0 ≤ size
  offset : ∀ start ∈ q.offset, 0 ≤ start

def trimmed (q : Query) : Query :=
  { q with queryId := nonBlank q.queryId, expression := nonBlank q.expression }

theorem normalize_eq (cap : Int) (q : Query) :
    q.normalize cap = q.trimmed.checkForm >>= fun _ ↦
      pageSizeWithin cap q.pageSize >>= fun pageSize ↦
        checkedOffset q.offset >>= fun offset ↦
          .ok { q.trimmed with pageSize, offset, fields := distinct q.fields } := rfl

def normalForm (cap : Int) (q : Query) : Query :=
  { q.trimmed with
    pageSize := (q.pageSize.filter (0 < ·)).map (capped cap)
    offset := q.offset.filter (0 < ·)
    fields := distinct q.fields }

theorem checkForm_trimmed (q : Query) : q.trimmed.checkForm = .ok () ↔ ∃! form, q.Has form := by
  have hid : q.trimmed.queryId.isSome ↔ Given q.queryId := (trimmed_nonBlank q.queryId).isSome_iff
  have hexpression : q.trimmed.expression.isSome ↔ Given q.expression :=
    (trimmed_nonBlank q.expression).isSome_iff
  rw [checkForm_iff, existsUnique_form, hid, hexpression]
  rfl

theorem normalize_eq_ok : q.normalize cap = .ok n ↔ q.Acceptable ∧ n = q.normalForm cap := by
  simp only [normalize_eq, bind_eq_ok, pageSizeWithin_eq_ok, checkedOffset_eq_ok, Except.ok.injEq]
  constructor
  · rintro ⟨_, hform, _, ⟨hsize, rfl⟩, _, ⟨hoffset, rfl⟩, rfl⟩
    exact ⟨⟨(checkForm_trimmed q).mp hform, hsize, hoffset⟩, rfl⟩
  · rintro ⟨⟨hform, hsize, hoffset⟩, rfl⟩
    exact ⟨(), (checkForm_trimmed q).mpr hform, _, ⟨hsize, rfl⟩, _, ⟨hoffset, rfl⟩, rfl⟩

theorem exists_normalize_iff : (∃ n, q.normalize cap = .ok n) ↔ q.Acceptable := by
  simp only [normalize_eq_ok, exists_and_left, exists_eq, and_true]

/-- A query in normal form has been through all checks. -/
theorem checks_of_normalize (h : q.normalize cap = .ok n) : q.trimmed.checkForm = .ok () ∧
    pageSizeWithin cap q.pageSize = .ok n.pageSize ∧ checkedOffset q.offset = .ok n.offset ∧
    n = { q.trimmed with
      pageSize := n.pageSize
      offset := n.offset
      fields := distinct q.fields } := by
  rw [normalize_eq] at h
  obtain ⟨_, hform, h⟩ := bind_eq_ok.mp h
  obtain ⟨size, hsize, h⟩ := bind_eq_ok.mp h
  obtain ⟨offset, hoffset, h⟩ := bind_eq_ok.mp h
  obtain rfl := Except.ok.inj h
  exact ⟨hform, hsize, hoffset, rfl⟩

theorem normalize_again (h : q.normalize cap = .ok n) : n.normalize cap = .ok n := by
  have htexts (text : Option String) : nonBlank (nonBlank text) = nonBlank text :=
    (trimmed_nonBlank text).nonBlank_eq
  obtain ⟨hform, hsize, hoffset, hn⟩ := checks_of_normalize h
  generalize n.pageSize = size, n.offset = offset at hsize hoffset hn
  subst hn
  simp only [normalize_eq, bind_eq_ok]
  refine ⟨(), ?_, size, pageSizeWithin_again hsize, offset, checkedOffset_again hoffset, ?_⟩
  · simp only [trimmed, htexts]
    exact hform
  · simp only [trimmed, htexts, distinct_distinct]

structure IsNormalForm (cap : Int) (q n : Query) : Prop where
  path : n.path = q.path
  filter : n.filter = q.filter
  sortKeys : n.sortKeys = q.sortKeys
  parameters : n.parameters = q.parameters
  queryId : Trimmed q.queryId n.queryId
  expression : Trimmed q.expression n.expression
  pageSize : ∀ size ∈ n.pageSize, 1 ≤ size ∧ (0 < cap → size ≤ cap)
  /-- A page is as large as it was asked for, up to the cap. -/
  pageSize_asked : n.pageSize = (q.pageSize.filter (0 < ·)).map (capped cap)
  offset : ∀ start ∈ n.offset, 0 < start
  offset_asked : n.offset = q.offset.filter (0 < ·)
  fields : FirstOccurrences q.fields n.fields
  again : n.normalize cap = .ok n

/-- The acceptable queries are those that have a normal form. -/
theorem normalize_iff_acceptable (cap : Int) (q : Query) :
    ((∃ n, q.normalize cap = .ok n) ↔ q.Acceptable) ∧
      ∀ n, q.normalize cap = .ok n → IsNormalForm cap q n := by
  refine ⟨exists_normalize_iff, fun n hn ↦ ?_⟩
  have hagain := normalize_again hn
  obtain ⟨hacceptable, rfl⟩ := normalize_eq_ok.mp hn
  have hsize : pageSizeWithin cap q.pageSize = .ok (q.normalForm cap).pageSize :=
    pageSizeWithin_eq_ok.mpr ⟨hacceptable.pageSize, rfl⟩
  exact {
    path := rfl
    filter := rfl
    sortKeys := rfl
    parameters := rfl
    queryId := trimmed_nonBlank q.queryId
    expression := trimmed_nonBlank q.expression
    pageSize := bounds_of_pageSizeWithin hsize
    pageSize_asked := rfl
    offset := fun start hstart ↦ pos_of_mem_filter hstart
    offset_asked := rfl
    fields := firstOccurrences_distinct q.fields
    again := hagain }

theorem all_ids_normalize :
    let q : Query :=
      { path := ⟨["managed", "user"]⟩
        queryId := some " query-all-ids\n"
        expression := some "\t"
        fields := [⟨["name"]⟩, ⟨["age"]⟩, ⟨["name"]⟩]
        pageSize := some 5000
        offset := some 0 }
    let n : Query :=
      { path := ⟨["managed", "user"]⟩
        queryId := some "query-all-ids"
        fields := [⟨["name"]⟩, ⟨["age"]⟩]
        pageSize := some 1000 }
    q.normalize 1000 = .ok n ∧ q.Acceptable ∧ IsNormalForm 1000 q n := by
  intro q n
  have hn : q.normalize 1000 = .ok n := by rfl
  obtain ⟨hiff, hnormal⟩ := normalize_iff_acceptable 1000 q
  exact ⟨hn, hiff.mp ⟨n, hn⟩, hnormal n hn⟩

end Normal

end Query

end RecordService
