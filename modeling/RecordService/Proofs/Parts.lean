import RecordService.Proofs.JsonText
import RecordService.Proofs.Selection

namespace RecordService

namespace Json

variable {part whole v w x : Json} {t : String} {ts us ps : List String} {items : List Json}
  {fields : Dict Json}

theorem Orderly.step (h : v.Orderly) (hstep : v.step? t = some w) : w.Orderly := by
  cases h with
  | arr hitems =>
    obtain ⟨i, -, hitem⟩ := Option.bind_eq_some_iff.mp hstep
    exact hitems w (List.mem_of_getElem? hitem)
  | obj _ hfields => exact hfields (t, w) (Dict.mem_of_get? hstep)
  | _ => cases hstep

/-- The empty object holds nothing but itself. -/
theorem isObject_of_empty (h : (obj []).lookup? ts = some v) : v.isObject := by
  cases ts <;> cases h
  rfl

/-- What stands at a place can be written there, and changes nothing. -/
theorem Orderly.write_own (h : v.Orderly) (hw : v.lookup? ts = some w) :
    write w ts v = (v, true) := by
  induction ts generalizing v with
  | nil =>
    cases hw
    rfl
  | cons t ts ih =>
    obtain ⟨child, hstep, hw⟩ := lookup?_cons_eq_some.mp hw
    have hchild := ih (h.step hstep) hw
    cases h with
    | obj hsorted =>
      have hget : Dict.get? t _ = some child := hstep
      rw [write_cons_obj, hget, Option.getD_some, hchild, hsorted.insert_own hget]
    | arr =>
      obtain ⟨i, hi, hitem⟩ := Option.bind_eq_some_iff.mp hstep
      obtain ⟨hlt, hitem'⟩ := List.getElem?_eq_some_iff.mp hitem
      rw [write_cons_arr hi hitem, hchild, ← hitem', List.set_getElem_self]
    | _ => cases hstep

/-- Wherever something is in the part, it is in the whole; only objects may have fields less. -/
def PartOf (part whole : Json) : Prop :=
  ∀ ts v, part.lookup? ts = some v → ∃ w, whole.lookup? ts = some w ∧ (v = w ∨ v.isObject)

namespace PartOf

theorem refl (v : Json) : PartOf v v := fun _ w h ↦ ⟨w, h, .inl rfl⟩

theorem empty (whole : Json) : PartOf (.obj []) whole := by
  intro ts v h
  cases ts with
  | nil =>
    cases h
    exact ⟨whole, rfl, .inr rfl⟩
  | cons t ts => cases h

theorem eq (h : PartOf part whole) (hpart : ¬ part.isObject) : part = whole := by
  obtain ⟨w, hw, heq | hobject⟩ := h [] part rfl
  · rw [heq]
    exact (Option.some_inj.mp hw).symm
  · exact absurd hobject hpart

theorem step (h : PartOf part whole) (hstep : part.step? t = some v) :
    ∃ w, whole.step? t = some w ∧ PartOf v w := by
  obtain ⟨w, hw, -⟩ := h [t] v (lookup?_cons_eq_some.mpr ⟨v, hstep, rfl⟩)
  obtain ⟨child, hchild, hw⟩ := lookup?_cons_eq_some.mp hw
  obtain rfl := Option.some_inj.mp hw
  refine ⟨child, hchild, fun ts x hx ↦ ?_⟩
  obtain ⟨y, hy, hxy⟩ := h (t :: ts) x (lookup?_cons_eq_some.mpr ⟨v, hstep, hx⟩)
  obtain ⟨child', hchild', hy⟩ := lookup?_cons_eq_some.mp hy
  obtain rfl := Option.some_inj.mp (hchild.symm.trans hchild')
  exact ⟨y, hy, hxy⟩

theorem obj (h : ∀ t v, Dict.get? t fields = some v → ∃ w, whole.step? t = some w ∧ PartOf v w) :
    PartOf (.obj fields) whole := by
  intro ts v hv
  cases ts with
  | nil =>
    cases hv
    exact ⟨whole, rfl, .inr rfl⟩
  | cons t ts =>
    obtain ⟨child, hchild, hv⟩ := lookup?_cons_eq_some.mp hv
    obtain ⟨w, hw, hpart⟩ := h t child hchild
    obtain ⟨y, hy, hvy⟩ := hpart ts v hv
    exact ⟨y, lookup?_cons_eq_some.mpr ⟨w, hw, hy⟩, hvy⟩

/-- What a part has, or will have, in one of its fields is a part of what the whole has there. -/
theorem child (h : PartOf (.obj fields) whole) (hw : whole.step? t = some w) :
    PartOf ((Dict.get? t fields).getD (.obj [])) w := by
  cases hget : Dict.get? t fields with
  | none => exact empty w
  | some v =>
    obtain ⟨w', hw', hpart⟩ := h.step (t := t) hget
    obtain rfl := Option.some_inj.mp (hw.symm.trans hw')
    exact hpart

end PartOf

/-- How a place of the whole, and what the whole has there, is met in a part: the part leads to the
place through objects until it is there or goes on like the whole. -/
inductive Fits (v : Json) : List String → Json → Json → Prop
  | here {part : Json} : v.Orderly → PartOf part v → Fits v [] part v
  | whole {ts : List String} {whole : Json} : whole.Orderly → whole.lookup? ts = some v →
      Fits v ts whole whole
  | field {t : String} {ts : List String} {fields : Dict Json} {whole child : Json} :
      PartOf (.obj fields) whole → whole.step? t = some child →
      Fits v ts ((Dict.get? t fields).getD (.obj [])) child → Fits v (t :: ts) (.obj fields) whole

theorem PartOf.fits (h : PartOf part whole) (hwhole : whole.Orderly)
    (hv : whole.lookup? ts = some v) : Fits v ts part whole := by
  induction ts generalizing part whole with
  | nil =>
    obtain rfl := Option.some_inj.mp hv
    exact .here hwhole h
  | cons t ts ih =>
    cases part with
    | obj fields =>
      obtain ⟨child, hstep, hchild⟩ := lookup?_cons_eq_some.mp hv
      exact .field h hstep (ih (h.child hstep) (hwhole.step hstep) hchild)
    | _ =>
      obtain rfl := h.eq nofun
      exact .whole hwhole hv

namespace Fits

theorem lookup (h : Fits v ts part whole) : whole.lookup? ts = some v := by
  induction h with
  | here => rfl
  | whole _ h => exact h
  | field _ hstep _ ih => exact lookup?_cons_eq_some.mpr ⟨_, hstep, ih⟩

theorem write_done (h : Fits v ts part whole) : (write v ts part).2 = true := by
  induction h with
  | here => rfl
  | whole hwhole h => rw [hwhole.write_own h]
  | field _ _ _ ih => rwa [write_cons_obj]

theorem partOf_write (h : Fits v ts part whole) : PartOf (write v ts part).1 whole := by
  induction h with
  | here => exact .refl v
  | whole hwhole h =>
    rw [hwhole.write_own h]
    exact .refl _
  | @field t ts fields whole child hpart hstep _ ih =>
    rw [write_cons_obj]
    refine .obj fun name x hx ↦ ?_
    have hx := (get?_grow v t ts fields name).symm.trans hx
    split at hx
    · subst_vars
      cases hx
      exact ⟨child, hstep, ih⟩
    · exact hpart.step (t := name) hx

theorem lookup_write (h : Fits v ts part whole) : (write v ts part).1.lookup? ts = some v := by
  induction h with
  | here => rfl
  | whole hwhole h => rwa [hwhole.write_own h]
  | @field t ts fields whole child _ _ _ ih =>
    rw [write_cons_obj]
    exact lookup?_cons_eq_some.mpr ⟨_, Dict.get?_insert_self t _ fields, ih⟩

theorem write_again (h : Fits v ts part whole) :
    (write v ts (write v ts part).1).1 = (write v ts part).1 := by
  induction h with
  | here => rfl
  | whole hwhole h => rw [hwhole.write_own h, hwhole.write_own h]
  | @field t ts fields whole child _ _ _ ih =>
    rw [write_cons_obj, write_cons_obj, Dict.get?_insert_self, Option.getD_some, ih,
      Dict.insert_insert]

/-- What is written at two places does not depend on which of them comes first. -/
theorem write_comm (h : Fits v ts part whole) (h' : Fits w us part whole) :
    (write v ts (write w us part).1).1 = (write w us (write v ts part).1).1 := by
  induction h generalizing us with
  | here hv =>
    have hw : write w us v = (v, true) := hv.write_own h'.lookup
    simp [write, hw]
  | whole hwhole h =>
    rw [hwhole.write_own h, hwhole.write_own h'.lookup, hwhole.write_own h]
  | @field t ts fields whole child hpart hstep hfits ih =>
    have hv := (Fits.field hpart hstep hfits).lookup
    cases h' with
    | here hw =>
      have hv : write v (t :: ts) w = (w, true) := hw.write_own hv
      simp [write, hv]
    | whole hwhole hw => rw [hwhole.write_own hv, hwhole.write_own hw, hwhole.write_own hv]
    | @field u us _ _ child' _ hstep' hfits' =>
      simp only [write_cons_obj]
      -- Either both places lie below this field, or they part here.
      by_cases heq : t = u
      · subst heq
        obtain rfl := Option.some_inj.mp (hstep.symm.trans hstep')
        simp only [Dict.get?_insert_self, Option.getD_some, Dict.insert_insert]
        rw [ih hfits']
      · rw [Dict.get?_insert_of_ne heq, Dict.get?_insert_of_ne (Ne.symm heq),
          Dict.insert_comm heq]

/-- Apart from objects, a write adds nothing but what lies at or below its place. -/
theorem lookup_write_inv (h : Fits v ts part whole)
    (hx : (write v ts part).1.lookup? ps = some x) (hobject : ¬ x.isObject) :
    ts <+: ps ∨ part.lookup? ps = some x := by
  induction h generalizing ps with
  | here => exact .inl List.nil_prefix
  | whole hwhole h =>
    rw [hwhole.write_own h] at hx
    exact .inr hx
  | @field t ts fields whole child _ _ _ ih =>
    rw [write_cons_obj] at hx
    cases ps with
    | nil =>
      cases hx
      exact absurd rfl hobject
    | cons p ps =>
      obtain ⟨y, hy, hx⟩ := lookup?_cons_eq_some.mp hx
      have hy := (get?_grow v t ts fields p).symm.trans hy
      split at hy
      case isFalse => exact .inr (lookup?_cons_eq_some.mpr ⟨y, hy, hx⟩)
      case isTrue heq =>
        subst heq
        cases hy
        obtain hprefix | hpart := ih hx
        · exact .inl (List.cons_prefix_cons.mpr ⟨rfl, hprefix⟩)
        · cases hget : Dict.get? p fields with
          | some z =>
            rw [hget] at hpart
            exact .inr (lookup?_cons_eq_some.mpr ⟨z, hget, hpart⟩)
          | none =>
            -- The write began with an empty object here.
            rw [hget] at hpart
            exact absurd (isObject_of_empty hpart) hobject

end Fits

section Picking

variable {content : Json} {field other : Pointer} {names others : List Pointer}

theorem pick_found (hin : field.InContent) (hv : field.get? content = some v) (part : Json) :
    content.pick part field = (write v field.tokens part).1 := by
  have hname : ¬ (field.first? = some idField ∨ field.first? = some revisionField) :=
    not_or.mpr hin
  simp [pick, hname, hv, Pointer.write]

/-- Selecting a field does nothing, or writes what the content has there. -/
theorem pick_eq (content : Json) (field : Pointer) :
    (∀ part, content.pick part field = part) ∨
      ∃ v, field.get? content = some v ∧
        ∀ part, content.pick part field = (write v field.tokens part).1 := by
  by_cases hin : field.InContent
  · cases hv : field.get? content with
    | none => exact .inl fun part ↦ by simp [pick, hv]
    | some v => exact .inr ⟨v, rfl, pick_found hin hv⟩
  · exact .inl (pick_envelope hin)

variable (hcontent : content.Orderly)
include hcontent

theorem PartOf.pick (h : PartOf part content) (field : Pointer) :
    PartOf (content.pick part field) content := by
  obtain hnone | ⟨v, hv, hpick⟩ := pick_eq content field
  · rwa [hnone]
  · rw [hpick]
    exact (h.fits hcontent hv).partOf_write

theorem PartOf.foldl_pick (h : PartOf part content) (names : List Pointer) :
    PartOf (names.foldl content.pick part) content := by
  induction names generalizing part with
  | nil => exact h
  | cons field names ih => exact ih (h.pick hcontent field)

theorem PartOf.pick_again (h : PartOf part content) (field : Pointer) :
    content.pick (content.pick part field) field = content.pick part field := by
  obtain hnone | ⟨v, hv, hpick⟩ := pick_eq content field
  · simp only [hnone]
  · simp only [hpick]
    exact (h.fits hcontent hv).write_again

theorem PartOf.pick_comm (h : PartOf part content) (field other : Pointer) :
    content.pick (content.pick part field) other =
      content.pick (content.pick part other) field := by
  obtain hnone | ⟨v, hv, hpick⟩ := pick_eq content field
  · simp only [hnone]
  obtain hnone | ⟨w, hw, hpick'⟩ := pick_eq content other
  · simp only [hnone]
  simp only [hpick, hpick']
  exact ((h.fits hcontent hw).write_comm (h.fits hcontent hv))

/-- A field that is selected later need not be selected before. -/
theorem PartOf.foldl_pick_mem (h : PartOf part content) (hmem : field ∈ names) :
    names.foldl content.pick (content.pick part field) = names.foldl content.pick part := by
  induction names generalizing part with
  | nil => cases hmem
  | cons other names ih =>
    simp only [List.foldl_cons]
    by_cases heq : field = other
    · rw [heq, h.pick_again hcontent]
    · have hrest : field ∈ names := List.mem_of_ne_of_mem heq hmem
      rw [h.pick_comm hcontent]
      exact ih (h.pick hcontent other) hrest

theorem PartOf.foldl_pick_subset (h : PartOf part content)
    (hsub : ∀ field ∈ others, field ∈ names) :
    names.foldl content.pick (others.foldl content.pick part) = names.foldl content.pick part := by
  induction others generalizing part with
  | nil => rfl
  | cons other others ih =>
    obtain ⟨hother, hothers⟩ := List.forall_mem_cons.mp hsub
    rw [List.foldl_cons, ih (h.pick hcontent other) hothers, h.foldl_pick_mem hcontent hother]

theorem PartOf.foldl_pick_comm (h : PartOf part content) (names others : List Pointer) :
    names.foldl content.pick (others.foldl content.pick part) =
      others.foldl content.pick (names.foldl content.pick part) := by
  have hone (field : Pointer) : ∀ {part}, PartOf part content →
      names.foldl content.pick (content.pick part field) =
        content.pick (names.foldl content.pick part) field := by
    induction names with
    | nil => exact fun _ ↦ rfl
    | cons other names ih =>
      intro part hpart
      have hnext := hpart.pick hcontent other
      rw [List.foldl_cons, List.foldl_cons, hpart.pick_comm hcontent, ih hnext]
  induction others generalizing part with
  | nil => rfl
  | cons other others ih =>
    rw [List.foldl_cons, List.foldl_cons, ih (h.pick hcontent other), hone other h]

/-- Only which fields are selected counts. -/
theorem PartOf.foldl_pick_congr (h : PartOf part content)
    (hsame : ∀ field, field ∈ others ↔ field ∈ names) :
    others.foldl content.pick part = names.foldl content.pick part := by
  rw [← h.foldl_pick_subset hcontent fun field ↦ (hsame field).mpr, h.foldl_pick_comm hcontent,
    h.foldl_pick_subset hcontent fun field ↦ (hsame field).mp]

end Picking

section Selecting

variable {content v : Json} {field : Pointer} {names others : List Pointer}

/-- A selection from the content holds what the named fields lead to, all of it and nothing else. -/
structure ExactSelection (content : Json) (names : List Pointer) : Prop where
  /-- Every field that leads somewhere can be written to what has been selected before it. -/
  room : ∀ before field after v, names = before ++ field :: after → field.InContent →
    field.get? content = some v → field.set (before.foldl content.pick (.obj [])) v =
      .ok ((before ++ [field]).foldl content.pick (.obj []))
  reads : ∀ field ∈ names, field.InContent → field.get? (content.select names) = field.get? content
  nothingElse : ∀ p v, Pointer.get? p (content.select names) = some v → ¬ v.isObject →
    p.get? content = some v ∧ ∃ field ∈ names, field.tokens <+: p.tokens
  unordered : ∀ others, (∀ field, field ∈ others ↔ field ∈ names) →
    content.select others = content.select names
  normalized : ∀ cap q normal, Query.normalize cap q = .ok normal → q.fields = names →
    content.select normal.fields = content.select names

section Exact

variable (hcontent : content.Orderly)
include hcontent

theorem set_foldl_pick (before : List Pointer) (hin : field.InContent)
    (hv : field.get? content = some v) :
    field.set (before.foldl content.pick (.obj [])) v =
      .ok ((before ++ [field]).foldl content.pick (.obj [])) := by
  have hpart := (PartOf.empty content).foldl_pick hcontent before
  have hdone := (hpart.fits hcontent hv).write_done
  rw [List.foldl_append, List.foldl_cons, List.foldl_nil, pick_found hin hv]
  exact Pointer.set_of_done hdone

theorem lookup_foldl_pick (hmem : field ∈ names) (hin : field.InContent) :
    field.get? (names.foldl content.pick (.obj [])) = field.get? content := by
  have hpart := (PartOf.empty content).foldl_pick hcontent names
  cases hv : field.get? content with
  | none =>
    cases hx : field.get? (names.foldl content.pick (.obj [])) with
    | none => rfl
    | some x =>
      obtain ⟨w, hw, -⟩ := hpart field.tokens x hx
      cases hv.symm.trans hw
  | some v =>
    -- The field may as well be selected once more, after all others.
    have hsame : ∀ other, other ∈ names ↔ other ∈ names ++ [field] := by
      intro other
      simp only [List.mem_append, List.mem_singleton]
      exact ⟨.inl, fun h ↦ h.elim id fun heq ↦ heq ▸ hmem⟩
    rw [(PartOf.empty content).foldl_pick_congr hcontent hsame, List.foldl_append, List.foldl_cons,
      List.foldl_nil, pick_found hin hv]
    exact (hpart.fits hcontent hv).lookup_write

theorem lookup_foldl_pick_inv {ps : List String} {x : Json} (hpart : PartOf part content)
    (hx : (names.foldl content.pick part).lookup? ps = some x) (hobject : ¬ x.isObject) :
    (∃ field ∈ names, field.tokens <+: ps) ∨ part.lookup? ps = some x := by
  induction names generalizing part with
  | nil => exact .inr hx
  | cons field names ih =>
    obtain ⟨other, hother, hprefix⟩ | hx := ih (hpart.pick hcontent field) hx
    · exact .inl ⟨other, List.mem_cons_of_mem field hother, hprefix⟩
    obtain hnone | ⟨v, hv, hpick⟩ := pick_eq content field
    · rw [hnone] at hx
      exact .inr hx
    · rw [hpick] at hx
      refine ((hpart.fits hcontent hv).lookup_write_inv hx hobject).imp_left fun hprefix ↦ ?_
      exact ⟨field, List.mem_cons_self, hprefix⟩

/-- Selections are exact, whichever fields overlap, and do not depend on order and repetition. -/
theorem exact_selection (hne : names ≠ []) (hroot : ∀ field ∈ names, field ≠ .root) :
    ExactSelection content names := by
  have hselect : content.select names = names.foldl content.pick (.obj []) :=
    select_eq_foldl hne hroot
  have hsame : ∀ others, (∀ field, field ∈ others ↔ field ∈ names) →
      content.select others = content.select names := by
    intro others hsame
    have hne' : others ≠ [] := by
      obtain ⟨field, hfield⟩ := List.exists_mem_of_ne_nil names hne
      exact List.ne_nil_of_mem ((hsame field).mpr hfield)
    rw [hselect, select_eq_foldl hne' fun field hfield ↦ hroot field ((hsame field).mp hfield)]
    exact (PartOf.empty content).foldl_pick_congr hcontent hsame
  refine ⟨?_, ?_, ?_, hsame, ?_⟩
  · intro before field after v _ hin hv
    exact set_foldl_pick hcontent before hin hv
  · intro field hmem hin
    rw [hselect]
    exact lookup_foldl_pick hcontent hmem hin
  · intro p v hv hobject
    rw [hselect] at hv
    obtain ⟨w, hw, heq | h⟩ := (PartOf.empty content).foldl_pick hcontent names p.tokens v hv
    · obtain hfield | hempty := lookup_foldl_pick_inv hcontent (.empty content) hv hobject
      · exact ⟨heq ▸ hw, hfield⟩
      · exact absurd (isObject_of_empty hempty) hobject
    · exact absurd h hobject
  · intro cap q normal hnormal hfields
    rw [Query.fields_of_normalize hnormal, hfields]
    exact hsame _ fun field ↦ mem_distinct

end Exact

theorem tags_and_nick_selected :
    let content : Json := .obj [("nick", .null), ("tags", .arr [.str "x", .str "y"])]
    let names : List Pointer := [⟨["tags", "01"]⟩, ⟨["nick", "first"]⟩, ⟨["tags"]⟩, ⟨["_id"]⟩]
    content.Orderly ∧ names ≠ [] ∧ (∀ field ∈ names, field ≠ .root) ∧
      ExactSelection content names := by
  intro content names
  have hcontent : content.Orderly := by
    refine .obj (by decide) (List.forall_mem_cons.mpr ⟨.null, List.forall_mem_singleton.mpr ?_⟩)
    exact .arr (List.forall_mem_cons.mpr ⟨.str "x", List.forall_mem_singleton.mpr (.str "y")⟩)
  have hne : names ≠ [] := by decide
  have hroot : ∀ field ∈ names, field ≠ .root := by decide
  exact ⟨hcontent, hne, hroot, exact_selection hcontent hne hroot⟩

end Selecting

end Json

end RecordService
