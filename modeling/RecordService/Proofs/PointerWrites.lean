import RecordService.Proofs.Parts

namespace RecordService

namespace Json

variable {value d v child : Json} {s t : String} {ts us way : List String} {items : List Json}
  {fields : Dict Json}

/-- A write cannot go on at a token: there is nothing below the value, or no such item. -/
def Refuses (t : String) (below : List String) : Json → Prop
  | .bool _ | .num _ | .str _ => True
  | .arr items => (∀ i ∈ Text.index? t, items.length ≤ i) ∧ ¬ (t = "-" ∧ below = [])
  | .null | .obj _ => False

def Blocks (d : Json) (ts : List String) : Prop :=
  ∃ way t below v, ts = way ++ t :: below ∧ d.lookup? way = some v ∧ v.Refuses t below

inductive WriteStep (value : Json) (t : String) (ts : List String) : Json → Json × Bool → Prop
  | refused {d : Json} : d.Refuses t ts → WriteStep value t ts d (d, false)
  | appended {items : List Json} : t = "-" → ts = [] →
      WriteStep value t ts (.arr items) (.arr (items ++ [value]), true)
  | item {items : List Json} {i : Nat} {item : Json} : Text.index? t = some i →
      items[i]? = some item → WriteStep value t ts (.arr items)
        (.arr (items.set i (write value ts item).1), (write value ts item).2)
  | field {d : Json} {fields : Dict Json} : d.opened = .obj fields → WriteStep value t ts d
      (.obj (Dict.insert t (write value ts ((Dict.get? t fields).getD (.obj []))).1 fields),
        (write value ts ((Dict.get? t fields).getD (.obj []))).2)

section Steps

theorem write_of_refuses (h : d.Refuses t ts) (value : Json) :
    write value (t :: ts) d = (d, false) := by
  cases d with
  | null => exact h.elim
  | obj fields => exact h.elim
  | arr items =>
    obtain ⟨hindex, hdash⟩ := h
    cases hi : Text.index? t with
    | none =>
      cases ts with
      | nil =>
        have hne : t ≠ "-" := fun heq ↦ hdash ⟨heq, rfl⟩
        simp [write, writeLast, opened, hne, hi]
      | cons t' ts => simp [write, opened, hi]
    | some i =>
      have hlt : ¬ i < items.length := Nat.not_lt.mpr (hindex i hi)
      have hne : t ≠ "-" := by
        rintro rfl
        cases hi
      cases ts <;> simp [write, writeLast, opened, hne, hi, hlt]
  | _ => cases ts <;> rfl

theorem writeStep (value : Json) (t : String) (ts : List String) (d : Json) :
    WriteStep value t ts d (write value (t :: ts) d) := by
  cases d with
  | null =>
    have hopened : write value (t :: ts) .null = write value (t :: ts) (.obj []) := by
      cases ts <;> rfl
    rw [hopened, write_cons_obj]
    exact .field rfl
  | obj fields =>
    rw [write_cons_obj]
    exact .field rfl
  | arr items =>
    by_cases hdash : t = "-" ∧ ts = []
    · obtain ⟨rfl, rfl⟩ := hdash
      exact .appended rfl rfl
    · by_cases hfound : ∃ i item, Text.index? t = some i ∧ items[i]? = some item
      · obtain ⟨i, item, hi, hitem⟩ := hfound
        rw [write_cons_arr hi hitem]
        exact .item hi hitem
      · have hrefuses : (arr items).Refuses t ts := by
          refine ⟨fun i hi ↦ Nat.not_lt.mp fun hlt ↦ hfound ?_, hdash⟩
          exact ⟨i, items[i], hi, List.getElem?_eq_getElem hlt⟩
        rw [write_of_refuses hrefuses]
        exact .refused hrefuses
  | bool b =>
    rw [write_of_refuses (d := .bool b) trivial]
    exact .refused trivial
  | num n =>
    rw [write_of_refuses (d := .num n) trivial]
    exact .refused trivial
  | str s =>
    rw [write_of_refuses (d := .str s) trivial]
    exact .refused trivial

theorem step?_item {i : Nat} {item : Json} (hi : Text.index? t = some i)
    (hitem : items[i]? = some item) : (arr items).step? t = some item := by
  rw [step?, hi, Option.bind_some, hitem]

theorem step?_set {i : Nat} {item : Json} (hi : Text.index? t = some i)
    (hitem : items[i]? = some item) (v : Json) : (arr (items.set i v)).step? t = some v := by
  have hlt : i < items.length := (List.getElem?_eq_some_iff.mp hitem).1
  rw [step?, hi, Option.bind_some, List.getElem?_set_self hlt]

/-- A field that is not there counts as an empty object, as in an object that is made of null. -/
theorem step?_of_opened (h : d.opened = .obj fields) : d.step? t = Dict.get? t fields := by
  cases d with
  | null =>
    cases h
    rfl
  | obj fields' =>
    cases h
    rfl
  | _ => cases h

end Steps

section Blocking

theorem not_blocks_nil (d : Json) : ¬ d.Blocks [] := by
  rintro ⟨way, t, below, v, hts, -⟩
  exact List.append_ne_nil_of_right_ne_nil way (List.cons_ne_nil t below) hts.symm

theorem blocks_cons : d.Blocks (t :: ts) ↔
    d.Refuses t ts ∨ ∃ child, d.step? t = some child ∧ child.Blocks ts := by
  constructor
  · rintro ⟨way, t', below, v, hts, hv, hrefuses⟩
    cases way with
    | nil =>
      obtain ⟨rfl, rfl⟩ := List.cons.inj hts
      cases hv
      exact .inl hrefuses
    | cons s way =>
      obtain ⟨rfl, rfl⟩ := List.cons.inj hts
      obtain ⟨child, hstep, hv⟩ := lookup?_cons_eq_some.mp hv
      exact .inr ⟨child, hstep, way, t', below, v, rfl, hv, hrefuses⟩
  · rintro (hrefuses | ⟨child, hstep, way, t', below, v, rfl, hv, hrefuses⟩)
    · exact ⟨[], t, ts, d, rfl, rfl, hrefuses⟩
    · exact ⟨t :: way, t', below, v, rfl, lookup?_cons_eq_some.mpr ⟨child, hstep, hv⟩, hrefuses⟩

theorem not_blocks_empty (ts : List String) : ¬ (obj []).Blocks ts := by
  cases ts with
  | nil => exact not_blocks_nil _
  | cons t ts =>
    rw [blocks_cons]
    rintro (hrefuses | ⟨child, hstep, -⟩)
    · exact hrefuses
    · cases hstep

theorem write_done_iff (value : Json) (ts : List String) (d : Json) :
    (write value ts d).2 = true ↔ ¬ d.Blocks ts := by
  induction ts generalizing d with
  | nil => exact iff_of_true rfl (not_blocks_nil d)
  | cons t ts ih =>
    rw [blocks_cons]
    have hstep := writeStep value t ts d
    generalize write value (t :: ts) d = result at hstep
    cases hstep with
    | refused h => exact iff_of_false Bool.false_ne_true fun hnot ↦ hnot (.inl h)
    | appended ht hts =>
      refine iff_of_true rfl ?_
      subst ht
      rintro (hrefuses | ⟨child, hstep, -⟩)
      · exact hrefuses.2 ⟨rfl, hts⟩
      · cases hstep
    | @item items i item hi hitem =>
      have hlt : i < items.length := (List.getElem?_eq_some_iff.mp hitem).1
      rw [ih item, step?_item hi hitem]
      refine not_congr ⟨fun h ↦ .inr ⟨item, rfl, h⟩, ?_⟩
      rintro (hrefuses | ⟨child, hchild, h⟩)
      · exact absurd (hrefuses.1 i hi) (Nat.not_le.mpr hlt)
      · cases hchild
        exact h
    | @field d fields hopened =>
      have hrefuses : ¬ d.Refuses t ts := by
        intro h
        cases d <;> first | exact h | cases hopened
      rw [ih, step?_of_opened hopened]
      cases hget : Dict.get? t fields with
      | none =>
        refine iff_of_true (not_blocks_empty ts) ?_
        rintro (h | ⟨child, hchild, -⟩)
        · exact hrefuses h
        · cases hchild
      | some child =>
        refine not_congr ⟨fun h ↦ .inr ⟨child, rfl, h⟩, ?_⟩
        rintro (h | ⟨child', hchild, h⟩)
        · exact absurd h hrefuses
        · cases hchild
          exact h

/-- Objects are made on the way only where nothing can be refused any more. -/
theorem Orderly.write_refused (hd : d.Orderly) (h : d.Blocks ts) (value : Json) :
    write value ts d = (d, false) := by
  induction ts generalizing d with
  | nil => exact absurd h (not_blocks_nil d)
  | cons t ts ih =>
    obtain hrefuses | ⟨child, hstep, hchild⟩ := blocks_cons.mp h
    · exact write_of_refuses hrefuses value
    · have hsame := ih (hd.step hstep) hchild
      cases hd with
      | obj hsorted =>
        have hget : Dict.get? t _ = some child := hstep
        rw [write_cons_obj, hget, Option.getD_some, hsame, hsorted.insert_own hget]
      | arr =>
        obtain ⟨i, hi, hitem⟩ := Option.bind_eq_some_iff.mp hstep
        obtain ⟨hlt, hitem'⟩ := List.getElem?_eq_some_iff.mp hitem
        rw [write_cons_arr hi hitem, hsame, ← hitem', List.set_getElem_self]
      | _ => cases hstep

end Blocking

section Reading

/-- A write below a place that is there is a write to what is there. -/
theorem write_below (h : d.lookup? way = some v) (value : Json) (ts : List String) :
    (write value (way ++ ts) d).1.lookup? way = some (write value ts v).1 ∧
      (write value (way ++ ts) d).2 = (write value ts v).2 := by
  induction way generalizing d with
  | nil =>
    obtain rfl := Option.some_inj.mp h
    exact ⟨rfl, rfl⟩
  | cons t way ih =>
    obtain ⟨child, hstep, hchild⟩ := lookup?_cons_eq_some.mp h
    obtain ⟨hread, hdone⟩ := ih hchild
    rw [List.cons_append]
    cases d with
    | obj fields =>
      have hget : Dict.get? t fields = some child := hstep
      rw [write_cons_obj, hget, Option.getD_some]
      refine ⟨lookup?_cons_eq_some.mpr ⟨_, Dict.get?_insert_self t _ fields, hread⟩, hdone⟩
    | arr items =>
      obtain ⟨i, hi, hitem⟩ := Option.bind_eq_some_iff.mp hstep
      rw [write_cons_arr hi hitem]
      exact ⟨lookup?_cons_eq_some.mpr ⟨_, step?_set hi hitem _, hread⟩, hdone⟩
    | _ => cases hstep

def Appends (d : Json) (ts : List String) : Prop :=
  ∃ way items, ts = way ++ ["-"] ∧ d.lookup? way = some (.arr items)

theorem Appends.cons (hstep : d.step? t = some child) (h : child.Appends ts) :
    d.Appends (t :: ts) := by
  obtain ⟨way, items, rfl, hitems⟩ := h
  exact ⟨t :: way, items, rfl, lookup?_cons_eq_some.mpr ⟨child, hstep, hitems⟩⟩

theorem not_appends_empty (ts : List String) : ¬ (obj []).Appends ts := by
  rintro ⟨way, items, -, hitems⟩
  cases way <;> cases hitems

theorem lookup_write (hdone : (write value ts d).2 = true) (h : ¬ d.Appends ts) :
    (write value ts d).1.lookup? ts = some value := by
  induction ts generalizing d with
  | nil => rfl
  | cons t ts ih =>
    have hstep := writeStep value t ts d
    generalize write value (t :: ts) d = result at hstep hdone
    cases hstep with
    | refused => cases hdone
    | @appended items ht hts =>
      subst ht hts
      exact absurd ⟨[], items, rfl, rfl⟩ h
    | item hi hitem =>
      have hchild := ih hdone fun hchild ↦ h (hchild.cons (step?_item hi hitem))
      exact lookup?_cons_eq_some.mpr ⟨_, step?_set hi hitem _, hchild⟩
    | @field d fields hopened =>
      have hchild := ih hdone fun hchild ↦ by
        cases hget : Dict.get? t fields with
        | none =>
          rw [hget] at hchild
          exact not_appends_empty ts hchild
        | some child =>
          rw [hget] at hchild
          exact h (hchild.cons ((step?_of_opened hopened).trans hget))
      exact lookup?_cons_eq_some.mpr ⟨_, Dict.get?_insert_self t _ fields, hchild⟩

end Reading

section Elsewhere

def position (length : Nat) (t : String) : Option Nat :=
  if t = "-" then some length else Text.index? t

def SamePlace (s t : String) : Json → Prop
  | .arr items => position items.length s = position items.length t
  | _ => s = t

/-- The second way turns off the first: up to some place they lead to the same children of the same
values, and from there to different ones. What is not there counts as an empty object. -/
inductive Leaves : Json → List String → List String → Prop
  | apart {d : Json} {s t : String} {ts us : List String} :
      ¬ d.SamePlace s t → Leaves d (s :: ts) (t :: us)
  | along {d : Json} {s t : String} {ts us : List String} : d.SamePlace s t →
      Leaves ((d.step? s).getD (.obj [])) ts us → Leaves d (s :: ts) (t :: us)

theorem not_leaves_nil (us : List String) : ¬ Leaves d [] us := nofun

theorem lookup?_empty_of_leaves (h : Leaves d ts us) : (obj []).lookup? us = none := by
  cases h <;> rfl

theorem position_of_index {n i : Nat} (hi : Text.index? t = some i) : position n t = some i := by
  have hne : t ≠ "-" := by
    rintro rfl
    cases hi
  rw [position, if_neg hne, hi]

theorem samePlace_of_opened (h : d.opened = .obj fields) : d.SamePlace s t ↔ s = t := by
  cases d <;> first | exact .rfl | cases h

/-- The same place of an array holds the same item. -/
theorem SamePlace.index (h : (arr items).SamePlace s t) {i : Nat} (hi : Text.index? s = some i)
    (hlt : i < items.length) : Text.index? t = some i := by
  have hposition : position items.length t = some i := h.symm.trans (position_of_index hi)
  by_cases hdash : t = "-"
  · rw [position, if_pos hdash] at hposition
    exact absurd (Option.some_inj.mp hposition) (Nat.ne_of_gt hlt)
  · rwa [position, if_neg hdash] at hposition

theorem lookup?_cons_congr {d' : Json} (h : d'.step? t = d.step? t) (us : List String) :
    d'.lookup? (t :: us) = d.lookup? (t :: us) :=
  congrArg (fun child ↦ child.bind (lookup? us)) h

theorem step?_append_of_ne (h : ¬ (arr items).SamePlace "-" t) (v : Json) :
    (arr (items ++ [v])).step? t = (arr items).step? t := by
  rw [step?, step?]
  cases hi : Text.index? t with
  | none => rfl
  | some i =>
    have hne : items.length ≠ i := fun heq ↦ h (by rw [SamePlace, position_of_index hi, ← heq]; rfl)
    rw [Option.bind_some, Option.bind_some]
    rcases Nat.lt_or_gt_of_ne hne with hlt | hlt
    · rw [List.getElem?_eq_none (Nat.le_of_lt hlt), List.getElem?_eq_none]
      rw [List.length_append, List.length_singleton]
      exact hlt
    · rw [List.getElem?_append_left hlt]

theorem step?_set_of_ne {i : Nat} (h : Text.index? t ≠ some i) (v : Json) :
    (arr (items.set i v)).step? t = (arr items).step? t := by
  rw [step?, step?]
  cases hj : Text.index? t with
  | none => rfl
  | some j =>
    have hne : i ≠ j := fun heq ↦ h (hj.trans (congrArg some heq.symm))
    rw [Option.bind_some, Option.bind_some, List.getElem?_set_ne hne]

theorem Leaves.lookup_write (h : Leaves d ts us) (value : Json) :
    (write value ts d).1.lookup? us = d.lookup? us := by
  induction h with
  | @apart d s t ts us hplace =>
    have hstep := writeStep value s ts d
    generalize write value (s :: ts) d = result at hstep
    refine lookup?_cons_congr ?_ us
    cases hstep with
    | refused => rfl
    | appended hs =>
      subst hs
      exact step?_append_of_ne hplace value
    | item hi hitem =>
      refine step?_set_of_ne (fun ht ↦ hplace ?_) _
      exact (position_of_index hi).trans (position_of_index ht).symm
    | field hopened =>
      have hne : t ≠ s := fun heq ↦ hplace ((samePlace_of_opened hopened).mpr heq.symm)
      rw [step?_of_opened hopened]
      exact Dict.get?_insert_of_ne hne _ _
  | @along d s t ts us hplace hleaves ih =>
    have hstep := writeStep value s ts d
    generalize write value (s :: ts) d = result at hstep
    cases hstep with
    | refused => rfl
    | appended _ hts =>
      subst hts
      exact absurd hleaves (not_leaves_nil us)
    | @item items i item hi hitem =>
      have ht := SamePlace.index hplace hi (List.getElem?_eq_some_iff.mp hitem).1
      rw [step?_item hi hitem, Option.getD_some] at ih
      rw [lookup?, lookup?, step?_set ht hitem, step?_item ht hitem]
      exact ih
    | @field d fields hopened =>
      obtain rfl := (samePlace_of_opened hopened).mp hplace
      rw [step?_of_opened hopened] at ih hleaves
      have hget := Dict.get?_insert_self s
        (write value ts ((Dict.get? s fields).getD (.obj []))).1 fields
      rw [lookup?, lookup?, step?, hget, step?_of_opened hopened, Option.bind_some, ih]
      cases hchild : Dict.get? s fields with
      | none => exact lookup?_empty_of_leaves hleaves
      | some child => rfl

end Elsewhere

end Json

namespace Pointer

variable {p q : Pointer} {d value : Json}

/-- What a write through a pointer makes of a document and answers. -/
structure Updates (p : Pointer) (d value : Json) : Prop where
  refused_iff : (p.write d value).2 ≠ .ok () ↔ d.Blocks p.tokens
  /-- A write that is refused leaves nothing behind. -/
  refused : d.Blocks p.tokens → p.write d value = (d, .error (.invalidPointer p.text))
  read : (p.write d value).2 = .ok () → ¬ d.Appends p.tokens →
    p.get? (p.write d value).1 = some value
  appended : ∀ (container : Pointer) (items : List Json), p = container.child "-" →
    container.get? d = some (.arr items) → (p.write d value).2 = .ok () ∧
      container.get? (p.write d value).1 = some (.arr (items ++ [value]))
  elsewhere : ∀ q : Pointer, d.Leaves p.tokens q.tokens → q.get? (p.write d value).1 = q.get? d

theorem write_eq_ok : (p.write d value).2 = .ok () ↔ (Json.write value p.tokens d).2 = true := by
  rw [write]
  cases Json.write value p.tokens d with
  | mk d' done => cases done <;> simp

/-- A write is done as a whole or not at all, and changes only what its pointer leads to. -/
theorem write_all_or_nothing (hd : d.Orderly) (p : Pointer) (value : Json) : p.Updates d value where
  refused_iff := by
    rw [ne_eq, write_eq_ok, Json.write_done_iff, not_not]
  refused := by
    intro h
    rw [write, hd.write_refused h]
    rfl
  read := by
    intro hdone happends
    exact Json.lookup_write (write_eq_ok.mp hdone) happends
  appended := by
    rintro container items rfl hitems
    obtain ⟨hread, hdone⟩ := Json.write_below hitems value ["-"]
    exact ⟨write_eq_ok.mpr hdone, hread⟩
  elsewhere := by
    intro q hleaves
    exact hleaves.lookup_write value

theorem null_grown_in_array :
    let d : Json := .obj [("a", .arr [.str "x", .null]), ("b", .bool true)]
    d.Orderly ∧ Updates ⟨["a", "01", "c", "d"]⟩ d (.str "y") := by
  intro d
  have hd : d.Orderly := by
    refine .obj (by decide) (List.forall_mem_cons.mpr ⟨.arr ?_, ?_⟩)
    · exact List.forall_mem_cons.mpr ⟨.str "x", List.forall_mem_singleton.mpr .null⟩
    · exact List.forall_mem_singleton.mpr (.bool true)
  exact ⟨hd, write_all_or_nothing hd _ _⟩

end Pointer

end RecordService
