import RecordService.Proofs.Address
import RecordService.Proofs.Dictionaries
import RecordService.Proofs.Results

namespace RecordService

namespace Json

@[simp] theorem field?_obj (key : String) (fields : Dict Json) :
    (obj fields).field? key = Dict.get? key fields := rfl

theorem exists_obj_of_isObject {v : Json} (h : v.isObject) : ∃ fields, v = .obj fields := by
  cases v <;> simp_all [isObject]

theorem exists_obj_of_field? {key : String} {v w : Json} (h : v.field? key = some w) :
    ∃ fields, v = .obj fields := by
  cases v <;> simp_all [field?]

theorem lookup?_cons_eq_some {v w : Json} {t : String} {ts : List String} :
    v.lookup? (t :: ts) = some w ↔ ∃ child, v.step? t = some child ∧ child.lookup? ts = some w :=
  Option.bind_eq_some_iff

theorem field?_withoutEnvelope {key : String} (hid : key ≠ idField) (hrev : key ≠ revisionField)
    (v : Json) : v.withoutEnvelope.field? key = v.field? key := by
  cases v with
  | obj fields =>
    exact (Dict.get?_erase_of_ne hrev _).trans (Dict.get?_erase_of_ne hid fields)
  | _ => rfl

theorem isObject_withoutEnvelope (v : Json) : v.withoutEnvelope.isObject = v.isObject := by
  cases v <;> rfl

theorem write_cons_obj (value : Json) (t : String) (ts : List String) (fields : Dict Json) :
    write value (t :: ts) (.obj fields) =
      (.obj (Dict.insert t (write value ts ((Dict.get? t fields).getD (.obj []))).1 fields),
        (write value ts ((Dict.get? t fields).getD (.obj []))).2) := by
  cases ts <;> rfl

/-- A write below an item that is there is a write to this item. -/
theorem write_cons_arr {items : List Json} {t : String} {i : Nat} {item : Json}
    (hi : Text.index? t = some i) (hitem : items[i]? = some item) (value : Json)
    (ts : List String) :
    write value (t :: ts) (.arr items) =
      (.arr (items.set i (write value ts item).1), (write value ts item).2) := by
  cases ts with
  | nil =>
    have hne : t ≠ "-" := by
      rintro rfl
      cases hi
    have hlt : i < items.length := (List.getElem?_eq_some_iff.mp hitem).1
    simp [write, writeLast, opened, hne, hi, hlt]
  | cons t' ts => simp [write, opened, hi, hitem]

theorem write_below_str (value : Json) (t : String) (ts : List String) (s : String) :
    (write value (t :: ts) (.str s)).2 = false := by
  cases ts <;> rfl

def remove (ts : List String) (d : Json) : Json := (take ts d).2

theorem remove_below_str (t : String) (ts : List String) (s : String) :
    remove (t :: ts) (.str s) = .str s := by
  cases ts <;> rfl

theorem remove_below_obj (t t' : String) (ts : List String) (fields : Dict Json) :
    remove (t :: t' :: ts) (.obj fields) = .obj (Dict.modify t (remove (t' :: ts)) fields) := by
  cases hget : Dict.get? t fields with
  | none =>
    have hkept : Dict.modify t (remove (t' :: ts)) fields = fields :=
      (Dict.modify_congr (by simp [hget])).trans (Dict.modify_id t fields)
    simp [hkept, remove, take, hget]
  | some v =>
    have hchild : Dict.modify t (remove (t' :: ts)) fields =
        Dict.modify t (fun _ ↦ (take (t' :: ts) v).2) fields :=
      Dict.modify_congr (by simp [hget, remove])
    simp [hchild, remove, take, hget]

theorem remove_cons_obj (t : String) (ts : List String) (fields : Dict Json) :
    ∃ after, remove (t :: ts) (.obj fields) = .obj after ∧
      (∀ k, k ≠ t → Dict.get? k after = Dict.get? k fields) ∧
      (ts ≠ [] → Dict.get? t after = (Dict.get? t fields).map (remove ts)) := by
  cases ts with
  | nil => exact ⟨_, rfl, fun k hk ↦ Dict.get?_erase_of_ne hk fields, fun h ↦ absurd rfl h⟩
  | cons t' ts =>
    exact ⟨_, remove_below_obj t t' ts fields, fun k hk ↦ Dict.get?_modify_of_ne hk _ fields,
      fun _ ↦ Dict.get?_modify_self t _ fields⟩

end Json

theorem Pointer.set_of_done {p : Pointer} {d value : Json}
    (h : (Json.write value p.tokens d).2 = true) :
    p.set d value = .ok (Json.write value p.tokens d).1 := by
  rw [set, write]
  simp only [h, if_true]
  rfl

namespace Patch

variable {c : Change} {d d' : Json} {t t' : String} {ts : List String}

theorem setAt_eq_ok {field : Pointer} {value : Json} (h : setAt field d value = .ok d') :
    Json.write value field.tokens d = (d', true) := by
  rw [setAt_eq] at h
  have hset : field.set d value = .ok d' := orBadRequest_eq_ok.mp h
  cases hw : Json.write value field.tokens d with
  | mk after done =>
    cases done <;> simp [Pointer.set, Pointer.write, hw, Except.map] at hset
    rw [hset]

theorem Change.increment_eq {field : Pointer} {v value sum : Json} (hv : field.get? d = some v)
    (hsum : sum? v value = some sum) :
    Change.apply ⟨.increment, field, value⟩ d = setAt field d sum := by
  simp only [Change.apply, Change.write, hv, Option.getD_some, hsum, setAt]

theorem Change.increment_refused {field : Pointer} {v value : Json} (hv : field.get? d = some v)
    (hsum : sum? v value = none) :
    Change.apply ⟨.increment, field, value⟩ d = .error
      (.badRequest ("Cannot increment " ++ field.text ++ " by " ++ value.text)) := by
  simp only [Change.apply, Change.write, hv, Option.getD_some, hsum, written]
  rfl

/-- What a change may make of a document: a value is written at a field or behind its last item, or
the field is removed. -/
inductive Edit : List String → Json → Json → Prop
  | written {ts : List String} {d d' value : Json} :
      Json.write value ts d = (d', true) → Edit ts d d'
  | appended {ts : List String} {d d' value : Json} :
      Json.write value (ts ++ ["-"]) d = (d', true) → Edit ts d d'
  | removed {ts : List String} (d : Json) : ts ≠ [] → Edit ts d (Json.remove ts d)
  | kept {ts : List String} (d : Json) : Edit ts d d

theorem Change.edit (h : c.apply d = .ok d') : Edit c.field.tokens d d' := by
  unfold Change.apply Change.write at h
  cases hk : c.kind with
  | add =>
    simp only [hk] at h
    split at h
    · exact .appended (setAt_eq_ok h)
    · exact .written (setAt_eq_ok h)
  | replace =>
    simp only [hk] at h
    exact .written (setAt_eq_ok h)
  | remove =>
    simp only [hk] at h
    cases h
    by_cases hroot : c.field.tokens = []
    · rw [Pointer.remove, hroot]
      exact .kept d
    · exact .removed d hroot
  | increment =>
    simp only [hk] at h
    split at h
    · exact .written (setAt_eq_ok h)
    · cases h

/-- An edit below one field of an object keeps the other fields; what stands in that field is edited
in turn. -/
theorem Edit.obj {fields : Dict Json} (h : Edit (t :: ts) (.obj fields) d') :
    ∃ after, d' = .obj after ∧ (∀ k, k ≠ t → Dict.get? k after = Dict.get? k fields) ∧
      (ts ≠ [] → ∀ child, Dict.get? t fields = some child →
        ∃ child', Dict.get? t after = some child' ∧ Edit ts child child') := by
  cases h with
  | written hw =>
    rw [Json.write_cons_obj] at hw
    obtain ⟨rfl, hdone⟩ := Prod.mk.inj hw
    refine ⟨_, rfl, fun k hk ↦ Dict.get?_insert_of_ne hk _ fields, fun _ child hchild ↦ ?_⟩
    rw [hchild] at hdone ⊢
    exact ⟨_, Dict.get?_insert_self t _ fields, .written (Prod.ext rfl hdone)⟩
  | appended hw =>
    rw [List.cons_append, Json.write_cons_obj] at hw
    obtain ⟨rfl, hdone⟩ := Prod.mk.inj hw
    refine ⟨_, rfl, fun k hk ↦ Dict.get?_insert_of_ne hk _ fields, fun _ child hchild ↦ ?_⟩
    rw [hchild] at hdone ⊢
    exact ⟨_, Dict.get?_insert_self t _ fields, .appended (Prod.ext rfl hdone)⟩
  | removed =>
    obtain ⟨after, hafter, hframe, hchild⟩ := Json.remove_cons_obj t ts fields
    refine ⟨after, hafter, hframe, fun hts child h ↦ ⟨Json.remove ts child, ?_, .removed child hts⟩⟩
    rw [hchild hts, h, Option.map_some]
  | kept =>
    exact ⟨fields, rfl, fun _ _ ↦ rfl, fun _ child h ↦ ⟨child, h, .kept child⟩⟩

theorem Edit.below_str {s : String} (h : Edit (t :: ts) (.str s) d') : d' = .str s := by
  cases h with
  | written hw => exact absurd (congrArg Prod.snd hw) (by simp [Json.write_below_str])
  | appended hw => exact absurd (congrArg Prod.snd hw) (by simp [Json.write_below_str])
  | removed => exact Json.remove_below_str t ts s
  | kept => rfl

/-- What every change keeps, the whole patch keeps. -/
theorem apply_induction {Q : Json → Prop} {changes : List Change}
    (hstep : ∀ c ∈ changes, ∀ d d', Q d → c.apply d = .ok d' → Q d') (hd : Q d)
    (h : apply changes d = .ok d') : Q d' := by
  induction changes generalizing d with
  | nil =>
    cases h
    exact hd
  | cons c cs ih =>
    rw [apply_cons] at h
    obtain ⟨middle, hc, h⟩ := bind_eq_ok.mp h
    have hmiddle := hstep c List.mem_cons_self d middle hd hc
    exact ih (fun c' hc' ↦ hstep c' (List.mem_cons_of_mem c hc')) hmiddle h

end Patch

end RecordService
