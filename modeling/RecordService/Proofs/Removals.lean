import RecordService.Proofs.PointerWrites

namespace RecordService

namespace Json

variable {value d v child : Json} {s t : String} {ts us way : List String} {items : List Json}
  {fields : Dict Json} {i : Nat}

section Steps

theorem take_of_step_none (h : d.step? t = none) (ts : List String) :
    take (t :: ts) d = (none, d) := by
  cases d with
  | obj fields =>
    have hget : Dict.get? t fields = none := h
    cases ts with
    | nil => rw [take, takeLast, hget, Dict.erase_of_get?_eq_none hget]
    | cons t' ts => simp [take, hget]
  | arr items =>
    cases hi : Text.index? t with
    | none => cases ts <;> simp [take, takeLast, hi]
    | some i =>
      have hitem : items[i]? = none := by
        rwa [step?, hi, Option.bind_some] at h
      have hlt : ¬ i < items.length := Nat.not_lt.mpr (List.getElem?_eq_none_iff.mp hitem)
      cases ts with
      | nil => simp [take, takeLast, hi, hlt]
      | cons t' ts => simp [take, hi, hitem]
  | _ => cases ts <;> rfl

theorem take_item (hi : Text.index? t = some i) (hitem : items[i]? = some v) :
    take [t] (.arr items) = (some v, .arr (items.eraseIdx i)) := by
  have hlt : i < items.length := (List.getElem?_eq_some_iff.mp hitem).1
  simp [take, takeLast, hi, hlt, ← hitem]

theorem take_below_field (hts : ts ≠ []) (hget : Dict.get? t fields = some v) :
    take (t :: ts) (.obj fields) =
      ((take ts v).1, .obj (Dict.modify t (fun _ ↦ (take ts v).2) fields)) := by
  cases ts with
  | nil => exact absurd rfl hts
  | cons t' ts => simp [take, hget]

theorem take_below_item (hts : ts ≠ []) (hi : Text.index? t = some i)
    (hitem : items[i]? = some v) :
    take (t :: ts) (.arr items) = ((take ts v).1, .arr (items.set i (take ts v).2)) := by
  cases ts with
  | nil => exact absurd rfl hts
  | cons t' ts => simp [take, hi, hitem]

inductive TakeStep (t : String) (ts : List String) : Json → Option Json × Json → Prop
  | missed {d : Json} : d.step? t = none → TakeStep t ts d (none, d)
  | field {fields : Dict Json} {v : Json} : ts = [] → Dict.get? t fields = some v →
      TakeStep t ts (.obj fields) (some v, .obj (Dict.erase t fields))
  | item {items : List Json} {i : Nat} {v : Json} : ts = [] → Text.index? t = some i →
      items[i]? = some v → TakeStep t ts (.arr items) (some v, .arr (items.eraseIdx i))
  | belowField {fields : Dict Json} {v : Json} : ts ≠ [] → Dict.get? t fields = some v →
      TakeStep t ts (.obj fields)
        ((take ts v).1, .obj (Dict.modify t (fun _ ↦ (take ts v).2) fields))
  | belowItem {items : List Json} {i : Nat} {v : Json} : ts ≠ [] → Text.index? t = some i →
      items[i]? = some v →
      TakeStep t ts (.arr items) ((take ts v).1, .arr (items.set i (take ts v).2))

theorem takeStep (t : String) (ts : List String) (d : Json) :
    TakeStep t ts d (take (t :: ts) d) := by
  cases hstep : d.step? t with
  | none =>
    rw [take_of_step_none hstep]
    exact .missed hstep
  | some v =>
    cases d with
    | obj fields =>
      have hget : Dict.get? t fields = some v := hstep
      by_cases hts : ts = []
      · subst hts
        rw [take, takeLast, hget]
        exact .field rfl hget
      · rw [take_below_field hts hget]
        exact .belowField hts hget
    | arr items =>
      obtain ⟨i, hi, hitem⟩ := Option.bind_eq_some_iff.mp hstep
      by_cases hts : ts = []
      · subst hts
        rw [take_item hi hitem]
        exact .item rfl hi hitem
      · rw [take_below_item hts hi hitem]
        exact .belowItem hts hi hitem
    | _ => cases hstep

end Steps

section Reading

/-- What is taken is what a look-up finds, though both find their way on their own. -/
theorem take_fst (hts : ts ≠ []) (d : Json) : (take ts d).1 = d.lookup? ts := by
  induction ts generalizing d with
  | nil => exact absurd rfl hts
  | cons t ts ih =>
    have hstep := takeStep t ts d
    generalize take (t :: ts) d = result at hstep
    cases hstep with
    | missed hnone => rw [lookup?, hnone, Option.bind_none]
    | field hts hget =>
      subst hts
      rw [lookup?, step?, hget, Option.bind_some, lookup?]
    | item hts hi hitem =>
      subst hts
      rw [lookup?, step?_item hi hitem, Option.bind_some, lookup?]
    | belowField hts hget => rw [ih hts, lookup?, step?, hget, Option.bind_some]
    | belowItem hts hi hitem => rw [ih hts, lookup?, step?_item hi hitem, Option.bind_some]

theorem take_of_missing (h : d.lookup? ts = none) : (take ts d).2 = d := by
  induction ts generalizing d with
  | nil => cases h
  | cons t ts ih =>
    have hstep := takeStep t ts d
    generalize take (t :: ts) d = result at hstep
    cases hstep with
    | missed => rfl
    | field hts hget =>
      subst hts
      rw [lookup?, step?, hget] at h
      cases h
    | item hts hi hitem =>
      subst hts
      rw [lookup?, step?_item hi hitem] at h
      cases h
    | @belowField fields v hts hget =>
      rw [lookup?, step?, hget] at h
      have hkept : ∀ w, Dict.get? t fields = some w → v = id w := by
        intro w hw
        exact Option.some_inj.mp (hget.symm.trans hw)
      rw [ih h, Dict.modify_congr hkept, Dict.modify_id]
    | @belowItem items i v hts hi hitem =>
      rw [lookup?, step?_item hi hitem] at h
      obtain ⟨hlt, hitem⟩ := List.getElem?_eq_some_iff.mp hitem
      rw [ih h, ← hitem, List.set_getElem_self]

theorem lookup?_append (d : Json) (way ts : List String) :
    d.lookup? (way ++ ts) = (d.lookup? way).bind (lookup? ts) := by
  induction way generalizing d with
  | nil => rfl
  | cons t way ih =>
    rw [List.cons_append, lookup?, lookup?]
    cases d.step? t with
    | none => rfl
    | some child => exact ih child

/-- A removal below a place that is there is a removal from what is there. -/
theorem take_below (h : d.lookup? way = some v) (hts : ts ≠ []) :
    (take (way ++ ts) d).2.lookup? way = some (take ts v).2 := by
  induction way generalizing d with
  | nil =>
    obtain rfl := Option.some_inj.mp h
    rfl
  | cons t way ih =>
    obtain ⟨child, hchild, h⟩ := lookup?_cons_eq_some.mp h
    have hway : way ++ ts ≠ [] := List.append_ne_nil_of_right_ne_nil way hts
    have hread := ih h
    rw [List.cons_append]
    cases d with
    | obj fields =>
      have hget : Dict.get? t fields = some child := hchild
      rw [take_below_field hway hget]
      refine lookup?_cons_eq_some.mpr ⟨_, ?_, hread⟩
      rw [step?, Dict.get?_modify_self, hget, Option.map_some]
    | arr items =>
      obtain ⟨i, hi, hitem⟩ := Option.bind_eq_some_iff.mp hchild
      rw [take_below_item hway hi hitem]
      exact lookup?_cons_eq_some.mpr ⟨_, step?_set hi hitem _, hread⟩
    | _ => cases hchild

/-- A container and what is left of it when a field or an item is gone; the items behind move up. -/
inductive Loses (t : String) : Json → Json → Prop
  | field (fields : Dict Json) : Loses t (.obj fields) (.obj (Dict.erase t fields))
  | item {items : List Json} {i : Nat} : Text.index? t = some i → i < items.length →
      Loses t (.arr items) (.arr (items.eraseIdx i))

theorem loses_of_lookup (h : d.lookup? (way ++ [t]) = some v) :
    ∃ before after, d.lookup? way = some before ∧
      (take (way ++ [t]) d).2.lookup? way = some after ∧ Loses t before after := by
  rw [lookup?_append] at h
  obtain ⟨before, hbefore, hv⟩ := Option.bind_eq_some_iff.mp h
  refine ⟨before, _, hbefore, take_below hbefore (List.cons_ne_nil t []), ?_⟩
  have hstep := takeStep t [] before
  generalize take [t] before = result at hstep
  cases hstep with
  | missed hnone =>
    rw [lookup?, hnone] at hv
    cases hv
  | field => exact .field _
  | item _ hi hitem => exact .item hi (List.getElem?_eq_some_iff.mp hitem).1
  | belowField hne => exact absurd rfl hne
  | belowItem hne => exact absurd rfl hne

end Reading

section Elsewhere

/-- The second way turns off the first where nothing moves: at another field of an object, in front
of the item that is taken, or at another item on the way to it. -/
inductive Spares : Json → List String → List String → Prop
  | field {fields : Dict Json} {s t : String} {ts us : List String} :
      s ≠ t → Spares (.obj fields) (s :: ts) (t :: us)
  | before {items : List Json} {i : Nat} {s t : String} {ts us : List String} :
      Text.index? s = some i → (∀ j ∈ Text.index? t, j < i) →
      Spares (.arr items) (s :: ts) (t :: us)
  | beside {items : List Json} {s t : String} {ts us : List String} :
      ts ≠ [] → Text.index? s ≠ Text.index? t → Spares (.arr items) (s :: ts) (t :: us)
  | along {d child : Json} {s t : String} {ts us : List String} :
      d.step? s = some child → d.SamePlace s t → Spares child ts us → Spares d (s :: ts) (t :: us)

theorem step?_take_field (hne : t ≠ s) (ts : List String) (fields : Dict Json) :
    (take (s :: ts) (.obj fields)).2.step? t = (obj fields).step? t := by
  have hstep := takeStep s ts (.obj fields)
  generalize take (s :: ts) (.obj fields) = result at hstep
  cases hstep with
  | missed => rfl
  | field => exact Dict.get?_erase_of_ne hne fields
  | belowField => exact Dict.get?_modify_of_ne hne _ fields

theorem step?_eraseIdx (h : ∀ j ∈ Text.index? t, j < i) :
    (arr (items.eraseIdx i)).step? t = (arr items).step? t := by
  rw [step?, step?]
  cases hj : Text.index? t with
  | none => rfl
  | some j =>
    rw [Option.bind_some, Option.bind_some]
    exact List.getElem?_eraseIdx_of_lt (h j hj)

theorem step?_take_before (hi : Text.index? s = some i) (h : ∀ j ∈ Text.index? t, j < i)
    (ts : List String) (items : List Json) :
    (take (s :: ts) (.arr items)).2.step? t = (arr items).step? t := by
  have hstep := takeStep s ts (.arr items)
  generalize take (s :: ts) (.arr items) = result at hstep
  cases hstep with
  | missed => rfl
  | item _ hi' =>
    obtain rfl := Option.some_inj.mp (hi.symm.trans hi')
    exact step?_eraseIdx h
  | belowItem _ hi' =>
    obtain rfl := Option.some_inj.mp (hi.symm.trans hi')
    exact step?_set_of_ne (fun ht ↦ Nat.lt_irrefl i (h i ht)) _

theorem step?_take_beside (hts : ts ≠ []) (hne : Text.index? s ≠ Text.index? t)
    (items : List Json) : (take (s :: ts) (.arr items)).2.step? t = (arr items).step? t := by
  have hstep := takeStep s ts (.arr items)
  generalize take (s :: ts) (.arr items) = result at hstep
  cases hstep with
  | missed => rfl
  | item hnil => exact absurd hnil hts
  | belowItem _ hi => exact step?_set_of_ne (fun ht ↦ hne (hi.trans ht.symm)) _

theorem Spares.lookup_take (h : Spares d ts us) : (take ts d).2.lookup? us = d.lookup? us := by
  induction h with
  | field hne => exact lookup?_cons_congr (step?_take_field hne.symm _ _) _
  | before hi hbefore => exact lookup?_cons_congr (step?_take_before hi hbefore _ _) _
  | beside hts hne => exact lookup?_cons_congr (step?_take_beside hts hne _) _
  | @along d child s t ts us hchild hplace hspares ih =>
    have hts : ts ≠ [] := by
      rintro rfl
      cases hspares
    cases d with
    | obj fields =>
      have hget : Dict.get? s fields = some child := hchild
      obtain rfl : s = t := hplace
      rw [take_below_field hts hget, lookup?, lookup?, step?, Dict.get?_modify_self, hchild, hget]
      exact ih
    | arr items =>
      obtain ⟨i, hi, hitem⟩ := Option.bind_eq_some_iff.mp hchild
      have ht := SamePlace.index hplace hi (List.getElem?_eq_some_iff.mp hitem).1
      rw [take_below_item hts hi hitem, lookup?, lookup?, step?_set ht hitem, step?_item ht hitem]
      exact ih
    | _ => cases hchild

end Elsewhere

section Restoring

/-- A field that is new to its object is written and taken away again. -/
theorem Orderly.take_write (hd : d.Orderly) (hway : d.lookup? way = some (.obj fields))
    (hnew : Dict.get? t fields = none) (value : Json) :
    take (way ++ [t]) (write value (way ++ [t]) d).1 = (some value, d) := by
  induction way generalizing d with
  | nil =>
    obtain rfl := Option.some_inj.mp hway
    rw [List.nil_append, write_cons_obj, take, takeLast, Dict.get?_insert_self, write]
    cases hd with
    | obj hsorted =>
      have hsame : Dict.erase t (Dict.insert t value fields) = fields :=
        hsorted.erase_insert hnew value
      rw [hsame]
  | cons s way ih =>
    obtain ⟨child, hchild, hway⟩ := lookup?_cons_eq_some.mp hway
    have hne : way ++ [t] ≠ [] := List.append_ne_nil_of_right_ne_nil way (List.cons_ne_nil t [])
    have hback := ih (hd.step hchild) hway
    rw [List.cons_append]
    cases hd with
    | @obj outer hsorted =>
      have hget : Dict.get? s outer = some child := hchild
      rw [write_cons_obj, hget, Option.getD_some,
        take_below_field hne (Dict.get?_insert_self s _ outer), hback, hsorted.modify_insert hget]
    | @arr items =>
      obtain ⟨i, hi, hitem⟩ := Option.bind_eq_some_iff.mp hchild
      obtain ⟨hlt, hitem'⟩ := List.getElem?_eq_some_iff.mp hitem
      rw [write_cons_arr hi hitem, take_below_item hne hi (List.getElem?_set_self hlt), hback,
        List.set_set, ← hitem', List.set_getElem_self]
    | _ => cases hchild

end Restoring

end Json

namespace Pointer

variable {p : Pointer} {d : Json}

structure Removes (p : Pointer) (d : Json) : Prop where
  root : p = .root → p.remove d = (none, d)
  found : p ≠ .root → (p.remove d).1 = p.get? d
  missing : p.get? d = none → (p.remove d).2 = d
  taken : ∀ (container : Pointer) (t : String) (v : Json), p = container.child t →
    p.get? d = some v → ∃ before after, container.get? d = some before ∧
      container.get? (p.remove d).2 = some after ∧ Json.Loses t before after
  elsewhere : ∀ q : Pointer, Json.Spares d p.tokens q.tokens → q.get? (p.remove d).2 = q.get? d
  restored : d.Orderly → ∀ (container : Pointer) (t : String) (fields : Dict Json) (value : Json),
    p = container.child t → container.get? d = some (.obj fields) → Dict.get? t fields = none →
      ∃ d', p.set d value = .ok d' ∧ p.remove d' = (some value, d)

/-- Removals, look-ups and writes agree on where a pointer leads, whatever the document. -/
theorem removes (p : Pointer) (d : Json) : p.Removes d where
  root := by
    rintro rfl
    rfl
  found hp := by
    have htokens : p.tokens ≠ [] := fun h ↦ hp (congrArg Pointer.mk h)
    exact Json.take_fst htokens d
  missing h := by
    by_cases htokens : p.tokens = []
    · rw [remove, htokens]
      rfl
    · exact Json.take_of_missing h
  taken := by
    rintro container t v rfl h
    exact Json.loses_of_lookup h
  elsewhere q h := h.lookup_take
  restored := by
    rintro hd container t fields value rfl hfields hnew
    obtain ⟨-, hdone⟩ := Json.write_below hfields value [t]
    exact ⟨_, set_of_done hdone, hd.take_write hfields hnew value⟩

theorem new_member_of_second_item :
    let d : Json := .obj [("a", .arr [.str "x", .obj [("b", .bool true)]]), ("c", .null)]
    let p : Pointer := ⟨["a", "01", "n"]⟩
    d.Orderly ∧ p.Removes d ∧ ∃ d', p.set d .null = .ok d' ∧ p.remove d' = (some .null, d) := by
  intro d p
  have hd : d.Orderly := by
    refine .obj (by decide) (List.forall_mem_cons.mpr ⟨.arr ?_, List.forall_mem_singleton.mpr .null⟩)
    refine List.forall_mem_cons.mpr ⟨.str "x", List.forall_mem_singleton.mpr (.obj (by decide) ?_)⟩
    exact List.forall_mem_singleton.mpr (.bool true)
  have hremoves := removes p d
  exact ⟨hd, hremoves, hremoves.restored hd ⟨["a", "01"]⟩ "n" [("b", .bool true)] .null rfl rfl rfl⟩

end Pointer

end RecordService
