import RecordService.Proofs.Search

namespace RecordService

namespace Sorting

open Std (TransCmp)

section Comparing

variable {α β : Type} {cmp cmp' : α → α → Ordering}

theorem transCmp_comap (h : TransCmp cmp) (f : β → α) : TransCmp fun a b ↦ cmp (f a) (f b) where
  eq_swap := h.eq_swap
  isLE_trans := h.isLE_trans

theorem transCmp_swap (h : TransCmp cmp) : TransCmp fun a b ↦ (cmp a b).swap where
  eq_swap := congrArg Ordering.swap h.eq_swap
  isLE_trans hab hbc := by
    rw [← h.eq_swap] at hab hbc ⊢
    exact h.isLE_trans hbc hab

def weight : Json → Int
  | .bool b => b.toNat
  | .num n => n.rank
  | _ => 0

def word : Json → String
  | .str s => s
  | _ => ""

theorem compareJson_eq (a b : Json) :
    compareJson a b =
      compareLex (compareLex (fun a b ↦ compare (kind a) (kind b))
        (fun a b ↦ compare (weight a) (weight b))) (fun a b ↦ compare (word a) (word b)) a b := by
  cases a <;> cases b <;> try rfl
  · rename_i x y
    cases x <;> cases y <;> rfl
  all_goals simp [compareLex, compareJson, kind, weight, word]

theorem transCmp_compareJson : TransCmp compareJson := by
  have hlex : TransCmp (compareLex (compareLex (fun a b ↦ compare (kind a) (kind b))
      (fun a b ↦ compare (weight a) (weight b))) (fun a b ↦ compare (word a) (word b))) := by
    have hkind : TransCmp fun a b ↦ compare (kind a) (kind b) :=
      transCmp_comap (inferInstanceAs (TransCmp fun a b : Nat ↦ compare a b)) kind
    have hweight : TransCmp fun a b ↦ compare (weight a) (weight b) :=
      transCmp_comap (inferInstanceAs (TransCmp fun a b : Int ↦ compare a b)) weight
    have hword : TransCmp fun a b ↦ compare (word a) (word b) :=
      transCmp_comap (inferInstanceAs (TransCmp fun a b : String ↦ compare a b)) word
    infer_instance
  rwa [← funext₂ compareJson_eq] at hlex

theorem transCmp_compareFound : TransCmp compareFound := by
  have hjson := transCmp_compareJson
  refine { eq_swap := fun {a b} ↦ ?_, isLE_trans := fun {a b c} hab hbc ↦ ?_ }
  · cases a <;> cases b <;> first | rfl | exact hjson.eq_swap
  · cases a with
    | none => cases c <;> rfl
    | some a =>
      cases b with
      | none => cases hab
      | some b =>
        cases c with
        | none => cases hbc
        | some c => exact hjson.isLE_trans hab hbc

theorem transCmp_compareBy (keys : List SortKey) : TransCmp (compareBy keys) := by
  induction keys with
  | nil => exact { eq_swap := rfl, isLE_trans := fun _ _ ↦ rfl }
  | cons key keys ih =>
    have hfound : TransCmp fun a b ↦ compareFound (key.field.get? a) (key.field.get? b) :=
      transCmp_comap transCmp_compareFound key.field.get?
    have hfirst : TransCmp fun a b ↦
        if key.descending then (compareFound (key.field.get? a) (key.field.get? b)).swap
        else compareFound (key.field.get? a) (key.field.get? b) := by
      cases key.descending with
      | false => exact hfound
      | true => exact transCmp_swap hfound
    exact inferInstanceAs (TransCmp (compareLex _ (compareBy keys)))

theorem compareBy_swap (keys : List SortKey) (a b : Json) :
    compareBy keys a b = (compareBy keys b a).swap := by
  have hcmp := transCmp_compareBy keys
  exact hcmp.eq_swap

theorem compareBy_self (keys : List SortKey) (a : Json) : compareBy keys a a = .eq := by
  have hswap := compareBy_swap keys a a
  cases hcmp : compareBy keys a a with
  | eq => rfl
  | lt => simp [hcmp] at hswap
  | gt => simp [hcmp] at hswap

end Comparing

section Stable

variable {α : Type} {le : α → α → Bool} {items sorted sorted' : List α}

def level (le : α → α → Bool) (a b : α) : Bool := le a b && le b a

/-- All items in order, those that are level as they stood before. -/
structure Stable (le : α → α → Bool) (items sorted : List α) : Prop where
  perm : sorted.Perm items
  ordered : sorted.Pairwise fun a b ↦ le a b
  kept : ∀ a, sorted.filter (level le a) = items.filter (level le a)

theorem Stable.filter (h : Stable le items sorted) (test : α → Bool) :
    Stable le (items.filter test) (sorted.filter test) where
  perm := h.perm.filter test
  ordered := h.ordered.sublist List.filter_sublist
  kept a := by
    rw [List.filter_comm, h.kept, List.filter_comm]

theorem eq_of_ordered (hrefl : ∀ a, le a a) (hperm : sorted.Perm sorted')
    (h : sorted.Pairwise fun a b ↦ le a b) (h' : sorted'.Pairwise fun a b ↦ le a b)
    (hkept : ∀ a, sorted.filter (level le a) = sorted'.filter (level le a)) :
    sorted = sorted' := by
  induction sorted generalizing sorted' with
  | nil => exact hperm.nil_eq
  | cons a as ih =>
    cases sorted' with
    | nil => exact absurd hperm.symm.nil_eq nofun
    | cons b bs =>
      obtain ⟨hfirst, hrest⟩ := List.pairwise_cons.mp h
      obtain ⟨hfirst', hrest'⟩ := List.pairwise_cons.mp h'
      -- Each of the two comes first in one list, so neither is behind the other.
      have hab : le a b := by
        obtain rfl | hmem := List.mem_cons.mp (hperm.mem_iff.mpr List.mem_cons_self)
        · exact hrefl b
        · exact hfirst b hmem
      have hba : le b a := by
        obtain rfl | hmem := List.mem_cons.mp (hperm.mem_iff.mp List.mem_cons_self)
        · exact hrefl a
        · exact hfirst' a hmem
      have hfilter := hkept a
      rw [List.filter_cons_of_pos (by simp [level, hrefl]),
        List.filter_cons_of_pos (by simp [level, hab, hba])] at hfilter
      obtain ⟨rfl, -⟩ := List.cons.inj hfilter
      refine congrArg (a :: ·) (ih hperm.cons_inv hrest hrest' fun c ↦ ?_)
      have hsame := hkept c
      cases hlevel : level le c a with
      | false => simpa [List.filter_cons, hlevel] using hsame
      | true => simpa [List.filter_cons, hlevel] using hsame

/-- There is only one way to sort items and keep those that are level as they stand. -/
theorem Stable.eq (hrefl : ∀ a, le a a) (h : Stable le items sorted)
    (h' : Stable le items sorted') : sorted = sorted' :=
  eq_of_ordered hrefl (h.perm.trans h'.perm.symm) h.ordered h'.ordered fun a ↦
    (h.kept a).trans (h'.kept a).symm

theorem stable_mergeSort (htrans : ∀ a b c, le a b → le b c → le a c)
    (htotal : ∀ a b, le a b || le b a) (items : List α) :
    Stable le items (items.mergeSort le) where
  perm := List.mergeSort_perm items le
  ordered := List.pairwise_mergeSort htrans htotal items
  kept a := by
    have hordered : (items.filter (level le a)).Pairwise fun b c ↦ le b c := by
      refine List.pairwise_of_forall_mem_list fun b hb c hc ↦ ?_
      obtain ⟨-, hb⟩ := List.mem_filter.mp hb
      obtain ⟨-, hc⟩ := List.mem_filter.mp hc
      rw [level, Bool.and_eq_true] at hb hc
      exact htrans b a c hb.2 hc.1
    have hsub := (List.sublist_mergeSort htrans htotal hordered List.filter_sublist).filter
      (level le a)
    rw [List.filter_filter] at hsub
    simp only [Bool.and_self] at hsub
    have hperm := (List.mergeSort_perm items le).filter (level le a)
    exact (hsub.eq_of_length hperm.length_eq.symm).symm

def comesBefore (document : α → Json) (keys : List SortKey) (a b : α) : Bool :=
  (compareBy keys (document a) (document b)).isLE

theorem stable_sortBy (document : α → Json) (keys : List SortKey) (items : List α) :
    Stable (comesBefore document keys) items (sortBy document keys items) := by
  have hcmp := transCmp_compareBy keys
  have htrans : ∀ a b c, comesBefore document keys a b → comesBefore document keys b c →
      comesBefore document keys a c := fun _ _ _ ↦ hcmp.isLE_trans
  have htotal : ∀ a b, comesBefore document keys a b || comesBefore document keys b a := by
    intro a b
    rw [comesBefore, comesBefore, compareBy_swap keys (document b)]
    cases compareBy keys (document a) (document b) <;> rfl
  exact stable_mergeSort htrans htotal items

/-- Whatever the documents hold, any two of them compare, the comparisons fit together, and so
items have one stable order, which sorting finds. -/
structure WellDefined (keys : List SortKey) : Prop where
  self : ∀ a, compareBy keys a a = .eq
  swapped : ∀ a b, compareBy keys a b = (compareBy keys b a).swap
  trans : ∀ a b c, compareBy keys a b ≠ .gt → compareBy keys b c ≠ .gt → compareBy keys a c ≠ .gt
  sorted_iff : ∀ {α : Type} (document : α → Json) (items sorted : List α),
    Stable (comesBefore document keys) items sorted ↔ sorted = sortBy document keys items

theorem well_defined (keys : List SortKey) : WellDefined keys where
  self := compareBy_self keys
  swapped := compareBy_swap keys
  trans a b c hab hbc := by
    have hcmp := transCmp_compareBy keys
    have hle : (compareBy keys a c).isLE :=
      hcmp.isLE_trans (Ordering.isLE_iff_ne_gt.mpr hab) (Ordering.isLE_iff_ne_gt.mpr hbc)
    exact Ordering.isLE_iff_ne_gt.mp hle
  sorted_iff document items sorted := by
    have hself : ∀ a, comesBefore document keys a a := by
      intro a
      rw [comesBefore, compareBy_self]
      rfl
    have hsorts := stable_sortBy document keys items
    constructor
    · intro h
      exact h.eq hself hsorts
    · intro h
      rw [h]
      exact hsorts

end Stable

end Sorting

/-- A search finds what is at or below a path and matches, by identifier; under one identifier it
comes as the store keeps it. -/
theorem Store.stable_matching (s : Store) (place : Path) (filter : Filter) :
    Sorting.Stable (fun a b ↦ decide (a.id ≤ b.id))
      (s.entries.filter fun e ↦ e.collection.startsWith place && filter.matches e.document)
      (s.matching place filter) := by
  have hsorted : Sorting.Stable (fun a b : Entry ↦ decide (a.id ≤ b.id))
      (s.entries.filter (·.collection.startsWith place)) (s.below place) := by
    refine Sorting.stable_mergeSort (fun a b c hab hbc ↦ ?_) (fun a b ↦ ?_) _
    · exact decide_eq_true (String.le_trans (of_decide_eq_true hab) (of_decide_eq_true hbc))
    · simpa using String.le_total a.id b.id
  have hfilter := hsorted.filter fun e ↦ filter.matches e.document
  rw [List.filter_filter] at hfilter
  simpa only [matching, Bool.and_comm] using hfilter

end RecordService
